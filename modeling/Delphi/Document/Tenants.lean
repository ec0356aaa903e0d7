/-
# Delphi.Document.Tenants -- tenants that share nothing

All tenants share the stores.  Even so a tenant's requests are answered as if it were
alone, whatever other tenants and their workers do: erase every other request and every
other tenant's data from a run, and a run of one tenant is left, with the same answers
in the same order (`tenant_alone`).

What a request calls is about its tenant (`Delphi.Document.TenantCalls`), and so is what
the workers of a tenant do (`uploadWorkers`).
-/
import Delphi.Document.TenantWorkers

namespace Delphi.Document

open Delphi.Theory
open Delphi.Auth (AuthContext)

set_option autoImplicit false

namespace HttpApi

/-! ## Runs -/

abbrev ApiRun := Config ApiPorts Stores HttpRequest Response

section Runs

variable {infra : Infra} {deployment : Deployment} {workers : Workers} {w₀ : Stores} {c : ApiRun}

/-- Records stay owned, and so are those that were read. -/
def keeping : Invariants ApiPorts Stores HttpRequest where
  inv := Stores.Owned
  input _ _ := True
  fact _ _ _ op answer := Tells op answer

theorem tellsPort_of_servesPort {w w' : Stores} {op : PortCall} {answer : op.Ans} (owned : w.Owned)
    (served : w.servesPort op answer w') : TellsPort op answer := by
  cases op with
  | kvEntry key =>
      obtain ⟨-, held | ⟨error, rfl⟩⟩ := served
      · subst held
        rcases found : w.records.entries key with _ | ⟨state, revision⟩ | revision
        · trivial
        · exact owned key state revision found
        · trivial
      · trivial
  | _ => trivial

theorem tells_of_serves {w w' : Stores} {op : ApiCall} {answer : op.Ans} (owned : w.Owned)
    (served : w.serves infra op answer w') : Tells op answer := by
  cases op with
  | list owner limit after => trivial
  | parts op =>
      cases op with
      | presignPart key upload part ttl => trivial
      | service op =>
          cases op with
          | port op => exact tellsPort_of_servesPort owned served
          | _ => trivial

theorem along_serve (deployment : Deployment) (httpRequest : HttpRequest) :
    Along (fun _ => Tells) (fun _ => Within httpRequest.auth.tenantId) (fun _ _ => True) []
      (httpRequest.serve deployment) :=
  (confined_serve deployment httpRequest).along []

theorem holds_of_run (owned : w₀.Owned)
    (reached : (documentApi infra deployment workers).Reaches System.anyStep ⟨w₀, []⟩ c) :
    keeping.Holds (documentApi infra deployment workers) c := by
  refine Invariants.holds_of_reaches owned (fun _ _ _ _ => trivial) ?_ ?_ reached
  · intro c n t op next answer w' holds found stands served _
    have knows := holds.tasks t (System.mem_of_found found)
    have effect := effect_of_serves (knows.issues (along_serve deployment t.input) stands) served
    exact ⟨⟨effect.owned holds.inv, fun _ known => known, fun _ _ _ _ known => known⟩,
      tells_of_serves holds.inv served⟩
  · rintro c w' holds ⟨tenant, acted⟩ _
    exact ⟨workers.owned acted holds.inv, fun _ known => known, fun _ _ _ _ known => known⟩

/-- The call a request stands at is about the tenant of its claims. -/
theorem within_of_stands {n : Nat} {t : Task ApiPorts HttpRequest Response} {op : ApiCall}
    {next : op.Ans → Program ApiPorts Response} (owned : w₀.Owned)
    (reached : (documentApi infra deployment workers).Reaches System.anyStep ⟨w₀, []⟩ c)
    (found : c.tasks[n]? = some t) (stands : t.rest = .call op next) :
    Within t.input.auth.tenantId op := by
  have knows := (holds_of_run owned reached).tasks t (System.mem_of_found found)
  exact knows.issues (along_serve deployment t.input) stands

/-- From records that are owned, any run of any requests: take away all requests but one
tenant's and all data but that tenant's, and what is left is a run of that tenant alone, its
requests answered the same.  All calls of a request are about the tenant of its claims. -/
theorem tenant_alone (owned : w₀.Owned)
    (reached : (documentApi infra deployment workers).Reaches System.anyStep ⟨w₀, []⟩ c)
    (tenant : String) :
    (aloneApi infra deployment workers tenant).Reaches System.anyStep ⟨w₀.ofTenant tenant, []⟩
      (System.erased (fun httpRequest => httpRequest.auth.tenantId = tenant)
        (Stores.ofTenant tenant) c) ∧
    ∀ t ∈ c.tasks, ∀ call ∈ t.trace, Within t.input.auth.tenantId call.1 := by
  constructor
  · refine System.Reaches.erase (M := documentApi infra deployment workers) (fun _ _ => rfl)
      ?_ ?_ ?_ ?_ reached
    · intro w httpRequest kept _
      have mine : httpRequest.auth.tenantId = tenant := of_decide_eq_true kept
      exact mine
    · intro c n t op next answer w' earlier found stands served kept m
      have within := within_of_stands owned earlier found stands
      rw [of_decide_eq_true kept] at within
      exact serves_ofTenant within served
    · intro c n t op next answer w' earlier found stands served erased
      have effect := effect_of_serves (within_of_stands owned earlier found stands) served
      exact .inr (idles_of_touches effect.touches (of_decide_eq_false erased))
    · rintro w w' ⟨acting, acted⟩
      by_cases mine : acting = tenant
      · subst mine
        exact .inl (workers.sliced acted)
      · exact .inr (idles_of_touches (workers.touches acted) mine)
  · rintro t mem ⟨op, answer⟩ called
    have knows := (holds_of_run owned reached).tasks t mem
    have along := along_serve deployment t.input
    obtain ⟨-, -, within⟩ := along.issued knows.resumes knows.facts called
    exact within

end Runs

namespace Sample

def workers : Workers := uploadWorkers (fun text => text) .verbatim

def infra : Infra := ⟨inferInstance, fun _ key upload part ttl =>
  ⟨part, key ++ "?" ++ upload, ttl⟩⟩

def deployment : Deployment := ⟨⟨1073741824, 20971520⟩, 900⟩

abbrev api := documentApi infra deployment workers

def caller (tenant user : String) : AuthContext := ⟨user, tenant, none, ["ingester"], user⟩

def fileOf (tenant user : String) : HttpRequest :=
  ⟨caller tenant user, .createUpload ⟨none, "report.pdf", 4096, none⟩⟩

/-- The id drawn next. -/
def nextId (w : Stores) : String := "upload-" ++ toString w.drawn.length

def answer (w : Stores) : (op : ApiCall) → op.Ans
  | .list _ _ _ => .ok []
  | .parts (.presignPart _ _ _ _) => .error ⟨.transient, ""⟩
  | .parts (.service (.port op)) => UploadBucket.answer w.records op
  | .parts (.service (.beginMultipart _ _)) => .ok "multipart"
  | .parts (.service (.createUpload _)) => .ok ()
  | .parts (.service (.deleteUpload _ _ _)) => .ok ()
  | .parts (.service (.getDocument _ _)) => .ok none
  | .parts (.service (.publishUploadCompleted _)) => .ok ()
  | .parts (.service .ulid) => nextId w

/-- Only what opening and reading an upload call is answered here. -/
def ready (w : Stores) : ApiCall → Bool
  | .parts (.service (.port (.kvEntry _))) => true
  | .parts (.service (.port .now)) => true
  | .parts (.service (.beginMultipart key _)) => (w.multiparts (key, "multipart")).isNone
  | .parts (.service (.createUpload state)) => (w.records.create state.ownKey state).isSome
  | .parts (.service .ulid) => decide (nextId w ∉ w.drawn)
  | _ => false

def next (w : Stores) : ApiCall → Stores
  | .parts (.service (.beginMultipart key _)) =>
      { w with multiparts := Function.update w.multiparts (key, "multipart") (some []) }
  | .parts (.service (.createUpload state)) =>
      { w with records := (w.records.create state.ownKey state).getD w.records }
  | .parts (.service .ulid) => { w with drawn := nextId w :: w.drawn }
  | _ => w

theorem lawfulService (w : Stores) (op : ServiceCall)
    (able : ready w (.parts (.service op)) = true) :
    w.servesService op (answer w (.parts (.service op))) (next w (.parts (.service op))) := by
  cases op with
  | port op =>
      cases op with
      | kvEntry key => exact ⟨rfl, .inl rfl⟩
      | now => rfl
      | _ => cases able
  | beginMultipart key contentType => exact ⟨Option.isNone_iff_eq_none.mp able, rfl⟩
  | createUpload state =>
      obtain ⟨records, created⟩ := Option.isSome_iff_exists.mp able
      have after :
          next w (.parts (.service (.createUpload state))) = { w with records := records } := by
        simp [next, created]
      rw [after]
      exact .landed (.ok ()) created
  | ulid => exact ⟨of_decide_eq_true able, rfl⟩
  | _ => cases able

theorem lawful (w : Stores) (op : ApiCall) (able : ready w op = true) :
    w.serves infra op (answer w op) (next w op) := by
  cases op with
  | parts op =>
      cases op with
      | service op => exact lawfulService w op able
      | presignPart key upload part ttl => cases able
  | list tenant limit after => cases able

def serving : api.Serving :=
  ⟨fun _ op w => answer w op, fun _ op w => next w op, fun _ op w => ready w op,
    fun _ op w able => lawful w op able⟩

def empty : Stores := ⟨.empty, fun _ => none, [], fun _ => none, [], []⟩

theorem owned_empty : empty.Owned := by
  intro key state revision entry
  cases entry

def starting : ApiRun :=
  ⟨empty, [api.started (fileOf "globex" "user-1"), api.started (fileOf "acme" "user-1"),
    api.started ⟨caller "acme" "user-1", .getUpload "upload-3"⟩]⟩

/-- Both tenants open an upload, call by call in turn. -/
def opened : ApiRun := [0, 1, 0, 1, 0, 1, 0, 1, 0, 1].foldl serving.serve starting

/-- The upload the first tenant has opened. -/
def filed : UploadState :=
  ⟨"globex", "user-1", "upload-2", "upload-0", .create, Keys.objectKey "globex" "upload-2",
    "multipart", "report.pdf", "application/octet-stream", 4096, 20971520, 1, .uploading, 0, 0⟩

def command : UploadCompleted :=
  DocumentService.uploadCompleted "globex" "user-1" "upload-2" filed ⟨none, .supersede, {}⟩

/-- A delivery of it has completed the multipart. -/
def assembled : Stores :=
  { opened.shared with
    multiparts := Function.update opened.shared.multiparts (filed.storageKey, "multipart") none }

def part : UploadedPart := ⟨1, "etag", 4096⟩

/-- What the delivery had heard before that. -/
def heard : Trace Ports :=
  [⟨.kvEntry command.recordKey, .ok (some (.put filed 1))⟩,
    ⟨.listParts filed.storageKey "multipart", .ok (some [part])⟩]

theorem works_assembled : workers.acts "globex" opened.shared assembled := by
  have told : Facts (fun _ op answer => TellsPort op answer) heard :=
    (@facts_snoc _ _ [_] _ _).mpr ⟨(@facts_snoc _ _ [] _ _).mpr ⟨facts_nil, rfl, rfl⟩, trivial⟩
  have served : opened.shared.servesDelivery (.completeMultipart filed.storageKey "multipart"
      (UploadFinisher.completedParts [part])) (.ok ()) assembled := .inr rfl
  have stands : (UploadFinisher.finish (fun text => text) command false).Resumes heard
      (.call (.completeMultipart filed.storageKey "multipart"
        (UploadFinisher.completedParts [part])) _) := .call (.call .start)
  exact .delivery ⟨rfl, by decide, rfl⟩ told stands served

/-- A worker of one tenant, and then the other reads its upload. -/
def finished : ApiRun := serving.serve ⟨assembled, opened.tasks⟩ 2

theorem reaches_finished : api.Reaches System.anyStep ⟨empty, []⟩ finished := by
  have first : api.Reaches System.anyStep ⟨empty, []⟩
      ⟨empty, [api.started (fileOf "globex" "user-1")]⟩ :=
    (System.Reaches.refl _).spawned _ trivial trivial
  have begun : api.Reaches System.anyStep ⟨empty, []⟩ starting :=
    (first.spawned _ trivial trivial).spawned _ trivial trivial
  have worked := (begun.served serving [0, 1, 0, 1, 0, 1, 0, 1, 0, 1]).disturbed _
    ⟨"globex", works_assembled⟩ trivial
  exact worked.served serving [2]

def statuses (c : ApiRun) : List (Option Nat) :=
  c.tasks.map fun t => t.rest.returned.map Response.status

/-- The upload that is read is the one the tenant opened, with and without the other tenant. -/
theorem tenant_alone_interleaved :
    statuses finished = [some 201, some 201, some 200] ∧
    statuses (System.erased (fun httpRequest => httpRequest.auth.tenantId = "acme")
      (Stores.ofTenant "acme") finished) = [some 201, some 200] ∧
    (aloneApi infra deployment workers "acme").Reaches System.anyStep ⟨empty.ofTenant "acme", []⟩
      (System.erased (fun httpRequest => httpRequest.auth.tenantId = "acme")
        (Stores.ofTenant "acme") finished) :=
  ⟨by decide +kernel, by decide +kernel,
    (tenant_alone owned_empty reaches_finished "acme").1⟩

end Sample

end HttpApi

end Delphi.Document
