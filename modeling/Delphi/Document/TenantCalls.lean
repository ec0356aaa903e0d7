/-
# Delphi.Document.TenantCalls -- the calls that are about one tenant

A request names keys, subjects and rows only under the tenant of its claims
(`confined_serve`, by the path logic: what it reads back it reads under such a key, and a
record read there names an object of the same tenant).  A call that names only what is a
tenant's is answered from that alone (`serves_ofTenant`), and what it does (`Effect`)
touches nothing else.
-/
import Delphi.Document.HttpApi

namespace Delphi.Document

open Delphi.Theory
open Delphi.Auth (AuthContext)
open DocumentService (PartsCall PartsPorts)

set_option autoImplicit false

namespace HttpApi

/-! ## Whose the calls are -/

section Confined

variable (tenant : String)

def TellsPort : (op : PortCall) → op.Ans → Prop
  | .kvEntry key, .ok (some (.put state _)) => Held key state
  | _, _ => True

def TellsService : (op : ServiceCall) → op.Ans → Prop
  | .port op, answer => TellsPort op answer
  | _, _ => True

def TellsParts : (op : PartsCall) → op.Ans → Prop
  | .service op, answer => TellsService op answer
  | _, _ => True

/-- What is known of an answer: a record read is held as it should be. -/
def Tells : (op : ApiCall) → op.Ans → Prop
  | .parts op, answer => TellsParts op answer
  | _, _ => True

def WithinPort : PortCall → Prop
  | .last owner _ => owner = tenant
  | .listParts key _ => objectTenant key = tenant
  | .abortMultipart key _ => objectTenant key = tenant
  | .kvEntry key => recordTenant key = tenant
  | .kvUpdate key state _ => recordTenant key = tenant ∧ Held key state
  | .now => True
  | _ => False

def WithinService : ServiceCall → Prop
  | .port op => WithinPort tenant op
  | .beginMultipart key _ => objectTenant key = tenant
  | .createUpload state => recordTenant state.ownKey = tenant ∧ Held state.ownKey state
  | .deleteUpload owner user uploadId => recordTenant (UploadState.key owner user uploadId) = tenant
  | .getDocument owner _ => owner = tenant
  | .publishUploadCompleted command => command.tenantId = tenant
  | .ulid => True

def WithinParts : PartsCall → Prop
  | .service op => WithinService tenant op
  | .presignPart key _ _ _ => objectTenant key = tenant

/-- The call is about what belongs to the tenant. -/
def Within : ApiCall → Prop
  | .parts op => WithinParts tenant op
  | .list owner _ _ => owner = tenant

variable {tenant} {α : Type} {Q : α → Prop}

theorem confined_viaPorts {p : Program Ports α}
    (confined : p.Confined TellsPort (WithinPort tenant) Q) :
    (viaPorts p).Confined TellsService (WithinService tenant) Q := by
  induction p with
  | ret value => exact confined
  | call op next ih => exact ⟨confined.1, fun a told => ih a (confined.2 a told)⟩

theorem confined_viaService {p : Program ServicePorts α}
    (confined : p.Confined TellsService (WithinService tenant) Q) :
    (DocumentService.viaService p).Confined TellsParts (WithinParts tenant) Q := by
  induction p with
  | ret value => exact confined
  | call op next ih => exact ⟨confined.1, fun a told => ih a (confined.2 a told)⟩

theorem confined_viaParts {p : Program PartsPorts α}
    (confined : p.Confined TellsParts (WithinParts tenant) Q) :
    (viaParts p).Confined Tells (Within tenant) Q := by
  induction p with
  | ret value => exact confined
  | call op next ih => exact ⟨confined.1, fun a told => ih a (confined.2 a told)⟩

theorem segment_append {front : String} (safe : '/' ∉ front.toList) (back : List Char) :
    segment (front.toList ++ '/' :: back) = front := by
  have kept : ∀ c ∈ front.toList, decide (c ≠ '/') = true := by
    intro c mem
    simpa using ne_of_mem_of_not_mem mem safe
  rw [segment, List.takeWhile_append_of_pos kept, List.takeWhile_cons_of_neg (by simp),
    List.append_nil, String.ofList_toList]

theorem recordTenant_key {owner : String} (safe : '/' ∉ owner.toList) (user uploadId : String) :
    recordTenant (UploadState.key owner user uploadId) = owner := by
  have split : (UploadState.key owner user uploadId).toList =
      owner.toList ++ '/' :: (user.toList ++ '/' :: uploadId.toList) := by
    simp [UploadState.key, String.toList_append]
  rw [recordTenant, split, segment_append safe]

theorem objectTenant_objectKey {owner : String} (safe : '/' ∉ owner.toList) (uploadId : String) :
    objectTenant (Keys.objectKey owner uploadId) = owner := by
  rw [objectTenant, Keys.toList_objectKey, List.drop_left, segment_append safe]

variable {owner user uploadId : String}

theorem confined_get (safe : '/' ∉ owner.toList) :
    (KvUploadStateStore.get owner user uploadId).Confined TellsPort (WithinPort owner)
      fun result => ∀ stored, result = .ok (some stored) →
        Held (UploadState.key owner user uploadId) stored.state := by
  refine .perform (recordTenant_key safe user uploadId) fun answer told => ?_
  rcases answer with (message | message) | _ | ⟨state, revision⟩ | revision
  · exact nofun
  · exact nofun
  · exact nofun
  · rintro _ ⟨⟩
    exact told
  · exact nofun

/-- A record that is loaded is the caller's, and so is its object. -/
theorem confined_load (safe : '/' ∉ owner.toList) :
    (Transition.load owner user uploadId).Confined TellsPort (WithinPort owner) fun result =>
      ∀ state, result = .ok (some state) → objectTenant state.storageKey = owner := by
  refine (confined_get safe).bind ?_
  rintro (error | _ | stored) held
  · exact nofun
  · exact nofun
  · dsimp only
    split
    · exact nofun
    · rename_i mine
      rintro _ ⟨⟩
      have same : stored.state.tenantId = owner := by
        by_contra other
        exact mine (.inr other)
      rw [(held stored rfl).2, same]
      exact objectTenant_objectKey safe _

theorem confined_update {state : UploadState} {revision : Nat}
    (mine : recordTenant state.ownKey = owner) (held : Held state.ownKey state) :
    (KvUploadStateStore.update state revision).Confined TellsPort (WithinPort owner)
      fun _ => True := by
  refine .perform ⟨mine, held⟩ fun answer _ => ?_
  rcases answer with (_ | message) | revision
  · refine .perform mine fun answer _ => ?_
    rcases answer with (message | message) | _ | ⟨state, revision⟩ | revision <;> trivial
  · trivial
  · trivial

/-- By induction on the attempts. -/
theorem confined_setStatusFrom (safe : '/' ∉ owner.toList) (status : UploadStatus)
    (now : Timestamp) (attempts : Nat) :
    (Transition.setStatusFrom owner user uploadId status now attempts).Confined TellsPort
      (WithinPort owner) fun _ => True := by
  induction attempts with
  | zero => trivial
  | succ attempts ih =>
      refine (confined_get safe).bind ?_
      rintro (error | _ | stored) held
      · trivial
      · trivial
      · dsimp only
        split
        · trivial
        · obtain ⟨own, object⟩ := held stored rfl
          have moved : Held (stored.state.withStatus status now).ownKey
              (stored.state.withStatus status now) := ⟨rfl, object⟩
          have mine : recordTenant (stored.state.withStatus status now).ownKey = owner :=
            (congrArg recordTenant own).trans (recordTenant_key safe user uploadId)
          refine (confined_update mine moved).bind ?_
          rintro (error | revision) -
          · cases error with
            | conflict => exact ih
            | expired => trivial
            | _ => trivial
          · trivial

end Confined

section Handlers

variable {principal : Principal}

theorem confined_loadContext (uploadId : String) :
    (DocumentService.loadContext principal.tenantId principal.userId uploadId).Confined TellsService
      (WithinService principal.tenantId) fun result =>
        ∀ context, result = .ok context → objectTenant context.storageKey = principal.tenantId := by
  have safe := principal.not_mem_tenantId (c := '/') (by decide)
  refine (confined_viaPorts (confined_load safe)).bind ?_
  rintro (error | _ | context) owned
  · exact nofun
  · exact nofun
  · rintro _ ⟨⟩
    exact owned _ rfl

theorem confined_resolveTarget (documentId : Option String) :
    (DocumentService.resolveTarget principal.tenantId documentId).Confined TellsService
      (WithinService principal.tenantId) fun _ => True := by
  cases documentId with
  | none => exact .perform trivial fun _ _ => trivial
  | some documentId =>
      have resolves : (DocumentService.resolveReplaceTarget principal.tenantId documentId).Confined
          TellsService (WithinService principal.tenantId) fun _ => True := by
        refine .perform rfl fun answer _ => ?_
        rcases answer with error | _ | head
        · trivial
        · trivial
        · refine .perform rfl fun answer _ => ?_
          rcases answer with error | _ | document
          · trivial
          · trivial
          · dsimp only
            split <;> trivial
      refine resolves.bind ?_
      rintro (error | _) - <;> trivial

theorem confined_preflight (policy : DocumentService.UploadPolicy)
    (preflightRequest : DocumentService.PreflightRequest) :
    (DocumentService.preflight policy principal.tenantId principal.userId preflightRequest).Confined
      TellsService (WithinService principal.tenantId) fun _ => True := by
  have safe := principal.not_mem_tenantId (c := '/') (by decide)
  unfold DocumentService.preflight
  dsimp only
  split
  · trivial
  split
  · trivial
  split
  · trivial
  split
  · trivial
  refine (confined_resolveTarget preflightRequest.documentId).bind ?_
  rintro (error | ⟨documentId, mode⟩) -
  · trivial
  refine .perform trivial fun uploadId _ => ?_
  refine .perform (objectTenant_objectKey safe uploadId) fun answer _ => ?_
  rcases answer with error | multipartUploadId
  · trivial
  refine .perform trivial fun now _ => ?_
  refine .perform ⟨recordTenant_key safe principal.userId uploadId, rfl, rfl⟩ fun answer _ => ?_
  rcases answer with error | _
  · refine .perform (recordTenant_key safe principal.userId uploadId) fun _ _ => ?_
    exact .perform (objectTenant_objectKey safe uploadId) fun _ _ => trivial
  · trivial

theorem confined_complete (uploadId : String) (completeRequest : DocumentService.CompleteRequest) :
    (DocumentService.complete principal.tenantId principal.userId uploadId completeRequest).Confined
      TellsService (WithinService principal.tenantId) fun _ => True := by
  have safe := principal.not_mem_tenantId (c := '/') (by decide)
  unfold DocumentService.complete
  split
  · trivial
  refine (confined_loadContext uploadId).bind ?_
  rintro (error | context) -
  · trivial
  dsimp only
  split
  · trivial
  refine .perform trivial fun _ _ => ?_
  refine .perform rfl fun answer _ => ?_
  rcases answer with error | _
  · trivial
  refine .perform trivial fun now _ => ?_
  refine (confined_viaPorts (confined_setStatusFrom safe .scanning now _)).bind ?_
  rintro (error | _) - <;> trivial

theorem confined_presignParts {context : UploadState}
    (owned : objectTenant context.storageKey = principal.tenantId) (ttl : Nat)
    (skip numbers : List Nat) :
    (DocumentService.presignParts context ttl skip numbers).Confined TellsParts
      (WithinParts principal.tenantId) fun _ => True := by
  induction numbers with
  | nil => trivial
  | cons number rest ih =>
      unfold DocumentService.presignParts
      split
      · exact ih
      · refine .perform owned fun answer _ => ?_
        rcases answer with error | part
        · trivial
        · refine ih.bind ?_
          rintro (error | parts) - <;> trivial

theorem confined_renew (ttl : Nat) (uploadId : String)
    (renewRequest : DocumentService.RenewRequest) :
    (DocumentService.renew ttl principal.tenantId principal.userId uploadId renewRequest).Confined
      TellsParts (WithinParts principal.tenantId) fun _ => True := by
  refine (confined_viaService (confined_loadContext uploadId)).bind ?_
  rintro (error | context) owned
  · trivial
  have own := owned context rfl
  have first : (DocumentService.renewFrom context renewRequest.fromPart).Confined TellsParts
      (WithinParts principal.tenantId) fun _ => True := by
    cases renewRequest.fromPart with
    | some fromPart =>
        dsimp only [DocumentService.renewFrom]
        split <;> trivial
    | none =>
        refine .perform own fun answer _ => ?_
        rcases answer with error | _ | uploaded <;> trivial
  refine first.bind ?_
  rintro (error | ⟨from_, skip⟩) -
  · trivial
  refine (confined_presignParts own ttl skip _).bind ?_
  rintro (error | parts) - <;> trivial

theorem confined_uploadedParts (uploadId : String) :
    (DocumentService.uploadedParts principal.tenantId principal.userId uploadId).Confined TellsParts
      (WithinParts principal.tenantId) fun _ => True := by
  refine (confined_viaService (confined_loadContext uploadId)).bind ?_
  rintro (error | context) owned
  · trivial
  refine .perform (owned context rfl) fun answer _ => ?_
  rcases answer with error | _ | uploaded <;> trivial

theorem confined_respond {α : Type} {program : Program ApiPorts (Except DocumentError α)}
    {success : α → Response} {P : ApiCall → Prop} {Q : Except DocumentError α → Prop}
    (confined : program.Confined Tells P Q) :
    (respond program success).Confined Tells P fun _ => True := by
  unfold respond
  refine confined.bind fun result _ => ?_
  cases result <;> exact trivial

theorem confined_viaApi {α : Type} {p : Program ServicePorts α}
    (confined : p.Confined TellsService (WithinService principal.tenantId) fun _ => True) :
    (viaApi p).Confined Tells (Within principal.tenantId) fun _ => True :=
  confined_viaParts (confined_viaService confined)

theorem confined_readDocument (documentId : String) :
    (readDocument principal.tenantId documentId).Confined TellsService
      (WithinService principal.tenantId) fun _ => True := by
  refine .perform rfl fun answer _ => ?_
  rcases answer with error | _ | document <;> trivial

theorem confined_readPage (limit : Nat) (after : Option DocumentCursor) :
    (readPage principal.tenantId limit after).Confined Tells (Within principal.tenantId)
      fun _ => True := by
  refine .perform rfl fun answer _ => ?_
  rcases answer with error | items <;> trivial

theorem confined_listDocuments (query : ListQuery) :
    (listDocuments principal query).Confined Tells (Within principal.tenantId) fun _ => True := by
  unfold listDocuments
  split
  · trivial
  · exact confined_respond (confined_readPage _ _)
  · exact confined_respond (confined_readPage _ _)

-- a goal about a handler must not run the checks on its input
attribute [local irreducible] DocumentService.preflight

/-- Whatever a handler calls is the tenant's of the principal it is given. -/
theorem confined_handle (deployment : Deployment) (route : Route) :
    (handle deployment principal route).Confined Tells (Within principal.tenantId)
      fun _ => True := by
  cases route with
  | createUpload body =>
      unfold handle createUpload
      exact confined_respond (confined_viaApi (confined_preflight _ _))
  | listUploadParts uploadId =>
      unfold handle listUploadParts
      exact confined_respond (confined_viaParts (confined_uploadedParts uploadId))
  | renewUpload uploadId body =>
      unfold handle renewUpload
      exact confined_respond (confined_viaParts (confined_renew _ uploadId _))
  | completeUpload uploadId body =>
      unfold handle completeUpload
      exact confined_respond (confined_viaApi (confined_complete uploadId _))
  | getUpload uploadId =>
      unfold handle getUpload
      exact confined_respond (confined_viaApi
        ((confined_loadContext uploadId).imp fun _ _ => trivial))
  | getDocument documentId =>
      unfold handle getDocument
      exact confined_respond (confined_viaApi (confined_readDocument documentId))
  | listDocuments query => exact confined_listDocuments query

theorem tenantId_of_principal {httpRequest : HttpRequest}
    (admitted : httpRequest.principal = .ok principal) :
    httpRequest.auth.tenantId = principal.tenantId := by
  have reads : authorizeRead httpRequest.auth = .ok principal := by
    unfold HttpRequest.principal authorize at admitted
    cases read : authorizeRead httpRequest.auth with
    | error error => simp [read] at admitted
    | ok reader =>
        rw [read] at admitted
        dsimp only at admitted
        split at admitted
        · split at admitted
          · exact admitted
          · cases admitted
        · exact admitted
  unfold authorizeRead at reads
  cases made : Principal.new httpRequest.auth.tenantId httpRequest.auth.userId with
  | error error => simp [made] at reads
  | ok caller =>
      obtain rfl : caller = principal := by simpa [made] using reads
      exact (Principal.new_eq_ok.mp made).1

/-- A request that is let in keeps to the tenant of its claims; any other makes no call. -/
theorem confined_serve (deployment : Deployment) (httpRequest : HttpRequest) :
    (httpRequest.serve deployment).Confined Tells (Within httpRequest.auth.tenantId)
      fun _ => True := by
  unfold HttpRequest.serve
  cases admitted : httpRequest.principal with
  | error error => trivial
  | ok principal =>
      rw [tenantId_of_principal admitted]
      exact confined_handle deployment httpRequest.route

end Handlers

/-! ## What a call of a tenant does -/

section Effects

variable {tenant : String} {w w' : Stores} {infra : Infra}

/-- What a call or a worker about a tenant can do to the stores. -/
inductive Effect (tenant : String) (w : Stores) : Stores → Prop where
  | nothing : Effect tenant w w
  | wrote {key : String} {state : UploadState} (mine : recordTenant key = tenant)
      (held : Held key state) : Effect tenant w { w with records := w.records.put key state }
  | purged {key : String} (mine : recordTenant key = tenant) :
      Effect tenant w { w with records := w.records.purge key }
  | multipart {key upload : String} (mine : objectTenant key = tenant)
      (parts : Option (List UploadedPart)) :
      Effect tenant w { w with multiparts := Function.update w.multiparts (key, upload) parts }
  | published {command : UploadCompleted} (mine : command.tenantId = tenant) :
      Effect tenant w { w with published := command :: w.published }
  | drew (id : String) : Effect tenant w { w with drawn := id :: w.drawn }
  | expired {key : String} (mine : recordTenant key = tenant) :
      Effect tenant w { w with records := w.records.expire key }
  | appended {key : StreamKey} (mine : key.1 = tenant) (head : Option (Nat × Nat)) :
      Effect tenant w { w with heads := Function.update w.heads key head }
  | projected (rows : List Row) (mine : ∀ other, other ≠ tenant →
      rows.filter (fun row => row.tenantId = other) =
        w.rows.filter fun row => row.tenantId = other) :
      Effect tenant w { w with rows := rows }

theorem effect_of_servesPort {op : PortCall} {answer : op.Ans} (within : WithinPort tenant op)
    (served : w.servesPort op answer w') : Effect tenant w w' := by
  cases op with
  | last owner documentId =>
      obtain ⟨rfl, -⟩ := served
      exact .nothing
  | listParts key upload =>
      obtain ⟨rfl, -⟩ := served
      exact .nothing
  | abortMultipart key upload =>
      rcases served with rfl | rfl
      · exact .nothing
      · exact .multipart within none
  | kvEntry key =>
      obtain ⟨rfl, -⟩ := served
      exact .nothing
  | kvUpdate key state revision =>
      obtain ⟨records, swaps, rfl⟩ := served
      rcases swaps.effect with rfl | rfl
      · exact .nothing
      · exact .wrote within.1 within.2
  | now =>
      obtain rfl := served
      exact .nothing
  | _ => exact within.elim

theorem effect_of_servesService {op : ServiceCall} {answer : op.Ans}
    (within : WithinService tenant op) (served : w.servesService op answer w') :
    Effect tenant w w' := by
  cases op with
  | port op => exact effect_of_servesPort within served
  | beginMultipart key contentType =>
      cases answer with
      | ok id =>
          obtain ⟨-, rfl⟩ := served
          exact .multipart within (some [])
      | error error =>
          obtain rfl := served
          exact .nothing
  | createUpload state =>
      cases served with
      | landed answer created =>
          obtain ⟨-, rfl⟩ := KvBucket.create_eq_some created
          exact .wrote within.1 within.2
      | refused error => exact .nothing
  | deleteUpload owner user uploadId =>
      rcases served with rfl | rfl
      · exact .nothing
      · exact .purged within
  | getDocument owner documentId =>
      obtain ⟨rfl, -⟩ := served
      exact .nothing
  | publishUploadCompleted command =>
      rcases served with rfl | rfl
      · exact .nothing
      · exact .published within
  | ulid =>
      obtain ⟨-, rfl⟩ := served
      exact .drew _

theorem effect_of_serves {op : ApiCall} {answer : op.Ans} (within : Within tenant op)
    (served : w.serves infra op answer w') : Effect tenant w w' := by
  cases op with
  | parts op =>
      cases op with
      | service op => exact effect_of_servesService within served
      | presignPart key upload part ttl =>
          obtain ⟨rfl, -⟩ := served
          exact .nothing
  | list owner limit after =>
      obtain ⟨rfl, -⟩ := served
      exact .nothing

theorem Effect.owned (effect : Effect tenant w w') (owned : w.Owned) : w'.Owned := by
  cases effect with
  | @wrote key state mine held =>
      intro other found revision entry
      by_cases same : other = key
      · subst same
        rw [KvBucket.put_entries_self] at entry
        cases entry
        exact held
      · rw [KvBucket.put_entries_of_ne _ _ same] at entry
        exact owned other found revision entry
  | @purged key mine =>
      intro other found revision entry
      by_cases same : other = key
      · subst same
        rw [KvBucket.purge_entries_self] at entry
        cases entry
      · rw [KvBucket.purge_entries_of_ne _ same] at entry
        exact owned other found revision entry
  | @expired key mine =>
      intro other found revision entry
      by_cases same : other = key
      · subst same
        rw [KvBucket.expire_entries_self] at entry
        cases entry
      · rw [KvBucket.expire_entries_of_ne _ same] at entry
        exact owned other found revision entry
  | _ => exact owned

theorem Effect.touches (effect : Effect tenant w w') : w.Touches tenant w' := by
  have refl : w.Touches tenant w := ⟨fun _ _ => rfl, le_refl _, fun _ _ => rfl, fun _ _ => rfl,
    fun _ _ => rfl, fun _ _ => rfl, fun _ mem => mem⟩
  cases effect with
  | nothing => exact refl
  | @wrote key state mine held =>
      refine { refl with records := fun other foreign => ?_, revision := Nat.le_succ _ }
      exact KvBucket.put_entries_of_ne _ _ fun same => foreign (same ▸ mine)
  | @purged key mine =>
      refine { refl with records := fun other foreign => ?_, revision := Nat.le_succ _ }
      exact KvBucket.purge_entries_of_ne _ fun same => foreign (same ▸ mine)
  | @multipart key upload mine parts =>
      refine { refl with multiparts := fun other foreign => ?_ }
      refine Function.update_of_ne (fun same => foreign ?_) _ _
      rw [same]
      exact mine
  | @published command mine =>
      refine { refl with published := fun other foreign => ?_ }
      exact List.filter_cons_of_neg (by simp [mine, Ne.symm foreign])
  | drew id => exact { refl with drawn := List.subset_cons_self id w.drawn }
  | @expired key mine =>
      refine { refl with records := fun other foreign => ?_ }
      exact KvBucket.expire_entries_of_ne _ fun same => foreign (same ▸ mine)
  | @appended key mine head =>
      refine { refl with heads := fun other foreign => ?_ }
      exact Function.update_of_ne (fun same => foreign ((congrArg Prod.fst same).trans mine)) _ _
  | projected rows mine => exact { refl with rows := mine }

/-- What one tenant's call or worker does is nothing to another. -/
theorem idles_of_touches {other : String} (touches : w.Touches other w')
    (foreign : other ≠ tenant) : (w.ofTenant tenant).Idles (w'.ofTenant tenant) := by
  refine ⟨touches.revision, touches.drawn, ?_⟩
  have apart {owner : String} (mine : owner = tenant) : owner ≠ other :=
    fun same => foreign (same.symm.trans mine)
  have records : (w'.ofTenant tenant).records.entries = (w.ofTenant tenant).records.entries :=
    KvBucket.only_congr fun key mine => touches.records key (apart (of_decide_eq_true mine))
  have heads : (w'.ofTenant tenant).heads = (w.ofTenant tenant).heads :=
    restrict_congr fun key mine => touches.heads key (apart mine)
  have multiparts : (w'.ofTenant tenant).multiparts = (w.ofTenant tenant).multiparts :=
    restrict_congr fun key mine => touches.multiparts key (apart mine)
  have rows : (w'.ofTenant tenant).rows = (w.ofTenant tenant).rows :=
    touches.rows tenant (Ne.symm foreign)
  have published : (w'.ofTenant tenant).published = (w.ofTenant tenant).published :=
    touches.published tenant (Ne.symm foreign)
  dsimp only
  rw [← heads, ← multiparts, ← rows, ← published, ← records]

end Effects

/-! ## A tenant's call over its own slice -/

section Slice

variable {tenant : String} {w w' : Stores} {infra : Infra}

theorem ofTenant_multipart {key upload : String} (mine : objectTenant key = tenant)
    (parts : Option (List UploadedPart)) :
    Stores.ofTenant tenant
        { w with multiparts := Function.update w.multiparts (key, upload) parts } =
      { w.ofTenant tenant with
        multiparts := Function.update (w.ofTenant tenant).multiparts (key, upload) parts } := by
  refine Stores.mk.injEq .. |>.mpr ⟨rfl, rfl, rfl, ?_, rfl, rfl⟩
  exact @restrict_update _ _ _ (fun other : String × String => objectTenant other.1 = tenant) _ _
    (key, upload) mine parts

theorem ofTenant_heads {key : StreamKey} (mine : key.1 = tenant) (head : Option (Nat × Nat)) :
    Stores.ofTenant tenant { w with heads := Function.update w.heads key head } =
      { w.ofTenant tenant with heads := Function.update (w.ofTenant tenant).heads key head } := by
  refine Stores.mk.injEq .. |>.mpr ⟨rfl, ?_, rfl, rfl, rfl, rfl⟩
  exact restrict_update (fun other : StreamKey => other.1 = tenant) mine head

theorem ofTenant_purge {key : String} (mine : isRecordOf tenant key = true) :
    Stores.ofTenant tenant { w with records := w.records.purge key } =
      { w.ofTenant tenant with records := (w.ofTenant tenant).records.purge key } :=
  Stores.mk.injEq .. |>.mpr
    ⟨KvBucket.only_purge mine, rfl, rfl, rfl, rfl, rfl⟩

theorem ofTenant_published {command : UploadCompleted} (mine : command.tenantId = tenant) :
    Stores.ofTenant tenant { w with published := command :: w.published } =
      { w.ofTenant tenant with published := command :: (w.ofTenant tenant).published } :=
  Stores.mk.injEq .. |>.mpr
    ⟨rfl, rfl, rfl, rfl, List.filter_cons_of_pos (decide_eq_true mine), rfl⟩

theorem swaps_only {keep : String → Bool} {records records' : UploadBucket} {key : String}
    {state : UploadState} {revision : Nat} {answer : Except UpdateError Nat}
    (kept : keep key = true) (swaps : UploadBucket.Swaps records key state revision answer records') :
    UploadBucket.Swaps (records.only keep) key state revision answer (records'.only keep) := by
  have goes (updated : records.update key state revision = some records') :
      (records.only keep).update key state revision = some (records'.only keep) := by
    rw [KvBucket.only_update kept, updated, Option.map_some]
  cases swaps with
  | swapped updated => exact .swapped (goes updated)
  | unacknowledged updated message => exact .unacknowledged (goes updated) message
  | refused error => exact .refused error

theorem create_ofTenant {records : UploadBucket} {state : UploadState}
    (mine : isRecordOf tenant state.ownKey = true)
    (created : w.records.create state.ownKey state = some records) :
    (w.ofTenant tenant).records.create state.ownKey state =
      some (records.only (isRecordOf tenant)) := by
  show (w.records.only (isRecordOf tenant)).create state.ownKey state = _
  rw [KvBucket.only_create mine, created, Option.map_some]

theorem find?_ofTenant (documentId : String) :
    ((w.ofTenant tenant).rows.find? fun row => row.key = (tenant, documentId)) =
      w.rows.find? fun row => row.key = (tenant, documentId) := by
  show List.find? _ (List.filter _ w.rows) = _
  rw [List.find?_filter]
  congr 1
  funext row
  by_cases same : row.key = (tenant, documentId)
  · have mine : row.tenantId = tenant := congrArg Prod.fst same
    simp [same, mine]
  · simp [same]

theorem list_ofTenant (collation : LinearOrder String) (limit : Nat)
    (after : Option DocumentCursor) :
    PgDocumentReadModel.list collation (w.ofTenant tenant).rows tenant limit after =
      PgDocumentReadModel.list collation w.rows tenant limit after := by
  unfold PgDocumentReadModel.list listBy
  congr 3
  show List.filter _ (List.filter _ w.rows) = _
  rw [List.filter_filter]
  congr 1
  funext row
  by_cases mine : row.tenantId = tenant <;> simp [mine]

theorem servesPort_ofTenant {op : PortCall} {answer : op.Ans} (within : WithinPort tenant op)
    (served : w.servesPort op answer w') :
    (w.ofTenant tenant).servesPort op answer (w'.ofTenant tenant) := by
  cases op with
  | last owner documentId =>
      obtain rfl : owner = tenant := within
      obtain ⟨rfl, answered⟩ := served
      refine ⟨rfl, ?_⟩
      rwa [show (w'.ofTenant owner).heads (owner, documentId) = w'.heads (owner, documentId) from
        if_pos rfl]
  | listParts key upload =>
      obtain ⟨rfl, answered⟩ := served
      refine ⟨rfl, ?_⟩
      rwa [show (w'.ofTenant tenant).multiparts (key, upload) = w'.multiparts (key, upload) from
        if_pos within]
  | abortMultipart key upload =>
      rcases served with rfl | rfl
      · exact .inl rfl
      · exact .inr (ofTenant_multipart within none)
  | kvEntry key =>
      obtain ⟨rfl, answered⟩ := served
      refine ⟨rfl, ?_⟩
      have mine : isRecordOf tenant key = true := decide_eq_true within
      rwa [show (w'.ofTenant tenant).records.entries key = w'.records.entries key from
        KvBucket.only_entries mine]
  | kvUpdate key state revision =>
      obtain ⟨records, swaps, rfl⟩ := served
      have mine : isRecordOf tenant key = true := decide_eq_true within.1
      exact ⟨records.only (isRecordOf tenant), swaps_only mine swaps, rfl⟩
  | now =>
      obtain rfl := served
      exact rfl
  | _ => exact within.elim

theorem servesService_ofTenant {op : ServiceCall} {answer : op.Ans}
    (within : WithinService tenant op) (served : w.servesService op answer w') :
    (w.ofTenant tenant).servesService op answer (w'.ofTenant tenant) := by
  cases op with
  | port op => exact servesPort_ofTenant within served
  | beginMultipart key contentType =>
      cases answer with
      | ok id =>
          obtain ⟨fresh, rfl⟩ := served
          exact ⟨(if_pos within).trans fresh, ofTenant_multipart within (some [])⟩
      | error error =>
          obtain rfl := served
          exact rfl
  | createUpload state =>
      cases served with
      | @landed records answer created =>
          have mine : isRecordOf tenant state.ownKey = true := decide_eq_true within.1
          exact .landed answer (create_ofTenant mine created)
      | refused error => exact .refused error
  | deleteUpload owner user uploadId =>
      rcases served with rfl | rfl
      · exact .inl rfl
      · have mine : isRecordOf tenant (UploadState.key owner user uploadId) = true :=
          decide_eq_true within
        exact .inr (ofTenant_purge mine)
  | getDocument owner documentId =>
      obtain rfl : owner = tenant := within
      obtain ⟨rfl, answered⟩ := served
      refine ⟨rfl, ?_⟩
      rwa [find?_ofTenant]
  | publishUploadCompleted command =>
      rcases served with rfl | rfl
      · exact .inl rfl
      · exact .inr (ofTenant_published within)
  | ulid =>
      obtain ⟨fresh, rfl⟩ := served
      exact ⟨fresh, rfl⟩

/-- What is the tenant's answers its calls, and has what they do done to it. -/
theorem serves_ofTenant {op : ApiCall} {answer : op.Ans} (within : Within tenant op)
    (served : w.serves infra op answer w') :
    (w.ofTenant tenant).serves infra op answer (w'.ofTenant tenant) := by
  cases op with
  | parts op =>
      cases op with
      | service op => exact servesService_ofTenant within served
      | presignPart key upload part ttl =>
          obtain ⟨rfl, signed⟩ := served
          exact ⟨rfl, signed⟩
  | list owner limit after =>
      obtain rfl : owner = tenant := within
      obtain ⟨rfl, answered⟩ := served
      refine ⟨rfl, ?_⟩
      rwa [list_ofTenant]

end Slice

end HttpApi

end Delphi.Document
