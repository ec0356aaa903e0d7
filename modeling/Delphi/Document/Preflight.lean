/-
# Delphi.Document.Preflight -- what a failed preflight leaves behind

Preflight opens a multipart and creates one record; when the create fails it
deletes the record of its upload id and aborts the multipart.  The delete does not
ask whose record that is.  Where the id is already in use the create fails because
a record is there, and the unwinding removes that one.

The stores around one call are a `UploadSite`: the record bucket, the open multiparts,
what the id generator and the read ports will answer, and which of the two writing
calls fails.  A call that fails may have had its effect all the same
(`Fault.landed`).  The cleanup calls succeed.

Poles: `preflight_deletes_another_upload` (an id in use, and the record lost).
-/
import Delphi.Document.Service
import Delphi.Theory.KvBucket

namespace Delphi.Document

open Delphi.Theory

set_option autoImplicit false

/-- A failing call: its error, and whether it took effect. -/
structure Fault (ε : Type) where
  error : ε
  landed : Bool

structure UploadSite where
  records : KvBucket UploadState
  /-- Open multiparts, the latest first: object key and multipart id. -/
  multiparts : List (String × String)
  ids : Nat → String
  drawn : Nat
  multipartId : String
  clock : Timestamp
  last : String → String → Except EventStoreError (Option (Nat × Nat))
  documents : String → String → Except ReadError (Option DocumentState)
  beginFault : Option (Fault BlobError)
  createFault : Option (Fault ContextError)

namespace UploadSite

def answer (site : UploadSite) : (op : ServiceCall) → op.Ans
  | .ulid => site.ids site.drawn
  | .beginMultipart _ _ =>
      match site.beginFault with
      | some fault => .error fault.error
      | none => .ok site.multipartId
  | .createUpload state =>
      match site.createFault with
      | some fault => .error fault.error
      | none => if (site.records.live state.ownKey).isSome then .error .alreadyExists else .ok ()
  | .deleteUpload _ _ _ => .ok ()
  | .getDocument tenant documentId => site.documents tenant documentId
  | .publishUploadCompleted _ => .error (.unavailable "not served")
  | .port (.last tenant documentId) => site.last tenant documentId
  | .port .now => site.clock
  | .port (.abortMultipart _ _) => .ok ()
  | .port op => op.outage "not served"

def after (site : UploadSite) : ServiceCall → UploadSite
  | .ulid => { site with drawn := site.drawn + 1 }
  | .beginMultipart key _ =>
      if site.beginFault.all Fault.landed then
        { site with multiparts := (key, site.multipartId) :: site.multiparts }
      else site
  | .createUpload state =>
      if site.createFault.all Fault.landed then
        { site with records := (site.records.create state.ownKey state).getD site.records }
      else site
  | .deleteUpload tenant user uploadId =>
      { site with records := site.records.purge (UploadState.key tenant user uploadId) }
  | .port (.abortMultipart key upload) =>
      { site with multiparts := site.multiparts.erase (key, upload) }
  | _ => site

def run {α : Type} (site : UploadSite) (program : Program ServicePorts α) : UploadSite × α :=
  Program.exec (S := ServicePorts) answer after site program

@[simp] theorem run_ret {α : Type} (site : UploadSite) (value : α) :
    site.run (.ret value) = (site, value) := rfl

@[simp] theorem run_request {α : Type} (site : UploadSite) (op : ServiceCall)
    (next : op.Ans → Program ServicePorts α) :
    site.run (request op >>= next) = (site.after op).run (next (site.answer op)) := rfl

theorem run_bind {α β : Type} (site : UploadSite) (program : Program ServicePorts α)
    (next : α → Program ServicePorts β) :
    site.run (program >>= next) = (site.run program).1.run (next (site.run program).2) :=
  Program.exec_bind (S := ServicePorts) _ _ program next site

/-! ## Traces -/

/-- Every record that was there is still stored as it was, no other is, and the same
multiparts are open. -/
structure NoTrace (before after : UploadSite) : Prop where
  kept : ∀ key value revision, before.records.entries key = some (.put value revision) →
    after.records.entries key = some (.put value revision)
  added : ∀ key, before.records.live key = none → after.records.live key = none
  multiparts : after.multiparts = before.multiparts

theorem NoTrace.of_same {before after : UploadSite} (records : after.records = before.records)
    (multiparts : after.multiparts = before.multiparts) : NoTrace before after where
  kept := by
    intro key value revision held
    rw [records]
    exact held
  added := by
    intro key vacant
    rw [records]
    exact vacant
  multiparts := multiparts

/-- The purge of the unwinding leaves no trace exactly if nothing was stored under its key. -/
theorem noTrace_purge_iff {before after : UploadSite} {key : String}
    {written : KvBucket UploadState}
    (elsewhere : ∀ other, other ≠ key → written.entries other = before.records.entries other)
    (records : after.records = written.purge key)
    (multiparts : after.multiparts = before.multiparts) :
    NoTrace before after ↔ before.records.live key = none := by
  have away : ∀ other, other ≠ key →
      after.records.entries other = before.records.entries other := by
    intro other ne
    rw [records, KvBucket.purge_entries_of_ne _ ne, elsewhere other ne]
  have gone : after.records.entries key = some (.marker (written.lastRevision + 1)) := by
    rw [records, KvBucket.purge_entries_self]
  constructor
  · intro none_
    by_contra held
    obtain ⟨value, found⟩ := Option.ne_none_iff_exists'.mp held
    obtain ⟨revision, stored⟩ := KvBucket.live_eq_some.mp found
    have still := none_.kept key value revision stored
    rw [gone] at still
    cases still
  · intro vacant
    refine ⟨?_, ?_, multiparts⟩
    · intro other value revision stored
      rw [away other ?_, stored]
      rintro rfl
      rw [KvBucket.live_eq_some.mpr ⟨revision, stored⟩] at vacant
      cases vacant
    · intro other absent
      by_cases same : other = key
      · subst same
        unfold KvBucket.live
        rw [gone]
      · unfold KvBucket.live
        rw [away other same]
        exact absent

end UploadSite

/-! ## Opening an upload -/

namespace DocumentService

open UploadSite

/-- What disturbs the stores although preflight returns an error: a multipart that was
opened by a call that failed, or an upload id in use. -/
def Disturbed (site : UploadSite) (tenantId userId : String) : Prop :=
  match site.beginFault with
  | some fault => fault.landed = true
  | none => site.records.live (UploadState.key tenantId userId (site.ids site.drawn)) ≠ none

section

variable {tenantId userId documentId : String} {mode : UploadMode}
  {filename contentType : String} {size partSize partsTotal : Nat}

/-- The create failed: what it may have written is purged, and the multipart aborted. -/
theorem run_unwindPreflight (site : UploadSite) (state : UploadState) :
    site.run (unwindPreflight state) =
      ({ site with
        records := site.records.purge state.ownKey
        multiparts := site.multiparts.erase (state.storageKey, state.multipartUploadId) }, ()) :=
  rfl

theorem run_openUpload_refused {site : UploadSite} {fault : Fault BlobError}
    (begun : site.beginFault = some fault) :
    ∃ error, site.run (openUpload tenantId userId documentId mode filename contentType size
        partSize partsTotal) =
      ({ site with
        drawn := site.drawn + 1
        multiparts :=
          if fault.landed then
            (Keys.objectKey tenantId (site.ids site.drawn), site.multipartId) :: site.multiparts
          else site.multiparts }, .error error) := by
  unfold openUpload
  refine ⟨.internalIn "begin multipart" fault.error.display, ?_⟩
  rw [run_request, run_request]
  simp only [UploadSite.answer, UploadSite.after, begun, Option.all_some]
  cases fault.landed <;> rfl

/-- The site with the multipart open. -/
def opened (site : UploadSite) (tenantId : String) : UploadSite :=
  { site with
    drawn := site.drawn + 1
    multiparts :=
      (Keys.objectKey tenantId (site.ids site.drawn), site.multipartId) :: site.multiparts }

theorem run_openUpload_begun {site : UploadSite} (begun : site.beginFault = none) :
    ∃ state response, state.ownKey = UploadState.key tenantId userId (site.ids site.drawn) ∧
      (state.storageKey, state.multipartUploadId)
        = (Keys.objectKey tenantId (site.ids site.drawn), site.multipartId) ∧
      site.run (openUpload tenantId userId documentId mode filename contentType size partSize
          partsTotal) =
        match (opened site tenantId).answer (.createUpload state) with
        | .ok () => ((opened site tenantId).after (.createUpload state), .ok response)
        | .error error =>
            ((((opened site tenantId).after (.createUpload state)).run (unwindPreflight state)).1,
              .error (.ofContextError error)) := by
  refine ⟨uploadRecord tenantId userId (site.ids site.drawn) documentId mode site.multipartId
    filename contentType size partSize partsTotal site.clock,
    ⟨site.ids site.drawn, documentId, Keys.objectKey tenantId (site.ids site.drawn), partSize,
      partsTotal⟩, rfl, rfl, ?_⟩
  have ulid : site.answer .ulid = site.ids site.drawn := rfl
  have begins : (site.after .ulid).answer (.beginMultipart
      (Keys.objectKey tenantId (site.ids site.drawn)) contentType) = .ok site.multipartId := by
    simp only [UploadSite.answer, UploadSite.after, begun]
  have reached : (site.after .ulid).after (.beginMultipart
      (Keys.objectKey tenantId (site.ids site.drawn)) contentType) = opened site tenantId := by
    simp only [UploadSite.after, begun, opened]
    rfl
  unfold openUpload
  rw [run_request, run_request, ulid, begins, reached]
  dsimp only
  rw [run_request, run_request]
  have clock : (opened site tenantId).answer (.port .now) = site.clock := rfl
  have still : (opened site tenantId).after (.port .now) = opened site tenantId := rfl
  rw [clock, still]
  cases (opened site tenantId).answer (.createUpload (uploadRecord tenantId userId
      (site.ids site.drawn) documentId mode site.multipartId filename contentType size partSize
      partsTotal site.clock)) with
  | ok done => rfl
  | error error => rfl

/-- What a create leaves away from its own key. -/
theorem after_createUpload (site : UploadSite) (state : UploadState) :
    ∃ written, site.after (.createUpload state) = { site with records := written } ∧
      ∀ other, other ≠ state.ownKey → written.entries other = site.records.entries other := by
  by_cases landed : site.createFault.all Fault.landed = true
  · refine ⟨(site.records.create state.ownKey state).getD site.records, if_pos landed, ?_⟩
    intro other ne
    unfold KvBucket.create
    split
    case h_1 => rfl
    case h_2 => exact KvBucket.put_entries_of_ne _ _ ne
  · exact ⟨site.records, if_neg landed, fun _ _ => rfl⟩

/-- A create that succeeds found the key vacant. -/
theorem vacant_of_created {site : UploadSite} {state : UploadState} {done : Unit}
    (created : (opened site tenantId).answer (.createUpload state) = .ok done) :
    site.records.live state.ownKey = none := by
  by_contra held
  have occupied : (site.records.live state.ownKey).isSome = true := by
    simpa [Option.isSome_iff_ne_none] using held
  simp only [UploadSite.answer, opened, occupied, if_pos] at created
  split at created <;> cases created

theorem unwound_no_trace_iff {site : UploadSite} {state : UploadState}
    (own : (state.storageKey, state.multipartUploadId)
      = (Keys.objectKey tenantId (site.ids site.drawn), site.multipartId)) :
    NoTrace site (((opened site tenantId).after (.createUpload state)).run
        (unwindPreflight state)).1 ↔ site.records.live state.ownKey = none := by
  obtain ⟨written, created, elsewhere⟩ := after_createUpload (opened site tenantId) state
  rw [created, run_unwindPreflight]
  have cleared : ((Keys.objectKey tenantId (site.ids site.drawn), site.multipartId) ::
      site.multiparts).erase (state.storageKey, state.multipartUploadId) = site.multiparts := by
    rw [own, List.erase_cons_head]
  exact noTrace_purge_iff elsewhere rfl cleared

/-- Once a request is admitted, an error leaves no trace exactly if nothing disturbs the
stores. -/
theorem openUpload_no_trace_iff (site : UploadSite) :
    ((∃ error, (site.run (openUpload tenantId userId documentId mode filename contentType size
        partSize partsTotal)).2 = .error error) →
      NoTrace site (site.run (openUpload tenantId userId documentId mode filename contentType
        size partSize partsTotal)).1) ↔ ¬ Disturbed site tenantId userId := by
  unfold Disturbed
  cases begun : site.beginFault with
  | some fault =>
      obtain ⟨error, run⟩ := run_openUpload_refused begun
      rw [run]
      by_cases landed : fault.landed = true
      · simp only [landed, not_true_eq_false, iff_false]
        intro none_
        have multiparts := (none_ ⟨error, rfl⟩).multiparts
        simp at multiparts
      · simp only [landed]
        exact iff_of_true (fun _ => NoTrace.of_same rfl rfl) (by decide)
  | none =>
      obtain ⟨state, response, key, own, run⟩ := run_openUpload_begun begun
      rw [run, ← key, not_not]
      cases created : (opened site tenantId).answer (.createUpload state) with
      | ok done =>
          refine iff_of_true ?_ (vacant_of_created created)
          rintro ⟨error, ⟨⟩⟩
      | error error =>
          rw [← unwound_no_trace_iff own]
          exact ⟨fun none_ => none_ ⟨_, rfl⟩, fun none_ _ => none_⟩

end

/-! ## From the request to the multipart -/

/-- The site once the target of a request is known: a create has drawn its document id. -/
def targeted (site : UploadSite) : Option String → UploadSite
  | some _ => site
  | none => { site with drawn := site.drawn + 1 }

/-- The document of the request can be written: it is new, or known and not deleted. -/
def Resolves (site : UploadSite) (tenantId : String) : Option String → Prop
  | none => True
  | some documentId =>
      (∃ head, site.last tenantId documentId = .ok (some head)) ∧
      ∃ document, site.documents tenantId documentId = .ok document ∧
        ∀ state ∈ document, state.state ≠ .deleted

/-- Nothing keeps a request from its multipart. -/
def Admitted (policy : UploadPolicy) (site : UploadSite) (tenantId : String)
    (preflightRequest : PreflightRequest) : Prop :=
  trim preflightRequest.filename ≠ "" ∧ preflightRequest.size ≤ policy.maxUploadBytes ∧
  (∃ partSize partsTotal,
    partSizeBytes preflightRequest.size policy.partSizeBytes = .ok partSize ∧
    partCount preflightRequest.size partSize = .ok partsTotal) ∧
  Resolves site tenantId preflightRequest.documentId

theorem noTrace_targeted {site after : UploadSite} (documentId : Option String) :
    NoTrace (targeted site documentId) after ↔ NoTrace site after := by
  cases documentId with
  | none =>
      constructor
      · intro h
        exact ⟨h.kept, h.added, h.multiparts⟩
      · intro h
        exact ⟨h.kept, h.added, h.multiparts⟩
  | some documentId => rfl

theorem run_resolveReplaceTarget (site : UploadSite) (tenantId documentId : String) :
    ∃ result, site.run (resolveReplaceTarget tenantId documentId) = (site, result) ∧
      (Resolves site tenantId (some documentId) ↔ result = .ok ()) := by
  unfold resolveReplaceTarget
  rw [run_request]
  have read : site.answer (.port (.last tenantId documentId)) = site.last tenantId documentId := rfl
  have still : site.after (.port (.last tenantId documentId)) = site := rfl
  rw [read, still]
  cases last : site.last tenantId documentId with
  | error error =>
      refine ⟨_, rfl, iff_of_false ?_ (by rintro ⟨⟩)⟩
      rintro ⟨⟨head, answered⟩, -⟩
      cases last.symm.trans answered
  | ok head =>
      cases head with
      | none =>
          refine ⟨_, rfl, iff_of_false ?_ (by rintro ⟨⟩)⟩
          rintro ⟨⟨head, answered⟩, -⟩
          cases last.symm.trans answered
      | some head =>
          dsimp only
          rw [run_request]
          have read : site.answer (.getDocument tenantId documentId) =
            site.documents tenantId documentId := rfl
          have still : site.after (.getDocument tenantId documentId) = site := rfl
          rw [read, still]
          cases document : site.documents tenantId documentId with
          | error error =>
              refine ⟨_, rfl, iff_of_false ?_ (by rintro ⟨⟩)⟩
              rintro ⟨-, found, answered, -⟩
              cases document.symm.trans answered
          | ok found =>
              cases found with
              | none => exact ⟨_, rfl, iff_of_true ⟨⟨head, last⟩, none, document, by simp⟩ rfl⟩
              | some state =>
                  dsimp only
                  by_cases gone : state.state = .deleted
                  · rw [if_pos gone]
                    refine ⟨_, rfl, iff_of_false ?_ (by rintro ⟨⟩)⟩
                    rintro ⟨-, found, answered, kept⟩
                    obtain rfl := Except.ok.inj (document.symm.trans answered)
                    exact kept state rfl gone
                  · rw [if_neg gone]
                    refine ⟨_, rfl, iff_of_true ⟨⟨head, last⟩, some state, document, ?_⟩ rfl⟩
                    rintro _ ⟨⟩
                    exact gone

theorem run_resolveTarget (site : UploadSite) (tenantId : String) (documentId : Option String) :
    ∃ result, site.run (resolveTarget tenantId documentId) = (targeted site documentId, result) ∧
      (Resolves site tenantId documentId ↔ ∃ target, result = .ok target) := by
  cases documentId with
  | none => exact ⟨_, rfl, iff_of_true trivial ⟨_, rfl⟩⟩
  | some documentId =>
      obtain ⟨result, run, resolves⟩ := run_resolveReplaceTarget site tenantId documentId
      unfold resolveTarget
      rw [run_bind, run, resolves]
      cases result with
      | error error => exact ⟨_, rfl, iff_of_false (by rintro ⟨⟩) (by rintro ⟨target, ⟨⟩⟩)⟩
      | ok done => exact ⟨_, rfl, iff_of_true rfl ⟨_, rfl⟩⟩

variable (policy : UploadPolicy) (tenantId userId : String) (preflightRequest : PreflightRequest)

/-- Preflight refuses a request without touching the stores, or goes on to open the upload. -/
theorem run_preflight (site : UploadSite) :
    (¬ Admitted policy site tenantId preflightRequest ∧ ∃ reached error,
      site.run (preflight policy tenantId userId preflightRequest) = (reached, .error error) ∧
      NoTrace site reached) ∨
    (Admitted policy site tenantId preflightRequest ∧
      ∃ documentId mode partSize partsTotal,
        site.run (preflight policy tenantId userId preflightRequest) =
          (targeted site preflightRequest.documentId).run (openUpload tenantId userId documentId
            mode (trim preflightRequest.filename) (contentTypeOf preflightRequest.contentType)
            preflightRequest.size partSize partsTotal)) := by
  have same : NoTrace site site := .of_same rfl rfl
  unfold preflight
  by_cases named : trim preflightRequest.filename = ""
  · rw [if_pos named]
    exact .inl ⟨fun admitted => admitted.1 named, site, _, rfl, same⟩
  rw [if_neg named]
  by_cases large : preflightRequest.size > policy.maxUploadBytes
  · rw [if_pos large]
    exact .inl ⟨fun admitted => absurd large (Nat.not_lt.mpr admitted.2.1), site, _, rfl, same⟩
  rw [if_neg large]
  cases sized : partSizeBytes preflightRequest.size policy.partSizeBytes with
  | error error =>
      refine .inl ⟨?_, site, _, rfl, same⟩
      rintro ⟨-, -, ⟨partSize, partsTotal, isSize, -⟩, -⟩
      cases sized.symm.trans isSize
  | ok partSize =>
      dsimp only
      cases counted : partCount preflightRequest.size partSize with
      | error error =>
          refine .inl ⟨?_, site, _, rfl, same⟩
          rintro ⟨-, -, ⟨partSize', partsTotal, isSize, isCount⟩, -⟩
          obtain rfl := Except.ok.inj (sized.symm.trans isSize)
          cases counted.symm.trans isCount
      | ok partsTotal =>
          obtain ⟨result, run, resolves⟩ :=
            run_resolveTarget site tenantId preflightRequest.documentId
          dsimp only
          rw [run_bind, run]
          cases result with
          | error error =>
              refine .inl ⟨?_, _, error, rfl, ?_⟩
              · rintro ⟨-, -, -, resolved⟩
                obtain ⟨target, ⟨⟩⟩ := resolves.mp resolved
              · exact (noTrace_targeted preflightRequest.documentId).mp (.of_same rfl rfl)
          | ok target =>
              refine .inr ⟨⟨named, Nat.le_of_not_lt large, ⟨partSize, partsTotal, sized, counted⟩,
                resolves.mpr ⟨target, rfl⟩⟩, target.1, target.2, partSize, partsTotal, rfl⟩

/-- A preflight that returns an error leaves no trace, exactly unless it was admitted and
then disturbed the stores. -/
theorem preflight_no_trace_iff (site : UploadSite) :
    ((∃ error, (site.run (preflight policy tenantId userId preflightRequest)).2 = .error error) →
      NoTrace site (site.run (preflight policy tenantId userId preflightRequest)).1) ↔
    ¬ (Admitted policy site tenantId preflightRequest ∧
      Disturbed (targeted site preflightRequest.documentId) tenantId userId) := by
  rcases run_preflight policy tenantId userId preflightRequest site with
    ⟨refused, reached, error, run, none_⟩ | ⟨admitted, documentId, mode, partSize, partsTotal, run⟩
  · rw [run]
    exact iff_of_true (fun _ => none_) fun disturbed => refused disturbed.1
  · rw [run, ← noTrace_targeted preflightRequest.documentId, openUpload_no_trace_iff]
    exact not_congr (and_iff_right admitted).symm

/-! ### An upload id in use -/

/-- An upload whose bytes are being checked. -/
def scanningUpload : UploadState where
  tenantId := "t"
  ownerUserId := "u"
  uploadId := "01U"
  documentId := "01A"
  mode := .create
  storageKey := Keys.objectKey "t" "01U"
  multipartUploadId := "mp-1"
  filename := "a.pdf"
  contentType := "application/pdf"
  declaredSize := 100
  partSizeBytes := 8388608
  partCount := 1
  status := .scanning
  createdAt := 5
  updatedAt := 6

/-- The generator is about to give the upload's id again; nothing fails. -/
def reusedId : UploadSite where
  records := KvBucket.empty.put scanningUpload.ownKey scanningUpload
  multiparts := []
  ids := fun n => if n = 0 then "01B" else "01U"
  drawn := 0
  multipartId := "mp-2"
  clock := 10
  last := fun _ _ => .ok none
  documents := fun _ _ => .ok none
  beginFault := none
  createFault := none

def anotherRequest : PreflightRequest := ⟨none, "b.pdf", 200, none⟩

/-- The create is refused because the record is there, and then the record is deleted. -/
theorem preflight_deletes_another_upload :
    (∃ error, (reusedId.run (preflight ⟨1000, 8388608⟩ "t" "u" anotherRequest)).2 =
      .error error) ∧
    reusedId.records.live "t/u/01U" = some scanningUpload ∧
    (reusedId.run (preflight ⟨1000, 8388608⟩ "t" "u" anotherRequest)).1.records.live "t/u/01U"
      = none ∧
    ¬ NoTrace reusedId (reusedId.run (preflight ⟨1000, 8388608⟩ "t" "u" anotherRequest)).1 := by
  have failed : ∃ error, (reusedId.run (preflight ⟨1000, 8388608⟩ "t" "u" anotherRequest)).2 =
      .error error := ⟨.ofContextError .alreadyExists, by rfl⟩
  have stored : reusedId.records.live "t/u/01U" = some scanningUpload := by decide
  have lost : (reusedId.run (preflight ⟨1000, 8388608⟩ "t" "u" anotherRequest)).1.records.live
      "t/u/01U" = none := by
    decide +kernel
  refine ⟨failed, stored, lost, fun none_ => ?_⟩
  obtain ⟨revision, held⟩ := KvBucket.live_eq_some.mp stored
  have kept := none_.kept _ _ revision held
  rw [KvBucket.live_eq_some.mpr ⟨revision, kept⟩] at lost
  cases lost

end DocumentService

end Delphi.Document
