/-
# Delphi.Document.TenantWorkers -- what works for a tenant beside its requests

Deliveries of a tenant's uploads, the projection that writes rows of its documents, and
the age limit of its records.  A delivery makes the calls of `UploadFinisher.finish`, and
each of them is about the tenant of its command (`stays_finish`, by the path logic);
a row is written by the projection's own upsert.

So all three are workers as requests have them beside themselves (`uploadWorkers`): they
act on what is the tenant's by what is the tenant's.
-/
import Delphi.Document.ProjectionStore
import Delphi.Document.Published
import Delphi.Document.TenantCalls

namespace Delphi.Document

open Delphi.Theory

set_option autoImplicit false

namespace HttpApi

/-! ## A delivery -/

section Delivery

variable (tenant : String)

/-- The call of a delivery is about what belongs to the tenant. -/
def WithinDelivery : PortCall → Prop
  | .append event _ => event.tenantId = tenant
  | .readStream owner _ => owner = tenant
  | .completeMultipart key _ _ => objectTenant key = tenant
  | .head key => objectTenant key = tenant
  | .readPrefix key _ => objectTenant key = tenant
  | .openRead key => objectTenant key = tenant
  | .delete key => objectTenant key = tenant
  | .validate _ _ _ => True
  | .scan _ => True
  | op => WithinPort tenant op

/-- A command about the tenant, as the service publishes it. -/
structure CommandOf (command : UploadCompleted) : Prop where
  tenantId : command.tenantId = tenant
  safe : '/' ∉ tenant.toList
  storageKey : command.storageKey = Keys.objectKey tenant command.uploadId

/-- Every call the program makes is about the tenant. -/
abbrev Stays {α : Type} (p : Program Ports α) : Prop :=
  p.Confined TellsPort (WithinDelivery tenant) fun _ => True

variable {tenant} {digest : String → String} {command : UploadCompleted}

theorem commandOf_published {c : Config ServicePorts ApiWorld ApiRequest ApiAnswer}
    (reached : api.Reaches System.anyStep ⟨.empty, []⟩ c) (mem : command ∈ c.shared.published) :
    CommandOf command.tenantId command :=
  ⟨rfl, not_mem_of_isSafeSegment (segments_of_published reached mem).1 (by decide),
    storageKey_of_published reached mem⟩

theorem CommandOf.object (mine : CommandOf tenant command) :
    objectTenant command.storageKey = tenant := by
  rw [mine.storageKey]
  exact objectTenant_objectKey mine.safe command.uploadId

theorem withinDelivery_of_withinPort {op : PortCall} (within : WithinPort tenant op) :
    WithinDelivery tenant op := by
  cases op <;> first | exact within | exact within.elim

theorem stays_record (mine : CommandOf tenant command) (status : UploadStatus) :
    Stays tenant (UploadFinisher.record command status) := by
  refine .perform trivial fun now _ => ?_
  rw [mine.tenantId]
  have moves : Stays tenant
      (Transition.setStatus tenant command.ownerUserId command.uploadId status now) :=
    (confined_setStatusFrom mine.safe status now _).calls fun _ => withinDelivery_of_withinPort
  exact moves.bind fun _ _ => trivial

theorem stays_reclaim (mine : CommandOf tenant command) :
    Stays tenant (UploadFinisher.reclaim command) :=
  .perform mine.object fun _ _ => .perform mine.object fun _ _ => trivial

theorem stays_accept (mine : CommandOf tenant command) (version : Nat) (superseded : Bool) :
    Stays tenant (UploadFinisher.accept command version superseded) :=
  (stays_record mine _).bind fun _ _ => trivial

theorem stays_reject (mine : CommandOf tenant command) (reason : String) :
    Stays tenant (UploadFinisher.reject command reason) :=
  (stays_reclaim mine).bind fun _ _ => (stays_record mine _).bind fun _ _ => trivial

/-! ## Its appends -/

theorem stays_resolveDuplicate (documentId : String) (appended : Appended) :
    Stays tenant (resolveDuplicate tenant documentId appended) := by
  unfold resolveDuplicate
  split
  · trivial
  · refine .perform rfl fun answer _ => ?_
    rcases answer with error | _ | ⟨version, streamSeq⟩ <;> trivial

theorem stays_appendCreate {event : DocumentEvent} (mine : event.tenantId = tenant) :
    Stays tenant (appendCreate event) := by
  refine .perform mine fun answer _ => ?_
  rcases answer with error | appended
  · cases error <;> trivial
  · subst mine
    exact stays_resolveDuplicate event.documentId appended

/-- By induction on the attempts: a conflict reads the head again. -/
theorem stays_appendUpdateFrom {documentId : String} {client : Option Nat}
    {buildEvent : Nat → DocumentEvent} (mine : ∀ version, (buildEvent version).tenantId = tenant)
    (attempts : Nat) :
    Stays tenant (appendUpdateFrom tenant documentId client buildEvent attempts) := by
  induction attempts with
  | zero => trivial
  | succ attempts ih =>
      refine .perform rfl fun answer _ => ?_
      rcases answer with error | _ | ⟨version, seq⟩
      · trivial
      · trivial
      · dsimp only
        split
        · trivial
        · refine .perform (mine _) fun answer _ => ?_
          rcases answer with error | appended
          · cases error with
            | conflict => exact ih
            | _ => trivial
          · exact stays_resolveDuplicate documentId appended

theorem stays_appendCreated (mine : CommandOf tenant command) (sha256Hex : String) :
    Stays tenant (UploadFinisher.appendCreated digest command sha256Hex) := by
  refine .perform trivial fun ts _ => ?_
  refine (stays_appendCreate mine.tenantId).bind ?_
  rintro (error | appended) -
  · cases error with
    | alreadyCreated =>
        refine .perform mine.tenantId fun answer _ => ?_
        rcases answer with error | _ | ⟨version, streamSeq⟩
        · trivial
        · trivial
        · exact stays_accept mine version false
    | _ => trivial
  · exact stays_accept mine appended.version false

theorem stays_appendOnto (mine : CommandOf tenant command) (sha256Hex : String) :
    Stays tenant (UploadFinisher.appendOnto digest command sha256Hex) := by
  refine .perform trivial fun now _ => ?_
  have appends : Stays tenant (appendUpdate command.tenantId command.documentId none
      (UploadFinisher.replacedEvent digest command sha256Hex now)) := by
    rw [mine.tenantId]
    exact stays_appendUpdateFrom (fun _ => mine.tenantId) updateAttempts
  refine appends.bind ?_
  rintro (error | appended) -
  · trivial
  · exact stays_accept mine appended.version _

theorem stays_appendReplaced (mine : CommandOf tenant command) (sha256Hex : String) :
    Stays tenant (UploadFinisher.appendReplaced digest command sha256Hex) := by
  refine .perform mine.tenantId fun answer _ => ?_
  rcases answer with error | history
  · trivial
  dsimp only
  split
  · exact stays_accept mine _ _
  · split
    · exact stays_reject mine _
    · exact stays_reject mine _
    · split
      · exact stays_reject mine _
      · exact stays_appendOnto mine sha256Hex

/-! ## Its pipeline -/

theorem stays_scanAndAppend (mine : CommandOf tenant command) :
    Stays tenant (UploadFinisher.scanAndAppend digest command) := by
  refine .perform mine.object fun answer _ => ?_
  rcases answer with error | reader
  · trivial
  refine .perform trivial fun answer _ => ?_
  rcases answer with error | outcome
  · trivial
  dsimp only
  split
  · exact stays_reject mine _
  · split
    · exact stays_reject mine _
    · split
      · exact stays_appendCreated mine _
      · exact stays_appendReplaced mine _

theorem stays_inspect (mine : CommandOf tenant command) (head : BlobHead) :
    Stays tenant (UploadFinisher.inspect digest command head) := by
  unfold UploadFinisher.inspect
  split
  · exact stays_reject mine _
  · refine .perform mine.object fun answer _ => ?_
    rcases answer with error | beginning
    · trivial
    refine .perform trivial fun answer _ => ?_
    rcases answer with error | _ | reason
    · trivial
    · exact stays_scanAndAppend mine
    · exact stays_reject mine _

theorem stays_settleByHead (mine : CommandOf tenant command) :
    Stays tenant (UploadFinisher.settleByHead command) := by
  refine .perform mine.object fun answer _ => ?_
  rcases answer with error | _ | head
  · trivial
  · exact (stays_reject mine _).bind fun _ _ => trivial
  · trivial

theorem stays_assemble (mine : CommandOf tenant command) :
    Stays tenant (UploadFinisher.assemble command) := by
  refine .perform mine.object fun answer _ => ?_
  rcases answer with error | _ | _ | ⟨part, parts⟩
  · trivial
  · exact stays_settleByHead mine
  · exact (stays_reject mine _).bind fun _ _ => trivial
  · refine .perform mine.object fun answer _ => ?_
    rcases answer with error | _
    · dsimp only
      split
      · exact stays_settleByHead mine
      · trivial
      all_goals exact (stays_reject mine _).bind fun _ _ => trivial
    · trivial

theorem stays_pipeline (mine : CommandOf tenant command) :
    Stays tenant (UploadFinisher.pipeline digest command) := by
  refine (stays_assemble mine).bind ?_
  rintro ((_ | head) | outcome) -
  · refine .perform mine.object fun answer _ => ?_
    rcases answer with error | _ | head
    · trivial
    · exact stays_reject mine _
    · exact stays_inspect mine head
  · exact stays_inspect mine head
  · trivial

theorem stays_discardExpired (mine : CommandOf tenant command) :
    Stays tenant (UploadFinisher.discardExpired command) := by
  refine .perform mine.tenantId fun answer _ => ?_
  rcases answer with error | history
  · trivial
  dsimp only
  split
  · trivial
  · exact (stays_reclaim mine).bind fun _ _ => trivial

theorem stays_run (mine : CommandOf tenant command) :
    Stays tenant (UploadFinisher.run digest command) := by
  have loads : Stays tenant
      (Transition.load command.tenantId command.ownerUserId command.uploadId) := by
    rw [mine.tenantId]
    exact ((confined_load mine.safe).imp fun _ _ => trivial).calls
      fun _ => withinDelivery_of_withinPort
  refine loads.bind ?_
  rintro (error | _ | state) -
  · trivial
  · exact stays_discardExpired mine
  · dsimp only
    split
    · trivial
    · exact stays_pipeline mine

/-- Whatever a delivery calls is the tenant's of its command. -/
theorem stays_finish (mine : CommandOf tenant command) (finalDelivery : Bool) :
    Stays tenant (UploadFinisher.finish digest command finalDelivery) := by
  refine (stays_run mine).bind ?_
  rintro (⟨documentId, version, superseded⟩ | reason | error) -
  · trivial
  · trivial
  · dsimp only
    split
    · exact stays_reject mine _
    · trivial

theorem withinDelivery_of_stands {finalDelivery : Bool} {trace : Trace Ports} {op : PortCall}
    {next : op.Ans → Program Ports FinishOutcome} (mine : CommandOf tenant command)
    (told : Facts (fun _ op answer => TellsPort op answer) trace)
    (stands : (UploadFinisher.finish digest command finalDelivery).Resumes trace (.call op next)) :
    WithinDelivery tenant op :=
  (((stays_finish mine finalDelivery).along []).resumes stands told).1

end Delivery

/-! ## What the workers do to the stores -/

namespace Stores

/-- What a delivery's call does. Of the log the stores hold the heads, of the objects the
multiparts that are open. -/
def servesDelivery (w : Stores) : (op : PortCall) → op.Ans → Stores → Prop
  | .append event expect, _, w' => w' = w ∨
      ((w.heads event.streamKey).map Prod.snd).getD 0 = expect.sequence ∧ ∃ sequence,
        w' = { w with
          heads := Function.update w.heads event.streamKey (some (event.version, sequence)) }
  | .completeMultipart key upload _, _, w' => w' = w ∨
      w' = { w with multiparts := Function.update w.multiparts (key, upload) none }
  | .readStream _ _, _, w' => w' = w
  | .head _, _, w' => w' = w
  | .readPrefix _ _, _, w' => w' = w
  | .openRead _, _, w' => w' = w
  | .delete _, _, w' => w' = w
  | .validate _ _ _, _, w' => w' = w
  | .scan _, _, w' => w' = w
  | op, answer, w' => w.servesPort op answer w'

/-- The table of documents as a statement of the projection sees it. -/
def projectionRows (w : Stores) : ProjectionRows
  | .document key => w.rows.find? fun row => row.key = key
  | .checkpoint _ => none
  | .failure _ _ => none

/-- The row of a document is written. -/
def writeRow (w : Stores) (row : Row) : Stores :=
  { w with rows := row :: w.rows.filter fun held => held.key ≠ row.key }

/-- What works for a tenant: a delivery of one of its uploads makes its next call, the state of
one of its documents is projected, one of its records has reached its age limit. -/
inductive Works (digest : String → String) (jsonb : Jsonb) (tenant : String) (w : Stores) :
    Stores → Prop where
  | delivery {command : UploadCompleted} {finalDelivery : Bool} {trace : Trace Ports}
      {op : PortCall} {next : op.Ans → Program Ports FinishOutcome} {answer : op.Ans} {w' : Stores}
      (mine : CommandOf tenant command)
      (told : Facts (fun _ op answer => TellsPort op answer) trace)
      (stands : (UploadFinisher.finish digest command finalDelivery).Resumes trace (.call op next))
      (served : w.servesDelivery op answer w') : Works digest jsonb tenant w w'
  | projection {tx : Nat} {state : DocumentState} {row : Row} (mine : state.tenantId = tenant)
      (writing : (Statement.upsert jsonb tx state).effect w.projectionRows =
        some ⟨.document state.streamKey, row⟩) :
      Works digest jsonb tenant w (w.writeRow row)
  | expiry {key : String} (mine : recordTenant key = tenant) :
      Works digest jsonb tenant w { w with records := w.records.expire key }

end Stores

section Works

variable {digest : String → String} {jsonb : Jsonb} {tenant : String} {w w' : Stores}

theorem effect_of_servesDelivery {op : PortCall} {answer : op.Ans}
    (within : WithinDelivery tenant op) (served : w.servesDelivery op answer w') :
    Effect tenant w w' := by
  cases op with
  | append event expect =>
      rcases served with rfl | ⟨-, sequence, rfl⟩
      · exact .nothing
      · have own : event.streamKey.1 = tenant := within
        exact .appended own _
  | completeMultipart key upload parts =>
      rcases served with rfl | rfl
      · exact .nothing
      · exact .multipart within none
  | last owner documentId => exact @effect_of_servesPort tenant w w' (.last owner documentId) answer within served
  | listParts key upload => exact @effect_of_servesPort tenant w w' (.listParts key upload) answer within served
  | abortMultipart key upload => exact @effect_of_servesPort tenant w w' (.abortMultipart key upload) answer within served
  | kvEntry key => exact @effect_of_servesPort tenant w w' (.kvEntry key) answer within served
  | kvUpdate key state revision => exact @effect_of_servesPort tenant w w' (.kvUpdate key state revision) answer within served
  | now => exact @effect_of_servesPort tenant w w' PortCall.now answer within served
  | _ =>
      obtain rfl := served
      exact .nothing

/-- What is the tenant's answers a delivery of it, and has what it does done to it. -/
theorem servesDelivery_ofTenant {op : PortCall} {answer : op.Ans}
    (within : WithinDelivery tenant op) (served : w.servesDelivery op answer w') :
    (w.ofTenant tenant).servesDelivery op answer (w'.ofTenant tenant) := by
  cases op with
  | append event expect =>
      rcases served with rfl | ⟨expected, sequence, rfl⟩
      · exact .inl rfl
      · have own : event.streamKey.1 = tenant := within
        refine .inr ⟨?_, sequence, ofTenant_heads own _⟩
        rwa [show (w.ofTenant tenant).heads event.streamKey = w.heads event.streamKey from
          if_pos own]
  | completeMultipart key upload parts =>
      rcases served with rfl | rfl
      · exact .inl rfl
      · exact .inr (ofTenant_multipart within none)
  | last owner documentId => exact @servesPort_ofTenant tenant w w' (.last owner documentId) answer within served
  | listParts key upload => exact @servesPort_ofTenant tenant w w' (.listParts key upload) answer within served
  | abortMultipart key upload => exact @servesPort_ofTenant tenant w w' (.abortMultipart key upload) answer within served
  | kvEntry key => exact @servesPort_ofTenant tenant w w' (.kvEntry key) answer within served
  | kvUpdate key state revision => exact @servesPort_ofTenant tenant w w' (.kvUpdate key state revision) answer within served
  | now => exact @servesPort_ofTenant tenant w w' PortCall.now answer within served
  | _ =>
      obtain rfl := served
      exact rfl

/-- The row an upsert writes is its state's. -/
theorem tenantId_of_upsert {tx : Nat} {state : DocumentState} {rows : ProjectionRows} {row : Row}
    (writing : (Statement.upsert jsonb tx state).effect rows =
      some ⟨.document state.streamKey, row⟩) : row.tenantId = state.tenantId := by
  dsimp only [Statement.upsert] at writing
  split at writing
  · cases writing
    rfl
  · split at writing
    · cases writing
      rfl
    · cases writing

theorem ofTenant_writeRow {row : Row} (mine : row.tenantId = tenant) :
    (w.writeRow row).ofTenant tenant = (w.ofTenant tenant).writeRow row := by
  refine Stores.mk.injEq .. |>.mpr ⟨rfl, rfl, ?_, rfl, rfl, rfl⟩
  have kept : decide (row.tenantId = tenant) = true := decide_eq_true mine
  simp only [Stores.writeRow, Stores.ofTenant, List.filter_cons, kept, if_true,
    List.filter_comm]

theorem upsert_ofTenant {tx : Nat} {state : DocumentState} (mine : state.tenantId = tenant) :
    (Statement.upsert jsonb tx state).effect (w.ofTenant tenant).projectionRows =
      (Statement.upsert jsonb tx state).effect w.projectionRows := by
  have found : (w.ofTenant tenant).projectionRows (.document state.streamKey) =
      w.projectionRows (.document state.streamKey) := by
    subst mine
    exact find?_ofTenant state.documentId
  dsimp only [Statement.upsert]
  rw [found]

theorem effect_of_works (acted : w.Works digest jsonb tenant w') : Effect tenant w w' := by
  cases acted with
  | delivery mine told stands served =>
      exact effect_of_servesDelivery (withinDelivery_of_stands mine told stands) served
  | @projection tx state row mine writing =>
      have owner : row.tenantId = tenant := (tenantId_of_upsert writing).trans mine
      refine .projected _ fun other foreign => ?_
      have apart : ¬ row.tenantId = other := fun same => foreign (same.symm.trans owner)
      rw [List.filter_cons_of_neg (by simpa using apart), List.filter_filter]
      -- a row of another tenant has another key
      refine List.filter_congr fun held _ => ?_
      by_cases its : held.tenantId = other
      · have keys : held.key ≠ row.key := fun same => apart ((congrArg Prod.fst same).symm.trans its)
        simp [its, keys]
      · simp [its]
  | expiry mine => exact .expired mine

theorem works_ofTenant (acted : w.Works digest jsonb tenant w') :
    (w.ofTenant tenant).Works digest jsonb tenant (w'.ofTenant tenant) := by
  cases acted with
  | delivery mine told stands served =>
      exact .delivery mine told stands
        (servesDelivery_ofTenant (withinDelivery_of_stands mine told stands) served)
  | @projection tx state row mine writing =>
      have owner : row.tenantId = tenant := (tenantId_of_upsert writing).trans mine
      rw [ofTenant_writeRow owner]
      exact .projection mine ((upsert_ofTenant mine).trans writing)
  | @expiry key mine =>
      have kept : isRecordOf tenant key = true := decide_eq_true mine
      have sliced : Stores.ofTenant tenant { w with records := w.records.expire key } =
          { w.ofTenant tenant with records := (w.ofTenant tenant).records.expire key } :=
        Stores.mk.injEq .. |>.mpr ⟨KvBucket.only_expire kept, rfl, rfl, rfl, rfl, rfl⟩
      rw [sliced]
      exact .expiry mine

end Works

/-- The workers of a deployment, for each tenant. -/
def uploadWorkers (digest : String → String) (jsonb : Jsonb) : Workers where
  acts tenant w w' := w.Works digest jsonb tenant w'
  touches acted := (effect_of_works acted).touches
  owned acted := (effect_of_works acted).owned
  sliced acted := works_ofTenant acted

end HttpApi

end Delphi.Document
