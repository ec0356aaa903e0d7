/-
# Delphi.Document.Projection -- one message of the log, decoded and folded

`decode_event` and `project_event` of `document-app/src/projection.rs`.  Every
message has an outcome: a row to write, or a failure to record.  The JSON text
layer and the derived decoder are a parameter (`Codec`).

On a document that has state, what a message does is a fixed update (`act`): it
fails on every such state or on none (`inert`), and when it succeeds it only
writes.  A message that opens a document seeds a state that `act` would give from
any state of the same birth time (`project_none`).
-/
import Delphi.Document.Fold
import Delphi.Document.EventStore

namespace Delphi.Document

set_option autoImplicit false

/-- `serde_json` and the derived implementations, for document events. -/
structure Codec where
  fromSlice : List UInt8 → Except String Json
  fromValue : Json → Except String DocumentEvent
  toValue : DocumentEvent → Option Json

inductive DecodedEvent where
  | event (event : DocumentEvent)
  | unknown (raw : Json) (error : String)
  | malformed (error : String)

def decodeEvent (codec : Codec) (payload : List UInt8) : DecodedEvent :=
  match codec.fromSlice payload with
  | .error error => .malformed error
  | .ok raw =>
      match codec.fromValue raw with
      | .ok event => .event event
      | .error error => .unknown raw error

inductive ProjectionOutcome where
  | upsert (state : DocumentState)
  | failure (payload : Json) (error : String) (domainViolation : Bool)

/-- Decode and fold one event; every input has an outcome. -/
def projectEvent (codec : Codec) (prior : Option DocumentState) (payload : List UInt8)
    (streamSeq : Nat) : ProjectionOutcome :=
  match decodeEvent codec payload with
  | .event event =>
      match apply prior event streamSeq with
      | .ok state => .upsert state
      | .error error => .failure ((codec.toValue event).getD .null) error.display true
  | .unknown raw error => .failure raw error false
  | .malformed error => .failure .null error false

/-- A message of the event stream. -/
structure Message where
  sequence : Nat
  subject : String
  payload : List UInt8

namespace ProjectionOutcome

/-- The state after an outcome: a failure is skipped. -/
def resulting (prior : Option DocumentState) : ProjectionOutcome → Option DocumentState
  | .upsert state => some state
  | .failure _ _ _ => prior

end ProjectionOutcome

/-- The state of a document after one more of its messages. -/
def absorb (codec : Codec) (prior : Option DocumentState) (message : Message) :
    Option DocumentState :=
  (projectEvent codec prior message.payload message.sequence).resulting prior

/-- The sequential fold of a document's messages, skipping those that fail. -/
def absorbAll (codec : Codec) (messages : List Message) : Option DocumentState :=
  messages.foldl (absorb codec) none

namespace DocumentState

def streamKey (state : DocumentState) : StreamKey := (state.tenantId, state.documentId)

end DocumentState

/-! ## What an event does to existing state -/

namespace DocumentEvent

/-- A create that names no user fails on any state. -/
def inert (event : DocumentEvent) : Bool :=
  event.payload.isCreate && event.actor.userId.isNone

/-- The update an event makes to a document's state. -/
def act (event : DocumentEvent) (seq : Nat) (state : DocumentState) : DocumentState :=
  match event.payload, event.actor with
  | .documentCreated created, .user userId =>
      mergePatch (seed event created userId state.createdAt seq) created.patch
  | .documentCreated _, .system _ => state
  | payload, _ =>
      amend { state with version := event.version, streamSeq := seq, updatedAt := event.ts } payload

theorem apply_some {event : DocumentEvent} {state : DocumentState} (seq : Nat)
    (same : state.documentId = event.documentId) :
    (event.inert = true ∧ event.act seq state = state ∧
      ∃ error, apply (some state) event seq = .error error) ∨
    (event.inert = false ∧ apply (some state) event seq = .ok (event.act seq state)) := by
  unfold apply act inert
  rw [checkDocument_some same]
  cases event.payload <;> cases event.actor <;>
    simp [DocumentEventPayload.isCreate, Actor.userId]

theorem apply_none {event : DocumentEvent} {seq : Nat} {state : DocumentState}
    (opened : apply none event seq = .ok state) :
    event.inert = false ∧ state.streamKey = event.streamKey ∧ state.streamSeq = seq ∧
      ∀ other : DocumentState, other.createdAt = state.createdAt → event.act seq other = state := by
  unfold apply at opened
  simp only [checkDocument_none] at opened
  unfold act inert
  cases payload : event.payload <;> cases actor : event.actor <;>
    simp only [payload, actor, reduceCtorEq, Except.ok.injEq, Option.map_none,
      Option.getD_none] at opened
  subst opened
  refine ⟨rfl, rfl, rfl, ?_⟩
  rintro other born
  rw [born]
  rfl

theorem apply_none_of_inert {event : DocumentEvent} (seq : Nat) (inert : event.inert = true) :
    ∃ error, apply none event seq = .error error := by
  unfold apply
  unfold DocumentEvent.inert at inert
  cases payload : event.payload <;> cases actor : event.actor <;>
    simp_all [DocumentEventPayload.isCreate, Actor.userId]

end DocumentEvent

/-! ## What a message does -/

namespace Message

variable (codec : Codec)

def inert (message : Message) : Bool :=
  match decodeEvent codec message.payload with
  | .event event => event.inert
  | _ => true

def act (message : Message) (state : DocumentState) : DocumentState :=
  match decodeEvent codec message.payload with
  | .event event => event.act message.sequence state
  | _ => state

/-- Every event the message may carry is one of this document. -/
def Addresses (key : StreamKey) (message : Message) : Prop :=
  ∀ event, decodeEvent codec message.payload = .event event → event.streamKey = key

variable {codec}

theorem act_createdAt (message : Message) (state : DocumentState) :
    (message.act codec state).createdAt = state.createdAt := by
  unfold act
  split
  · rename_i event decoded
    unfold DocumentEvent.act
    cases event.payload with
    | documentCreated created => cases event.actor <;> rfl
    | documentStageFailed failed =>
        simp only [amend]
        split <;> rfl
    | _ => rfl
  · rfl

theorem act_streamKey {message : Message} {key : StreamKey} {state : DocumentState}
    (addresses : message.Addresses codec key) (keyed : state.streamKey = key) :
    (message.act codec state).streamKey = key := by
  unfold act
  split
  · rename_i event decoded
    have addressed : event.streamKey = key := addresses event decoded
    unfold DocumentEvent.act
    cases event.payload with
    | documentCreated created =>
        cases event.actor
        · exact addressed
        · exact keyed
    | documentStageFailed failed =>
        simp only [amend]
        split <;> exact keyed
    | _ => exact keyed
  · exact keyed

theorem act_of_inert {message : Message} (inert : message.inert codec = true)
    (state : DocumentState) : message.act codec state = state := by
  unfold Message.inert at inert
  unfold act
  split
  · rename_i event decoded
    simp only [decoded] at inert
    unfold DocumentEvent.inert at inert
    unfold DocumentEvent.act
    cases payload : event.payload <;> cases actor : event.actor <;>
      simp_all [DocumentEventPayload.isCreate, Actor.userId]
  · rfl

theorem act_streamSeq {message : Message} (live : message.inert codec = false)
    (state : DocumentState) : (message.act codec state).streamSeq = message.sequence := by
  unfold inert at live
  unfold act
  cases decoded : decodeEvent codec message.payload with
  | event event =>
      simp only [decoded] at live ⊢
      unfold DocumentEvent.inert at live
      unfold DocumentEvent.act
      cases payload : event.payload with
      | documentCreated created =>
          cases actor : event.actor
          · rfl
          · simp [payload, actor, DocumentEventPayload.isCreate, Actor.userId] at live
      | documentStageFailed failed =>
          simp only [amend]
          split <;> rfl
      | _ => rfl
  | unknown raw error => simp [decoded] at live
  | malformed error => simp [decoded] at live

/-- On a document that has state a message is inert or acts. -/
theorem project_some {message : Message} {key : StreamKey} {state : DocumentState}
    (addresses : message.Addresses codec key) (keyed : state.streamKey = key) :
    (message.inert codec = true ∧ ∃ payload error violation,
      projectEvent codec (some state) message.payload message.sequence =
        .failure payload error violation) ∨
    (message.inert codec = false ∧
      projectEvent codec (some state) message.payload message.sequence =
        .upsert (message.act codec state)) := by
  unfold projectEvent inert act
  cases decoded : decodeEvent codec message.payload with
  | event event =>
      have same : state.documentId = event.documentId :=
        congrArg Prod.snd (keyed.trans (addresses event decoded).symm)
      rcases DocumentEvent.apply_some message.sequence same with
        ⟨inert, -, error, failed⟩ | ⟨live, folded⟩
      · simp [inert, failed]
      · simp [live, folded]
  | unknown raw error => simp
  | malformed error => simp

/-- A message that opens a document seeds what it would write over any state of
that birth time. -/
theorem project_none {message : Message} {key : StreamKey} {state : DocumentState}
    (addresses : message.Addresses codec key)
    (opened : projectEvent codec none message.payload message.sequence = .upsert state) :
    message.inert codec = false ∧ state.streamKey = key ∧ state.streamSeq = message.sequence ∧
      ∀ other : DocumentState, other.createdAt = state.createdAt →
        message.act codec other = state := by
  unfold projectEvent at opened
  cases decoded : decodeEvent codec message.payload with
  | event event =>
      simp only [decoded] at opened
      cases folded : apply none event message.sequence with
      | error error => simp [folded] at opened
      | ok next =>
          simp only [folded, ProjectionOutcome.upsert.injEq] at opened
          subst opened
          obtain ⟨live, keyed, seq, acts⟩ := DocumentEvent.apply_none folded
          unfold inert act
          simp only [decoded]
          exact ⟨live, keyed.trans (addresses event decoded), seq, acts⟩
  | unknown raw error => simp [decoded] at opened
  | malformed error => simp [decoded] at opened

theorem project_none_of_inert {message : Message} (inert : message.inert codec = true) :
    ∃ payload error violation,
      projectEvent codec none message.payload message.sequence =
        .failure payload error violation := by
  unfold projectEvent
  unfold Message.inert at inert
  cases decoded : decodeEvent codec message.payload with
  | event event =>
      simp only [decoded] at inert
      obtain ⟨error, failed⟩ := DocumentEvent.apply_none_of_inert message.sequence inert
      simp [failed]
  | unknown raw error => simp
  | malformed error => simp

theorem absorb_some {message : Message} {key : StreamKey} {state : DocumentState}
    (addresses : message.Addresses codec key) (keyed : state.streamKey = key) :
    absorb codec (some state) message = some (message.act codec state) := by
  unfold absorb
  rcases project_some addresses keyed with ⟨inert, payload, error, violation, failed⟩ | ⟨-, folded⟩
  · rw [failed, ProjectionOutcome.resulting, act_of_inert inert]
  · rw [folded, ProjectionOutcome.resulting]

theorem absorb_of_inert {message : Message} {key : StreamKey} {prior : Option DocumentState}
    (addresses : message.Addresses codec key)
    (keyed : ∀ state, prior = some state → state.streamKey = key)
    (inert : message.inert codec = true) : absorb codec prior message = prior := by
  cases prior with
  | none =>
      obtain ⟨payload, error, violation, failed⟩ := project_none_of_inert inert
      rw [absorb, failed, ProjectionOutcome.resulting]
  | some state => rw [absorb_some addresses (keyed state rfl), act_of_inert inert]

end Message

end Delphi.Document
