/-
# Delphi.Chat.EventStream -- published events and their replay

Events of all conversations get one global sequence.  `replay_events` reads a
window of it one sequence at a time and keeps what is of the conversation; old
messages leave the stream at the front.  The replay index of a conversation
remembers where its last two turns begin and end.
-/
import Delphi.Chat.Bus

namespace Delphi.Chat

open Delphi.Theory

set_option autoImplicit false

structure SequencedChatEvent where
  eventId : String
  envelope : ChatEventEnvelope
deriving DecidableEq

namespace ChatSubjects

def events (tenantId conversationId : String) : String :=
  "chat.events." ++ tenantId ++ "." ++ conversationId

end ChatSubjects

/-! ## The stream -/

/-- All events ever published, the first at sequence 1, and the first one still held. -/
structure EventStream where
  published : List ChatEventEnvelope
  firstSeq : Nat

namespace EventStream

def lastSequence (stream : EventStream) : Nat := stream.published.length

/-- The event published under a sequence. -/
def at_ (stream : EventStream) (sequence : Nat) : Option ChatEventEnvelope :=
  if sequence = 0 then none else stream.published[sequence - 1]?

/-- `get_raw_message`: an expired sequence is an error, as one never used is. -/
def getRawMessage (stream : EventStream) (sequence : Nat) : Option ChatEventEnvelope :=
  if sequence < stream.firstSeq then none else stream.at_ sequence

/-- A message's subject is the one its event was published to. -/
def subject (envelope : ChatEventEnvelope) : String :=
  ChatSubjects.events envelope.tenantId envelope.conversationId

end EventStream

namespace ChatEventEnvelope

def isOf (envelope : ChatEventEnvelope) (tenantId conversationId : String) : Bool :=
  envelope.tenantId = tenantId && envelope.conversationId = conversationId

end ChatEventEnvelope

namespace NatsChatBus

/-- What one sequence adds to a replay. -/
def replayOne (stream : EventStream) (tenantId conversationId : String) (sequence : Nat) :
    Option SequencedChatEvent :=
  match stream.getRawMessage sequence with
  | none => none
  | some envelope =>
      if EventStream.subject envelope ≠ ChatSubjects.events tenantId conversationId then none
      else if envelope.tenantId ≠ tenantId ∨ envelope.conversationId ≠ conversationId then none
      else some ⟨toString sequence, envelope⟩

/-- The loop of `replay_events` while the stream moves on: each sequence is read from the stream
as it stands then, and a read that fails is skipped like an expired one. -/
def replayReading (reads : Nat → EventStream) (tenantId conversationId : String)
    (startSeq endSeq : Nat) : List SequencedChatEvent :=
  if startSeq = 0 ∨ endSeq < startSeq then []
  else (List.range' startSeq (endSeq + 1 - startSeq)).filterMap fun sequence =>
    replayOne (reads sequence) tenantId conversationId sequence

/-- The same over a stream that stands still. -/
def replayEvents (stream : EventStream) (tenantId conversationId : String)
    (startSeq endSeq : Nat) : List SequencedChatEvent :=
  replayReading (fun _ => stream) tenantId conversationId startSeq endSeq

/-- The subject adds nothing to the test of the two ids. -/
theorem replayOne_eq (stream : EventStream) (tenantId conversationId : String) (sequence : Nat) :
    replayOne stream tenantId conversationId sequence =
      ((stream.getRawMessage sequence).filter fun envelope =>
        envelope.isOf tenantId conversationId).map fun envelope => ⟨toString sequence, envelope⟩ := by
  unfold replayOne
  cases stream.getRawMessage sequence with
  | none => rfl
  | some envelope =>
      by_cases own : envelope.isOf tenantId conversationId = true
      · have ids : envelope.tenantId = tenantId ∧ envelope.conversationId = conversationId := by
          simpa [ChatEventEnvelope.isOf] using own
        simp [EventStream.subject, ids, Option.filter, own]
      · have other : envelope.tenantId ≠ tenantId ∨ envelope.conversationId ≠ conversationId := by
          simp only [ChatEventEnvelope.isOf, Bool.and_eq_true, decide_eq_true_eq] at own
          by_cases tenant : envelope.tenantId = tenantId
          · exact .inr fun same => own ⟨tenant, same⟩
          · exact .inl tenant
        simp [Option.filter, own, other]

/-- A replayed event is of the conversation. -/
theorem isOf_replayOne {stream : EventStream} {tenantId conversationId : String} {sequence : Nat}
    {event : SequencedChatEvent}
    (found : replayOne stream tenantId conversationId sequence = some event) :
    event.envelope.tenantId = tenantId ∧ event.envelope.conversationId = conversationId := by
  rw [replayOne_eq, Option.map_eq_some_iff] at found
  obtain ⟨envelope, kept, rfl⟩ := found
  have own := (Option.filter_eq_some_iff.mp kept).2
  simpa [ChatEventEnvelope.isOf] using own

end NatsChatBus

/-! ## The replay index -/

structure ReplayTurn where
  turnId : String
  startSeq : Nat
  endSeq : Option Nat
deriving DecidableEq

structure ReplayIndex where
  previousTurn : Option ReplayTurn
  currentTurn : Option ReplayTurn
deriving DecidableEq

namespace ReplayIndex

def default : ReplayIndex := ⟨none, none⟩

end ReplayIndex

def isReplayIndexEvent : ChatEvent → Bool
  | .turnStarted _ | .finish _ _ | .interrupted _ _ | .clear _ => true
  | _ => false

/-- The end of a turn, where the index knows the turn. -/
def closeTurn (index : ReplayIndex) (turnId : String) (sequence : Nat) : ReplayIndex :=
  match index.currentTurn.filter fun turn => turn.turnId = turnId with
  | some turn => { index with currentTurn := some { turn with endSeq := some sequence } }
  | none =>
      match index.previousTurn.filter fun turn => turn.turnId = turnId with
      | some turn => { index with previousTurn := some { turn with endSeq := some sequence } }
      | none => index

def applyReplayEvent (index : ReplayIndex) (envelope : ChatEventEnvelope) (sequence : Nat) :
    ReplayIndex :=
  match envelope.event with
  | .turnStarted _ =>
      if index.currentTurn.any fun turn => turn.turnId = envelope.turnId then index
      else ⟨index.currentTurn, some ⟨envelope.turnId, sequence, none⟩⟩
  | .finish _ _ | .interrupted _ _ | .clear _ => closeTurn index envelope.turnId sequence
  | _ => index

end Delphi.Chat
