/-
# Delphi.Document.EventStore -- the append-only log behind its port

The event store of `document-app`: one stream per document, one sequence counter
for all of them, and a publish that is deduplicated on its event id *before* the
expected last sequence is compared.  `EventStoreState.append` is
`MemoryEventStore::append`; the injected faults of the double are not fields
here but answers the store may give (`Served`): an error with no effect, and an
error for an append that did become durable.

An append does one of three things (`append_cases`), and its only effect is
`push`; a stream therefore only ever grows at its end (`Grows`).
-/
import Mathlib.Data.List.Basic
import Mathlib.Logic.Function.Basic
import Delphi.Document.Events

namespace Delphi.Document

set_option autoImplicit false

/-- What the caller believes the document's last sequence to be. -/
inductive Expect where
  | createOnly
  | exactly (seq : Nat)
deriving DecidableEq

namespace Expect

def sequence : Expect → Nat
  | .createOnly => 0
  | .exactly seq => seq

end Expect

structure Appended where
  streamSeq : Nat
  version : Nat
  /-- The store deduplicated this publish on its id. -/
  duplicate : Bool
deriving DecidableEq

inductive EventStoreError where
  | conflict
  | unavailable (message : String)
  | payload (message : String)
deriving DecidableEq

namespace EventStoreError

def display : EventStoreError → String
  | .conflict => "expected sequence conflict"
  | .unavailable message => "event store unavailable: " ++ message
  | .payload message => "event store payload error: " ++ message

end EventStoreError

/-- `(tenant, document)`. -/
abbrev StreamKey := String × String

def DocumentEvent.streamKey (event : DocumentEvent) : StreamKey :=
  (event.tenantId, event.documentId)

/-- Sequence of the last entry, 0 on an empty stream. -/
def lastSeq (stream : List Entry) : Nat := (stream.getLast?.map Prod.fst).getD 0

/-- Version of the last entry, 0 on an empty stream. -/
def headVersion (stream : List Entry) : Nat :=
  (stream.getLast?.map fun entry => entry.2.version).getD 0

@[simp] theorem lastSeq_nil : lastSeq [] = 0 := rfl

@[simp] theorem lastSeq_snoc (stream : List Entry) (entry : Entry) :
    lastSeq (stream ++ [entry]) = entry.1 := by simp [lastSeq]

@[simp] theorem headVersion_snoc (stream : List Entry) (entry : Entry) :
    headVersion (stream ++ [entry]) = entry.2.version := by simp [headVersion]

/-- The last entry of a stream that has one. -/
theorem lastSeq_mem {stream : List Entry} (nonempty : stream ≠ []) :
    ∃ event, (lastSeq stream, event) ∈ stream := by
  rcases List.eq_nil_or_concat stream with rfl | ⟨front, entry, rfl⟩
  · exact absurd rfl nonempty
  · rw [List.concat_eq_append, lastSeq_snoc]
    exact ⟨entry.2, by simp⟩

structure EventStoreState where
  streams : StreamKey → List Entry
  /-- Ids still inside the dedupe window, and the sequence each first landed at. -/
  seen : StreamKey × String → Option Nat
  head : Nat

namespace EventStoreState

def empty : EventStoreState := ⟨fun _ => [], fun _ => none, 0⟩

/-- The event becomes durable at the next sequence. -/
def push (s : EventStoreState) (event : DocumentEvent) : EventStoreState where
  streams := Function.update s.streams event.streamKey
    (s.streams event.streamKey ++ [(s.head + 1, event)])
  seen := Function.update s.seen (event.streamKey, event.eventId) (some (s.head + 1))
  head := s.head + 1

/-- The version of the entry a duplicate first landed as. -/
def originalVersion (s : EventStoreState) (event : DocumentEvent) (sequence : Nat) : Nat :=
  let existing := (s.streams event.streamKey).find? fun entry => entry.1 = sequence
  (existing.map fun entry => entry.2.version).getD event.version

def append (s : EventStoreState) (event : DocumentEvent) (expect : Expect) :
    Except EventStoreError Appended × EventStoreState :=
  -- Dedupe wins over the expected sequence.
  match s.seen (event.streamKey, event.eventId) with
  | some sequence => (.ok ⟨sequence, s.originalVersion event sequence, true⟩, s)
  | none =>
      if lastSeq (s.streams event.streamKey) ≠ expect.sequence then (.error .conflict, s)
      else (.ok ⟨s.head + 1, event.version, false⟩, s.push event)

/-- `(version, stream_seq)` of the document's last event. -/
def last (s : EventStoreState) (tenant documentId : String) : Option (Nat × Nat) :=
  ((s.streams (tenant, documentId)).getLast?).map fun entry => (entry.2.version, entry.1)

def readStream (s : EventStoreState) (tenant documentId : String) : List Entry :=
  s.streams (tenant, documentId)

/-- The dedupe window of one id has elapsed. -/
def forget (s : EventStoreState) (key : StreamKey × String) : EventStoreState :=
  { s with seen := Function.update s.seen key none }

/-! ## What an append does -/

/-- The append would be let through. -/
def Lets (s : EventStoreState) (event : DocumentEvent) (expect : Expect) : Prop :=
  s.seen (event.streamKey, event.eventId) = none ∧
    lastSeq (s.streams event.streamKey) = expect.sequence

theorem append_cases (s : EventStoreState) (event : DocumentEvent) (expect : Expect) :
    (∃ sequence version, s.seen (event.streamKey, event.eventId) = some sequence ∧
      s.append event expect = (.ok ⟨sequence, version, true⟩, s)) ∨
    (s.append event expect = (.error .conflict, s)) ∨
    (s.Lets event expect ∧
      s.append event expect = (.ok ⟨s.head + 1, event.version, false⟩, s.push event)) := by
  cases seen : s.seen (event.streamKey, event.eventId) with
  | some sequence =>
      exact .inl ⟨sequence, s.originalVersion event sequence, rfl, by simp only [append, seen]⟩
  | none =>
      by_cases same : lastSeq (s.streams event.streamKey) = expect.sequence
      · exact .inr (.inr ⟨⟨seen, same⟩, by simp [append, seen, same]⟩)
      · exact .inr (.inl (by simp [append, seen, same]))

/-- What the store may answer to an append, and what it then holds. With
`spurious`, it may also report a duplicate that is none. -/
inductive Served (spurious : Prop) (s : EventStoreState) (event : DocumentEvent)
    (expect : Expect) : Except EventStoreError Appended → EventStoreState → Prop where
  | answered : Served spurious s event expect (s.append event expect).1 (s.append event expect).2
  | refused (error : EventStoreError) : Served spurious s event expect (.error error) s
  | unacknowledged (error : EventStoreError) (lost : error ≠ .conflict) :
      Served spurious s event expect (.error error) (s.append event expect).2
  | deduplicated (sequence version : Nat) (allowed : spurious) :
      Served spurious s event expect (.ok ⟨sequence, version, true⟩) s

/-- The effect of a served append: nothing, or the event pushed. -/
theorem Served.effect {spurious : Prop} {s s' : EventStoreState} {event : DocumentEvent}
    {expect : Expect} {answer : Except EventStoreError Appended}
    (served : s.Served spurious event expect answer s') :
    s' = s ∨ (s.Lets event expect ∧ s' = s.push event) := by
  have effect : (s.append event expect).2 = s ∨
      (s.Lets event expect ∧ (s.append event expect).2 = s.push event) := by
    rcases s.append_cases event expect with ⟨_, _, _, same⟩ | same | ⟨lets, same⟩
    · exact .inl (by rw [same])
    · exact .inl (by rw [same])
    · exact .inr ⟨lets, by rw [same]⟩
  cases served with
  | answered => exact effect
  | refused error => exact .inl rfl
  | unacknowledged error lost => exact effect
  | deduplicated sequence version allowed => exact .inl rfl

/-- A positive answer without spurious dedupes: the id was seen and nothing
happened, or the event was let through at the next sequence. -/
theorem Served.ok {s s' : EventStoreState} {event : DocumentEvent} {expect : Expect}
    {appended : Appended} (served : s.Served False event expect (.ok appended) s') :
    (appended.duplicate = true ∧ s' = s ∧ ∃ sequence,
      s.seen (event.streamKey, event.eventId) = some sequence) ∨
    (appended = ⟨s.head + 1, event.version, false⟩ ∧ s.Lets event expect ∧ s' = s.push event) := by
  generalize shape : (Except.ok appended : Except EventStoreError Appended) = answer at served
  cases served with
  | answered =>
      rcases s.append_cases event expect with ⟨_, _, seen, same⟩ | same | ⟨lets, same⟩
      · rw [same] at shape ⊢
        cases shape
        exact .inl ⟨rfl, rfl, _, seen⟩
      · rw [same] at shape
        cases shape
      · rw [same] at shape ⊢
        cases shape
        exact .inr ⟨rfl, lets, rfl⟩
  | refused error => cases shape
  | unacknowledged error lost => cases shape
  | deduplicated sequence version allowed => exact allowed.elim

/-- A conflict reported by the store leaves it alone. -/
theorem Served.conflict {spurious : Prop} {s s' : EventStoreState} {event : DocumentEvent}
    {expect : Expect} (served : s.Served spurious event expect (.error .conflict) s') : s' = s := by
  generalize shape : (Except.error .conflict : Except EventStoreError Appended) = answer at served
  cases served with
  | answered =>
      rcases s.append_cases event expect with ⟨_, _, _, same⟩ | same | ⟨_, same⟩ <;>
        rw [same] at shape ⊢
      cases shape
  | refused error => rfl
  | unacknowledged error lost =>
      cases shape
      exact absurd rfl lost
  | deduplicated sequence version allowed => cases shape

/-! ## Streams only grow -/

/-- Every stream of `s` is a prefix of the same stream of `s'`. -/
def Grows (s s' : EventStoreState) : Prop := ∀ key, s.streams key <+: s'.streams key

theorem Grows.refl (s : EventStoreState) : s.Grows s := fun _ => List.prefix_rfl

theorem Grows.trans {s s' s'' : EventStoreState} (first : s.Grows s') (second : s'.Grows s'') :
    s.Grows s'' := fun key => (first key).trans (second key)

theorem Grows.mem {s s' : EventStoreState} (grows : s.Grows s') {key : StreamKey} {entry : Entry}
    (mem : entry ∈ s.streams key) : entry ∈ s'.streams key := (grows key).subset mem

@[simp] theorem push_head (s : EventStoreState) (event : DocumentEvent) :
    (s.push event).head = s.head + 1 := rfl

theorem push_streams_self (s : EventStoreState) (event : DocumentEvent) :
    (s.push event).streams event.streamKey =
      s.streams event.streamKey ++ [(s.head + 1, event)] := by
  simp [push]

theorem push_streams_of_ne (s : EventStoreState) {event : DocumentEvent} {key : StreamKey}
    (other : key ≠ event.streamKey) : (s.push event).streams key = s.streams key := by
  simp [push, Function.update_of_ne other]

theorem push_seen_of_ne (s : EventStoreState) {event : DocumentEvent} {id : StreamKey × String}
    (other : id ≠ (event.streamKey, event.eventId)) : (s.push event).seen id = s.seen id := by
  simp [push, Function.update_of_ne other]

theorem push_grows (s : EventStoreState) (event : DocumentEvent) : s.Grows (s.push event) := by
  intro key
  by_cases same : key = event.streamKey
  · subst same
    rw [push_streams_self]
    exact List.prefix_append _ _
  · simp [push_streams_of_ne s same]

theorem mem_push {s : EventStoreState} {event : DocumentEvent} {key : StreamKey} {entry : Entry}
    (mem : entry ∈ (s.push event).streams key) :
    entry ∈ s.streams key ∨ (key = event.streamKey ∧ entry = (s.head + 1, event)) := by
  by_cases same : key = event.streamKey
  · subst same
    rw [push_streams_self] at mem
    rcases List.mem_append.mp mem with old | new
    · exact .inl old
    · exact .inr ⟨rfl, List.mem_singleton.mp new⟩
  · rw [push_streams_of_ne s same] at mem
    exact .inl mem

theorem push_mem (s : EventStoreState) (event : DocumentEvent) :
    (s.head + 1, event) ∈ (s.push event).streams event.streamKey := by
  rw [push_streams_self]
  exact List.mem_append_right _ (List.mem_singleton_self _)

theorem Served.grows {spurious : Prop} {s s' : EventStoreState} {event : DocumentEvent}
    {expect : Expect} {answer : Except EventStoreError Appended}
    (served : s.Served spurious event expect answer s') : s.Grows s' := by
  rcases served.effect with rfl | ⟨-, rfl⟩
  · exact Grows.refl _
  · exact push_grows s event

@[simp] theorem forget_streams (s : EventStoreState) (key : StreamKey × String) :
    (s.forget key).streams = s.streams := rfl

theorem forget_seen {s : EventStoreState} {key id : StreamKey × String} {sequence : Nat}
    (seen : (s.forget key).seen id = some sequence) : s.seen id = some sequence := by
  unfold forget at seen
  by_cases same : id = key
  · subst same
    simp at seen
  · simpa [Function.update_of_ne same] using seen

/-- What `last` reports is the last entry of the stream. -/
theorem last_eq_some {s : EventStoreState} {tenant documentId : String} {version seq : Nat}
    (found : s.last tenant documentId = some (version, seq)) :
    ∃ front event, s.streams (tenant, documentId) = front ++ [(seq, event)] ∧
      event.version = version := by
  unfold last at found
  rcases List.eq_nil_or_concat (s.streams (tenant, documentId)) with empty | ⟨front, entry, shape⟩
  · simp [empty] at found
  · rw [shape, List.concat_eq_append] at found
    simp only [List.getLast?_append, List.getLast?_singleton, Option.some_or, Option.map_some,
      Option.some.injEq, Prod.mk.injEq] at found
    obtain ⟨rfl, rfl⟩ := found
    exact ⟨front, entry.2, by rw [shape, List.concat_eq_append], rfl⟩

/-! ## Consistency -/

/-- Entries carry strictly increasing sequences, all counted by the head, and an
id is remembered only of an entry. -/
structure Consistent (s : EventStoreState) : Prop where
  increasing : ∀ key, (s.streams key).Pairwise fun earlier later => earlier.1 < later.1
  counted : ∀ key, ∀ entry ∈ s.streams key, 0 < entry.1 ∧ entry.1 ≤ s.head
  remembered : ∀ key id sequence, s.seen (key, id) = some sequence →
    ∃ entry ∈ s.streams key, entry.2.eventId = id

theorem consistent_empty : Consistent empty :=
  ⟨fun _ => List.Pairwise.nil, by simp [empty], by simp [empty]⟩

theorem Consistent.push {s : EventStoreState} (consistent : s.Consistent) (event : DocumentEvent) :
    (s.push event).Consistent := by
  refine ⟨fun key => ?_, fun key entry mem => ?_, fun key id sequence seen => ?_⟩
  · by_cases same : key = event.streamKey
    · subst same
      rw [push_streams_self, List.pairwise_append]
      refine ⟨consistent.increasing _, List.pairwise_singleton _ _, fun entry mem new added => ?_⟩
      obtain rfl := List.mem_singleton.mp added
      have := (consistent.counted _ entry mem).2
      exact Nat.lt_succ_of_le this
    · rw [push_streams_of_ne s same]
      exact consistent.increasing key
  · rcases mem_push mem with old | ⟨-, rfl⟩
    · obtain ⟨pos, le⟩ := consistent.counted key entry old
      exact ⟨pos, Nat.le_succ_of_le le⟩
    · exact ⟨Nat.succ_pos _, Nat.le_refl _⟩
  · by_cases same : (key, id) = (event.streamKey, event.eventId)
    · cases same
      exact ⟨_, s.push_mem event, rfl⟩
    · rw [push_seen_of_ne s same] at seen
      obtain ⟨entry, mem, found⟩ := consistent.remembered key id sequence seen
      exact ⟨entry, (s.push_grows event).mem mem, found⟩

theorem Consistent.forget {s : EventStoreState} (consistent : s.Consistent)
    (key : StreamKey × String) : (s.forget key).Consistent :=
  ⟨consistent.increasing, consistent.counted,
    fun stream id sequence seen => consistent.remembered stream id sequence (forget_seen seen)⟩

/-- A non-empty stream's last sequence is positive, so a create-only append is
let through on an empty stream only. -/
theorem Consistent.eq_nil_of_lastSeq {s : EventStoreState} (consistent : s.Consistent)
    {key : StreamKey} (zero : lastSeq (s.streams key) = 0) : s.streams key = [] := by
  rcases List.eq_nil_or_concat (s.streams key) with empty | ⟨front, entry, shape⟩
  · exact empty
  · rw [List.concat_eq_append] at shape
    have mem : entry ∈ s.streams key := by rw [shape]; simp
    have positive := (consistent.counted key entry mem).1
    rw [shape, lastSeq_snoc] at zero
    omega

/-- An entry whose sequence is the stream's last one is its last entry. -/
theorem Consistent.headVersion_of_lastSeq {s : EventStoreState} (consistent : s.Consistent)
    {key : StreamKey} {seq : Nat} {event : DocumentEvent} (mem : (seq, event) ∈ s.streams key)
    (still : lastSeq (s.streams key) = seq) :
    s.streams key ≠ [] ∧ headVersion (s.streams key) = event.version := by
  rcases List.eq_nil_or_concat (s.streams key) with empty | ⟨front, entry, shape⟩
  · rw [empty] at mem
    cases mem
  · rw [List.concat_eq_append] at shape
    rw [shape] at mem still
    rw [lastSeq_snoc] at still
    have increasing := consistent.increasing key
    rw [shape, List.pairwise_append] at increasing
    rcases List.mem_append.mp mem with old | new
    · have := increasing.2.2 _ old entry (List.mem_singleton_self _)
      simp only at this
      omega
    · obtain rfl := List.mem_singleton.mp new
      exact ⟨by simp [shape], by simp [shape]⟩

end EventStoreState

end Delphi.Document
