/-
# Delphi.Document.StreamRead -- reading a document's stream from JetStream

`JetStreamEventStore::read_stream`: an ephemeral ordered consumer, the number of
messages pending when it was created, and a loop that takes that many, at most ten
thousand, or stops when the messages end.

The guards of the worker take the answer for the whole history.  It is one exactly
when the stream held no more than the cap and the messages did not end early
(`stream_read_complete_iff`); otherwise it is a proper beginning of it, reported as
if it were all (`stream_read_truncated`).
-/
import Delphi.Document.Cursor
import Delphi.Document.Worker

namespace Delphi.Document

set_option autoImplicit false

/-! ## The adapter -/

namespace JetStreamEventStore

/-- A message as the consumer yields it: its metadata and its payload, readable or not. -/
structure ReadMessage where
  info : Except String Nat
  payload : Except String DocumentEvent

/-- An ordered consumer: what was pending when it was created, and what it yields until its
messages end. -/
structure ReadConsumer where
  numPending : Nat
  messages : Except String (List (Except String ReadMessage))

def maxStreamRead : Nat := 10000

def readMessage : Except String ReadMessage → Except EventStoreError Entry
  | .error error => .error (.unavailable ("read stream: " ++ error))
  | .ok message =>
      match message.info with
      | .error error => .error (.payload ("missing jetstream metadata: " ++ error))
      | .ok sequence =>
          match message.payload with
          | .error error => .error (.payload ("decode event: " ++ error))
          | .ok event => .ok (sequence, event)

/-- `while events.len() < pending`: with this many to go. -/
def readMessages : Nat → List (Except String ReadMessage) →
    Except EventStoreError (List Entry)
  | 0, _ => .ok []
  -- The messages ended.
  | _ + 1, [] => .ok []
  | remaining + 1, message :: rest =>
      match readMessage message with
      | .error error => .error error
      | .ok entry =>
          match readMessages remaining rest with
          | .error error => .error error
          | .ok entries => .ok (entry :: entries)

def readStream (consumer : Except String ReadConsumer) : Except EventStoreError (List Entry) :=
  match consumer with
  | .error error => .error (.unavailable ("create read consumer: " ++ error))
  | .ok consumer =>
      let pending := min consumer.numPending maxStreamRead
      if pending = 0 then .ok []
      else
        match consumer.messages with
        | .error error => .error (.unavailable ("read stream: " ++ error))
        | .ok messages => readMessages pending messages

/-! ## What the loop returns -/

/-- The loop returns the messages from the first on, as many as were asked for or there. -/
theorem readMessages_ok {pending : Nat} {messages : List (Except String ReadMessage)}
    {events : List Entry} (read : readMessages pending messages = .ok events) :
    events.length = min pending messages.length ∧
      ∀ (i : Nat) (entry : Entry), events[i]? = some entry →
        ∃ message, messages[i]? = some message ∧ readMessage message = .ok entry := by
  induction pending generalizing messages events with
  | zero =>
      cases read
      simp
  | succ remaining ih =>
      cases messages with
      | nil =>
          cases read
          simp
      | cons message rest =>
          simp only [readMessages] at read
          split at read
          · cases read
          · rename_i first taken
            split at read
            · cases read
            · rename_i entries more
              cases read
              obtain ⟨length, each⟩ := ih more
              refine ⟨by simp only [List.length_cons, length]; omega, fun i entry at_i => ?_⟩
              cases i with
              | zero =>
                  obtain rfl := Option.some.inj at_i
                  exact ⟨message, rfl, taken⟩
              | succ i => exact each i entry at_i

theorem readMessage_ok {message : Except String ReadMessage} {entry : Entry}
    (taken : readMessage message = .ok entry) :
    message = .ok ⟨.ok entry.1, .ok entry.2⟩ := by
  unfold readMessage at taken
  split at taken
  · cases taken
  · rename_i held
    obtain ⟨info, payload⟩ := held
    split at taken
    · cases taken
    · rename_i sequence known
      split at taken
      · cases taken
      · rename_i event decoded
        cases taken
        rw [show info = .ok sequence from known, show payload = .ok event from decoded]

namespace ReadConsumer

/-- The consumer of a stream that held these entries, and got those later on: everything is
counted, and the messages come in the order of the stream, none left out. -/
structure Ordered (consumer : ReadConsumer) (held later : List Entry) : Prop where
  counted : consumer.numPending = held.length
  inOrder : ∀ messages, consumer.messages = .ok messages →
    ∀ (i sequence : Nat) (event : DocumentEvent),
      messages[i]? = some (.ok ⟨.ok sequence, .ok event⟩) →
      (held ++ later)[i]? = some (sequence, event)

/-- How many messages it yields before they end. -/
def yielded (consumer : ReadConsumer) : Nat :=
  match consumer.messages with
  | .error _ => 0
  | .ok messages => messages.length

end ReadConsumer

variable {consumer : ReadConsumer} {held later events : List Entry}

/-- A read that succeeds returns a beginning of the stream. -/
theorem readStream_ok (ordered : consumer.Ordered held later)
    (read : readStream (.ok consumer) = .ok events) :
    events = held.take (min maxStreamRead consumer.yielded) := by
  have counted := ordered.counted
  unfold readStream at read
  simp only [counted] at read
  split at read
  · rename_i nothing
    cases read
    have empty : held.length = 0 := by
      unfold maxStreamRead at nothing
      omega
    rw [List.eq_nil_of_length_eq_zero empty, List.take_nil]
  · split at read
    · cases read
    · rename_i messages opened
      obtain ⟨length, each⟩ := readMessages_ok read
      have yielded : consumer.yielded = messages.length := by
        simp only [ReadConsumer.yielded, opened]
      rw [yielded]
      have short : events.length ≤ held.length := by omega
      have size : events.length = (held.take (min maxStreamRead messages.length)).length := by
        rw [List.length_take]
        omega
      refine List.ext_getElem? fun i => ?_
      by_cases inside : i < events.length
      · have found := List.getElem?_eq_getElem inside
        obtain ⟨message, at_i, taken⟩ := each i _ found
        rw [readMessage_ok taken] at at_i
        have here := ordered.inOrder messages opened i _ _ at_i
        rw [List.getElem?_append_left (by omega)] at here
        rw [found, List.getElem?_take_of_lt (by omega), here]
      · rw [List.getElem?_eq_none (by omega), List.getElem?_eq_none (by omega)]

/-- A beginning that is no shorter is all. -/
theorem take_eq_self_iff (n : Nat) : held.take n = held ↔ held.length ≤ n := by
  refine ⟨fun whole => ?_, List.take_of_length_le⟩
  have length := congrArg List.length whole
  rw [List.length_take] at length
  omega

end JetStreamEventStore

/-! ## What the worker makes of it -/

/-- `applied_version` -/
def appliedVersion (history : List Entry) (uploadId : String) : Option Nat :=
  (findApplied history uploadId).map fun entry => entry.2.version

theorem isSome_appliedVersion (history : List Entry) (uploadId : String) :
    (appliedVersion history uploadId).isSome = true ↔
      ∃ entry ∈ history, entry.2.Names uploadId := by
  simp [appliedVersion, findApplied, List.find?_isSome]

/-- The fold of a whole stream is at the version `last` reports. -/
theorem last_of_foldHistory {log : EventStoreState} {tenant documentId : String}
    {state : DocumentState} (folded : foldHistory (log.readStream tenant documentId) = .ok (some state)) :
    ∃ sequence, log.last tenant documentId = some (state.version, sequence) := by
  rcases List.eq_nil_or_concat (log.streams (tenant, documentId)) with empty | ⟨front, entry, shape⟩
  · rw [EventStoreState.readStream, empty] at folded
    cases folded
  · rw [List.concat_eq_append] at shape
    rw [EventStoreState.readStream, shape] at folded
    obtain ⟨version, -, -⟩ := foldHistory_snoc folded
    refine ⟨entry.1, ?_⟩
    simp [EventStoreState.last, shape, version]

open JetStreamEventStore in
/-- A read that succeeds returned every event the stream held, so that both guards find an
upload exactly when the log names it and the fold is where `last` is, if and only if the
stream held no more than the cap and the messages did not end before all of them. -/
theorem stream_read_complete_iff {log : EventStoreState} {tenant documentId : String}
    {later events : List Entry} {consumer : ReadConsumer}
    (ordered : consumer.Ordered (log.readStream tenant documentId) later)
    (read : JetStreamEventStore.readStream (.ok consumer) = .ok events) :
    (events = log.readStream tenant documentId ∧
      (∀ uploadId, (appliedVersion events uploadId).isSome = true ↔
        ∃ entry ∈ log.readStream tenant documentId, entry.2.Names uploadId) ∧
      ∀ state, foldHistory events = .ok (some state) →
        ∃ sequence, log.last tenant documentId = some (state.version, sequence)) ↔
      (log.readStream tenant documentId).length ≤ maxStreamRead ∧
        (log.readStream tenant documentId).length ≤ consumer.yielded := by
  have beginning := readStream_ok ordered read
  have whole : events = log.readStream tenant documentId ↔
      (log.readStream tenant documentId).length ≤ maxStreamRead ∧
        (log.readStream tenant documentId).length ≤ consumer.yielded := by
    rw [beginning, take_eq_self_iff]
    omega
  rw [← whole]
  refine ⟨fun complete => complete.1, fun same => ⟨same, fun uploadId => ?_, fun state folded => ?_⟩⟩
  · rw [same]
    exact isSome_appliedVersion _ _
  · rw [same] at folded
    exact last_of_foldHistory folded

/-! ## A long history -/

namespace LongHistory

open JetStreamEventStore

def uploadId (i : Nat) : String := "u" ++ toString i

def command (i : Nat) : UploadCompleted where
  tenantId := "acme"
  ownerUserId := "ann"
  uploadId := uploadId i
  documentId := "doc"
  mode := if i = 0 then .create else .replace
  storageKey := Keys.objectKey "acme" (uploadId i)
  multipartUploadId := "m"
  filename := "a.txt"
  contentType := "text/plain"
  declaredSize := 4
  ifMatch := none
  onConflict := .supersede
  patch := {}

/-- A create, and then one replaced blob after another. -/
def event : Nat → DocumentEvent
  | 0 => UploadFinisher.createdEvent id (command 0) "" 0
  | i + 1 => UploadFinisher.replacedEvent id (command (i + 1)) "" 0 (i + 2)

theorem event_streamKey (i : Nat) : (event i).streamKey = ("acme", "doc") := by
  cases i <;> rfl

theorem event_blobRef (i : Nat) : (event i).payload.blobRef = some (uploadId i) := by
  cases i <;> rfl

/-- The log of the first uploads. -/
def log : Nat → EventStoreState
  | 0 => .empty
  | n + 1 => (log n).push (event n)

theorem log_head (n : Nat) : (log n).head = n := by
  induction n with
  | zero => rfl
  | succ n ih => rw [log, EventStoreState.push_head, ih]

theorem readStream_log (n : Nat) :
    (log n).readStream "acme" "doc" = (List.range n).map fun i => (i + 1, event i) := by
  induction n with
  | zero => rfl
  | succ n ih =>
      have pushed := EventStoreState.push_streams_self (log n) (event n)
      rw [event_streamKey, log_head] at pushed
      unfold EventStoreState.readStream at ih ⊢
      rw [log, pushed, ih, List.range_succ, List.map_append]
      rfl

/-- A consumer that counts and yields the whole stream. -/
def consumer (held : List Entry) : ReadConsumer where
  numPending := held.length
  messages := .ok (held.map fun entry => .ok ⟨.ok entry.1, .ok entry.2⟩)

theorem ordered_consumer (held : List Entry) : (consumer held).Ordered held [] := by
  refine ⟨rfl, ?_⟩
  rintro messages ⟨⟩ i sequence event found
  rw [List.getElem?_map, Option.map_eq_some_iff] at found
  obtain ⟨entry, at_i, same⟩ := found
  rw [List.append_nil, at_i]
  cases same
  rfl

theorem readMessages_map (n : Nat) (held : List Entry) :
    readMessages n (held.map fun entry => .ok ⟨.ok entry.1, .ok entry.2⟩) = .ok (held.take n) := by
  induction n generalizing held with
  | zero => simp [readMessages]
  | succ n ih =>
      cases held with
      | nil => rfl
      | cons entry rest => simp only [List.map_cons, readMessages, readMessage, ih, List.take_succ_cons]

theorem readStream_consumer (held : List Entry) :
    readStream (.ok (consumer held)) = .ok (held.take (min held.length maxStreamRead)) := by
  simp only [readStream, consumer, readMessages_map]
  split
  · rename_i nothing
    rw [nothing, List.take_zero]
  · rfl

theorem uploadId_injective {i j : Nat} (same : uploadId i = uploadId j) : i = j := by
  have chars := congrArg String.toList same
  simp only [uploadId, String.toList_append, List.append_cancel_left_eq] at chars
  have parsed := congrArg parseDigits chars
  rw [show (toString i).toList = i.repr.toList from rfl,
    show (toString j).toList = j.repr.toList from rfl, parseDigits_repr, parseDigits_repr] at parsed
  exact Option.some.inj parsed

end LongHistory

open JetStreamEventStore LongHistory in
/-- One upload more than the cap: the last one is in the log, and the read does not find it. -/
theorem stream_read_truncated :
    ∃ (log : EventStoreState) (consumer : ReadConsumer) (events : List Entry),
      consumer.Ordered (log.readStream "acme" "doc") [] ∧
      readStream (.ok consumer) = .ok events ∧
      (∃ entry ∈ log.readStream "acme" "doc", entry.2.Names "u10000") ∧
      appliedVersion events "u10000" = none := by
  refine ⟨log 10001, _, _, ordered_consumer _, readStream_consumer _, ?_, ?_⟩
  · rw [readStream_log]
    refine ⟨(10001, event 10000), List.mem_map.mpr ⟨10000, by simp, rfl⟩, ?_⟩
    exact event_blobRef 10000
  · rw [← Option.not_isSome_iff_eq_none, isSome_appliedVersion, readStream_log]
    rintro ⟨entry, mem, names⟩
    rw [List.length_map, List.length_range, ← List.map_take, List.take_range] at mem
    obtain ⟨i, inside, rfl⟩ := List.mem_map.mp mem
    have same : uploadId i = uploadId 10000 := Option.some.inj ((event_blobRef i).symm.trans names)
    rw [uploadId_injective same] at inside
    simp [maxStreamRead] at inside

open JetStreamEventStore LongHistory in
/-- Two uploads: the read returns both, and the second is found. -/
theorem stream_read_complete_two :
    ∃ events, readStream (.ok (consumer ((log 2).readStream "acme" "doc"))) = .ok events ∧
      events = (log 2).readStream "acme" "doc" ∧ (appliedVersion events "u1").isSome = true := by
  have complete := (stream_read_complete_iff (ordered_consumer ((log 2).readStream "acme" "doc"))
    (readStream_consumer _)).mpr ⟨by rw [readStream_log]; decide, by
      simp [ReadConsumer.yielded, consumer]⟩
  refine ⟨_, readStream_consumer _, complete.1, (complete.2.1 "u1").mpr ?_⟩
  rw [readStream_log]
  exact ⟨(2, event 1), List.mem_map.mpr ⟨1, by simp, rfl⟩, event_blobRef 1⟩

end Delphi.Document
