/-
# Delphi.Document.AppendContract -- what an update promises beside other writers

`append_update` against a store that other writers move between any two of its
calls.  The version it checks is the version of the entry it read; the sequence
it compares is that entry's, and sequences are never reused, so an append that is
let through stands directly behind the entry the check was about.  Every answer
but a fresh one, and a failure of the append itself, leaves the log alone
(`UpdateOutcome`).

A conflict means that an entry landed between the read and the append of that
attempt.  Three of them exhaust the call, so writers that disturb two attempts at
most, and never move the version, cannot make it fail (`conflict_disturbed`).
-/
import Mathlib.Logic.Relation
import Delphi.Document.Append
import Delphi.Document.LogCalls

namespace Delphi.Document

open Delphi.Theory
open Relation (ReflTransGen)

set_option autoImplicit false

namespace EventStoreState

/-- Another writer appends, or the dedupe window of an id elapses. -/
inductive Moves (s : EventStoreState) : EventStoreState → Prop where
  | append (event : DocumentEvent) (expect : Expect) : Moves s (s.append event expect).2
  | forget (key : StreamKey × String) : Moves s (s.forget key)

/-- Any number of moves of others. -/
def Others : EventStoreState → EventStoreState → Prop := ReflTransGen Moves

theorem Moves.effect {s s' : EventStoreState} (moves : s.Moves s') :
    s.Grows s' ∧ (s.Consistent → s'.Consistent) := by
  cases moves with
  | append event expect =>
      rcases s.append_cases event expect with ⟨_, _, _, same⟩ | same | ⟨-, same⟩
      · rw [same]
        exact ⟨Grows.refl s, id⟩
      · rw [same]
        exact ⟨Grows.refl s, id⟩
      · rw [same]
        exact ⟨push_grows s event, fun consistent => consistent.push event⟩
  | forget key => exact ⟨fun _ => List.prefix_rfl, fun consistent => consistent.forget key⟩

theorem Others.effect {s s' : EventStoreState} (others : s.Others s') :
    s.Grows s' ∧ (s.Consistent → s'.Consistent) := by
  induction others with
  | refl => exact ⟨Grows.refl s, id⟩
  | tail _ move ih =>
      obtain ⟨grows, keeps⟩ := Moves.effect move
      exact ⟨ih.1.trans grows, fun consistent => keeps (ih.2 consistent)⟩

/-- A store other writers filled from empty. -/
def Reached (s : EventStoreState) : Prop := empty.Others s

theorem Reached.consistent {s : EventStoreState} (reached : s.Reached) : s.Consistent :=
  (Others.effect reached).2 consistent_empty

end EventStoreState

open EventStoreState

/-- One call of an update, with the store before and after it. -/
abbrev LogExchange := Exchange Ports EventStoreState

/-- The call left the log alone. -/
def LogExchange.Quiet (exchange : LogExchange) : Prop := exchange.after = exchange.before

/-- What an update did: one append behind the entry it read, nothing, or an append
whose failure it reports. -/
inductive UpdateOutcome (key : StreamKey) (client : Option Nat) (buildEvent : Nat → DocumentEvent) :
    List LogExchange → Except AppendError Appended → Prop where
  | appended (front : List LogExchange) {before : EventStoreState} {version seq : Nat}
      {older : List Entry} {predecessor : DocumentEvent}
      {answer : Except EventStoreError Appended}
      (quiet : ∀ exchange ∈ front, exchange.Quiet)
      (stream : before.streams key = older ++ [(seq, predecessor)])
      (checked : predecessor.version = version) (matched : ∀ given ∈ client, given = version) :
      UpdateOutcome key client buildEvent
        (front ++ [⟨before, .append (buildEvent (version + 1)) (.exactly seq), answer,
          before.push (buildEvent (version + 1))⟩])
        (.ok ⟨before.head + 1, (buildEvent (version + 1)).version, false⟩)
  | nothing {exchanges : List LogExchange} {result : Except AppendError Appended}
      (quiet : ∀ exchange ∈ exchanges, exchange.Quiet)
      (old : ∀ appended, result = .ok appended → appended.duplicate = true) :
      UpdateOutcome key client buildEvent exchanges result
  | failed (front : List LogExchange) {before after : EventStoreState} {event : DocumentEvent}
      {expect : Expect} {error : EventStoreError} :
      UpdateOutcome key client buildEvent
        (front ++ [⟨before, .append event expect, .error error, after⟩]) (.error (.store error))

section Outcome

variable {key : StreamKey} {client : Option Nat} {buildEvent : Nat → DocumentEvent}

theorem UpdateOutcome.cons {exchange : LogExchange} {exchanges : List LogExchange}
    {result : Except AppendError Appended}
    (outcome : UpdateOutcome key client buildEvent exchanges result) (quiet : exchange.Quiet) :
    UpdateOutcome key client buildEvent (exchange :: exchanges) result := by
  have also : ∀ {rest : List LogExchange}, (∀ other ∈ rest, other.Quiet) →
      ∀ other ∈ exchange :: rest, other.Quiet := by
    intro rest others other mem
    rcases List.mem_cons.mp mem with rfl | later
    · exact quiet
    · exact others other later
  cases outcome with
  | appended front before stream checked matched =>
      exact .appended (exchange :: front) (also before) stream checked matched
  | nothing before old => exact .nothing (also before) old
  | failed front => exact .failed (exchange :: front)

theorem matched_of_staleClient {version : Nat} (current : staleClient client version = none) :
    ∀ given ∈ client, given = version := by
  intro given mem
  rw [staleClient, Option.mem_def.mp mem] at current
  by_contra other
  simp [Option.filter, other] at current

/-- The entry an update read is the last one of its stream when the append it
compares it with is let through. -/
theorem stream_of_lets {s : EventStoreState} {event : DocumentEvent} {seq version : Nat}
    (consistent : s.Consistent) (lets : s.Lets event (.exactly seq))
    (read : ∃ entry, (seq, entry) ∈ s.streams event.streamKey ∧ entry.version = version) :
    ∃ older predecessor, s.streams event.streamKey = older ++ [(seq, predecessor)] ∧
      predecessor.version = version := by
  obtain ⟨entry, mem, sameVersion⟩ := read
  have last : lastSeq (s.streams event.streamKey) = seq := lets.2
  obtain ⟨nonempty, head⟩ := consistent.headVersion_of_lastSeq mem last
  rcases List.eq_nil_or_concat (s.streams event.streamKey) with empty | ⟨older, final, shape⟩
  · exact absurd empty nonempty
  · rw [List.concat_eq_append] at shape
    rw [shape, lastSeq_snoc] at last
    rw [shape, headVersion_snoc] at head
    subst last
    exact ⟨older, final.2, shape, head.trans sameVersion⟩

/-- A duplicate is read back; nothing of that touches the log. -/
theorem outcome_of_duplicate {tenant documentId : String} {appended : Appended}
    (duplicate : appended.duplicate = true) {s : EventStoreState} {exchanges : List LogExchange}
    {result : Except AppendError Appended}
    (run : Program.Beside (EventStoreState.serves False) Others s
      (resolveDuplicate tenant documentId appended) exchanges result) :
    UpdateOutcome key client buildEvent exchanges result := by
  unfold resolveDuplicate at run
  rw [if_neg (by simp [duplicate])] at run
  obtain ⟨before, answer, after, rest, rfl, -, ⟨rfl, -⟩, run⟩ := run
  match answer, run with
  | .ok (some (version, seq)), run =>
      obtain ⟨rfl, rfl⟩ := run
      refine .nothing (by simp [LogExchange.Quiet]) ?_
      rintro appended ⟨⟩
      rfl
  | .ok none, run =>
      obtain ⟨rfl, rfl⟩ := run
      exact .nothing (by simp [LogExchange.Quiet]) (by simp)
  | .error error, run =>
      obtain ⟨rfl, rfl⟩ := run
      exact .nothing (by simp [LogExchange.Quiet]) (by simp)

/-- Every run of an update ends in one of the three outcomes.  The induction is on the
attempts left. -/
theorem updateOutcome_of_run {tenant documentId : String}
    (addressed : ∀ version, (buildEvent version).streamKey = (tenant, documentId))
    (attempts : Nat) {s : EventStoreState} {exchanges : List LogExchange}
    {result : Except AppendError Appended} (consistent : s.Consistent)
    (run : Program.Beside (EventStoreState.serves False) Others s
      (appendUpdateFrom tenant documentId client buildEvent attempts) exchanges result) :
    UpdateOutcome (tenant, documentId) client buildEvent exchanges result := by
  induction attempts generalizing s exchanges with
  | zero =>
      obtain ⟨rfl, rfl⟩ := run
      exact .nothing (by simp) (by simp)
  | succ attempts ih =>
      obtain ⟨before, answer, after, rest, rfl, others, ⟨rfl, answered⟩, run⟩ := run
      have grown := (Others.effect others).2 consistent
      match answer, answered, run with
      | .error error, _, run =>
          obtain ⟨rfl, rfl⟩ := run
          exact .nothing (by simp [LogExchange.Quiet]) (by simp)
      | .ok none, _, run =>
          obtain ⟨rfl, rfl⟩ := run
          exact .nothing (by simp [LogExchange.Quiet]) (by simp)
      | .ok (some (version, seq)), answered, run =>
          have found : after.last tenant documentId = some (version, seq) :=
            eq_of_answered answered
          obtain ⟨older, read, shape, sameVersion⟩ := last_eq_some found
          refine UpdateOutcome.cons ?_ rfl
          simp only [Program.bind] at run
          cases stale : staleClient client version with
          | some given =>
              rw [stale] at run
              obtain ⟨rfl, rfl⟩ := run
              exact .nothing (by simp) (by simp)
          | none =>
              rw [stale] at run
              obtain ⟨swap, answer, swapped, rest, rfl, between, served, run⟩ := run
              obtain ⟨grows, keeps⟩ := Others.effect between
              have swapConsistent := keeps grown
              match answer, served, run with
              | .error .conflict, served, run =>
                  obtain rfl := Served.conflict served
                  exact UpdateOutcome.cons (ih swapConsistent run) rfl
              | .error (.unavailable message), _, run =>
                  obtain ⟨rfl, rfl⟩ := run
                  exact .failed []
              | .error (.payload message), _, run =>
                  obtain ⟨rfl, rfl⟩ := run
                  exact .failed []
              | .ok appended, served, run =>
                  rcases Served.ok served with ⟨duplicate, rfl, -⟩ | ⟨rfl, lets, rfl⟩
                  · exact UpdateOutcome.cons (outcome_of_duplicate duplicate run) rfl
                  · obtain ⟨rfl, rfl⟩ := run
                    have mem : (seq, read) ∈ swap.streams (buildEvent (version + 1)).streamKey := by
                      rw [addressed]
                      exact grows.mem (by rw [shape]; simp)
                    obtain ⟨older', predecessor, stream, checked⟩ :=
                      stream_of_lets swapConsistent lets ⟨read, mem, sameVersion⟩
                    rw [addressed] at stream
                    exact .appended [] (by simp) stream checked
                      (matched_of_staleClient stale)

end Outcome

/-! ## Disturbed attempts -/

/-- The read and the append of each attempt. -/
def attempts : List LogExchange → List (LogExchange × LogExchange)
  | read :: swap :: rest =>
      match read.op, swap.op with
      | .last _ _, .append _ _ => (read, swap) :: attempts rest
      | _, _ => attempts (swap :: rest)
  | _ => []

/-- An entry of the stream landed between the read and the append. -/
def disturbed (key : StreamKey) (attempt : LogExchange × LogExchange) : Bool :=
  (attempt.2.before.streams key).length ≠ (attempt.1.after.streams key).length

/-- A conflict is answered only when the sequence is not the expected one. -/
def LogExchange.Honest : LogExchange → Prop
  | ⟨before, .append event expect, .error .conflict, _⟩ =>
      lastSeq (before.streams event.streamKey) ≠ expect.sequence
  | _ => True

theorem disturbed_of_conflict {s t : EventStoreState} {key : StreamKey} {older : List Entry}
    {seq : Nat} {event : DocumentEvent} (grows : s.Grows t)
    (read : s.streams key = older ++ [(seq, event)]) (moved : lastSeq (t.streams key) ≠ seq) :
    (t.streams key).length ≠ (s.streams key).length := by
  intro same
  apply moved
  rw [← (grows key).eq_of_length same.symm, read, lastSeq_snoc]

section Conflicts

variable {tenant documentId : String} {client : Option Nat} {buildEvent : Nat → DocumentEvent}

theorem resolveDuplicate_no_conflict {appended : Appended} {s : EventStoreState}
    {exchanges : List LogExchange} {result : Except AppendError Appended}
    (run : Program.Beside (EventStoreState.serves False) Others s
      (resolveDuplicate tenant documentId appended) exchanges result) :
    result ≠ .error .conflictRetryExhausted ∧
      ∀ given current, result ≠ .error (.versionMismatch given current) := by
  unfold resolveDuplicate at run
  split at run
  · obtain ⟨rfl, rfl⟩ := run
    simp
  · obtain ⟨before, answer, after, rest, rfl, -, -, run⟩ := run
    match answer, run with
    | .ok (some (version, seq)), run =>
        obtain ⟨rfl, rfl⟩ := run
        simp
    | .ok none, run =>
        obtain ⟨rfl, rfl⟩ := run
        simp
    | .error error, run =>
        obtain ⟨rfl, rfl⟩ := run
        simp

/-- Where the version stays what the client named, an update only runs out of attempts,
and every attempt it ran out of was disturbed. -/
theorem conflict_disturbed {version : Nat}
    (addressed : ∀ version, (buildEvent version).streamKey = (tenant, documentId))
    (named : ∀ given ∈ client, given = version) (n : Nat) {s : EventStoreState}
    {exchanges : List LogExchange} {result : Except AppendError Appended}
    (run : Program.Beside (EventStoreState.serves False) Others s
      (appendUpdateFrom tenant documentId client buildEvent n) exchanges result)
    (steady : ∀ exchange ∈ exchanges,
      headVersion (exchange.before.streams (tenant, documentId)) = version)
    (honest : ∀ exchange ∈ exchanges, exchange.Honest) :
    (∀ given current, result ≠ .error (.versionMismatch given current)) ∧
      (result = .error .conflictRetryExhausted →
        (attempts exchanges).countP (disturbed (tenant, documentId)) = n) := by
  induction n generalizing s exchanges with
  | zero =>
      obtain ⟨rfl, rfl⟩ := run
      exact ⟨by simp, fun _ => rfl⟩
  | succ n ih =>
      obtain ⟨before, answer, after, rest, rfl, -, ⟨rfl, answered⟩, run⟩ := run
      match answer, answered, run with
      | .error error, _, run =>
          obtain ⟨rfl, rfl⟩ := run
          simp
      | .ok none, _, run =>
          obtain ⟨rfl, rfl⟩ := run
          simp
      | .ok (some (current, seq)), answered, run =>
          have found : after.last tenant documentId = some (current, seq) :=
            eq_of_answered answered
          obtain ⟨older, read, shape, sameVersion⟩ := last_eq_some found
          obtain rfl : current = version := by
            have head := steady _ List.mem_cons_self
            rw [shape, headVersion_snoc] at head
            exact sameVersion.symm.trans head
          have fresh : staleClient client current = none := by
            unfold staleClient
            cases client with
            | none => rfl
            | some given => simp [Option.filter, named given rfl]
          simp only [Program.bind] at run
          rw [fresh] at run
          obtain ⟨swap, answer, swapped, rest, rfl, between, served, run⟩ := run
          match answer, served, run with
          | .error .conflict, served, run =>
              obtain rfl := Served.conflict served
              have later := ih run
                (fun exchange mem => steady exchange (List.mem_cons_of_mem _ (List.mem_cons_of_mem _ mem)))
                (fun exchange mem => honest exchange (List.mem_cons_of_mem _ (List.mem_cons_of_mem _ mem)))
              refine ⟨later.1, fun exhausted => ?_⟩
              have moved : lastSeq (swapped.streams (buildEvent (current + 1)).streamKey) ≠ seq :=
                honest _ (List.mem_cons_of_mem _ List.mem_cons_self)
              rw [addressed] at moved
              have longer := disturbed_of_conflict (Others.effect between).1 shape moved
              simp only [attempts]
              rw [List.countP_cons_of_pos (by simpa [disturbed] using longer), later.2 exhausted]
          | .error (.unavailable message), _, run =>
              obtain ⟨rfl, rfl⟩ := run
              simp
          | .error (.payload message), _, run =>
              obtain ⟨rfl, rfl⟩ := run
              simp
          | .ok appended, _, run =>
              obtain ⟨kept, matched⟩ := resolveDuplicate_no_conflict run
              exact ⟨matched, fun exhausted => absurd exhausted kept⟩

end Conflicts

/-! ## The contract -/

/-- One event was appended, directly behind the entry whose version the call checked. -/
def AppendedOnce (key : StreamKey) (client : Option Nat) (exchanges : List LogExchange)
    (appended : Appended) : Prop :=
  ∃ front before event expect answer older seq predecessor,
    exchanges = front ++ [⟨before, .append event expect, answer, before.push event⟩] ∧
    (∀ exchange ∈ front, exchange.Quiet) ∧
    before.streams key = older ++ [(seq, predecessor)] ∧
    (before.push event).streams key =
      older ++ [(seq, predecessor)] ++ [(appended.streamSeq, event)] ∧
    predecessor.version = event.version - 1 ∧ appended.version = event.version ∧
    ∀ given ∈ client, given = predecessor.version

/-- The answers that promise that nothing was appended; the last is a failure of
`last`. -/
def PromisesNothing (tenant documentId : String) (exchanges : List LogExchange) :
    Except AppendError Appended → Prop
  | .error (.versionMismatch _ _) => True
  | .error .noSuchDocument => True
  | .error .conflictRetryExhausted => True
  | .error (.store error) =>
      ∃ front before after,
        exchanges = front ++ [⟨before, .last tenant documentId, .error error, after⟩]
  | _ => False

theorem UpdateOutcome.appendedOnce {tenant documentId : String} {client : Option Nat}
    {buildEvent : Nat → DocumentEvent} {exchanges : List LogExchange} {appended : Appended}
    (built : ∀ version, (buildEvent version).streamKey = (tenant, documentId) ∧
      (buildEvent version).version = version)
    (outcome : UpdateOutcome (tenant, documentId) client buildEvent exchanges (.ok appended))
    (fresh : appended.duplicate = false) :
    AppendedOnce (tenant, documentId) client exchanges appended := by
  generalize shape : (Except.ok appended : Except AppendError Appended) = result at outcome
  cases outcome with
  | @appended front before version seq older predecessor answer quiet stream checked matched =>
      obtain rfl := Except.ok.inj shape
      refine ⟨front, before, _, _, answer, older, seq, predecessor, rfl, quiet, stream, ?_, ?_, rfl, ?_⟩
      · rw [← (built (version + 1)).1, push_streams_self, (built (version + 1)).1, stream]
      · rw [(built (version + 1)).2]
        exact checked
      · intro given mem
        rw [checked]
        exact matched given mem
  | nothing quiet old =>
      rw [old appended shape.symm] at fresh
      cases fresh
  | failed front => cases shape

theorem UpdateOutcome.quiet {tenant documentId : String} {client : Option Nat}
    {buildEvent : Nat → DocumentEvent} {exchanges : List LogExchange}
    {result : Except AppendError Appended}
    (outcome : UpdateOutcome (tenant, documentId) client buildEvent exchanges result)
    (promised : PromisesNothing tenant documentId exchanges result) :
    ∀ exchange ∈ exchanges, exchange.Quiet := by
  cases outcome with
  | appended front quiet stream checked matched => exact promised.elim
  | nothing quiet old => exact quiet
  | failed front =>
      obtain ⟨front', before, after, same⟩ := promised
      obtain ⟨-, last⟩ := List.append_inj' same rfl
      have call := congrArg Exchange.op (List.head_eq_of_cons_eq last)
      cases call

/-- What `append_update` promises beside any other writers: a fresh answer is one event
directly behind the one it checked; a refusal is no event at all; and writers that
leave the version alone and disturb two of the three attempts at most cannot make it
fail with a conflict. -/
theorem append_update_contract {tenant documentId : String} {client : Option Nat}
    {buildEvent : Nat → DocumentEvent} {s : EventStoreState} {exchanges : List LogExchange}
    {result : Except AppendError Appended}
    (built : ∀ version, (buildEvent version).streamKey = (tenant, documentId) ∧
      (buildEvent version).version = version)
    (reached : s.Reached)
    (run : Program.Beside (EventStoreState.serves False) Others s
      (appendUpdate tenant documentId client buildEvent) exchanges result) :
    (∀ appended, result = .ok appended → appended.duplicate = false →
      AppendedOnce (tenant, documentId) client exchanges appended) ∧
    (PromisesNothing tenant documentId exchanges result → ∀ exchange ∈ exchanges, exchange.Quiet) ∧
    ∀ version, (∀ given ∈ client, given = version) →
      (∀ exchange ∈ exchanges,
        headVersion (exchange.before.streams (tenant, documentId)) = version) →
      (∀ exchange ∈ exchanges, exchange.Honest) →
      (attempts exchanges).countP (disturbed (tenant, documentId)) ≤ 2 →
      result ≠ .error .conflictRetryExhausted ∧
        ∀ given current, result ≠ .error (.versionMismatch given current) := by
  have addressed := fun version => (built version).1
  have outcome := updateOutcome_of_run addressed updateAttempts reached.consistent run
  refine ⟨?_, outcome.quiet, ?_⟩
  · rintro appended rfl fresh
    exact outcome.appendedOnce built fresh
  · intro version named steady honest few
    obtain ⟨matched, exhausts⟩ := conflict_disturbed addressed named updateAttempts run steady honest
    refine ⟨fun exhausted => ?_, matched⟩
    have all := exhausts exhausted
    have three : updateAttempts = 3 := rfl
    omega

namespace AppendContract

def event (id : String) (version : Nat) (payload : DocumentEventPayload) : DocumentEvent :=
  ⟨1, id, "acme", "doc-1", .user "user-1", version, 0, payload⟩

def created : DocumentEvent :=
  event "e1" 1 (.documentCreated
    ⟨"upload-1", "a.txt", "text/plain", 3, "00", ⟨none, none, none, none⟩⟩)

def indexed : DocumentEvent := event "e2" 1 (.documentIndexed ⟨1, 12, "m"⟩)

def renamed (version : Nat) : DocumentEvent :=
  event "e3" version (.documentMetadataChanged ⟨some "Report", none, none, none⟩)

def opened : EventStoreState := empty.push created

/-- The index result lands between the first read and its append. -/
def moved : EventStoreState := opened.push indexed

def exchanges : List LogExchange :=
  [⟨opened, .last "acme" "doc-1", .ok (some (1, 1)), opened⟩,
    ⟨moved, .append (renamed 2) (.exactly 1), .error .conflict, moved⟩,
    ⟨moved, .last "acme" "doc-1", .ok (some (1, 2)), moved⟩,
    ⟨moved, .append (renamed 2) (.exactly 2), .ok ⟨3, 2, false⟩, moved.push (renamed 2)⟩]

theorem reached : opened.Reached := by
  apply ReflTransGen.single
  have append : (empty.append created .createOnly).2 = opened := by rfl
  rw [← append]
  exact .append created .createOnly

theorem others_moved : opened.Others moved := by
  apply ReflTransGen.single
  have append : (opened.append indexed (.exactly 1)).2 = moved := by rfl
  rw [← append]
  exact .append indexed (.exactly 1)

theorem run : Program.Beside (EventStoreState.serves False) Others opened
    (appendUpdate "acme" "doc-1" (some 1) renamed) exchanges (.ok ⟨3, 2, false⟩) := by
  refine ⟨_, _, _, _, rfl, .refl, ⟨rfl, .inl rfl⟩, _, _, _, _, rfl, others_moved, ?_, _, _, _, _, rfl,
    .refl, ⟨rfl, .inl rfl⟩, _, _, _, _, rfl, .refl, ?_, rfl, rfl⟩
  · exact .answered
  · exact .answered

end AppendContract

/-- One index result in the window, and the retry lands. -/
theorem append_update_contract_retried :
    AppendedOnce ("acme", "doc-1") (some 1) AppendContract.exchanges ⟨3, 2, false⟩ ∧
      (Except.ok ⟨3, 2, false⟩ : Except AppendError Appended) ≠ .error .conflictRetryExhausted := by
  have built : ∀ version, (AppendContract.renamed version).streamKey = ("acme", "doc-1") ∧
      (AppendContract.renamed version).version = version := fun _ => ⟨rfl, rfl⟩
  obtain ⟨once, -, kept⟩ :=
    append_update_contract built AppendContract.reached AppendContract.run
  refine ⟨once _ rfl rfl, (kept 1 ?_ ?_ ?_ ?_).1⟩
  · rintro given ⟨⟩
    rfl
  · simp only [AppendContract.exchanges, List.forall_mem_cons, List.not_mem_nil, false_implies,
      implies_true, and_true]
    exact ⟨rfl, rfl, rfl, rfl⟩
  · simp only [AppendContract.exchanges, List.forall_mem_cons, List.not_mem_nil, false_implies,
      implies_true, and_true]
    refine ⟨trivial, ?_, trivial, trivial⟩
    show lastSeq (AppendContract.moved.streams ("acme", "doc-1")) ≠ 1
    decide
  · decide

end Delphi.Document
