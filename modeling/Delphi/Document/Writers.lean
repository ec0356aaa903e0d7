/-
# Delphi.Document.Writers -- any number of writers on one event store

The system in which documents are written only through `append_create` and
`append_update`, interleaved with readers at the granularity of single store
calls.  The store may refuse any call, lose an acknowledgement, report a
conflict that is none or a duplicate that is none.

What makes the log well formed is one fact about `last`: the entry it reported
is still in the stream, so if the compare-and-swap on its sequence is let
through, it is still the last entry and the stamped version is the next one
(`Writers.invariants`).
-/
import Delphi.Theory.Pool
import Delphi.Document.Append
import Delphi.Document.LogCalls
import Delphi.Document.LogShape

namespace Delphi.Document

open Delphi.Theory

set_option autoImplicit false

/-- A client of the event store. -/
inductive Writer where
  | create (event : DocumentEvent)
  | update (tenant documentId : String) (clientVersion : Option Nat)
      (buildEvent : Nat → DocumentEvent)
  | read (tenant documentId : String)

inductive WriterOutcome where
  | appended (result : Except AppendError Appended)
  | history (result : Except EventStoreError (List Entry))

namespace Writer

def main : Writer → Program Ports WriterOutcome
  | .create event => do
      let result ← appendCreate event
      return .appended result
  | .update tenant documentId clientVersion buildEvent => do
      let result ← appendUpdate tenant documentId clientVersion buildEvent
      return .appended result
  | .read tenant documentId => do
      let result ← ask (.readStream tenant documentId)
      return .history result

/-- A create writes a version-1 create authored by a user; an update's builder
stamps the version it is handed, its document, and a version-advancing payload
other than a create. -/
def Stamps : Writer → Prop
  | .create event => Opens event.streamKey event
  | .update tenant documentId _ buildEvent => ∀ version,
      (buildEvent version).streamKey = (tenant, documentId) ∧
      (buildEvent version).version = version ∧
      (buildEvent version).payload.isCreate = false ∧
      (buildEvent version).advancesVersion = true
  | .read _ _ => True

/-- The calls a writer issues: reads, the create, or an event stamped with the
version after the one `last` just reported. -/
def Issues (writer : Writer) (trace : Trace Ports) : PortCall → Prop
  | .append event expect =>
      (writer = .create event ∧ expect = .createOnly) ∨
      ∃ tenant documentId client buildEvent before version seq,
        writer = .update tenant documentId client buildEvent ∧
        trace = before ++ [⟨.last tenant documentId, .ok (some (version, seq))⟩] ∧
        event = buildEvent (version + 1) ∧ expect = .exactly seq
  | _ => True

theorem along_main {A : Trace Ports → (op : PortCall) → op.Ans → Prop} (writer : Writer) :
    Along A writer.Issues (fun _ _ => True) [] writer.main := by
  cases writer with
  | create event =>
      refine Along.bind (along_appendCreate (.inl ⟨rfl, rfl⟩) fun _ => trivial) ?_
      exact fun _ _ _ => trivial
  | update tenant documentId client buildEvent =>
      refine Along.bind (along_appendUpdateFrom (fun _ _ => trivial) ?_ updateAttempts
        (List.prefix_refl []) (fun before _ _ _ => by simp)) fun _ _ _ => trivial
      intro before version seq _
      exact .inr ⟨_, _, _, _, before, version, seq, rfl, rfl, rfl, rfl⟩
  | read tenant documentId => exact ⟨trivial, fun _ _ => trivial⟩

end Writer

namespace Writers

/-- Writers over one event store, with arbitrary spurious conflicts and dedupes,
and a dedupe window that may elapse at any time. -/
def system : System Ports EventStoreState Writer WriterOutcome where
  main := Writer.main
  admits _ writer := writer.Stamps
  serves _ op s answer s' := s.serves True op answer s'
  environment s s' := ∃ key, s' = s.forget key

/-- Every stream is well formed, its events all advance the version, and
sequences increase. -/
structure Formed (s : EventStoreState) : Prop where
  consistent : s.Consistent
  wellFormed : ∀ key, WellFormed key (s.streams key)
  advancing : ∀ key, ∀ entry ∈ s.streams key, entry.2.advancesVersion = true

def invariants : Invariants Ports EventStoreState Writer where
  inv := Formed
  input _ writer := writer.Stamps
  fact _ s _ op answer := s.known True op answer

/-- An event that continues its stream may be pushed. -/
theorem Formed.push {s : EventStoreState} (formed : Formed s) {event : DocumentEvent}
    (fits : WellFormed event.streamKey (s.streams event.streamKey ++ [(s.head + 1, event)]))
    (advances : event.advancesVersion = true) : Formed (s.push event) := by
  refine ⟨formed.consistent.push event, fun key => ?_, fun key entry mem => ?_⟩
  · by_cases same : key = event.streamKey
    · subst same
      rw [EventStoreState.push_streams_self]
      exact fits
    · rw [EventStoreState.push_streams_of_ne s same]
      exact formed.wellFormed key
  · rcases EventStoreState.mem_push mem with old | ⟨-, rfl⟩
    · exact formed.advancing key entry old
    · exact advances

/-- The step lemma: an append a writer issues keeps the log well formed. -/
theorem formed_of_append {s s' : EventStoreState} {writer : Writer} {trace : Trace Ports}
    {event : DocumentEvent} {expect : Expect} {answer : Except EventStoreError Appended}
    (formed : Formed s) (stamps : writer.Stamps)
    (facts : Facts (fun _ op answer => s.known True op answer) trace)
    (issued : writer.Issues trace (.append event expect))
    (served : s.Served True event expect answer s') : Formed s' := by
  rcases served.effect with rfl | ⟨⟨-, expected⟩, rfl⟩
  · exact formed
  rcases issued with ⟨rfl, rfl⟩ | ⟨tenant, documentId, client, buildEvent, before, version, seq,
    rfl, rfl, rfl, rfl⟩
  · have empty := formed.consistent.eq_nil_of_lastSeq expected
    refine formed.push ?_ (DocumentEventPayload.advancesVersion_of_isCreate stamps.create)
    rw [empty]
    exact .opened stamps
  · obtain ⟨addressed, stamped, later, advances⟩ := stamps (version + 1)
    obtain ⟨previous, mem, previousVersion⟩ :
        s.known True (.last tenant documentId) (.ok (some (version, seq))) :=
      (facts_snoc.mp facts).2
    have still : lastSeq (s.streams (buildEvent (version + 1)).streamKey) = seq := expected
    rw [← addressed] at mem
    obtain ⟨nonempty, head⟩ := formed.consistent.headVersion_of_lastSeq mem still
    refine formed.push (.continued (formed.wellFormed _) nonempty ⟨rfl, later, ?_⟩) advances
    rw [nextVersion, advances, if_pos rfl, head, previousVersion, stamped]

theorem holds {c : Config Ports EventStoreState Writer WriterOutcome}
    (reached : system.Reaches System.anyStep ⟨.empty, []⟩ c) : invariants.Holds system c := by
  refine Invariants.holds_of_reaches (I := invariants) ?_ (fun _ _ _ stamps => stamps) ?_ ?_ reached
  · exact ⟨EventStoreState.consistent_empty, fun _ => .empty, fun _ _ mem => by cases mem⟩
  · intro c n t op next answer s' holds found stands served _
    change c.shared.serves True op answer s' at served
    have knows := holds.tasks t (System.mem_of_found found)
    have grows := EventStoreState.serves_grows served
    have formed : Formed s' := by
      cases op with
      | append event expect =>
          have issued := knows.issues (Writer.along_main t.input) stands
          exact formed_of_append holds.inv knows.input knows.facts issued served
      | _ => exact EventStoreState.serves_same served (by simp) ▸ holds.inv
    exact ⟨⟨formed, fun _ stamps => stamps, fun _ _ op answer => EventStoreState.known_grows grows op answer⟩,
      EventStoreState.known_of_served holds.inv.consistent served⟩
  · rintro c s' holds ⟨key, rfl⟩ -
    exact ⟨⟨holds.inv.consistent.forget key, holds.inv.wellFormed, holds.inv.advancing⟩,
      fun _ stamps => stamps, fun _ _ op answer => EventStoreState.known_grows (.refl _) op answer⟩

/-- In every state the writers can reach, a non-empty stream starts with its
only create at version 1, the `i`-th event has version `i`, sequences strictly
increase, and the stream folds to exactly the pair `last` reports. -/
theorem log_wellFormed {c : Config Ports EventStoreState Writer WriterOutcome}
    (reached : system.Reaches System.anyStep ⟨.empty, []⟩ c) (tenant documentId : String)
    (nonempty : c.shared.readStream tenant documentId ≠ []) :
    (∃ first rest, c.shared.readStream tenant documentId = first :: rest ∧
      first.2.payload.isCreate = true ∧ first.2.version = 1 ∧
      ∀ entry ∈ rest, entry.2.payload.isCreate = false) ∧
    (∀ i entry, (c.shared.readStream tenant documentId)[i]? = some entry →
      entry.2.version = i + 1) ∧
    (c.shared.readStream tenant documentId).Pairwise (fun earlier later => earlier.1 < later.1) ∧
    ∃ state, foldHistory (c.shared.readStream tenant documentId) = .ok (some state) ∧
      c.shared.last tenant documentId = some (state.version, state.streamSeq) := by
  have formed : Formed c.shared := (holds reached).inv
  have shape := formed.wellFormed (tenant, documentId)
  obtain ⟨first, rest, split, opens, others⟩ := shape.first nonempty
  obtain ⟨-, versions⟩ := shape.version_of_advancing (formed.advancing _)
  obtain ⟨state, folded, version, seq, -⟩ := shape.folds nonempty
  refine ⟨⟨first, rest, split, opens.create, opens.version, others⟩, versions,
    formed.consistent.increasing _, state, folded, ?_⟩
  obtain ⟨front, entry, back⟩ := (List.eq_nil_or_concat _).resolve_left nonempty
  rw [List.concat_eq_append] at back
  have stream : c.shared.streams (tenant, documentId) = front ++ [entry] := back
  rw [version, seq, stream]
  simp [EventStoreState.last, stream]

/-- A create and an update by two writers. -/
theorem log_wellFormed_of_create_then_update :
    ∃ c, system.Reaches System.anyStep ⟨.empty, []⟩ c ∧
      (c.shared.readStream "acme" "doc").length = 2 ∧
      ∃ state, foldHistory (c.shared.readStream "acme" "doc") = .ok (some state) ∧
        c.shared.last "acme" "doc" = some (state.version, state.streamSeq) := by
  let create : DocumentEvent :=
    ⟨1, "e1", "acme", "doc", .user "ann", 1, 0, .documentCreated ⟨"u1", "f", "t", 1, "c", {}⟩⟩
  let rename (version : Nat) : DocumentEvent :=
    ⟨1, "e2", "acme", "doc", .user "ann", version, 0, .documentMetadataChanged {}⟩
  have start : system.Reaches System.anyStep ⟨.empty, []⟩ ⟨.empty, []⟩ := System.Reaches.refl _
  have created := (start.spawned (.create create) ⟨rfl, rfl, ⟨"ann", rfl⟩, rfl⟩ trivial).called 0
    rfl rfl _ _ EventStoreState.Served.answered trivial
  have read := (created.spawned (.update "acme" "doc" none rename)
    (fun _ => ⟨rfl, rfl, rfl, rfl⟩) trivial).called 1 rfl rfl (.ok (some (1, 1))) _
    ⟨rfl, .inl rfl⟩ trivial
  have renamed := read.called 1 rfl rfl _ _ EventStoreState.Served.answered trivial
  refine ⟨_, renamed, rfl, ?_⟩
  exact (log_wellFormed renamed "acme" "doc" (by decide)).2.2.2

end Writers

end Delphi.Document
