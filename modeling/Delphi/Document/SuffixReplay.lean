/-
# Delphi.Document.SuffixReplay -- a suffix of the log, folded again

A consumer that restarts folds from some position on top of whatever it has
stored.  Over the state of a prefix, every suffix that starts inside the prefix or
directly after it leads to the state of the whole log, field by field.

A log that folds opens with a create, and that create folded onto its own state
is no change: the birth time is the one it gave.  From there on each event is an
overwriting update, and the suffix is a stretch of them.
-/
import Delphi.Document.Fields

namespace Delphi.Document

open Delphi.Theory

set_option autoImplicit false

/-- What an entry of the log does to existing state. -/
def write (entry : Entry) (state : DocumentState) : DocumentState := entry.2.act entry.1 state

/-- An entry that folds on every state of its document. -/
def Live (documentId : String) (entry : Entry) : Prop :=
  entry.2.documentId = documentId ∧ entry.2.inert = false

theorem overwrites_write (entry : Entry) : Overwrites Column.field (write entry) :=
  overwrites_fields entry.2 entry.1

theorem apply_of_live {entry : Entry} {state : DocumentState}
    (live : Live state.documentId entry) :
    apply (some state) entry.2 entry.1 = .ok (write entry state) := by
  rcases DocumentEvent.apply_some entry.1 live.1.symm with ⟨inert, -, -⟩ | ⟨-, folded⟩
  · rw [live.2] at inert
    cases inert
  · exact folded

theorem live_of_apply {entry : Entry} {state next : DocumentState}
    (folded : apply (some state) entry.2 entry.1 = .ok next) :
    Live state.documentId entry ∧ next = write entry state := by
  have same : state.documentId = entry.2.documentId := by
    by_contra differs
    simp [apply, checkDocument, differs] at folded
  rcases DocumentEvent.apply_some entry.1 same with ⟨-, -, error, failed⟩ | ⟨live, wrote⟩
  · rw [failed] at folded
    cases folded
  · rw [wrote] at folded
    exact ⟨⟨same.symm, live⟩, (Except.ok.inj folded).symm⟩

theorem write_documentId {entry : Entry} {state : DocumentState}
    (live : Live state.documentId entry) :
    (write entry state).documentId = state.documentId :=
  ((apply_stamp (apply_of_live live)).2.2).trans live.1

/-! ## Folding over existing state -/

theorem foldl_write_documentId {log : List Entry} {state : DocumentState}
    (live : ∀ entry ∈ log, Live state.documentId entry) :
    (log.foldl (fun s entry => write entry s) state).documentId = state.documentId := by
  induction log generalizing state with
  | nil => rfl
  | cons entry rest ih =>
      have kept := write_documentId (live entry List.mem_cons_self)
      rw [List.foldl_cons, ih, kept]
      intro other mem
      rw [kept]
      exact live other (List.mem_cons_of_mem _ mem)

theorem foldFrom_of_live {log : List Entry} {state : DocumentState}
    (live : ∀ entry ∈ log, Live state.documentId entry) :
    foldFrom (some state) log = .ok (some (log.foldl (fun s entry => write entry s) state)) := by
  induction log generalizing state with
  | nil => rfl
  | cons entry rest ih =>
      have first := live entry List.mem_cons_self
      simp only [foldFrom, apply_of_live first]
      apply ih
      intro other mem
      rw [write_documentId first]
      exact live other (List.mem_cons_of_mem _ mem)

theorem live_of_foldFrom {log : List Entry} {state : DocumentState}
    {folded : Option DocumentState} (folds : foldFrom (some state) log = .ok folded) :
    ∀ entry ∈ log, Live state.documentId entry := by
  induction log generalizing state with
  | nil => simp
  | cons entry rest ih =>
      unfold foldFrom at folds
      cases step : apply (some state) entry.2 entry.1 with
      | error error => simp [step] at folds
      | ok next =>
          simp only [step] at folds
          obtain ⟨live, rfl⟩ := live_of_apply step
          have later := ih folds
          rw [write_documentId live] at later
          exact List.forall_mem_cons.mpr ⟨live, later⟩

/-! ## Folding a log from the start -/

/-- A log that folds has a state it was born with: every entry is live on it, and every
non-empty prefix folds to what its entries write over it. -/
theorem exists_born {entry : Entry} {rest : List Entry} {folded : Option DocumentState}
    (folds : foldHistory (entry :: rest) = .ok folded) :
    ∃ born : DocumentState, (∀ other ∈ entry :: rest, Live born.documentId other) ∧
      ∀ prefix_, prefix_ <+: rest → foldHistory (entry :: prefix_)
        = .ok (some ((entry :: prefix_).foldl (fun s other => write other s) born)) := by
  unfold foldHistory foldFrom at folds
  cases opened : apply none entry.2 entry.1 with
  | error error => simp [opened] at folds
  | ok born =>
      simp only [opened] at folds
      obtain ⟨live, -, -, seeds⟩ := DocumentEvent.apply_none opened
      have document : entry.2.documentId = born.documentId := (apply_stamp opened).2.2.symm
      have kept : write entry born = born := seeds born rfl
      have later := live_of_foldFrom folds
      refine ⟨born, List.forall_mem_cons.mpr ⟨⟨document, live⟩, later⟩, ?_⟩
      intro front isPrefix
      unfold foldHistory foldFrom
      simp only [opened]
      rw [foldFrom_of_live fun other mem => later other (isPrefix.subset mem), List.foldl_cons,
        kept]

/-- Folding any suffix of a log again, over the state of a prefix that reaches the suffix,
gives the state of the whole log. -/
theorem suffix_replay {history : List Entry} {folded : Option DocumentState}
    (folds : foldHistory history = .ok folded) {start reached : Nat} (positive : 1 ≤ reached)
    (inLog : reached ≤ history.length) (overlaps : start ≤ reached + 1) :
    ∃ state, foldHistory (history.take reached) = .ok (some state) ∧
      foldFrom (some state) (history.drop (start - 1)) = .ok folded := by
  cases history with
  | nil => simp at inLog; omega
  | cons entry rest =>
      obtain ⟨born, live, prefixes⟩ := exists_born folds
      obtain ⟨count, rfl⟩ := Nat.exists_eq_add_of_le' positive
      have whole := prefixes rest (List.prefix_refl rest)
      rw [folds] at whole
      obtain rfl := Except.ok.inj whole
      refine ⟨_, prefixes (rest.take count) (List.take_prefix count rest), ?_⟩
      rw [← List.take_succ_cons, foldFrom_of_live]
      · have again := Overwrites.replay_suffix (fun other _ => overwrites_write other)
          (Nat.sub_le_of_le_add overlaps) inLog born
        rw [eq_of_sameFields again]
      · intro other mem
        rw [foldl_write_documentId fun early seen => live early (List.mem_of_mem_take seen)]
        exact live other (List.mem_of_mem_drop mem)

namespace Recreated

def event (version ts : Nat) (payload : DocumentEventPayload) : DocumentEvent :=
  ⟨1, "e", "t", "doc-1", .user "u", version, ts, payload⟩

def created (ts : Nat) : DocumentEvent :=
  event 1 ts (.documentCreated ⟨"u-1", "a.pdf", "application/pdf", 4, "c", {}⟩)

/-- A document that is deleted, indexed late and created again. -/
def log : List Entry :=
  [(3, created 10), (4, event 2 20 (.documentDeleted "gone")),
    (7, event 2 30 (.documentIndexed ⟨1, 5, "m"⟩)), (9, created 40)]

end Recreated

/-- Everything again over the first three: the second create is undone by the replay and
done once more, and the birth time is the first one's. -/
theorem suffix_replay_recreated :
    ∃ state last, foldHistory (Recreated.log.take 3) = .ok (some state) ∧
      state.state = .deleted ∧
      foldFrom (some state) (Recreated.log.drop (1 - 1)) = .ok (some last) ∧
      last.state = .active ∧ last.version = 1 ∧ last.createdAt = 10 := by
  have whole : ∃ last, foldHistory Recreated.log = .ok (some last) ∧
      last.state = .active ∧ last.version = 1 ∧ last.createdAt = 10 := ⟨_, rfl, rfl, rfl, rfl⟩
  obtain ⟨last, folds, active, version, born⟩ := whole
  obtain ⟨state, front, again⟩ := suffix_replay folds (by decide : 1 ≤ 3) (by decide)
    (by decide : 1 ≤ 3 + 1)
  have deleted : state.state = .deleted := by
    cases front
    rfl
  exact ⟨state, last, front, deleted, again, active, version, born⟩

end Delphi.Document
