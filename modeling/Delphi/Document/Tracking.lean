/-
# Delphi.Document.Tracking -- what a batch's states are, relative to the log

While a projector works through a batch it stands at a sequence `q` of the log,
having started after a sequence `p` that the committed rows cover.  A state it
holds is level with the log, the fold of its document up to `q`, or it replays
messages over a row that is already further on (`Follows`).  One message keeps
that (`Held.next`), and when the replay reaches the row it is level again; a
state that is still behind when it is written is stopped by the guard.

The rows are mentioned only through `seen key n`: some row of the document was
seen standing at `n`.
-/
import Delphi.Document.ProjectionStore

namespace Delphi.Document

open Delphi.Theory

set_option autoImplicit false

namespace EventLog

variable {codec : Codec} {crc32 : String → Nat} (jsonb : Jsonb) (log : EventLog codec crc32)

/-! ## Rows and the log -/

/-- The row is the fold of its document's messages up to where it stands. -/
def IsFold (key : StreamKey) (row : Row) : Prop :=
  ∃ state, log.foldTo key (clampU64 row.streamSeq) = some state ∧ row = bindRow jsonb state

/-- The document has a row that stands at the sequence or later. -/
def AtLeast (rows : ProjectionRows) (key : StreamKey) (seq : Int) : Prop :=
  ∃ row, rows (.document key) = some row ∧ seq ≤ row.streamSeq

/-- Every document has a row that stands at its last success up to `q` or later. -/
def Covers (q : Nat) (rows : ProjectionRows) : Prop :=
  ∀ key state, log.foldTo key q = some state → AtLeast rows key state.streamSeq

/-- What loading a document tells when the rows cover `p`. -/
def Loaded (key : StreamKey) (p : Nat) : Option Row → Prop
  | none => log.foldTo key p = none
  | some row => log.IsFold jsonb key row ∧
      ∀ state, log.foldTo key p = some state → (state.streamSeq : Int) ≤ row.streamSeq

variable {jsonb log}

theorem bindRow_streamSeq {key : StreamKey} {upTo : Nat} {state : DocumentState}
    (folded : log.foldTo key upTo = some state) :
    (bindRow jsonb state).streamSeq = state.streamSeq :=
  asI64_of_lt (foldTo_bounded folded).streamSeq

theorem isFold_bindRow {key : StreamKey} {upTo : Nat} {state : DocumentState}
    (folded : log.foldTo key upTo = some state) : log.IsFold jsonb key (bindRow jsonb state) := by
  refine ⟨state, ?_, rfl⟩
  rw [bindRow_streamSeq folded, clampU64_natCast]
  exact (foldTo_last folded).2.2.1

/-- The state a row is the fold of. -/
theorem IsFold.state {key : StreamKey} {row : Row} (isFold : log.IsFold jsonb key row) :
    ∃ state, log.foldTo key state.streamSeq = some state ∧ row = bindRow jsonb state ∧
      row.streamSeq = state.streamSeq := by
  obtain ⟨state, folded, rfl⟩ := isFold
  exact ⟨state, (foldTo_last folded).2.2.1, rfl, bindRow_streamSeq folded⟩

theorem atLeast_upward (key : StreamKey) (seq : Int) :
    versions.Upward fun rows => AtLeast rows key seq := by
  rintro rows rows' grows ⟨row, found, le⟩
  obtain ⟨row', found', le'⟩ := grows (.document key) row found
  exact ⟨row', found', Int.le_trans le le'⟩

theorem covers_upward (q : Nat) : versions.Upward (log.Covers q) :=
  fun rows rows' grows covers key state folded =>
    atLeast_upward key _ rows rows' grows (covers key state folded)

/-- Rows that cover a sequence cover every earlier one. -/
theorem Covers.of_le {rows : ProjectionRows} {p q : Nat} (covers : log.Covers q rows)
    (earlier : p ≤ q) : log.Covers p rows := by
  intro key state folded
  obtain ⟨state', folded', seq, -⟩ := foldTo_mono earlier folded
  obtain ⟨row, present, further⟩ := covers key state' folded'
  exact ⟨row, present, by omega⟩

theorem covers_zero (rows : ProjectionRows) : log.Covers 0 rows := by
  intro key state folded
  rw [foldTo_zero] at folded
  cases folded

/-- Reading a document under rows that cover `p`. -/
theorem Covers.loaded {rows : ProjectionRows} {p : Nat} (covers : log.Covers p rows)
    (folds : ∀ key row, rows (.document key) = some row → log.IsFold jsonb key row)
    (key : StreamKey) : log.Loaded jsonb key p (rows (.document key)) := by
  cases found : rows (.document key) with
  | none =>
      cases folded : log.foldTo key p with
      | none => exact folded
      | some state =>
          obtain ⟨row, present, -⟩ := covers key state folded
          rw [found] at present
          cases present
  | some row =>
      refine ⟨folds key row found, fun state folded => ?_⟩
      obtain ⟨row', present, le⟩ := covers key state folded
      obtain rfl : row = row' := Option.some.inj (found.symm.trans present)
      exact le

/-! ## States held while folding -/

variable (jsonb log)

/-- The state is the document's fold up to `q`, or a replay over a row that is
further on. -/
inductive Follows (seen : StreamKey → Int → Prop) (key : StreamKey) (q : Nat)
    (held : DocumentState) : Prop where
  | level {state : DocumentState} (folded : log.foldTo key q = some state)
      (same : bindRow jsonb held = bindRow jsonb state)
  | behind {row : Row} {start : Nat} (isFold : log.IsFold jsonb key row)
      (ahead : (q : Int) < row.streamSeq) (witnessed : seen key row.streamSeq) (le : start ≤ q)
      (replayed : held = (log.span key start q).foldl (fun s m => m.act codec s) (rowToDocument row))

structure Held (seen : StreamKey → Int → Prop) (key : StreamKey) (q : Nat)
    (held : DocumentState) : Prop where
  keyed : held.streamKey = key
  bounded : held.Bounded
  follows : log.Follows jsonb seen key q held

variable {jsonb log} {seen : StreamKey → Int → Prop} {key : StreamKey} {q : Nat}
  {held : DocumentState} {m : Message}

/-- A row that is further on is still further on, or is the message's own. -/
theorem le_of_ahead {row : Row} (found : log.next q = some m) (isFold : log.IsFold jsonb key row)
    (ahead : (q : Int) < row.streamSeq) :
    (m.sequence : Int) < row.streamSeq ∨
      ((m.sequence : Int) = row.streamSeq ∧ documentKeyFromSubject m.subject = some key) := by
  obtain ⟨state, folded, -, seq⟩ := isFold.state
  obtain ⟨-, -, -, m', mem, at_, named⟩ := foldTo_last folded
  have later : q < m'.sequence := by omega
  rcases le_of_next found mem later with rfl | less
  · exact .inr ⟨by omega, named⟩
  · exact .inl (by omega)

/-- The step lemma: a state held for a document takes its next message. -/
theorem Held.next (holds : log.Held jsonb seen key q held) (found : log.next q = some m)
    (named : documentKeyFromSubject m.subject = some key) :
    log.Held jsonb seen key m.sequence (m.act codec held) := by
  obtain ⟨mem, later⟩ := mem_of_next found
  have addresses := addresses_of_key mem named
  refine ⟨Message.act_streamKey addresses holds.keyed, act_bounded mem holds.bounded, ?_⟩
  cases holds.follows with
  | @level state folded same =>
      have keyed := (foldTo_last folded).1
      have moved : log.foldTo key m.sequence = some (m.act codec state) := by
        rw [foldTo_next found, if_pos named, folded, Message.absorb_some addresses keyed]
      exact .level moved (sameFields_iff.mp ((overwrites_act codec m).congr (sameFields_iff.mpr same)))
  | @behind row start isFold ahead witnessed le replayed =>
      have longer : log.span key start m.sequence = log.span key start q ++ [m] := by
        rw [span_append key le (Nat.le_of_lt later), span_next found, if_pos named]
      have taken : m.act codec held =
          (log.span key start m.sequence).foldl (fun s m => m.act codec s) (rowToDocument row) := by
        rw [longer, List.foldl_append, ← replayed]
        rfl
      rcases le_of_ahead found isFold ahead with less | ⟨level, -⟩
      · exact .behind isFold less witnessed (by omega) taken
      · -- The replay reached the row it started over.
        obtain ⟨state, folded, rfl, seq⟩ := isFold.state
        obtain here : state.streamSeq = m.sequence := by omega
        rw [here] at folded
        refine .level folded ?_
        rw [taken]
        have split : log.span key 0 m.sequence =
            log.span key 0 start ++ log.span key start m.sequence :=
          span_append key (Nat.zero_le start) (Nat.le_trans le (Nat.le_of_lt later))
        have whole : absorbAll codec (log.span key 0 start ++ log.span key start m.sequence) =
            some state := by
          rw [← split, ← foldTo_eq, folded]
        have addressed : ∀ m' ∈ log.span key 0 start ++ log.span key start m.sequence,
            m'.Addresses codec key := by
          intro m' mem'
          rw [← split] at mem'
          exact span_addresses mem'
        exact absorb_replay addressed whole (bindRow_rowToDocument jsonb (foldTo_bounded folded))

/-- Messages of other documents pass it by. -/
theorem Held.pass (holds : log.Held jsonb seen key q held) (found : log.next q = some m)
    (other : documentKeyFromSubject m.subject ≠ some key) :
    log.Held jsonb seen key m.sequence held := by
  obtain ⟨-, later⟩ := mem_of_next found
  refine ⟨holds.keyed, holds.bounded, ?_⟩
  cases holds.follows with
  | level folded same =>
      refine .level ?_ same
      rw [foldTo_next found, if_neg other, folded]
  | behind isFold ahead witnessed le replayed =>
      rcases le_of_ahead found isFold ahead with less | ⟨-, named⟩
      · refine .behind isFold less witnessed (Nat.le_trans le (Nat.le_of_lt later)) ?_
        rw [span_append key le (Nat.le_of_lt later), span_next found, if_neg other,
          List.append_nil]
        exact replayed
      · exact absurd named other

/-- The state of a row just loaded, when nothing of the document succeeded since
the rows were known to cover it. -/
theorem held_of_loaded {row : Row} {p : Nat} (quiet : log.foldTo key q = log.foldTo key p)
    (loaded : log.Loaded jsonb key p (some row)) (witnessed : seen key row.streamSeq) :
    log.Held jsonb seen key q (rowToDocument row) := by
  obtain ⟨isFold, covered⟩ := loaded
  obtain ⟨state, folded, rfl, seq⟩ := isFold.state
  have bounded := foldTo_bounded folded
  have keyed : (rowToDocument (bindRow jsonb state)).streamKey = key := by
    rw [rowToDocument_streamKey, bindRow_key]
    exact (foldTo_last folded).1
  refine ⟨keyed, rowToDocument_bindRow_bounded jsonb bounded, ?_⟩
  by_cases ahead : (q : Int) < (bindRow jsonb state).streamSeq
  · refine .behind isFold ahead witnessed (Nat.le_refl q) ?_
    rw [span_self]
    rfl
  · have reached : state.streamSeq ≤ q := by omega
    obtain ⟨current, now, le, -⟩ := foldTo_mono reached folded
    have back := covered current (quiet ▸ now)
    obtain rfl := foldTo_unique folded now (by omega)
    exact .level now (bindRow_rowToDocument jsonb bounded)

/-! ## The states of a batch -/

variable (jsonb log seen)

/-- What is known of a document's entry in the batch's states. -/
def Tracked (p : Nat) (key : StreamKey) (q : Nat) : Option DocumentState → Prop
  | none => log.foldTo key q = log.foldTo key p
  | some held => log.Held jsonb seen key q held ∧ held.streamSeq ≤ q

/-- The states of a batch that started after `p`, at the message at `q`. -/
def Tracks (p q : Nat) (folded : Folded) : Prop :=
  ∀ key, log.Tracked jsonb seen p key q (folded.lookup key)

/-- The state an event folds onto, for the document it is of. -/
def PriorOf (key : StreamKey) (q : Nat) : Option DocumentState → Prop
  | none => log.foldTo key q = none
  | some held => log.Held jsonb seen key q held

variable {jsonb log seen} {p : Nat} {folded : Folded} {prior : Option DocumentState}

theorem tracks_empty (p : Nat) : log.Tracks jsonb seen p p ∅ := by
  intro key
  rw [AList.lookup_empty]
  rfl

theorem Tracks.priorOf_lookup (tracks : log.Tracks jsonb seen p q folded) {held : DocumentState}
    (found : folded.lookup key = some held) : log.PriorOf jsonb seen key q (some held) := by
  have here := tracks key
  rw [found] at here
  exact here.1

theorem Tracks.priorOf_loaded (tracks : log.Tracks jsonb seen p q folded)
    (absent : folded.lookup key = none) {row : Option Row} (loaded : log.Loaded jsonb key p row)
    (witnessed : ∀ r, row = some r → seen key r.streamSeq) :
    log.PriorOf jsonb seen key q (row.map rowToDocument) := by
  have quiet := tracks key
  rw [absent] at quiet
  cases row with
  | none => exact Eq.trans quiet loaded
  | some row => exact held_of_loaded quiet loaded (witnessed row rfl)

/-- A message of another document, or one that failed on the state it met. -/
theorem Tracks.pass (tracks : log.Tracks jsonb seen p q folded) (found : log.next q = some m)
    (other : documentKeyFromSubject m.subject ≠ some key) :
    log.Tracked jsonb seen p key m.sequence (folded.lookup key) := by
  obtain ⟨-, later⟩ := mem_of_next found
  have here := tracks key
  cases entry : folded.lookup key with
  | none =>
      rw [entry] at here
      exact (by rw [foldTo_next found, if_neg other] :
        log.foldTo key m.sequence = log.foldTo key q).trans here
  | some held =>
      rw [entry] at here
      exact ⟨here.1.pass found other, Nat.le_trans here.2 (Nat.le_of_lt later)⟩

theorem Tracks.upsert (tracks : log.Tracks jsonb seen p q folded) (found : log.next q = some m)
    (named : documentKeyFromSubject m.subject = some key)
    (priorOf : log.PriorOf jsonb seen key q prior) {state : DocumentState}
    (outcome : projectEvent codec prior m.payload m.sequence = .upsert state) :
    log.Tracks jsonb seen p m.sequence (folded.insert state.streamKey state) := by
  obtain ⟨mem, later⟩ := mem_of_next found
  have addresses := addresses_of_key mem named
  have entry : log.Held jsonb seen key m.sequence state ∧ state.streamSeq = m.sequence := by
    cases prior with
    | none =>
        have opened : log.foldTo key m.sequence = some state := by
          rw [foldTo_next found, if_pos named, (priorOf : log.foldTo key q = none), absorb, outcome,
            ProjectionOutcome.resulting]
        obtain ⟨-, keyed, seq, -⟩ := Message.project_none addresses outcome
        exact ⟨⟨keyed, foldTo_bounded opened, .level opened rfl⟩, seq⟩
    | some held =>
        have holds : log.Held jsonb seen key q held := priorOf
        rcases Message.project_some addresses holds.keyed with
          ⟨-, payload, error, violation, failed⟩ | ⟨live, acted⟩
        · rw [failed] at outcome
          cases outcome
        · rw [acted] at outcome
          cases outcome
          exact ⟨holds.next found named, Message.act_streamSeq live held⟩
  have keyed := entry.1.keyed
  intro key'
  by_cases same : key' = key
  · subst same
    rw [keyed, AList.lookup_insert]
    exact ⟨entry.1, Nat.le_of_eq entry.2⟩
  · rw [AList.lookup_insert_ne (by rw [keyed]; exact same)]
    refine tracks.pass found fun named' => same ?_
    exact Option.some.inj (named'.symm.trans named)

theorem Tracks.failure (tracks : log.Tracks jsonb seen p q folded) (found : log.next q = some m)
    (named : documentKeyFromSubject m.subject = some key)
    (priorOf : log.PriorOf jsonb seen key q prior)
    (entry : ∀ held, folded.lookup key = some held → prior = some held)
    {payload : Json} {error : String} {violation : Bool}
    (outcome : projectEvent codec prior m.payload m.sequence = .failure payload error violation) :
    log.Tracks jsonb seen p m.sequence folded := by
  obtain ⟨mem, later⟩ := mem_of_next found
  have addresses := addresses_of_key mem named
  intro key'
  by_cases same : key' = key
  · subst same
    have here := tracks key'
    -- A message that fails on one state of the document fails on all of them.
    have quiet : prior = none ∨ m.inert codec = true := by
      cases prior with
      | none => exact .inl rfl
      | some held =>
          have holds : log.Held jsonb seen key' q held := priorOf
          rcases Message.project_some addresses holds.keyed with ⟨inert, -⟩ | ⟨-, acted⟩
          · exact .inr inert
          · rw [acted] at outcome
            cases outcome
    cases kept : folded.lookup key' with
    | none =>
        rw [kept] at here
        have stands : log.foldTo key' m.sequence = log.foldTo key' q := by
          rw [foldTo_next found, if_pos named]
          rcases quiet with rfl | inert
          · rw [(priorOf : log.foldTo key' q = none), absorb, outcome, ProjectionOutcome.resulting]
          · exact Message.absorb_of_inert addresses (fun _ reached => (foldTo_last reached).1) inert
        exact stands.trans here
    | some held =>
        rw [kept] at here
        rcases quiet with none_ | inert
        · rw [entry held kept] at none_
          cases none_
        · have moved := here.1.next found named
          rw [Message.act_of_inert inert] at moved
          exact ⟨moved, Nat.le_trans here.2 (Nat.le_of_lt later)⟩
  · refine tracks.pass found fun named' => same ?_
    exact Option.some.inj (named'.symm.trans named)

/-- A state of the batch, when the batch is done: its row is a fold of the log, or
a row that is further on was seen. -/
theorem Tracks.upserts (tracks : log.Tracks jsonb seen p q folded)
    (found : folded.lookup key = some held) :
    held.streamKey = key ∧ (bindRow jsonb held).streamSeq = held.streamSeq ∧
      (log.IsFold jsonb key (bindRow jsonb held) ∨
        ∃ n : Int, seen key n ∧ (held.streamSeq : Int) < n) := by
  have here := tracks key
  rw [found] at here
  obtain ⟨holds, within⟩ := here
  refine ⟨holds.keyed, asI64_of_lt holds.bounded.streamSeq, ?_⟩
  cases holds.follows with
  | level folded same => exact .inl (same ▸ isFold_bindRow folded)
  | behind isFold ahead witnessed le replayed => exact .inr ⟨_, witnessed, by omega⟩

/-- When every state of the batch is written, the rows cover its last message. -/
theorem Tracks.covers (tracks : log.Tracks jsonb seen p q folded) {rows : ProjectionRows}
    (covers : log.Covers p rows)
    (written : ∀ key held, folded.lookup key = some held → AtLeast rows key held.streamSeq)
    (shown : ∀ key n, seen key n → AtLeast rows key n) : log.Covers q rows := by
  intro key state reached
  have here := tracks key
  cases entry : folded.lookup key with
  | none =>
      rw [entry] at here
      exact covers key state (here ▸ reached)
  | some held =>
      rw [entry] at here
      obtain ⟨holds, -⟩ := here
      cases holds.follows with
      | level folded same =>
          obtain rfl := Option.some.inj (reached.symm.trans folded)
          have seqs := streamSeq_of_bindRow holds.bounded (foldTo_bounded folded) same
          exact seqs ▸ written key held entry
      | behind isFold ahead witnessed le replayed =>
          obtain ⟨row, present, further⟩ := shown key _ witnessed
          have within := (foldTo_last reached).2.1
          exact ⟨row, present, by omega⟩

end EventLog

end Delphi.Document
