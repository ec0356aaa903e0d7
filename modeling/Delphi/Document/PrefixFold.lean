/-
# Delphi.Document.PrefixFold -- the fold of a document up to a sequence

A log of messages on document subjects, and for each document the sequential
fold of its messages up to a sequence (`EventLog.foldTo`), skipping the ones that
fail.

The lemma a restart rests on is `absorb_replay`: folding a document's messages
again over the state they led to, from wherever the replay starts, ends in the
same row.  Messages that failed at first because the document did not exist yet
may succeed on replay; the create that follows overwrites all they wrote.
-/
import Mathlib.Data.List.Induction
import Delphi.Document.Subjects
import Delphi.Document.Table

namespace Delphi.Document

open Delphi.Theory

set_option autoImplicit false

/-! ## Replaying messages -/

section Replay

variable {codec : Codec} {key : StreamKey}

theorem foldl_act_createdAt (messages : List Message) (state : DocumentState) :
    (messages.foldl (fun s m => m.act codec s) state).createdAt = state.createdAt := by
  induction messages generalizing state with
  | nil => rfl
  | cons m rest ih => exact (ih _).trans (Message.act_createdAt m state)

theorem le_foldl_act_streamSeq {messages : List Message} {state : DocumentState} {bound : Nat}
    (start : bound ≤ state.streamSeq) (later : ∀ m ∈ messages, bound ≤ m.sequence) :
    bound ≤ (messages.foldl (fun s m => m.act codec s) state).streamSeq := by
  induction messages generalizing state with
  | nil => exact start
  | cons m rest ih =>
      refine ih ?_ fun m' mem => later m' (List.mem_cons_of_mem _ mem)
      change bound ≤ (m.act codec state).streamSeq
      cases inert : m.inert codec with
      | true => rwa [Message.act_of_inert inert]
      | false =>
          rw [Message.act_streamSeq inert]
          exact later m (List.mem_cons_self ..)

/-- On a document that has state the fold is a run of updates. -/
theorem foldl_absorb_some {messages : List Message} {state : DocumentState}
    (addresses : ∀ m ∈ messages, m.Addresses codec key) (keyed : state.streamKey = key) :
    messages.foldl (absorb codec) (some state) =
      some (messages.foldl (fun s m => m.act codec s) state) := by
  induction messages generalizing state with
  | nil => rfl
  | cons m rest ih =>
      have here := addresses m (List.mem_cons_self ..)
      rw [List.foldl_cons, List.foldl_cons, Message.absorb_some here keyed]
      exact ih (fun m' mem => addresses m' (List.mem_cons_of_mem _ mem))
        (Message.act_streamKey here keyed)

/-- What the messages of a document lead to from nothing, they lead to from any of
its states of that birth time. -/
theorem foldl_act_of_opened {messages : List Message} {reached : DocumentState}
    (addresses : ∀ m ∈ messages, m.Addresses codec key)
    (folded : messages.foldl (absorb codec) none = some reached) {state : DocumentState}
    (born : state.createdAt = reached.createdAt) :
    messages.foldl (fun s m => m.act codec s) state = reached := by
  induction messages generalizing state with
  | nil => cases folded
  | cons m rest ih =>
      have here := addresses m (List.mem_cons_self ..)
      have later : ∀ m' ∈ rest, m'.Addresses codec key :=
        fun m' mem => addresses m' (List.mem_cons_of_mem _ mem)
      rw [List.foldl_cons] at folded ⊢
      cases outcome : projectEvent codec none m.payload m.sequence with
      | failure payload error violation =>
          rw [absorb, outcome] at folded
          exact ih later folded ((Message.act_createdAt m state).trans born)
      | upsert opened =>
          obtain ⟨-, keyed, -, acts⟩ := Message.project_none here outcome
          rw [absorb, outcome, ProjectionOutcome.resulting, foldl_absorb_some later keyed] at folded
          obtain rfl := Option.some.inj folded
          rw [foldl_act_createdAt] at born
          rw [acts state born]

/-- A message that leads somewhere from nothing opens the document there. -/
theorem upsert_of_absorb_none {m : Message} {state : DocumentState}
    (folded : absorb codec none m = some state) :
    projectEvent codec none m.payload m.sequence = .upsert state := by
  unfold absorb at folded
  cases outcome : projectEvent codec none m.payload m.sequence with
  | failure payload error violation =>
      rw [outcome] at folded
      cases folded
  | upsert opened =>
      rw [outcome] at folded
      rw [Option.some.inj folded]

theorem absorbAll_snoc (messages : List Message) (m : Message) :
    absorbAll codec (messages ++ [m]) = absorb codec (absorbAll codec messages) m := by
  simp [absorbAll]

/-- The fold of a document stands at the last of its messages that succeeded. -/
theorem absorbAll_last {messages : List Message} {state : DocumentState}
    (addresses : ∀ m ∈ messages, m.Addresses codec key)
    (folded : absorbAll codec messages = some state) :
    state.streamKey = key ∧ ∃ front m back, messages = front ++ m :: back ∧
      m.sequence = state.streamSeq ∧ absorbAll codec (front ++ [m]) = some state := by
  induction messages using List.reverseRecOn generalizing state with
  | nil => cases folded
  | append_singleton messages m ih =>
      have here := addresses m (by simp)
      have earlier : ∀ m' ∈ messages, m'.Addresses codec key :=
        fun m' mem => addresses m' (List.mem_append_left _ mem)
      have whole := folded
      rw [absorbAll_snoc] at folded
      cases before : absorbAll codec messages with
      | none =>
          rw [before] at folded
          obtain ⟨-, keyed, seq, -⟩ := Message.project_none here (upsert_of_absorb_none folded)
          exact ⟨keyed, messages, m, [], rfl, seq.symm, whole⟩
      | some prior =>
          obtain ⟨keyed, front, last, back, split, seq, stands⟩ := ih earlier before
          rw [before, Message.absorb_some here keyed] at folded
          obtain rfl := Option.some.inj folded
          refine ⟨Message.act_streamKey here keyed, ?_⟩
          cases inert : m.inert codec with
          | true =>
              rw [Message.act_of_inert inert]
              exact ⟨front, last, back ++ [m], by simp [split], seq, stands⟩
          | false => exact ⟨messages, m, [], rfl, (Message.act_streamSeq inert prior).symm, whole⟩

/-- What a document is opened with and every message keeps holds of its fold. -/
theorem absorbAll_invariant {J : DocumentState → Prop} {messages : List Message}
    {state : DocumentState} (addresses : ∀ m ∈ messages, m.Addresses codec key)
    (opens : ∀ m ∈ messages, ∀ opened,
      projectEvent codec none m.payload m.sequence = .upsert opened → J opened)
    (acts : ∀ m ∈ messages, ∀ prior, J prior → J (m.act codec prior))
    (folded : absorbAll codec messages = some state) : J state := by
  induction messages using List.reverseRecOn generalizing state with
  | nil => cases folded
  | append_singleton messages m ih =>
      have earlier : ∀ m' ∈ messages, m'.Addresses codec key :=
        fun m' mem => addresses m' (List.mem_append_left _ mem)
      rw [absorbAll_snoc] at folded
      cases before : absorbAll codec messages with
      | none =>
          rw [before] at folded
          exact opens m (by simp) _ (upsert_of_absorb_none folded)
      | some prior =>
          have keyed := (absorbAll_last earlier before).1
          rw [before, Message.absorb_some (addresses m (by simp)) keyed] at folded
          obtain rfl := Option.some.inj folded
          refine acts m (by simp) prior (ih earlier ?_ ?_ before)
          · exact fun m' mem => opens m' (List.mem_append_left _ mem)
          · exact fun m' mem => acts m' (List.mem_append_left _ mem)

/-- Folding messages again over the row they led to, from any point on, leads to
the same row. -/
theorem absorb_replay {jsonb : Jsonb} {front back : List Message} {reached again : DocumentState}
    (addresses : ∀ m ∈ front ++ back, m.Addresses codec key)
    (folded : absorbAll codec (front ++ back) = some reached)
    (same : bindRow jsonb again = bindRow jsonb reached) :
    bindRow jsonb (back.foldl (fun s m => m.act codec s) again) = bindRow jsonb reached := by
  have later : ∀ m ∈ back, m.Addresses codec key :=
    fun m mem => addresses m (List.mem_append_right _ mem)
  unfold absorbAll at folded
  rw [List.foldl_append] at folded
  cases before : front.foldl (absorb codec) none with
  | none =>
      rw [before] at folded
      have born : again.createdAt = reached.createdAt := congrArg Row.createdAt same
      rw [foldl_act_of_opened later folded born]
  | some state =>
      have keyed : state.streamKey = key :=
        (absorbAll_last (fun m mem => addresses m (List.mem_append_left _ mem)) before).1
      rw [before, foldl_absorb_some later keyed] at folded
      obtain rfl := Option.some.inj folded
      have each : ∀ m ∈ back, Overwrites (Column.ofState jsonb) (m.act codec) :=
        fun m _ => overwrites_act codec m
      have moved := (Overwrites.foldl each).congr (sameFields_iff.mpr same)
      exact sameFields_iff.mp (moved.trans (Overwrites.replay each state))

end Replay

/-! ## Logs -/

/-- The messages of the event stream: in sequence order, each on the subject of a
document, decodable events being events of that document. -/
structure EventLog (codec : Codec) (crc32 : String → Nat) where
  messages : List Message
  increasing : messages.Pairwise fun earlier later => earlier.sequence < later.sequence
  positive : ∀ m ∈ messages, 0 < m.sequence
  small : ∀ m ∈ messages, m.sequence < 2 ^ 63
  addressed : ∀ m ∈ messages, ∃ tenantId documentId : String,
    '.' ∉ tenantId.toList ∧ '.' ∉ documentId.toList ∧
    m.subject = eventSubject crc32 tenantId documentId ∧ m.Addresses codec (tenantId, documentId)
  bounded : ∀ m ∈ messages, ∀ event, decodeEvent codec m.payload = .event event → event.Bounded

namespace EventLog

variable {codec : Codec} {crc32 : String → Nat} (log : EventLog codec crc32)

/-- The first message after a sequence, which a consumer there delivers next. -/
def next (position : Nat) : Option Message := log.messages.find? fun m => position < m.sequence

/-- The document's messages after one sequence and up to another. -/
def span (key : StreamKey) (after upTo : Nat) : List Message :=
  log.messages.filter fun m =>
    documentKeyFromSubject m.subject = some key ∧ after < m.sequence ∧ m.sequence ≤ upTo

/-- The sequential fold of a document's messages up to a sequence. -/
def foldTo (key : StreamKey) (upTo : Nat) : Option DocumentState :=
  absorbAll codec (log.messages.filter fun m =>
    documentKeyFromSubject m.subject = some key ∧ m.sequence ≤ upTo)

variable {log}

theorem addresses_of_key {m : Message} {key : StreamKey} (mem : m ∈ log.messages)
    (named : documentKeyFromSubject m.subject = some key) : m.Addresses codec key := by
  obtain ⟨tenantId, documentId, tenant, document, subject, addresses⟩ := log.addressed m mem
  rw [subject, documentKeyFromSubject_eventSubject crc32 tenant document] at named
  exact Option.some.inj named ▸ addresses

theorem exists_key {m : Message} (mem : m ∈ log.messages) :
    ∃ key, documentKeyFromSubject m.subject = some key := by
  obtain ⟨tenantId, documentId, tenant, document, subject, -⟩ := log.addressed m mem
  exact ⟨_, subject ▸ documentKeyFromSubject_eventSubject crc32 tenant document⟩

theorem mem_span {key : StreamKey} {after upTo : Nat} {m : Message} :
    m ∈ log.span key after upTo ↔ m ∈ log.messages ∧
      documentKeyFromSubject m.subject = some key ∧ after < m.sequence ∧ m.sequence ≤ upTo := by
  simp [span]

theorem span_addresses {key : StreamKey} {after upTo : Nat} {m : Message}
    (mem : m ∈ log.span key after upTo) : m.Addresses codec key := by
  obtain ⟨mem, named, -⟩ := mem_span.mp mem
  exact addresses_of_key mem named

/-- Every message has a positive sequence, so the fold up to a sequence is the
fold of the span after zero. -/
theorem foldTo_eq (key : StreamKey) (upTo : Nat) :
    log.foldTo key upTo = absorbAll codec (log.span key 0 upTo) := by
  unfold foldTo span
  congr 1
  refine List.filter_congr fun m mem => ?_
  simp [log.positive m mem]

/-- A window of a sequence-ordered log splits at any point of it. -/
theorem filter_window {messages : List Message} {p : Message → Prop} [DecidablePred p]
    (increasing : messages.Pairwise fun earlier later => earlier.sequence < later.sequence)
    {low mid high : Nat} (lower : low ≤ mid) (upper : mid ≤ high) :
    messages.filter (fun m => p m ∧ low < m.sequence ∧ m.sequence ≤ high) =
      messages.filter (fun m => p m ∧ low < m.sequence ∧ m.sequence ≤ mid) ++
      messages.filter (fun m => p m ∧ mid < m.sequence ∧ m.sequence ≤ high) := by
  induction messages with
  | nil => rfl
  | cons m rest ih =>
      obtain ⟨first, ordered⟩ := List.pairwise_cons.mp increasing
      by_cases early : m.sequence ≤ mid
      · have not_late : ¬ mid < m.sequence := by omega
        have both : m.sequence ≤ high := by omega
        simp only [List.filter_cons, early, not_late, both, and_true, and_false,
          decide_false, Bool.false_eq_true, if_false]
        split
        · rw [ih ordered, List.cons_append]
        · exact ih ordered
      · -- From here on every message is in the second half.
        have none_early : rest.filter
            (fun m => p m ∧ low < m.sequence ∧ m.sequence ≤ mid) = [] := by
          refine List.filter_eq_nil_iff.mpr fun m' mem => ?_
          have := first m' mem
          simp only [decide_eq_true_eq]
          omega
        have late : mid < m.sequence := by omega
        have low_late : low < m.sequence := by omega
        have split := ih ordered
        rw [none_early, List.nil_append] at split
        simp only [List.filter_cons, early, late, low_late, and_false, true_and, decide_false,
          Bool.false_eq_true, if_false, none_early, List.nil_append, split]

theorem span_append (key : StreamKey) {low mid high : Nat} (lower : low ≤ mid)
    (upper : mid ≤ high) :
    log.span key low high = log.span key low mid ++ log.span key mid high :=
  filter_window log.increasing lower upper

theorem span_self (key : StreamKey) (upTo : Nat) : log.span key upTo upTo = [] := by
  refine List.filter_eq_nil_iff.mpr fun m _ => ?_
  simp only [decide_eq_true_eq]
  omega

theorem mem_of_next {position : Nat} {m : Message} (found : log.next position = some m) :
    m ∈ log.messages ∧ position < m.sequence :=
  ⟨List.mem_of_find?_eq_some found, by simpa using List.find?_some found⟩

/-- Nothing lies between a position and the message delivered next. -/
theorem le_of_next {position : Nat} {m m' : Message} (found : log.next position = some m)
    (mem : m' ∈ log.messages) (later : position < m'.sequence) :
    m' = m ∨ m.sequence < m'.sequence := by
  obtain ⟨-, front, back, split, before⟩ := List.find?_eq_some_iff_append.mp found
  rw [split] at mem
  have increasing := log.increasing
  rw [split] at increasing
  rcases List.mem_append.mp mem with early | rest
  · have := before m' early
    simp only [Bool.not_eq_true', decide_eq_false_iff_not] at this
    exact absurd later this
  · rcases List.mem_cons.mp rest with rfl | late
    · exact .inl rfl
    · exact .inr ((List.pairwise_cons.mp (List.pairwise_append.mp increasing).2.1).1 m' late)

theorem span_next {position : Nat} {m : Message} (found : log.next position = some m)
    (key : StreamKey) :
    log.span key position m.sequence =
      if documentKeyFromSubject m.subject = some key then [m] else [] := by
  obtain ⟨mem, later⟩ := mem_of_next found
  obtain ⟨-, front, back, split, before⟩ := List.find?_eq_some_iff_append.mp found
  have increasing := log.increasing
  rw [split] at increasing
  have early : front.filter (fun m' => documentKeyFromSubject m'.subject = some key ∧
      position < m'.sequence ∧ m'.sequence ≤ m.sequence) = [] := by
    refine List.filter_eq_nil_iff.mpr fun m' mem' => ?_
    have := before m' mem'
    simp only [Bool.not_eq_true', decide_eq_false_iff_not] at this
    simp only [decide_eq_true_eq]
    omega
  have late : back.filter (fun m' => documentKeyFromSubject m'.subject = some key ∧
      position < m'.sequence ∧ m'.sequence ≤ m.sequence) = [] := by
    refine List.filter_eq_nil_iff.mpr fun m' mem' => ?_
    have := (List.pairwise_cons.mp (List.pairwise_append.mp increasing).2.1).1 m' mem'
    simp only [decide_eq_true_eq]
    omega
  unfold span
  rw [split, List.filter_append, early, List.filter_cons, late]
  simp [later]

/-- The document's messages up to one of them are those before it and that one. -/
theorem span_cut {key : StreamKey} {upTo : Nat} {front back : List Message} {m : Message}
    (split : log.span key 0 upTo = front ++ m :: back) :
    log.span key 0 m.sequence = front ++ [m] := by
  have ordered : (log.span key 0 upTo).Pairwise fun a b => a.sequence < b.sequence :=
    log.increasing.filter _
  have mem : m ∈ log.span key 0 upTo := by
    rw [split]
    simp
  obtain ⟨-, -, -, within⟩ := mem_span.mp mem
  have narrowed : log.span key 0 m.sequence =
      (log.span key 0 upTo).filter fun m' => m'.sequence ≤ m.sequence := by
    unfold span
    rw [List.filter_filter]
    refine List.filter_congr fun m' _ => ?_
    rw [← Bool.decide_and, decide_eq_decide]
    constructor
    · rintro ⟨named, low, high⟩
      exact ⟨high, named, low, by omega⟩
    · rintro ⟨high, named, low, -⟩
      exact ⟨named, low, high⟩
  rw [split] at ordered
  obtain ⟨-, tail, cross⟩ := List.pairwise_append.mp ordered
  have all : front.filter (fun m' => m'.sequence ≤ m.sequence) = front :=
    List.filter_eq_self.mpr fun m' mem' => by
      simpa using Nat.le_of_lt (cross m' mem' m (by simp))
  have none_ : back.filter (fun m' => m'.sequence ≤ m.sequence) = [] :=
    List.filter_eq_nil_iff.mpr fun m' mem' => by
      simpa using (List.pairwise_cons.mp tail).1 m' mem'
  rw [narrowed, split, List.filter_append, List.filter_cons]
  simp [all, none_]

/-! ## The fold up to a sequence -/

/-- One message more: the document's own fold takes it, the others stand. -/
theorem foldTo_next {position : Nat} {m : Message} (found : log.next position = some m)
    (key : StreamKey) :
    log.foldTo key m.sequence =
      if documentKeyFromSubject m.subject = some key then absorb codec (log.foldTo key position) m
      else log.foldTo key position := by
  have later := (mem_of_next found).2
  rw [foldTo_eq, foldTo_eq, span_append key (Nat.zero_le position) (Nat.le_of_lt later),
    span_next found]
  split
  · exact absorbAll_snoc _ _
  · rw [List.append_nil]

/-- The state of a document at a sequence is the one at its last success. -/
theorem foldTo_last {key : StreamKey} {upTo : Nat} {state : DocumentState}
    (folded : log.foldTo key upTo = some state) :
    state.streamKey = key ∧ state.streamSeq ≤ upTo ∧ log.foldTo key state.streamSeq = some state ∧
      ∃ m ∈ log.messages, m.sequence = state.streamSeq ∧
        documentKeyFromSubject m.subject = some key := by
  rw [foldTo_eq] at folded
  obtain ⟨keyed, front, m, back, split, seq, stands⟩ :=
    absorbAll_last (fun m mem => span_addresses mem) folded
  have mem : m ∈ log.span key 0 upTo := by
    rw [split]
    simp
  obtain ⟨inLog, named, -, within⟩ := mem_span.mp mem
  refine ⟨keyed, seq ▸ within, ?_, m, inLog, seq, named⟩
  rw [foldTo_eq, ← seq, span_cut split]
  exact stands

/-- A document keeps its birth time and its fold only moves on. -/
theorem foldTo_mono {key : StreamKey} {upTo upTo' : Nat} {state : DocumentState}
    (le : upTo ≤ upTo') (folded : log.foldTo key upTo = some state) :
    ∃ state', log.foldTo key upTo' = some state' ∧ state.streamSeq ≤ state'.streamSeq ∧
      state'.createdAt = state.createdAt := by
  obtain ⟨keyed, within, -, -⟩ := foldTo_last folded
  rw [foldTo_eq] at folded ⊢
  have addresses : ∀ m ∈ log.span key upTo upTo', m.Addresses codec key :=
    fun m mem => span_addresses mem
  rw [span_append key (Nat.zero_le upTo) le, absorbAll, List.foldl_append, ← absorbAll, folded,
    foldl_absorb_some addresses keyed]
  refine ⟨_, rfl, le_foldl_act_streamSeq (Nat.le_refl _) fun m mem => ?_, foldl_act_createdAt _ _⟩
  obtain ⟨-, -, after, -⟩ := mem_span.mp mem
  omega

/-- Two folds that stand at one sequence are one. -/
theorem foldTo_unique {key : StreamKey} {upTo upTo' : Nat} {state state' : DocumentState}
    (folded : log.foldTo key upTo = some state) (folded' : log.foldTo key upTo' = some state')
    (same : state.streamSeq = state'.streamSeq) : state = state' := by
  obtain ⟨-, -, stands, -⟩ := foldTo_last folded
  obtain ⟨-, -, stands', -⟩ := foldTo_last folded'
  rw [same, stands'] at stands
  exact (Option.some.inj stands).symm

theorem foldTo_zero (key : StreamKey) : log.foldTo key 0 = none := by
  rw [foldTo_eq, span_self]
  rfl

theorem act_bounded {m : Message} (mem : m ∈ log.messages) {state : DocumentState}
    (bounded : state.Bounded) : (m.act codec state).Bounded := by
  unfold Message.act
  split
  · rename_i event decoded
    exact DocumentEvent.act_bounded (log.bounded m mem event decoded) (log.small m mem) bounded
  · exact bounded

theorem foldTo_bounded {key : StreamKey} {upTo : Nat} {state : DocumentState}
    (folded : log.foldTo key upTo = some state) : state.Bounded := by
  rw [foldTo_eq] at folded
  have inLog : ∀ m ∈ log.span key 0 upTo, m ∈ log.messages := fun m mem => (mem_span.mp mem).1
  refine absorbAll_invariant (fun m mem => span_addresses mem) ?_
    (fun m mem prior => act_bounded (inLog m mem)) folded
  -- A create writes every counter, whatever they were.
  intro m mem opened outcome
  obtain ⟨-, -, -, acts⟩ := Message.project_none (span_addresses mem) outcome
  obtain ⟨blank, born, bounded⟩ : ∃ blank : DocumentState,
      blank.createdAt = opened.createdAt ∧ blank.Bounded :=
    ⟨{ opened with version := 0, streamSeq := 0, indexVersion := none, byteSize := none }, rfl,
      Nat.two_pow_pos 63, Nat.two_pow_pos 63, by rintro _ ⟨⟩, by rintro _ ⟨⟩⟩
  have written := act_bounded (inLog m mem) bounded
  rwa [acts blank born] at written

end EventLog

end Delphi.Document
