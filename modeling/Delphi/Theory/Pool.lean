/-
# Delphi.Theory.Pool -- interleaved runs of port programs over shared state

A `System` says which programs may be started (`main`, `admits`), what a call
may answer and do to the shared state (`serves`), and what else may happen to
that state (`environment`).  A configuration is the shared state and the tasks
started so far; a `Step` starts a task, answers the call one task stands at, or
lets the environment act.  A task that is never scheduled again has crashed, so
crashes need no step of their own.

`Reaches meets` restricts a run to steps that meet a condition; a result about
every run is stated with the condition that always holds.

The proof rule is `Invariants.holds_of_reaches`.  Knowledge is attached to the
traces: every answered call of every task satisfies `fact` at the *current*
state, so facts must survive the steps of everyone (`Keeps`), and then what a
task may do next is read off its trace with the path logic of `Program`.
-/
import Mathlib.Logic.Relation
import Delphi.Theory.Program

namespace Delphi.Theory

set_option autoImplicit false

open Relation (ReflTransGen)

/-- A started program: its input, the answers it has had, and where it stands. -/
structure Task (S : Signature) (ι α : Type) where
  input : ι
  trace : Trace S
  rest : Program S α

/-- The shared state and the tasks started so far. -/
structure Config (S : Signature) (σ ι α : Type) where
  shared : σ
  tasks : List (Task S ι α)

/-- What a run may start, answer and suffer. `serves n op s a s'`: the call `op`
of task `n`, issued at `s`, may answer `a` and leave `s'`. -/
structure System (S : Signature) (σ ι α : Type) where
  main : ι → Program S α
  admits : σ → ι → Prop
  serves : Nat → (op : S.Op) → σ → S.Ans op → σ → Prop
  environment : σ → σ → Prop

inductive Label (S : Signature) (ι : Type) where
  | spawn (input : ι)
  | call (task : Nat) (op : S.Op) (answer : S.Ans op)
  | environment

variable {S : Signature} {σ ι α : Type}

namespace Task

/-- The task after its call answered. -/
def answered (t : Task S ι α) (op : S.Op) (a : S.Ans op) (next : S.Ans op → Program S α) :
    Task S ι α :=
  ⟨t.input, t.trace ++ [⟨op, a⟩], next a⟩

@[simp] theorem answered_input (t : Task S ι α) (op : S.Op) (a : S.Ans op)
    (next : S.Ans op → Program S α) : (t.answered op a next).input = t.input := rfl

@[simp] theorem answered_trace (t : Task S ι α) (op : S.Op) (a : S.Ans op)
    (next : S.Ans op → Program S α) :
    (t.answered op a next).trace = t.trace ++ [⟨op, a⟩] := rfl

@[simp] theorem answered_rest (t : Task S ι α) (op : S.Op) (a : S.Ans op)
    (next : S.Ans op → Program S α) : (t.answered op a next).rest = next a := rfl

theorem exists_ret {tasks : List (Task S ι α)} {P : Task S ι α → Prop} {value : α}
    (found : ∃ t ∈ tasks, P t ∧ t.rest.returned = some value) :
    ∃ t ∈ tasks, P t ∧ t.rest = .ret value := by
  obtain ⟨t, mem, met, done⟩ := found
  exact ⟨t, mem, met, Program.eq_ret_of_returned done⟩

end Task

namespace System

/-- A task as it is started. -/
def started (M : System S σ ι α) (input : ι) : Task S ι α := ⟨input, [], M.main input⟩

/-- One step of a run. -/
inductive Step (M : System S σ ι α) : Config S σ ι α → Label S ι → Config S σ ι α → Prop where
  | spawn {c : Config S σ ι α} {input : ι} (admitted : M.admits c.shared input) :
      Step M c (.spawn input) ⟨c.shared, c.tasks ++ [M.started input]⟩
  | call {c : Config S σ ι α} {n : Nat} {t : Task S ι α} {op : S.Op}
      {next : S.Ans op → Program S α} {a : S.Ans op} {s' : σ}
      (found : c.tasks[n]? = some t) (stands : t.rest = .call op next)
      (served : M.serves n op c.shared a s') :
      Step M c (.call n op a) ⟨s', c.tasks.set n (t.answered op a next)⟩
  | environment {c : Config S σ ι α} {s' : σ} (acted : M.environment c.shared s') :
      Step M c .environment ⟨s', c.tasks⟩

/-- Configurations reached from `c₀` by steps that all meet the condition. -/
def Reaches (M : System S σ ι α)
    (meets : Config S σ ι α → Label S ι → Config S σ ι α → Prop) :
    Config S σ ι α → Config S σ ι α → Prop :=
  ReflTransGen fun c c' => ∃ l, M.Step c l c' ∧ meets c l c'

/-- The condition every step meets. -/
def anyStep : Config S σ ι α → Label S ι → Config S σ ι α → Prop := fun _ _ _ => True

variable {M : System S σ ι α} {meets : Config S σ ι α → Label S ι → Config S σ ι α → Prop}

theorem Reaches.refl (c : Config S σ ι α) : M.Reaches meets c c := ReflTransGen.refl

theorem Reaches.step {c₀ c c' : Config S σ ι α} {l : Label S ι} (reached : M.Reaches meets c₀ c)
    (step : M.Step c l c') (met : meets c l c') : M.Reaches meets c₀ c' :=
  ReflTransGen.tail reached ⟨l, step, met⟩

/-- What holds at the start and survives every step that meets the condition
holds in every configuration reached. -/
theorem Reaches.invariant {J : Config S σ ι α → Prop} {c₀ c : Config S σ ι α}
    (reached : M.Reaches meets c₀ c) (start : J c₀)
    (step : ∀ c l c', M.Reaches meets c₀ c → J c → M.Step c l c' → meets c l c' → J c') : J c := by
  induction reached with
  | refl => exact start
  | tail earlier last ih =>
      obtain ⟨l, taken, met⟩ := last
      exact step _ l _ earlier ih taken met

/-- A weaker condition is met too. -/
theorem Reaches.imp {meets' : Config S σ ι α → Label S ι → Config S σ ι α → Prop}
    {c₀ c : Config S σ ι α} (reached : M.Reaches meets c₀ c)
    (weaker : ∀ c l c', M.Reaches meets c₀ c → M.Step c l c' → meets c l c' → meets' c l c') :
    M.Reaches meets' c₀ c :=
  reached.invariant (Reaches.refl c₀) fun c l c' earlier before step met =>
    before.step step (weaker c l c' earlier step met)

/-- Start a program. -/
theorem Reaches.spawned {c₀ c : Config S σ ι α} (reached : M.Reaches meets c₀ c) (input : ι)
    (admitted : M.admits c.shared input)
    (met : meets c (.spawn input) ⟨c.shared, c.tasks ++ [M.started input]⟩) :
    M.Reaches meets c₀ ⟨c.shared, c.tasks ++ [M.started input]⟩ :=
  reached.step (.spawn admitted) met

/-- Answer the call the `n`-th task stands at. -/
theorem Reaches.called {c₀ c : Config S σ ι α} (reached : M.Reaches meets c₀ c) (n : Nat)
    {t : Task S ι α} {op : S.Op} {next : S.Ans op → Program S α} (found : c.tasks[n]? = some t)
    (stands : t.rest = .call op next) (a : S.Ans op) (s' : σ)
    (served : M.serves n op c.shared a s')
    (met : meets c (.call n op a) ⟨s', c.tasks.set n (t.answered op a next)⟩) :
    M.Reaches meets c₀ ⟨s', c.tasks.set n (t.answered op a next)⟩ :=
  reached.step (.call found stands served) met

/-- Let the environment act. -/
theorem Reaches.disturbed {c₀ c : Config S σ ι α} (reached : M.Reaches meets c₀ c) (s' : σ)
    (acted : M.environment c.shared s') (met : meets c .environment ⟨s', c.tasks⟩) :
    M.Reaches meets c₀ ⟨s', c.tasks⟩ :=
  reached.step (.environment acted) met

/-- One lawful way to answer every call. -/
structure Reply (M : System S σ ι α) where
  answer : (op : S.Op) → σ → S.Ans op
  after : S.Op → σ → σ
  lawful : ∀ n op s, M.serves n op s (answer op s) (after op s)

/-- Answer the call the `n`-th task stands at, if it stands at one. -/
def Reply.reply (r : M.Reply) (c : Config S σ ι α) (n : Nat) : Config S σ ι α :=
  match c.tasks[n]? with
  | none => c
  | some t =>
      match t.rest with
      | .ret _ => c
      | .call op next =>
          ⟨r.after op c.shared, c.tasks.set n (t.answered op (r.answer op c.shared) next)⟩

theorem Reaches.reply {c₀ c : Config S σ ι α} (reached : M.Reaches meets c₀ c) (r : M.Reply)
    (n : Nat) (met : ∀ t op next, c.tasks[n]? = some t → t.rest = .call op next →
      meets c (.call n op (r.answer op c.shared)) (r.reply c n)) :
    M.Reaches meets c₀ (r.reply c n) := by
  unfold Reply.reply at met ⊢
  cases found : c.tasks[n]? with
  | none => exact reached
  | some t =>
      cases stands : t.rest with
      | ret value => simpa only [stands] using reached
      | call op next =>
          have here := met t op next found stands
          simp only [found, stands] at here ⊢
          exact reached.called n found stands _ _ (r.lawful n op c.shared) here

/-- Does every call of a schedule pass the check when its turn comes? -/
def Reply.passes (r : M.Reply) (check : Config S σ ι α → Nat → Bool) :
    Config S σ ι α → List Nat → Bool
  | _, [] => true
  | c, n :: rest => check c n && r.passes check (r.reply c n) rest

/-- Answer a whole schedule of calls that pass a check of the condition. -/
theorem Reaches.checked {c₀ c : Config S σ ι α} (reached : M.Reaches meets c₀ c) (r : M.Reply)
    {check : Config S σ ι α → Nat → Bool}
    (sound : ∀ c n t op next, c.tasks[n]? = some t → t.rest = .call op next → check c n = true →
      meets c (.call n op (r.answer op c.shared)) (r.reply c n))
    (schedule : List Nat) (passes : r.passes check c schedule = true) :
    M.Reaches meets c₀ (schedule.foldl r.reply c) := by
  induction schedule generalizing c with
  | nil => exact reached
  | cons n rest ih =>
      obtain ⟨here, later⟩ := Bool.and_eq_true_iff.mp passes
      exact ih (reached.reply r n fun t op next found stands => sound c n t op next found stands here)
        later

/-- Answer a whole schedule of calls. -/
theorem Reaches.replies {c₀ c : Config S σ ι α} (reached : M.Reaches anyStep c₀ c) (r : M.Reply)
    (schedule : List Nat) : M.Reaches anyStep c₀ (schedule.foldl r.reply c) := by
  induction schedule generalizing c with
  | nil => exact reached
  | cons n rest ih => exact ih (reached.reply r n fun _ _ _ _ _ => trivial)

/-! ## Tasks after a step -/

/-- The tasks of a configuration after a call are the other tasks and the one
that was answered. -/
theorem mem_set_answered {c : Config S σ ι α} {n : Nat} {t u : Task S ι α} {op : S.Op}
    {next : S.Ans op → Program S α} {a : S.Ans op}
    (mem : u ∈ c.tasks.set n (t.answered op a next)) : u ∈ c.tasks ∨ u = t.answered op a next :=
  List.mem_or_eq_of_mem_set mem

/-- The task that was answered, where it stood. -/
theorem found_answered {c : Config S σ ι α} {n : Nat} {t u : Task S ι α} {op : S.Op}
    {next : S.Ans op → Program S α} {a : S.Ans op} (found : c.tasks[n]? = some t)
    (after : (c.tasks.set n (t.answered op a next))[n]? = some u) : u = t.answered op a next := by
  have bound : n < c.tasks.length := (List.getElem?_eq_some_iff.mp found).1
  rw [List.getElem?_set_self bound] at after
  exact (Option.some.inj after).symm

/-- A step forgets no task and no answer. -/
theorem Step.task_extends {c c' : Config S σ ι α} {l : Label S ι} (step : M.Step c l c')
    {t : Task S ι α} (mem : t ∈ c.tasks) :
    ∃ t' ∈ c'.tasks, t'.input = t.input ∧ t.trace <+: t'.trace := by
  cases step with
  | spawn admitted => exact ⟨t, List.mem_append_left _ mem, rfl, List.prefix_rfl⟩
  | @call n u op next a s' found stands served =>
      obtain ⟨m, bound, at_m⟩ := List.getElem_of_mem mem
      by_cases same : n = m
      · subst same
        obtain rfl : u = t := by
          rw [List.getElem?_eq_getElem bound, at_m] at found
          exact (Option.some.inj found).symm
        exact ⟨u.answered op a next, List.mem_set bound _, rfl, List.prefix_append _ _⟩
      · refine ⟨t, ?_, rfl, List.prefix_rfl⟩
        rw [List.mem_iff_getElem?]
        exact ⟨m, by rw [List.getElem?_set_ne same, List.getElem?_eq_getElem bound, at_m]⟩
  | environment acted => exact ⟨t, mem, rfl, List.prefix_rfl⟩

theorem mem_of_found {c : Config S σ ι α} {n : Nat} {t : Task S ι α}
    (found : c.tasks[n]? = some t) : t ∈ c.tasks :=
  List.mem_of_getElem? found

/-- A run over more shared state is a run over a part of it, when whatever moves the
part is a step of the smaller system. -/
theorem Reaches.project {τ : Type} {N : System S τ ι α} (part : σ → τ) (main : M.main = N.main)
    (admits : ∀ s i, M.admits s i → N.admits (part s) i)
    (serves : ∀ n op s a s', M.serves n op s a s' → N.serves n op (part s) a (part s'))
    (environment : ∀ s s', M.environment s s' →
      part s' = part s ∨ N.environment (part s) (part s'))
    {s₀ : σ} {c : Config S σ ι α} (reached : M.Reaches anyStep ⟨s₀, []⟩ c) :
    N.Reaches anyStep ⟨part s₀, []⟩ ⟨part c.shared, c.tasks⟩ := by
  refine reached.invariant (J := fun c => N.Reaches anyStep ⟨part s₀, []⟩ ⟨part c.shared, c.tasks⟩)
    (Reaches.refl _) ?_
  intro c l c' _ before step _
  cases step with
  | @spawn input admitted =>
      rw [show M.started input = N.started input by unfold started; rw [main]]
      exact before.spawned input (admits _ _ admitted) trivial
  | call found stands served =>
      exact before.called _ found stands _ _ (serves _ _ _ _ _ served) trivial
  | environment acted =>
      rcases environment _ _ acted with same | acted
      · rw [same]
        exact before
      · exact before.disturbed _ acted trivial

end System

/-! ## Knowledge along traces -/

/-- What is to be shown of a run: an invariant of the shared state, what is known
of the input of a started task, and what is known of every answered call. -/
structure Invariants (S : Signature) (σ ι : Type) where
  inv : σ → Prop
  input : σ → ι → Prop
  fact : ι → σ → Trace S → (op : S.Op) → S.Ans op → Prop

namespace Invariants

variable (I : Invariants S σ ι)

/-- From `s` to `s'` the invariant is restored and nothing known is lost. -/
structure Keeps (s s' : σ) : Prop where
  inv : I.inv s'
  input : ∀ i, I.input s i → I.input s' i
  fact : ∀ i trace op a, I.fact i s trace op a → I.fact i s' trace op a

theorem Keeps.refl {s : σ} (inv : I.inv s) : I.Keeps s s := ⟨inv, fun _ h => h, fun _ _ _ _ h => h⟩

/-- What is known of one task at shared state `s`. -/
structure Knows (M : System S σ ι α) (s : σ) (t : Task S ι α) : Prop where
  input : I.input s t.input
  resumes : (M.main t.input).Resumes t.trace t.rest
  facts : Facts (I.fact t.input s) t.trace

/-- The invariant holds and everything is known of every task. -/
structure Holds (M : System S σ ι α) (c : Config S σ ι α) : Prop where
  inv : I.inv c.shared
  tasks : ∀ t ∈ c.tasks, I.Knows M c.shared t

variable {I} {M : System S σ ι α}
  {meets : Config S σ ι α → Label S ι → Config S σ ι α → Prop}

theorem Knows.keeps {s s' : σ} {t : Task S ι α} (knows : I.Knows M s t) (keeps : I.Keeps s s') :
    I.Knows M s' t :=
  ⟨keeps.input _ knows.input, knows.resumes,
    knows.facts.imp fun before op a known => keeps.fact _ before op a known⟩

theorem Knows.answered {s : σ} {t : Task S ι α} {op : S.Op} {next : S.Ans op → Program S α}
    {a : S.Ans op} (knows : I.Knows M s t) (stands : t.rest = .call op next)
    (fact : I.fact t.input s t.trace op a) : I.Knows M s (t.answered op a next) :=
  ⟨knows.input, .answer a (stands ▸ knows.resumes), facts_snoc.mpr ⟨knows.facts, fact⟩⟩

/-- What the path logic says of the call a task stands at. -/
theorem Knows.issues {P : Trace S → S.Op → Prop} {Q : Trace S → α → Prop} {s : σ}
    {t : Task S ι α} {op : S.Op} {next : S.Ans op → Program S α} (knows : I.Knows M s t)
    (along : Along (I.fact t.input s) P Q [] (M.main t.input)) (stands : t.rest = .call op next) :
    P t.trace op := by
  have reached := along.resumes knows.resumes knows.facts
  rw [stands] at reached
  exact reached.1

/-- What the path logic says of the value a task returned. -/
theorem Knows.returns {P : Trace S → S.Op → Prop} {Q : Trace S → α → Prop} {s : σ}
    {t : Task S ι α} {value : α} (knows : I.Knows M s t)
    (along : Along (I.fact t.input s) P Q [] (M.main t.input)) (returned : t.rest = .ret value) :
    Q t.trace value := by
  have reached := along.resumes knows.resumes knows.facts
  rwa [returned] at reached

/-- The invariant rule for runs that start with no task. -/
theorem holds_of_reaches {s₀ : σ} {c : Config S σ ι α} (start : I.inv s₀)
    (spawn : ∀ s i, I.inv s → M.admits s i → I.input s i)
    (call : ∀ (c : Config S σ ι α) (n : Nat) (t : Task S ι α) (op : S.Op)
      (next : S.Ans op → Program S α) (a : S.Ans op) (s' : σ), I.Holds M c →
      c.tasks[n]? = some t → t.rest = .call op next → M.serves n op c.shared a s' →
      meets c (.call n op a) ⟨s', c.tasks.set n (t.answered op a next)⟩ →
      I.Keeps c.shared s' ∧ I.fact t.input s' t.trace op a)
    (environment : ∀ (c : Config S σ ι α) (s' : σ), I.Holds M c → M.environment c.shared s' →
      meets c .environment ⟨s', c.tasks⟩ → I.Keeps c.shared s')
    (reached : M.Reaches meets ⟨s₀, []⟩ c) : I.Holds M c := by
  refine reached.invariant ⟨start, by simp⟩ ?_
  intro c l c' _ holds step met
  cases step with
  | @spawn input admitted =>
      refine ⟨holds.inv, fun t mem => ?_⟩
      rcases List.mem_append.mp mem with old | new
      · exact holds.tasks t old
      · obtain rfl := List.mem_singleton.mp new
        exact ⟨spawn _ _ holds.inv admitted, .start, facts_nil⟩
  | @call n t op next a s' found stands served =>
      obtain ⟨keeps, fact⟩ := call c n t op next a s' holds found stands served met
      refine ⟨keeps.inv, fun u mem => ?_⟩
      rcases System.mem_set_answered mem with old | rfl
      · exact (holds.tasks u old).keeps keeps
      · have knows := (holds.tasks t (System.mem_of_found found)).keeps keeps
        exact knows.answered stands fact
  | @environment s' acted =>
      have keeps := environment c s' holds acted met
      exact ⟨keeps.inv, fun u mem => (holds.tasks u mem).keeps keeps⟩

end Invariants

end Delphi.Theory
