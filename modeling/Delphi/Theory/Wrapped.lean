/-
# Delphi.Theory.Wrapped -- programs run for somebody

A program over some ports is seldom the whole of a task: it is run for a message,
and what it returned is then told to whoever sent it, over ports of its own.

`Wrapping` is that shape.  Each task of the wrapped system runs a program of the
inner one and then settles its value over the second signature.  A run of the
wrapped system is, task by task, a run of the inner one (`Wrapping.inner_run`), so
whatever is known of every run of the inner system is known here too; and a task
that has ended settled the value its program returned.
-/
import Delphi.Theory.Pool

namespace Delphi.Theory

set_option autoImplicit false

/-! ## Two signatures -/

/-- The calls of two signatures. -/
abbrev Signature.beside (S T : Signature) : Signature where
  Op := S.Op ⊕ T.Op
  Ans
    | .inl op => S.Ans op
    | .inr op => T.Ans op

variable {S T : Signature} {α β : Type}

namespace Program

/-- A program over the first ports. -/
def first : Program S α → Program (S.beside T) α
  | .ret value => .ret value
  | .call op next => .call (.inl op) fun answer => (next answer).first

/-- A program over the second ports. -/
def second : Program T α → Program (S.beside T) α
  | .ret value => .ret value
  | .call op next => .call (.inr op) fun answer => (next answer).second

end Program

/-- The calls over the first ports. -/
def firstOf : Trace (S.beside T) → Trace S :=
  List.filterMap fun
    | ⟨.inl op, answer⟩ => some ⟨op, answer⟩
    | ⟨.inr _, _⟩ => none

/-- The calls over the second ports. -/
def secondOf : Trace (S.beside T) → Trace T :=
  List.filterMap fun
    | ⟨.inl _, _⟩ => none
    | ⟨.inr op, answer⟩ => some ⟨op, answer⟩

@[simp] theorem firstOf_nil : firstOf ([] : Trace (S.beside T)) = [] := rfl

@[simp] theorem secondOf_nil : secondOf ([] : Trace (S.beside T)) = [] := rfl

@[simp] theorem firstOf_inl (trace : Trace (S.beside T)) (op : S.Op) (answer : S.Ans op) :
    firstOf (trace ++ [⟨.inl op, answer⟩]) = firstOf trace ++ [⟨op, answer⟩] := by
  simp [firstOf]

@[simp] theorem firstOf_inr (trace : Trace (S.beside T)) (op : T.Op) (answer : T.Ans op) :
    firstOf (trace ++ [⟨.inr op, answer⟩]) = firstOf trace := by
  simp [firstOf]

@[simp] theorem secondOf_inl (trace : Trace (S.beside T)) (op : S.Op) (answer : S.Ans op) :
    secondOf (trace ++ [⟨.inl op, answer⟩]) = secondOf trace := by
  simp [secondOf]

@[simp] theorem secondOf_inr (trace : Trace (S.beside T)) (op : T.Op) (answer : T.Ans op) :
    secondOf (trace ++ [⟨.inr op, answer⟩]) = secondOf trace ++ [⟨op, answer⟩] := by
  simp [secondOf]

/-! ## Wrapping -/

/-- Programs of `M`, each run for an input `κ` and its value settled over `T`. -/
structure Wrapping (S T : Signature) (σ τ ι κ α β : Type) where
  inner : System S σ ι α
  input : κ → ι
  settle : κ → α → Program T β
  admits : τ → κ → Prop
  serves : (op : T.Op) → τ → T.Ans op → τ → Prop
  environment : τ → τ → Prop

namespace Wrapping

variable {σ τ ι κ : Type} (W : Wrapping S T σ τ ι κ α β)

/-- Both systems at once. -/
def system : System (S.beside T) (σ × τ) κ β where
  main k := (W.inner.main (W.input k)).first >>= fun value => (W.settle k value).second
  admits s k := W.admits s.2 k
  serves
    | n, .inl op, s, answer, s' => W.inner.serves n op s.1 answer s'.1 ∧ s'.2 = s.2
    | _, .inr op, s, answer, s' => s'.1 = s.1 ∧ W.serves op s.2 answer s'.2
  environment s s' :=
    (W.inner.environment s.1 s'.1 ∧ s'.2 = s.2) ∨ (s'.1 = s.1 ∧ W.environment s.2 s'.2)

/-- Where a wrapped task stands: in its program, or settling what that returned. -/
inductive Stands (k : κ) (trace : Trace (S.beside T)) (rest : Program (S.beside T) β) :
    Program S α → Prop where
  | running {op : S.Op} {next : S.Ans op → Program S α} (unsettled : secondOf trace = [])
      (same : rest = .call (.inl op)
        fun answer => (next answer).first >>= fun value => (W.settle k value).second) :
      Stands k trace rest (.call op next)
  | settling {value : α} {q : Program T β} (since : (W.settle k value).Resumes (secondOf trace) q)
      (same : rest = q.second) : Stands k trace rest (.ret value)

/-- A wrapped task and the task inside it. -/
structure Wraps (t : Task (S.beside T) κ β) (inside : Task S ι α) : Prop where
  input : inside.input = W.input t.input
  trace : inside.trace = firstOf t.trace
  stands : W.Stands t.input t.trace t.rest inside.rest

variable {W}

theorem stands_running {k : κ} {trace : Trace (S.beside T)} (unsettled : secondOf trace = [])
    (p : Program S α) :
    W.Stands k trace (p.first >>= fun value => (W.settle k value).second) p := by
  cases p with
  | ret value => exact .settling (unsettled ▸ .start) rfl
  | call op next => exact .running unsettled rfl

theorem wraps_started (k : κ) : W.Wraps (W.system.started k) (W.inner.started (W.input k)) :=
  ⟨rfl, rfl, stands_running rfl _⟩

/-- What a call of a wrapped task is: one of its program's, or one of the settling. -/
inductive CallOf (W : Wrapping S T σ τ ι κ α β) (t : Task (S.beside T) κ β) (inside : Task S ι α) :
    (op : (S.beside T).Op) → ((S.beside T).Ans op → Program (S.beside T) β) → Prop where
  | first {op : S.Op} {next : S.Ans op → Program S α}
      {following : S.Ans op → Program (S.beside T) β} (stands : inside.rest = .call op next)
      (after : ∀ answer, W.Wraps (t.answered (.inl op) answer following)
        (inside.answered op answer next)) : CallOf W t inside (.inl op) following
  | second {op : T.Op} {following : T.Ans op → Program (S.beside T) β}
      (after : ∀ answer, W.Wraps (t.answered (.inr op) answer following) inside) :
      CallOf W t inside (.inr op) following

theorem Wraps.call {t : Task (S.beside T) κ β} {inside : Task S ι α} (wraps : W.Wraps t inside)
    {op : (S.beside T).Op} {next : (S.beside T).Ans op → Program (S.beside T) β}
    (stands : t.rest = .call op next) : CallOf W t inside op next := by
  obtain ⟨i, trace₁, p⟩ := inside
  obtain ⟨input, trace, position⟩ := wraps
  cases position with
  | @running op' next' unsettled same =>
      cases stands.symm.trans same
      refine .first rfl fun answer => ⟨input, ?_, stands_running ?_ _⟩
      · exact (congrArg (· ++ [⟨op', answer⟩]) trace).trans (firstOf_inl t.trace op' answer).symm
      · exact (secondOf_inl t.trace op' answer).trans unsettled
  | @settling value q since same =>
      cases q with
      | ret settled => cases stands.symm.trans same
      | call op' next' =>
          cases stands.symm.trans same
          refine .second fun answer => ⟨input, ?_, .settling (q := next' answer) ?_ rfl⟩
          · exact trace.trans (firstOf_inr t.trace op' answer).symm
          · show (W.settle t.input value).Resumes (secondOf (t.trace ++ [⟨.inr op', answer⟩])) _
            rw [secondOf_inr]
            exact Program.Resumes.answer (S := T) answer since

/-- A wrapped task that has ended: its program has, and what it returned is settled. -/
theorem Wraps.ended {t : Task (S.beside T) κ β} {inside : Task S ι α} (wraps : W.Wraps t inside)
    {result : β} (done : t.rest = .ret result) : ∃ value, inside.rest = .ret value ∧
      (W.settle t.input value).Resumes (secondOf t.trace) (.ret result) := by
  obtain ⟨i, trace₁, p⟩ := inside
  obtain ⟨input, trace, position⟩ := wraps
  cases position with
  | running unsettled same => cases done.symm.trans same
  | @settling value q since same =>
      cases q with
      | ret settled =>
          cases done.symm.trans same
          exact ⟨value, rfl, since⟩
      | call op next => cases done.symm.trans same

/-- A task that has begun to settle: its program has ended. -/
theorem Wraps.settles {t : Task (S.beside T) κ β} {inside : Task S ι α} (wraps : W.Wraps t inside)
    (settled : secondOf t.trace ≠ []) : ∃ value q, inside.rest = .ret value ∧
      (W.settle t.input value).Resumes (secondOf t.trace) q := by
  obtain ⟨i, trace₁, p⟩ := inside
  obtain ⟨input, trace, position⟩ := wraps
  cases position with
  | running unsettled same => exact absurd unsettled settled
  | @settling value q since same => exact ⟨value, q, rfl, since⟩

/-! ## The run inside -/

abbrev Run (S T : Signature) (σ τ κ β : Type) := Config (S.beside T) (σ × τ) κ β

/-- A configuration and the one inside it. -/
structure Inside (W : Wrapping S T σ τ ι κ α β) (c : Run S T σ τ κ β) (c₁ : Config S σ ι α) :
    Prop where
  shared : c₁.shared = c.shared.1
  length : c₁.tasks.length = c.tasks.length
  wraps : ∀ (n : Nat) t inside, c.tasks[n]? = some t → c₁.tasks[n]? = some inside →
    W.Wraps t inside

variable {meets : Run S T σ τ κ β → Label (S.beside T) κ → Run S T σ τ κ β → Prop}
  {s₀ : σ × τ} {c : Run S T σ τ κ β}

theorem Inside.found {c₁ : Config S σ ι α} (within : Inside W c c₁) {n : Nat}
    {t : Task (S.beside T) κ β} (found : c.tasks[n]? = some t) :
    ∃ inside, c₁.tasks[n]? = some inside ∧ W.Wraps t inside := by
  have bound : n < c₁.tasks.length := within.length ▸ (List.getElem?_eq_some_iff.mp found).1
  have found₁ := List.getElem?_eq_getElem bound
  exact ⟨_, found₁, within.wraps n t _ found found₁⟩

theorem Inside.of_mem {c₁ : Config S σ ι α} (within : Inside W c c₁) {t : Task (S.beside T) κ β}
    (mem : t ∈ c.tasks) : ∃ inside ∈ c₁.tasks, W.Wraps t inside := by
  obtain ⟨n, found⟩ := List.mem_iff_getElem?.mp mem
  obtain ⟨inside, found₁, wraps⟩ := within.found found
  exact ⟨inside, System.mem_of_found found₁, wraps⟩

/-- A task started on both sides. -/
theorem Inside.spawned {c₁ : Config S σ ι α} (within : Inside W c c₁) (k : κ) :
    Inside W ⟨c.shared, c.tasks ++ [W.system.started k]⟩
      ⟨c₁.shared, c₁.tasks ++ [W.inner.started (W.input k)]⟩ := by
  refine ⟨within.shared, by simp [within.length], fun n t inside found found₁ => ?_⟩
  rcases Nat.lt_or_ge n c.tasks.length with old | new
  · rw [List.getElem?_append_left old] at found
    rw [List.getElem?_append_left (within.length ▸ old)] at found₁
    exact within.wraps n t inside found found₁
  · rw [List.getElem?_append_right new] at found
    rw [List.getElem?_append_right (within.length ▸ new)] at found₁
    obtain rfl := List.mem_singleton.mp (List.mem_of_getElem? found)
    obtain rfl := List.mem_singleton.mp (List.mem_of_getElem? found₁)
    exact wraps_started k

/-- The `n`-th task replaced, on both sides. -/
theorem Inside.replaced {c₁ : Config S σ ι α} (within : Inside W c c₁) (n : Nat)
    {s : σ × τ} {s₁ : σ} (shared : s₁ = s.1) {t : Task (S.beside T) κ β} {inside : Task S ι α}
    (wraps : W.Wraps t inside) :
    Inside W ⟨s, c.tasks.set n t⟩ ⟨s₁, c₁.tasks.set n inside⟩ := by
  refine ⟨shared, by simp [within.length], fun m u inside' found found₁ => ?_⟩
  by_cases same : n = m
  · subst same
    rw [List.getElem?_set_self (by simpa using (List.getElem?_eq_some_iff.mp found).1)] at found
    rw [List.getElem?_set_self (by simpa using (List.getElem?_eq_some_iff.mp found₁).1)] at found₁
    cases found
    cases found₁
    exact wraps
  · rw [List.getElem?_set_ne same] at found found₁
    exact within.wraps m u inside' found found₁

/-- Every run has a run of the inner system inside it. -/
theorem inner_run
    (admitted : ∀ c, W.system.Reaches meets ⟨s₀, []⟩ c → ∀ k, W.admits c.shared.2 k →
      W.inner.admits c.shared.1 (W.input k))
    (reached : W.system.Reaches meets ⟨s₀, []⟩ c) :
    ∃ c₁, W.inner.Reaches System.anyStep ⟨s₀.1, []⟩ c₁ ∧ Inside W c c₁ := by
  refine reached.invariant (J := fun c => ∃ c₁, W.inner.Reaches System.anyStep ⟨s₀.1, []⟩ c₁ ∧
    Inside W c c₁) ⟨_, .refl _, rfl, rfl, fun _ _ _ found => nomatch found⟩ ?_
  rintro c l c' earlier ⟨c₁, reached₁, within⟩ step -
  cases step with
  | @spawn k admits =>
      have allowed := admitted c earlier k admits
      exact ⟨_, reached₁.spawned (W.input k) (within.shared ▸ allowed) trivial, within.spawned k⟩
  | @call n t op next answer s' found stands served =>
      obtain ⟨inside, found₁, wraps⟩ := within.found found
      cases wraps.call stands with
      | first stands₁ after =>
          obtain ⟨served, -⟩ := served
          exact ⟨_, reached₁.called n found₁ stands₁ answer s'.1 (within.shared ▸ served) trivial,
            within.replaced n rfl (after answer)⟩
      | second after =>
          have replaced := within.replaced n (within.shared.trans served.1.symm) (after answer)
          obtain ⟨bound, rfl⟩ := List.getElem?_eq_some_iff.mp found₁
          rw [List.set_getElem_self] at replaced
          exact ⟨c₁, reached₁, replaced⟩
  | @environment s' acted =>
      rcases acted with ⟨acted, -⟩ | ⟨same, -⟩
      · exact ⟨_, reached₁.disturbed s'.1 (within.shared ▸ acted) trivial, rfl, within.length,
          within.wraps⟩
      · exact ⟨c₁, reached₁, within.shared.trans same.symm, within.length, within.wraps⟩

/-- A lawful way to answer every call, from one for each side. -/
def replying (r : W.inner.Reply) (answer : (op : T.Op) → τ → T.Ans op) (after : T.Op → τ → τ)
    (lawful : ∀ op s, W.serves op s (answer op s) (after op s)) : W.system.Reply where
  answer
    | .inl op, s => r.answer op s.1
    | .inr op, s => answer op s.2
  after
    | .inl op, s => (r.after op s.1, s.2)
    | .inr op, s => (s.1, after op s.2)
  lawful n op s := by
    cases op with
    | inl op => exact ⟨r.lawful n op s.1, rfl⟩
    | inr op => exact ⟨rfl, lawful op s.2⟩

end Wrapping

end Delphi.Theory
