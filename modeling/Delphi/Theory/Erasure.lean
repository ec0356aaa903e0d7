/-
# Delphi.Theory.Erasure -- runs without the tasks of others

Tasks that share a state do not interfere when a run stays a run after the tasks of
all others are erased from it, and everything they own from the state.  `slice` is
what is left of a state.  A task that is kept must be served by what is left just as
it was by the whole; a step of an erased task is at most a step of the environment
that the kept tasks have when they are alone (`Reaches.erase`).

A bucket is sliced by its keys.  The revisions stay those of the whole bucket: a
counter shared with others is seen to skip, and no more.
-/
import Delphi.Theory.KvBucket
import Delphi.Theory.Pool

namespace Delphi.Theory

set_option autoImplicit false

/-! ## Filtered lists -/

section Filter

variable {α : Type} {p : α → Bool} {a b : α}

theorem filter_set_of_pos {tasks : List α} {n : Nat} (found : tasks[n]? = some a)
    (kept : p a = true) (kept' : p b = true) :
    ∃ m, (tasks.filter p)[m]? = some a ∧ (tasks.set n b).filter p = (tasks.filter p).set m b := by
  induction tasks generalizing n with
  | nil => cases found
  | cons first rest ih =>
      cases n with
      | zero =>
          obtain rfl := Option.some.inj found
          exact ⟨0, by simp [kept], by simp [kept, kept']⟩
      | succ n =>
          obtain ⟨m, at_, set_⟩ := ih found
          cases keeps : p first with
          | true => exact ⟨m + 1, by simpa [keeps] using at_, by simpa [keeps] using set_⟩
          | false => exact ⟨m, by simpa [keeps] using at_, by simpa [keeps] using set_⟩

theorem filter_set_of_neg {tasks : List α} {n : Nat} (found : tasks[n]? = some a)
    (erased : p a = false) (erased' : p b = false) : (tasks.set n b).filter p = tasks.filter p := by
  induction tasks generalizing n with
  | nil => rfl
  | cons first rest ih =>
      cases n with
      | zero =>
          obtain rfl := Option.some.inj found
          simp [erased, erased']
      | succ n =>
          have same := ih found
          cases keeps : p first <;> simpa [keeps] using same

end Filter

/-- What is left of a map depends on what is kept only. -/
theorem restrict_congr {κ β : Type} {keep : κ → Prop} [DecidablePred keep] {f g : κ → Option β}
    (same : ∀ key, keep key → g key = f key) :
    (fun key => if keep key then g key else none) = fun key => if keep key then f key else none := by
  funext key
  split
  · rename_i kept
    exact same key kept
  · rfl

/-- What is left of a map in which a key that is kept is written. -/
theorem restrict_update {κ β : Type} [DecidableEq κ] (keep : κ → Prop) [DecidablePred keep]
    {f : κ → Option β} {key : κ} (kept : keep key) (value : Option β) :
    (fun other => if keep other then Function.update f key value other else none) =
      Function.update (fun other => if keep other then f other else none) key value := by
  funext other
  by_cases same : other = key
  · subst same
    rw [if_pos kept, Function.update_self, Function.update_self]
  · rw [Function.update_of_ne same, Function.update_of_ne same]

/-! ## Programs that keep to themselves -/

namespace Program

variable {S : Signature} {α β : Type} {A : (op : S.Op) → S.Ans op → Prop} {P : S.Op → Prop}
  {Q : α → Prop} {R : β → Prop}

/-- The path logic where what came before does not matter. -/
def Confined (A : (op : S.Op) → S.Ans op → Prop) (P : S.Op → Prop) (Q : α → Prop) :
    Program S α → Prop
  | .ret value => Q value
  | .call op next => P op ∧ ∀ a, A op a → Confined A P Q (next a)

theorem Confined.perform {op : S.Op} {next : S.Ans op → Program S β} (issued : P op)
    (rest : ∀ a, A op a → Confined A P R (next a)) :
    Confined A P R (Program.perform op >>= next) := ⟨issued, rest⟩

theorem Confined.bind {p : Program S α} {next : α → Program S β} (first : Confined A P Q p)
    (rest : ∀ value, Q value → Confined A P R (next value)) : Confined A P R (p >>= next) := by
  induction p with
  | ret value => exact rest value first
  | call op next ih => exact ⟨first.1, fun a told => ih a (first.2 a told)⟩

theorem Confined.imp {Q' : α → Prop} {p : Program S α} (confined : Confined A P Q p)
    (weaker : ∀ value, Q value → Q' value) : Confined A P Q' p := by
  induction p with
  | ret value => exact weaker value confined
  | call op next ih => exact ⟨confined.1, fun a told => ih a (confined.2 a told)⟩

/-- Less may be asked of the calls. -/
theorem Confined.calls {P' : S.Op → Prop} {p : Program S α} (confined : Confined A P Q p)
    (weaker : ∀ op, P op → P' op) : Confined A P' Q p := by
  induction p with
  | ret value => exact confined
  | call op next ih => exact ⟨weaker op confined.1, fun a told => ih a (confined.2 a told)⟩

theorem Confined.along {p : Program S α} (confined : Confined A P Q p) (trace : Trace S) :
    Along (fun _ => A) (fun _ => P) (fun _ => Q) trace p := by
  induction p generalizing trace with
  | ret value => exact confined
  | call op next ih => exact ⟨confined.1, fun a told => ih a (confined.2 a told) _⟩

end Program

/-! ## Erasing tasks -/

namespace System

variable {S : Signature} {σ ι α : Type} {M : System S σ ι α}

/-- The tasks that are kept, over what is left of the state. -/
def erased (keep : ι → Bool) (slice : σ → σ) (c : Config S σ ι α) : Config S σ ι α :=
  ⟨slice c.shared, c.tasks.filter fun t => keep t.input⟩

/-- `N` runs the tasks that are kept, over what is left of the state. -/
theorem Reaches.erase {N : System S σ ι α} {keep : ι → Bool} {slice : σ → σ} {s₀ : σ}
    {c : Config S σ ι α} (main : ∀ i, keep i = true → N.main i = M.main i)
    (admits : ∀ s i, keep i = true → M.admits s i → N.admits (slice s) i)
    (own : ∀ (c : Config S σ ι α) (n : Nat) (t : Task S ι α) (op : S.Op)
      (next : S.Ans op → Program S α) (a : S.Ans op) (s' : σ), M.Reaches anyStep ⟨s₀, []⟩ c →
      c.tasks[n]? = some t → t.rest = .call op next → M.serves n op c.shared a s' →
      keep t.input = true → ∀ m, N.serves m op (slice c.shared) a (slice s'))
    (others : ∀ (c : Config S σ ι α) (n : Nat) (t : Task S ι α) (op : S.Op)
      (next : S.Ans op → Program S α) (a : S.Ans op) (s' : σ), M.Reaches anyStep ⟨s₀, []⟩ c →
      c.tasks[n]? = some t → t.rest = .call op next → M.serves n op c.shared a s' →
      keep t.input = false → N.environment (slice c.shared) (slice s'))
    (environment : ∀ s s', M.environment s s' → N.environment (slice s) (slice s'))
    (reached : M.Reaches anyStep ⟨s₀, []⟩ c) :
    N.Reaches anyStep ⟨slice s₀, []⟩ (erased keep slice c) := by
  refine reached.invariant (J := fun c => N.Reaches anyStep ⟨slice s₀, []⟩ (erased keep slice c))
    (Reaches.refl _) ?_
  intro c l c' earlier before step _
  cases step with
  | @spawn input admitted =>
      cases kept : keep input with
      | true =>
          have next := before.spawned input (admits _ _ kept admitted) trivial
          simpa [erased, started, kept, main input kept] using next
      | false => simpa [erased, started, kept] using before
  | @call n t op next a s' found stands served =>
      cases kept : keep t.input with
      | true =>
          obtain ⟨m, at_, set_⟩ := filter_set_of_pos (p := fun t => keep t.input)
            (b := t.answered op a next) found kept kept
          unfold erased
          rw [set_]
          exact before.called m at_ stands a _ (own c n t op next a s' earlier found stands served
            kept m) trivial
      | false =>
          unfold erased
          rw [filter_set_of_neg (p := fun t => keep t.input) (b := t.answered op a next) found kept
            kept]
          exact before.disturbed _ (others c n t op next a s' earlier found stands served kept)
            trivial
  | environment acted => exact before.disturbed _ (environment _ _ acted) trivial

end System

/-! ## A bucket without the keys of others -/

namespace KvBucket

variable {V : Type} {keep : String → Bool} {b b' : KvBucket V} {key : String} {value : V}

def only (keep : String → Bool) (b : KvBucket V) : KvBucket V :=
  { b with entries := fun key => if keep key then b.entries key else none }

theorem only_entries (kept : keep key = true) : (b.only keep).entries key = b.entries key :=
  if_pos kept

theorem only_congr (same : ∀ key, keep key = true → b'.entries key = b.entries key) :
    (b'.only keep).entries = (b.only keep).entries := restrict_congr same

theorem only_live (kept : keep key = true) : (b.only keep).live key = b.live key := by
  rw [live, only_entries kept, live]

theorem only_put (kept : keep key = true) :
    (b.put key value).only keep = (b.only keep).put key value :=
  KvBucket.mk.injEq .. |>.mpr ⟨restrict_update (fun key => keep key = true) kept _, rfl⟩

theorem only_purge (kept : keep key = true) :
    (b.purge key).only keep = (b.only keep).purge key :=
  KvBucket.mk.injEq .. |>.mpr ⟨restrict_update (fun key => keep key = true) kept _, rfl⟩

theorem only_expire (kept : keep key = true) :
    (b.expire key).only keep = (b.only keep).expire key :=
  KvBucket.mk.injEq .. |>.mpr ⟨restrict_update (fun key => keep key = true) kept _, rfl⟩

/-- A swap of a kept key goes the same way without the others. -/
theorem only_update (kept : keep key = true) {revision : Nat} :
    (b.only keep).update key value revision = (b.update key value revision).map (only keep) := by
  unfold update
  rw [show (b.only keep).revisionOf key = b.revisionOf key by
    rw [revisionOf, only_entries kept, revisionOf], apply_ite (Option.map (only keep)),
    Option.map_some, only_put kept, Option.map_none]

theorem only_create (kept : keep key = true) :
    (b.only keep).create key value = (b.create key value).map (only keep) := by
  unfold create
  rw [only_live kept]
  cases b.live key with
  | some held => rfl
  | none => exact congrArg some (only_put kept).symm

end KvBucket

end Delphi.Theory
