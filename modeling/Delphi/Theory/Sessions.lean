/-
# Delphi.Theory.Sessions -- what a task knows while its session lasts

`Invariants` keeps what stays known of a call for good.  A task that holds a lock, or
has a transaction open, knows more than that, but only until it lets go: such
knowledge is about the shared state now and everything the task has called so far.
`Sessions` adds it as a relation between the shared state, the number of a task and
its trace (`agrees`), for a task that is not started the empty trace.

The rule is `Sessions.holds_of_reaches`: a call must restore the relation for its own
task and keep it for every other, and the environment must keep it for all.
-/
import Delphi.Theory.Pool

namespace Delphi.Theory

set_option autoImplicit false

variable {S : Signature} {σ ι α : Type}

/-- The answers the `n`-th task has had; none when it is not started. -/
def Config.traceAt (c : Config S σ ι α) (n : Nat) : Trace S := (c.tasks[n]?.map Task.trace).getD []

theorem Config.traceAt_found {c : Config S σ ι α} {n : Nat} {t : Task S ι α}
    (found : c.tasks[n]? = some t) : c.traceAt n = t.trace := by
  rw [Config.traceAt, found]
  rfl

/-- Starting a task gives nobody an answer. -/
theorem Config.traceAt_spawn (c : Config S σ ι α) (M : System S σ ι α) (input : ι) (n : Nat) :
    Config.traceAt ⟨c.shared, c.tasks ++ [M.started input]⟩ n = c.traceAt n := by
  unfold Config.traceAt
  rcases Nat.lt_trichotomy n c.tasks.length with earlier | rfl | later
  · rw [List.getElem?_append_left earlier]
  · simp [System.started]
  · rw [List.getElem?_eq_none (by simp; omega), List.getElem?_eq_none (by omega)]

/-- An answer lengthens the trace of the task that had it, and no other. -/
theorem Config.traceAt_answered {c : Config S σ ι α} {n : Nat} {t : Task S ι α} {op : S.Op}
    {next : S.Ans op → Program S α} {a : S.Ans op} {s' : σ} (found : c.tasks[n]? = some t)
    (m : Nat) : Config.traceAt ⟨s', c.tasks.set n (t.answered op a next)⟩ m =
      if m = n then t.trace ++ [⟨op, a⟩] else c.traceAt m := by
  have bound : n < c.tasks.length := (List.getElem?_eq_some_iff.mp found).1
  unfold Config.traceAt
  split
  · rename_i same
    subst same
    simp [bound]
  · rename_i other
    rw [List.getElem?_set_ne (Ne.symm other)]

/-- One way to answer the calls of each task, where it is ready. -/
structure System.Serving (M : System S σ ι α) where
  answer : Nat → (op : S.Op) → σ → S.Ans op
  after : Nat → S.Op → σ → σ
  ready : Nat → S.Op → σ → Bool
  lawful : ∀ n op s, ready n op s = true → M.serves n op s (answer n op s) (after n op s)

namespace System

variable {M : System S σ ι α} {meets : Config S σ ι α → Label S ι → Config S σ ι α → Prop}

/-- Answer the call the `n`-th task stands at, if it stands at one and that is ready. -/
def Serving.serve (r : M.Serving) (c : Config S σ ι α) (n : Nat) : Config S σ ι α :=
  match c.tasks[n]? with
  | none => c
  | some t =>
      match t.rest with
      | .ret _ => c
      | .call op next =>
          if r.ready n op c.shared then
            ⟨r.after n op c.shared, c.tasks.set n (t.answered op (r.answer n op c.shared) next)⟩
          else c

theorem Reaches.served {c₀ c : Config S σ ι α} (reached : M.Reaches anyStep c₀ c) (r : M.Serving)
    (schedule : List Nat) : M.Reaches anyStep c₀ (schedule.foldl r.serve c) := by
  induction schedule generalizing c with
  | nil => exact reached
  | cons n rest ih =>
      refine ih ?_
      unfold Serving.serve
      cases found : c.tasks[n]? with
      | none => exact reached
      | some t =>
          dsimp only
          cases stands : t.rest with
          | ret value => exact reached
          | call op next =>
              dsimp only
              split
              · rename_i ready
                exact reached.called n found stands _ _ (r.lawful n op c.shared ready) trivial
              · exact reached

end System

/-- Invariants, with what a task knows while its session lasts. -/
structure Sessions (S : Signature) (σ ι : Type) extends Invariants S σ ι where
  agrees : σ → Nat → Trace S → Prop

namespace Sessions

variable {I : Sessions S σ ι} {M : System S σ ι α}
  {meets : Config S σ ι α → Label S ι → Config S σ ι α → Prop}

/-- The invariants hold, and every session agrees with the shared state. -/
structure Holds (I : Sessions S σ ι) (M : System S σ ι α) (c : Config S σ ι α) : Prop where
  known : I.toInvariants.Holds M c
  agrees : ∀ n, I.agrees c.shared n (c.traceAt n)

theorem Holds.agrees_found {c : Config S σ ι α} (holds : I.Holds M c) {n : Nat} {t : Task S ι α}
    (found : c.tasks[n]? = some t) : I.agrees c.shared n t.trace :=
  Config.traceAt_found found ▸ holds.agrees n

/-- The rule for runs that start with no task. -/
theorem holds_of_reaches {s₀ : σ} {c : Config S σ ι α} (start : I.inv s₀)
    (fresh : ∀ n, I.agrees s₀ n [])
    (spawn : ∀ s i, I.inv s → M.admits s i → I.input s i)
    (call : ∀ (c : Config S σ ι α) (n : Nat) (t : Task S ι α) (op : S.Op)
      (next : S.Ans op → Program S α) (a : S.Ans op) (s' : σ), I.Holds M c →
      c.tasks[n]? = some t → t.rest = .call op next → M.serves n op c.shared a s' →
      meets c (.call n op a) ⟨s', c.tasks.set n (t.answered op a next)⟩ →
      (I.toInvariants.Keeps c.shared s' ∧ I.fact t.input s' t.trace op a) ∧
      I.agrees s' n (t.trace ++ [⟨op, a⟩]) ∧
      ∀ m, m ≠ n → I.agrees c.shared m (c.traceAt m) → I.agrees s' m (c.traceAt m))
    (environment : ∀ (c : Config S σ ι α) (s' : σ), I.Holds M c → M.environment c.shared s' →
      meets c .environment ⟨s', c.tasks⟩ → I.toInvariants.Keeps c.shared s' ∧
      ∀ m, I.agrees c.shared m (c.traceAt m) → I.agrees s' m (c.traceAt m))
    (reached : M.Reaches meets ⟨s₀, []⟩ c) : I.Holds M c := by
  refine reached.invariant ⟨⟨start, by simp⟩, fun n => fresh n⟩ ?_
  intro c l c' _ holds step met
  cases step with
  | @spawn input admitted =>
      refine ⟨⟨holds.known.inv, fun t mem => ?_⟩, fun n => ?_⟩
      · rcases List.mem_append.mp mem with old | new
        · exact holds.known.tasks t old
        · obtain rfl := List.mem_singleton.mp new
          exact ⟨spawn _ _ holds.known.inv admitted, .start, facts_nil⟩
      · rw [Config.traceAt_spawn]
        exact holds.agrees n
  | @call n t op next a s' found stands served =>
      obtain ⟨⟨keeps, fact⟩, own, others⟩ := call c n t op next a s' holds found stands served met
      refine ⟨⟨keeps.inv, fun u mem => ?_⟩, fun m => ?_⟩
      · rcases System.mem_set_answered mem with old | rfl
        · exact (holds.known.tasks u old).keeps keeps
        · have knows := (holds.known.tasks t (System.mem_of_found found)).keeps keeps
          exact knows.answered stands fact
      · rw [Config.traceAt_answered found]
        split
        · rename_i same
          subst same
          exact own
        · rename_i other
          exact others m other (holds.agrees m)
  | @environment s' acted =>
      obtain ⟨keeps, others⟩ := environment c s' holds acted met
      exact ⟨⟨keeps.inv, fun u mem => (holds.known.tasks u mem).keeps keeps⟩,
        fun m => others m (holds.agrees m)⟩

end Sessions

end Delphi.Theory
