/-
# Delphi.Theory.Program -- programs that call ports one at a time

A service written against ports is, for everything a store can observe, a tree:
it either returns, or issues one call and continues with the answer
(`Program`).  Interleaving at the granularity of single calls is then a
scheduling of such trees, and a function of the source is a `do` block.

What such a tree does is read off its paths.  A `Trace` is the list of calls a
program has had answered; `Resumes p tr q` says that `p`, after exactly the
answers in `tr`, stands at `q`.  The path logic is one predicate, `Along`: under
an assumption on answers, every call issued on a path satisfies `P` and every
value returned satisfies `Q`, both given the trace so far.  It splits over
`bind` (`along_bind`), and `Along.resumes` brings it to any point a run can
reach.
-/
import Mathlib.Data.List.Basic

namespace Delphi.Theory

set_option autoImplicit false

/-- The calls a program may issue, and the type of each one's answer. -/
structure Signature where
  Op : Type
  Ans : Op → Type

/-- A program over ports: return, or issue a call and continue with its answer. -/
inductive Program (S : Signature) (α : Type) : Type where
  | ret (value : α)
  | call (op : S.Op) (next : S.Ans op → Program S α)

/-- One answered call. -/
abbrev Call (S : Signature) := Σ op : S.Op, S.Ans op

/-- The answered calls of a program, oldest first. -/
abbrev Trace (S : Signature) := List (Call S)

/-- Of a port that answers with what it holds or fails: an answer that is no failure is
what it holds. -/
theorem eq_of_answered {ε α : Type} {value held : α}
    (answered : (.ok value : Except ε α) = .ok held ∨
      ∃ error, (.ok value : Except ε α) = .error error) : held = value := by
  rcases answered with same | ⟨error, failed⟩
  · exact (Except.ok.inj same).symm
  · cases failed

namespace Program

variable {S : Signature} {α β γ : Type}

def bind : Program S α → (α → Program S β) → Program S β
  | .ret value, next => next value
  | .call op rest, next => .call op (fun answer => (rest answer).bind next)

instance : Monad (Program S) where
  pure := .ret
  bind := Program.bind

/-- Issue one call and return its answer. -/
def perform (op : S.Op) : Program S (S.Ans op) := .call op .ret

@[simp] theorem pure_eq (value : α) : (pure value : Program S α) = .ret value := rfl

@[simp] theorem ret_bind (value : α) (next : α → Program S β) :
    (Program.ret value >>= next) = next value := rfl

@[simp] theorem call_bind (op : S.Op) (rest : S.Ans op → Program S α)
    (next : α → Program S β) :
    (Program.call op rest >>= next) = .call op (fun answer => rest answer >>= next) := rfl

@[simp] theorem perform_bind (op : S.Op) (next : S.Ans op → Program S β) :
    (perform op >>= next) = .call op next := rfl

/-- The call a program stands at, when it has not returned. -/
def issues : Program S α → Option S.Op
  | .ret _ => none
  | .call op _ => some op

@[simp] theorem issues_ret (value : α) : (Program.ret value : Program S α).issues = none := rfl

@[simp] theorem issues_call (op : S.Op) (rest : S.Ans op → Program S α) :
    (Program.call op rest).issues = some op := rfl

theorem eq_call_of_issues {p : Program S α} {op : S.Op} (stands : p.issues = some op) :
    ∃ next, p = .call op next := by
  cases p with
  | ret value => cases stands
  | call op' next =>
      obtain rfl : op' = op := Option.some.inj stands
      exact ⟨next, rfl⟩

/-- The value a program returned, when it has. -/
def returned : Program S α → Option α
  | .ret value => some value
  | .call _ _ => none

theorem eq_ret_of_returned {p : Program S α} {value : α} (done : p.returned = some value) :
    p = .ret value := by
  cases p with
  | ret other => exact congrArg _ (Option.some.inj done)
  | call op next => cases done

/-- `p` stands at `q` after exactly the answers in the trace. -/
inductive Resumes (p : Program S α) : Trace S → Program S α → Prop where
  | start : Resumes p [] p
  | answer {trace : Trace S} {op : S.Op} {next : S.Ans op → Program S α} (a : S.Ans op)
      (before : Resumes p trace (.call op next)) :
      Resumes p (trace ++ [⟨op, a⟩]) (next a)

theorem Resumes.call {op : S.Op} {next : S.Ans op → Program S α} {a : S.Ans op}
    {trace : Trace S} {q : Program S α} (reached : (next a).Resumes trace q) :
    (Program.call op next).Resumes (⟨op, a⟩ :: trace) q := by
  induction reached with
  | start => exact Resumes.answer a Resumes.start
  | answer a' _ ih => exact .answer a' ih

end Program

/-! ## Facts about answers -/

section Facts

variable {S : Signature}

/-- Every answered call of the trace satisfies `A`, given the calls before it. -/
def Facts (A : Trace S → (op : S.Op) → S.Ans op → Prop) (trace : Trace S) : Prop :=
  ∀ before op a after, trace = before ++ ⟨op, a⟩ :: after → A before op a

variable {A : Trace S → (op : S.Op) → S.Ans op → Prop}

theorem facts_nil : Facts A [] := by
  intro before op a after same
  simp at same

theorem facts_snoc {trace : Trace S} {op : S.Op} {a : S.Ans op} :
    Facts A (trace ++ [⟨op, a⟩]) ↔ Facts A trace ∧ A trace op a := by
  constructor
  · intro facts
    refine ⟨fun before op' a' after same => ?_, facts trace op a [] rfl⟩
    exact facts before op' a' (after ++ [⟨op, a⟩]) (by simp [same])
  · rintro ⟨facts, last⟩ before op' a' after same
    rcases List.eq_nil_or_concat after with rfl | ⟨shorter, c, rfl⟩
    · obtain ⟨rfl, inner⟩ := List.append_inj' same rfl
      simp only [List.cons.injEq, and_true] at inner
      cases inner
      exact last
    · have split : trace ++ [⟨op, a⟩] = (before ++ ⟨op', a'⟩ :: shorter) ++ [c] := by
        simpa using same
      obtain ⟨shape, -⟩ := List.append_inj' split rfl
      exact facts before op' a' shorter shape

theorem Facts.imp {B : Trace S → (op : S.Op) → S.Ans op → Prop} {trace : Trace S}
    (facts : Facts A trace) (weaker : ∀ before op a, A before op a → B before op a) :
    Facts B trace :=
  fun before op a after same => weaker before op a (facts before op a after same)

theorem Facts.mono {start trace : Trace S} (facts : Facts A trace) (since : start <+: trace) :
    Facts A start := by
  obtain ⟨added, rfl⟩ := since
  intro before op a after same
  exact facts before op a (after ++ added) (by simp [same])

theorem Facts.within {start after : Trace S} {op : S.Op} {a : S.Ans op}
    (facts : Facts A (start ++ [⟨op, a⟩] ++ after)) : A start op a :=
  facts start op a after (by simp)

theorem facts_iff_get {trace : Trace S} :
    Facts A trace ↔ ∀ i : Fin trace.length, A (trace.take i) (trace.get i).1 (trace.get i).2 := by
  constructor
  · intro facts i
    refine facts (trace.take i) (trace.get i).1 (trace.get i).2 (trace.drop (i + 1)) ?_
    exact (List.take_append_drop i trace).symm.trans
      (congrArg _ (List.drop_eq_getElem_cons i.isLt))
  · rintro each before op a after rfl
    have here := each ⟨before.length, by simp⟩
    have call : (before ++ ⟨op, a⟩ :: after).get ⟨before.length, by simp⟩ = ⟨op, a⟩ := by simp
    rw [call] at here
    simpa using here

instance {trace : Trace S} [∀ before op a, Decidable (A before op a)] : Decidable (Facts A trace) :=
  decidable_of_iff _ facts_iff_get.symm

theorem Facts.of_mem {trace : Trace S} (facts : Facts A trace) {op : S.Op} {a : S.Ans op}
    (mem : (⟨op, a⟩ : Call S) ∈ trace) : ∃ before, A before op a := by
  obtain ⟨before, after, rfl⟩ := List.append_of_mem mem
  exact ⟨before, facts before op a after rfl⟩

end Facts

/-! ## The path logic -/

section Along

variable {S : Signature} {α β : Type}

/-- On every path whose answers satisfy `A`, every call issued satisfies `P` and
every value returned satisfies `Q`, each given the trace up to that point. -/
def Along (A : Trace S → (op : S.Op) → S.Ans op → Prop) (P : Trace S → S.Op → Prop)
    (Q : Trace S → α → Prop) : Trace S → Program S α → Prop
  | trace, .ret value => Q trace value
  | trace, .call op next =>
      P trace op ∧ ∀ a, A trace op a → Along A P Q (trace ++ [⟨op, a⟩]) (next a)

variable {A : Trace S → (op : S.Op) → S.Ans op → Prop} {P : Trace S → S.Op → Prop}

@[simp] theorem along_ret {Q : Trace S → α → Prop} {trace : Trace S} {value : α} :
    Along A P Q trace (.ret value) ↔ Q trace value := Iff.rfl

@[simp] theorem along_call {Q : Trace S → α → Prop} {trace : Trace S} {op : S.Op}
    {next : S.Ans op → Program S α} :
    Along A P Q trace (.call op next) ↔
      P trace op ∧ ∀ a, A trace op a → Along A P Q (trace ++ [⟨op, a⟩]) (next a) := Iff.rfl

theorem along_bind {Q : Trace S → β → Prop} (p : Program S α) (next : α → Program S β)
    (trace : Trace S) :
    Along A P Q trace (p >>= next) ↔
      Along A P (fun reached value => Along A P Q reached (next value)) trace p := by
  induction p generalizing trace with
  | ret value => rfl
  | call op rest ih =>
      simp only [Program.call_bind, along_call, ih]

/-- One call, then the rest. -/
theorem along_perform {Q : Trace S → β → Prop} {trace : Trace S} {op : S.Op}
    {next : S.Ans op → Program S β} (issued : P trace op)
    (rest : ∀ a, A trace op a → Along A P Q (trace ++ [⟨op, a⟩]) (next a)) :
    Along A P Q trace (Program.perform op >>= next) :=
  ⟨issued, rest⟩

theorem Along.imp {Q Q' : Trace S → α → Prop} {p : Program S α} {trace : Trace S}
    (along : Along A P Q trace p) (weaker : ∀ reached value, Q reached value → Q' reached value) :
    Along A P Q' trace p := by
  induction p generalizing trace with
  | ret value => exact weaker _ _ along
  | call op rest ih => exact ⟨along.1, fun a fact => ih a (along.2 a fact)⟩

/-- A program that issues calls of one kind only adds calls of that kind. -/
theorem Along.adds {Q : Trace S → α → Prop} {R : S.Op → Prop} {p : Program S α}
    {trace : Trace S} (along : Along A P Q trace p) (kind : ∀ reached op, P reached op → R op) :
    Along A P (fun reached value => Q reached value ∧
      ∃ added, reached = trace ++ added ∧ ∀ call ∈ added, R call.1) trace p := by
  induction p generalizing trace with
  | ret value => exact ⟨along, [], by simp, by simp⟩
  | call op rest ih =>
      refine ⟨along.1, fun a fact => (ih a (along.2 a fact)).imp ?_⟩
      rintro reached value ⟨returned, added, rfl, only⟩
      refine ⟨returned, ⟨op, a⟩ :: added, by simp, ?_⟩
      intro call mem
      rcases List.mem_cons.mp mem with rfl | later
      · exact kind _ _ along.1
      · exact only call later

/-- The calls a program adds are a path of its own. -/
theorem Along.path {Q : Trace S → α → Prop} {p : Program S α} {trace : Trace S}
    (along : Along A P Q trace p) :
    Along A P (fun reached value => Q reached value ∧
      ∃ added, reached = trace ++ added ∧ p.Resumes added (.ret value)) trace p := by
  induction p generalizing trace with
  | ret value => exact ⟨along, [], by simp, .start⟩
  | call op rest ih =>
      refine ⟨along.1, fun a fact => (ih a (along.2 a fact)).imp ?_⟩
      rintro reached value ⟨returned, added, rfl, path⟩
      exact ⟨returned, ⟨op, a⟩ :: added, by simp, path.call⟩

/-- Less may be asked of the calls. -/
theorem Along.calls {P' : Trace S → S.Op → Prop} {Q : Trace S → α → Prop} {p : Program S α}
    {trace : Trace S} (along : Along A P Q trace p)
    (weaker : ∀ reached op, P reached op → P' reached op) : Along A P' Q trace p := by
  induction p generalizing trace with
  | ret value => exact along
  | call op rest ih => exact ⟨weaker _ _ along.1, fun a fact => ih a (along.2 a fact)⟩

/-- At every call it issues, such a program has added calls of that kind only. -/
theorem Along.added {Q : Trace S → α → Prop} {R : S.Op → Prop} {p : Program S α}
    {trace : Trace S} (along : Along A P Q trace p) (kind : ∀ reached op, P reached op → R op) :
    Along A (fun reached op => P reached op ∧
      ∃ added, reached = trace ++ added ∧ ∀ call ∈ added, R call.1) Q trace p := by
  induction p generalizing trace with
  | ret value => exact along
  | call op rest ih =>
      refine ⟨⟨along.1, [], by simp, by simp⟩, fun a fact => (ih a (along.2 a fact)).calls ?_⟩
      rintro reached later ⟨issued, added, rfl, only⟩
      refine ⟨issued, ⟨op, a⟩ :: added, by simp, ?_⟩
      intro call mem
      rcases List.mem_cons.mp mem with rfl | after
      · exact kind _ _ along.1
      · exact only call after

/-- More may be known of the answers. -/
theorem Along.assuming {B : Trace S → (op : S.Op) → S.Ans op → Prop} {Q : Trace S → α → Prop}
    {p : Program S α} {trace : Trace S} (along : Along A P Q trace p)
    (stronger : ∀ reached op a, B reached op a → A reached op a) : Along B P Q trace p := by
  induction p generalizing trace with
  | ret value => exact along
  | call op rest ih =>
      exact ⟨along.1, fun a fact => ih a (along.2 a (stronger _ _ _ fact))⟩

/-- Reason about `p >>= next` one half at a time. -/
theorem Along.bind {Q : Trace S → α → Prop} {R : Trace S → β → Prop} {p : Program S α}
    {next : α → Program S β} {trace : Trace S} (first : Along A P Q trace p)
    (rest : ∀ reached value, Q reached value → Along A P R reached (next value)) :
    Along A P R trace (p >>= next) :=
  (along_bind p next trace).mpr (first.imp rest)

/-- The path logic at any point a program can reach. -/
theorem Along.resumes {Q : Trace S → α → Prop} {p q : Program S α} {trace : Trace S}
    (along : Along A P Q [] p) (reached : p.Resumes trace q) (facts : Facts A trace) :
    Along A P Q trace q := by
  induction reached with
  | start => exact along
  | answer a _ ih =>
      obtain ⟨earlier, last⟩ := facts_snoc.mp facts
      exact (ih earlier).2 a last

/-- What the path logic says of the value returned, whatever the answers. -/
theorem Along.returned {Q : Trace S → α → Prop} {p : Program S α} {trace : Trace S} {value : α}
    (along : Along (fun _ _ _ => True) P Q [] p) (ran : p.Resumes trace (.ret value)) :
    Q trace value :=
  along.resumes ran fun _ _ _ _ _ => trivial

/-- What the path logic says of every call a program has had answered. -/
theorem Along.issued {Q : Trace S → α → Prop} {p q : Program S α} {trace : Trace S}
    (along : Along A P Q [] p) (reached : p.Resumes trace q) (facts : Facts A trace) {op : S.Op}
    {a : S.Ans op} (mem : (⟨op, a⟩ : Call S) ∈ trace) : ∃ before, before <+: trace ∧ P before op := by
  induction reached with
  | start => cases mem
  | @answer trace op' next a' earlier ih =>
      obtain ⟨before, -⟩ := facts_snoc.mp facts
      rcases List.mem_append.mp mem with old | new
      · obtain ⟨start, within, issued⟩ := ih before old
        exact ⟨start, within.trans (List.prefix_append _ _), issued⟩
      · obtain ⟨rfl, -⟩ := Sigma.mk.inj (List.mem_singleton.mp new)
        exact ⟨trace, List.prefix_append _ _, (along.resumes earlier before).1⟩

/-- Every call a program has had answered was issued as the path logic says, where it was. -/
theorem Along.facts {Q : Trace S → α → Prop} {p q : Program S α} {trace : Trace S}
    (along : Along A P Q [] p) (reached : p.Resumes trace q) (facts : Facts A trace) :
    Facts (fun before op _ => P before op) trace := by
  induction reached with
  | start => exact facts_nil
  | answer a earlier ih =>
      obtain ⟨before, -⟩ := facts_snoc.mp facts
      exact facts_snoc.mpr ⟨ih before, (along.resumes earlier before).1⟩

end Along

/-! ## Running against one store -/

section Exec

variable {S : Signature} {σ α : Type} (answer : σ → (op : S.Op) → S.Ans op) (after : σ → S.Op → σ)

/-- Run alone against a store: the store at the end, and the value returned. -/
def Program.exec : σ → Program S α → σ × α
  | s, .ret value => (s, value)
  | s, .call op next => exec (after s op) (next (answer s op))

/-- The calls of such a run. -/
def Program.transcript : σ → Program S α → Trace S
  | _, .ret _ => []
  | s, .call op next => ⟨op, answer s op⟩ :: transcript (after s op) (next (answer s op))

theorem Program.exec_bind {β : Type} (p : Program S α) (next : α → Program S β) (s : σ) :
    (p >>= next).exec answer after s =
      (next (p.exec answer after s).2).exec answer after (p.exec answer after s).1 := by
  induction p generalizing s with
  | ret value => rfl
  | call op rest ih => exact ih (answer s op) (after s op)

theorem Program.resumes_transcript (p : Program S α) (s : σ) :
    p.Resumes (p.transcript answer after s) (.ret (p.exec answer after s).2) := by
  induction p generalizing s with
  | ret value => exact .start
  | call op next ih => exact (ih (answer s op) (after s op)).call

theorem Program.mem_transcript {p : Program S α} {s : σ} {op : S.Op} {a : S.Ans op}
    (mem : (⟨op, a⟩ : Call S) ∈ p.transcript answer after s) : ∃ s', a = answer s' op := by
  induction p generalizing s with
  | ret value => cases mem
  | call op' next ih =>
      rcases List.mem_cons.mp mem with here | later
      · cases here
        exact ⟨s, rfl⟩
      · exact ih _ later

/-- The path logic of a program, at the end of its run: `J` holds of the store and
the calls so far, and answers as the path logic assumes. -/
theorem Along.exec {A : Trace S → (op : S.Op) → S.Ans op → Prop} {P : Trace S → S.Op → Prop}
    {Q : Trace S → α → Prop} {J : Trace S → σ → Prop} {p : Program S α} {trace : Trace S} {s : σ}
    (along : Along A P Q trace p) (start : J trace s)
    (step : ∀ trace s op, J trace s → P trace op →
      A trace op (answer s op) ∧ J (trace ++ [⟨op, answer s op⟩]) (after s op)) :
    ∃ reached, J reached (p.exec answer after s).1 ∧ Q reached (p.exec answer after s).2 := by
  induction p generalizing trace s with
  | ret value => exact ⟨trace, start, along⟩
  | call op next ih =>
      obtain ⟨assumed, kept⟩ := step trace s op start along.1
      exact ih (answer s op) (along.2 _ assumed) kept

end Exec

/-! ## Running beside others -/

section Beside

variable {S : Signature} {σ α : Type}

/-- A call as a store served it. -/
structure Exchange (S : Signature) (σ : Type) where
  before : σ
  op : S.Op
  answer : S.Ans op
  after : σ

/-- `p` runs to its value through these exchanges, and between any two of them others
may move the store. -/
def Program.Beside (serves : σ → (op : S.Op) → S.Ans op → σ → Prop) (others : σ → σ → Prop) :
    σ → Program S α → List (Exchange S σ) → α → Prop
  | _, .ret value, exchanges, result => exchanges = [] ∧ result = value
  | s, .call op next, exchanges, result =>
      ∃ before answer after rest, exchanges = ⟨before, op, answer, after⟩ :: rest ∧
        others s before ∧ serves before op answer after ∧
        Program.Beside serves others after (next answer) rest result

end Beside

end Delphi.Theory
