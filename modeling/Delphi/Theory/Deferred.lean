/-
# Delphi.Theory.Deferred -- updates that run later than they are queued

A program assigns to references at once and queues updates of a view; a scheduler
runs the queued updates in order, at any time after they were queued.  An update
reads the references when it runs, not when it was queued.

`outcome` is the view a configuration leads to when every update, queued or still
to be queued, sees the references it was queued with.  A statement never changes
it.  Running an update keeps it when the references it sees now make no
difference to what follows (`Harmless`).  So a schedule of harmless updates ends
with the view of running each update at once (`view_of_play`).
-/
import Mathlib.Data.List.Basic

namespace Delphi.Theory

set_option autoImplicit false

inductive Stmt (R U : Type) where
  | assign (write : R → R)
  | defer (update : U)

/-- A program under way: what is left of it, the references, the view, and the queue, each
update with the references as they were when it was queued. -/
structure Deferred (R V U : Type) where
  program : List (Stmt R U)
  refs : R
  view : V
  queue : List (U × R)

/-- What a scheduler may do next. -/
inductive Move where
  | statement
  | update
deriving DecidableEq

section

variable {R V U : Type} (run : U → R → V → V)

namespace Deferred

def step : Move → Deferred R V U → Option (Deferred R V U)
  | .statement, c =>
      match c.program with
      | [] => none
      | .assign write :: rest => some { c with program := rest, refs := write c.refs }
      | .defer update :: rest =>
          some { c with program := rest, queue := c.queue ++ [(update, c.refs)] }
  | .update, c =>
      match c.queue with
      | [] => none
      | (update, _) :: rest => some { c with view := run update c.refs c.view, queue := rest }

/-- A schedule: its moves, one after the other. -/
def play : List Move → Deferred R V U → Option (Deferred R V U)
  | [], c => some c
  | move :: moves, c => (c.step run move).bind (play moves)

/-- Whenever the schedule runs an update, `ok` holds before. -/
def Throughout (ok : Deferred R V U → Prop) : List Move → Deferred R V U → Prop
  | [], _ => True
  | move :: moves, c =>
      (move = .update → ok c) ∧ ∀ next ∈ c.step run move, Throughout ok moves next

instance decidableThroughout (ok : Deferred R V U → Prop) [DecidablePred ok] :
    (moves : List Move) → (c : Deferred R V U) → Decidable (Throughout run ok moves c)
  | [], _ => isTrue trivial
  | move :: moves, c =>
      have _later (next : Deferred R V U) : Decidable (Throughout run ok moves next) :=
        decidableThroughout ok moves next
      inferInstanceAs (Decidable
        ((move = .update → ok c) ∧ ∀ next ∈ c.step run move, Throughout run ok moves next))

/-- Nothing is left to do. -/
def Done (c : Deferred R V U) : Prop := c.program = [] ∧ c.queue = []

end Deferred

/-! ## Running each update at once -/

/-- The references and the view when every update runs as soon as it is queued. -/
def atOnce : List (Stmt R U) → R → V → R × V
  | [], refs, view => (refs, view)
  | .assign write :: rest, refs, view => atOnce rest (write refs) view
  | .defer update :: rest, refs, view => atOnce rest refs (run update refs view)

/-- The updates a program queues, with the references they are queued with. -/
def planned : List (Stmt R U) → R → List (U × R)
  | [], _ => []
  | .assign write :: rest, refs => planned rest (write refs)
  | .defer update :: rest, refs => (update, refs) :: planned rest refs

def applyAll (updates : List (U × R)) (view : V) : V :=
  updates.foldl (fun view entry => run entry.1 entry.2 view) view

theorem applyAll_cons (entry : U × R) (updates : List (U × R)) (view : V) :
    applyAll run (entry :: updates) view = applyAll run updates (run entry.1 entry.2 view) := rfl

theorem applyAll_planned (program : List (Stmt R U)) (refs : R) (view : V) :
    applyAll run (planned program refs) view = (atOnce run program refs view).2 := by
  induction program generalizing refs view with
  | nil => rfl
  | cons stmt rest ih =>
      cases stmt with
      | assign write => exact ih (write refs) view
      | defer update => exact ih refs (run update refs view)

theorem atOnce_append (front back : List (Stmt R U)) (refs : R) (view : V) :
    atOnce run (front ++ back) refs view =
      atOnce run back (atOnce run front refs view).1 (atOnce run front refs view).2 := by
  induction front generalizing refs view with
  | nil => rfl
  | cons stmt rest ih =>
      cases stmt with
      | assign write => exact ih (write refs) view
      | defer update => exact ih refs (run update refs view)

/-! ## Schedules -/

namespace Deferred

variable {run}

/-- What follows the update at the head of the queue. -/
def following (c : Deferred R V U) : List (U × R) := c.queue.tail ++ planned c.program c.refs

variable (run)

/-- The view when every update sees the references it is queued with. -/
def outcome (c : Deferred R V U) : V := applyAll run (c.queue ++ planned c.program c.refs) c.view

/-- With the references of now, the update at the head of the queue leads to the same view in
the end. -/
def Harmless (c : Deferred R V U) : Prop :=
  ∀ update refs, c.queue.head? = some (update, refs) →
    applyAll run c.following (run update c.refs c.view) =
      applyAll run c.following (run update refs c.view)

variable {run}

theorem outcome_step {c next : Deferred R V U} {move : Move}
    (stepped : c.step run move = some next) (harmless : move = .update → c.Harmless run) :
    next.outcome run = c.outcome run := by
  obtain ⟨program, refs, view, queue⟩ := c
  cases move with
  | statement =>
      cases program with
      | nil => cases stepped
      | cons stmt rest =>
          cases stmt with
          | assign write =>
              obtain rfl := Option.some.inj stepped
              rfl
          | defer update =>
              obtain rfl := Option.some.inj stepped
              simp only [outcome, planned, List.append_assoc, List.singleton_append]
  | update =>
      cases queue with
      | nil => cases stepped
      | cons entry rest =>
          obtain rfl := Option.some.inj stepped
          exact harmless rfl entry.1 entry.2 rfl

/-- Run: a schedule whose updates are all harmless keeps the outcome. -/
theorem outcome_play {c final : Deferred R V U} {moves : List Move}
    (played : c.play run moves = some final) (harmless : c.Throughout run (Harmless run) moves) :
    final.outcome run = c.outcome run := by
  induction moves generalizing c with
  | nil =>
      obtain rfl := Option.some.inj played
      rfl
  | cons move moves ih =>
      obtain ⟨next, stepped, rest⟩ := Option.bind_eq_some_iff.mp played
      rw [ih rest (harmless.2 next stepped), outcome_step stepped harmless.1]

theorem Throughout.imp {ok ok' : Deferred R V U → Prop} {c : Deferred R V U} {moves : List Move}
    (holds : c.Throughout run ok moves) (weaker : ∀ c, ok c → ok' c) :
    c.Throughout run ok' moves := by
  induction moves generalizing c with
  | nil => trivial
  | cons move moves ih =>
      refine ⟨fun update => weaker c (holds.1 update), ?_⟩
      intro next stepped
      exact ih (holds.2 next stepped)

/-- At its end such a schedule shows what running each update at once would have shown. -/
theorem view_of_play {program : List (Stmt R U)} {refs : R} {view : V} {final : Deferred R V U}
    {moves : List Move} (played : (Deferred.mk program refs view []).play run moves = some final)
    (harmless : (Deferred.mk program refs view []).Throughout run (Harmless run) moves)
    (done : final.Done) : final.view = (atOnce run program refs view).2 := by
  have kept := outcome_play played harmless
  have ended : final.outcome run = final.view := by
    unfold outcome
    rw [done.1, done.2]
    rfl
  rw [← ended, kept, ← applyAll_planned]
  rfl

end Deferred

end

end Delphi.Theory
