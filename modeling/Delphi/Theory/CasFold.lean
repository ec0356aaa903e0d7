/-
# Delphi.Theory.CasFold -- values folded by compare-and-swap

Any number of programs share a bucket, and each has an update to make to the value
of a key: read it, apply the update to what was read (or to a first value, where
there is none), and write the result back at the revision read.  A conflict sends
it round again.  Any call may fail, a write may happen without being acknowledged,
and a value may expire at any time.

`Issues` is what such a program looks like from outside.  Whatever a run of such
programs does, a live value is the fold of the updates that have landed on its key
since it was last absent, in the order they landed; a program lands at most once;
and a write that was acknowledged has landed (`Reaches.folded`, `Reaches.landings`).

A write carries the update it makes, so that a history of landings can be kept;
nothing else reads it.
-/
import Mathlib.Data.List.Induction
import Mathlib.Data.List.Nodup
import Delphi.Theory.KvBucket
import Delphi.Theory.Pool

namespace Delphi.Theory

set_option autoImplicit false

/-! ## Calls -/

inductive KvReadError where
  | read (message : String)
  | decode (message : String)
deriving DecidableEq

inductive KvCreateError where
  | alreadyExists
  | other (message : String)
deriving DecidableEq

inductive KvUpdateError where
  | wrongLastRevision
  | other (message : String)
deriving DecidableEq

/-- Calls of a bucket of `V` with updates `B`, and of the ports `O` beside it. -/
inductive CasCall (V B O : Type) where
  | entry (key : String)
  | create (by_ : B) (key : String) (value : V)
  | update (by_ : B) (key : String) (value : V) (revision : Nat)
  | beside (op : O)

def CasPorts (V B : Type) (side : Signature) : Signature where
  Op := CasCall V B side.Op
  Ans
    | .entry _ => Except KvReadError (Option (KvEntry V))
    | .create _ _ _ => Except KvCreateError Nat
    | .update _ _ _ _ => Except KvUpdateError Nat
    | .beside op => side.Ans op

namespace CasFold

variable {V B τ : Type} {side : Signature}

/-! ## Landings -/

/-- What has happened to the values: a task's update landed on a key, or a key's value went. -/
inductive Landing (B : Type) where
  | wrote (task : Nat) (by_ : B) (key : String)
  | expired (key : String)
deriving DecidableEq

namespace Landing

/-- What a landing makes of the updates on a key. -/
def onto (key : String) (log : List B) : Landing B → List B
  | .wrote _ by_ k => if k = key then log ++ [by_] else log
  | .expired k => if k = key then [] else log

def task : Landing B → Option Nat
  | .wrote n _ _ => some n
  | .expired _ => none

end Landing

/-- The updates that have landed on a key since its value was last absent. -/
def logOf (history : List (Landing B)) (key : String) : List B :=
  history.foldl (Landing.onto key) []

@[simp] theorem logOf_wrote_self (history : List (Landing B)) (n : Nat) (by_ : B) (key : String) :
    logOf (history ++ [.wrote n by_ key]) key = logOf history key ++ [by_] := by
  simp [logOf, Landing.onto]

theorem logOf_wrote_of_ne (history : List (Landing B)) (n : Nat) (by_ : B) {key other : String}
    (ne : other ≠ key) : logOf (history ++ [.wrote n by_ key]) other = logOf history other := by
  simp [logOf, Landing.onto, ne.symm]

@[simp] theorem logOf_expired_self (history : List (Landing B)) (key : String) :
    logOf (history ++ [.expired key]) key = [] := by
  simp [logOf, Landing.onto]

theorem logOf_expired_of_ne (history : List (Landing B)) {key other : String} (ne : other ≠ key) :
    logOf (history ++ [.expired key]) other = logOf history other := by
  simp [logOf, Landing.onto, ne.symm]

/-- The value a log of updates leads to. -/
def valueOf (apply : V → B → V) (init : V) : List B → Option V
  | [] => none
  | log => some (log.foldl apply init)

theorem valueOf_concat (apply : V → B → V) (init : V) (log : List B) (by_ : B) :
    valueOf apply init (log ++ [by_]) = some (apply (log.foldl apply init) by_) := by
  cases log with
  | nil => rfl
  | cons first rest => simp [valueOf]

theorem valueOf_eq_none {apply : V → B → V} {init : V} {log : List B}
    (absent : valueOf apply init log = none) : log = [] := by
  cases log with
  | nil => rfl
  | cons first rest => cases absent

theorem valueOf_eq_some {apply : V → B → V} {init value : V} {log : List B}
    (found : valueOf apply init log = some value) : log.foldl apply init = value := by
  cases log with
  | nil => cases found
  | cons first rest => exact Option.some.inj found

/-! ## The store -/

structure CasStore (V B τ : Type) where
  bucket : KvBucket V
  history : List (Landing B)
  side : τ

namespace CasStore

/-- A task's write has landed. -/
def wrote (s : CasStore V B τ) (n : Nat) (by_ : B) (key : String) (bucket : KvBucket V) :
    CasStore V B τ :=
  ⟨bucket, s.history ++ [.wrote n by_ key], s.side⟩

def expired (s : CasStore V B τ) (key : String) : CasStore V B τ :=
  ⟨s.bucket.expire key, s.history ++ [.expired key], s.side⟩

end CasStore

/-- What a write may answer, given the bucket it would leave. -/
inductive Stores {E : Type} (s : CasStore V B τ) (n : Nat) (by_ : B) (key : String)
    (next : Option (KvBucket V)) (lost : String → E) : Except E Nat → CasStore V B τ → Prop where
  | stored {bucket : KvBucket V} (done : next = some bucket) :
      Stores s n by_ key next lost (.ok bucket.lastRevision) (s.wrote n by_ key bucket)
  | unacknowledged {bucket : KvBucket V} (done : next = some bucket) (message : String) :
      Stores s n by_ key next lost (.error (lost message)) (s.wrote n by_ key bucket)
  | refused (error : E) : Stores s n by_ key next lost (.error error) s

section

variable (sideServes : Nat → (op : side.Op) → τ → side.Ans op → τ → Prop)
  (sideEnvironment : τ → τ → Prop)

def serves (n : Nat) : (op : (CasPorts V B side).Op) → CasStore V B τ →
    (CasPorts V B side).Ans op → CasStore V B τ → Prop
  | .entry key, s, answer, s' =>
      s' = s ∧ (answer = .ok (s.bucket.entries key) ∨ ∃ error, answer = .error error)
  | .create by_ key value, s, answer, s' =>
      Stores s n by_ key (s.bucket.create key value) KvCreateError.other answer s'
  | .update by_ key value revision, s, answer, s' =>
      Stores s n by_ key (s.bucket.update key value revision) KvUpdateError.other answer s'
  | .beside op, s, answer, s' =>
      s'.bucket = s.bucket ∧ s'.history = s.history ∧ sideServes n op s.side answer s'.side

/-- What happens by itself: a value expires, or something beside the bucket. -/
inductive Disturbed (s : CasStore V B τ) : CasStore V B τ → Prop where
  | expired (key : String) : Disturbed s (s.expired key)
  | beside {side' : τ} (acted : sideEnvironment s.side side') :
      Disturbed s ⟨s.bucket, s.history, side'⟩

/-- Programs over one bucket. -/
def system {ι α : Type} (main : ι → Program (CasPorts V B side) α) (admits : τ → ι → Prop) :
    System (CasPorts V B side) (CasStore V B τ) ι α where
  main := main
  admits s input := admits s.side input
  serves := serves sideServes
  environment := Disturbed sideEnvironment

end

/-! ## The programs -/

/-- A write's update and key. -/
def writeOf : Call (CasPorts V B side) → Option (B × String)
  | ⟨.create by_ key _, _⟩ => some (by_, key)
  | ⟨.update by_ key _ _, _⟩ => some (by_, key)
  | _ => none

/-- A write that lost against another one. -/
def conflicted : Call (CasPorts V B side) → Bool
  | ⟨.create _ _ _, .error .alreadyExists⟩ => true
  | ⟨.update _ _ _ _, .error .wrongLastRevision⟩ => true
  | _ => false

def acknowledged : Call (CasPorts V B side) → Bool
  | ⟨.create _ _ _, .ok _⟩ => true
  | ⟨.update _ _ _ _, .ok _⟩ => true
  | _ => false

/-- Every write so far has lost. -/
def Unlanded (trace : Trace (CasPorts V B side)) : Prop :=
  ∀ call ∈ trace, (writeOf call).isSome = true → conflicted call = true

section

variable (apply : V → B → V) (init : V)

/-- A write rests on the read before it: a value is replaced by what the update makes of it, and
where there is none, by what it makes of the first value. -/
def Issues (trace : Trace (CasPorts V B side)) : (CasPorts V B side).Op → Prop
  | .create by_ _ value => Unlanded trace ∧ value = apply init by_
  | .update by_ key value revision => Unlanded trace ∧ ∃ before old,
      trace = before ++ [⟨.entry key, .ok (some (.put old revision))⟩] ∧ value = apply old by_
  | _ => True

/-- What a read leaves in hand. -/
def inHand (s : CasStore V B τ) : (op : (CasPorts V B side).Op) → (CasPorts V B side).Ans op → Prop
  | .entry key, .ok (some (.put value revision)) => s.bucket.InHand key value revision
  | _, _ => True

/-- Every live value is the fold of its log. -/
structure Folded (s : CasStore V B τ) : Prop where
  counted : s.bucket.Counted
  value : ∀ key, s.bucket.live key = valueOf apply init (logOf s.history key)

variable {apply init} {s s' : CasStore V B τ}
  {sideServes : Nat → (op : side.Op) → τ → side.Ans op → τ → Prop}
  {sideEnvironment : τ → τ → Prop}

theorem inHand_follows (follows : s.bucket.Follows s'.bucket) (op : (CasPorts V B side).Op)
    (answer : (CasPorts V B side).Ans op) (known : inHand s op answer) : inHand s' op answer := by
  cases op with
  | entry key =>
      match answer, known with
      | .ok (some (.put value revision)), known => exact KvBucket.InHand.follows known follows
      | .ok (some (.marker revision)), _ => trivial
      | .ok none, _ => trivial
      | .error error, _ => trivial
  | _ => trivial

/-- One more update on a key. -/
theorem Folded.wrote (folded : Folded apply init s) (n : Nat) {by_ : B} {key : String} {value : V}
    (value_ : value = apply ((logOf s.history key).foldl apply init) by_) :
    Folded apply init (s.wrote n by_ key (s.bucket.put key value)) := by
  refine ⟨folded.counted.follows (.put key value), fun other => ?_⟩
  by_cases same : other = key
  · subst same
    simp only [CasStore.wrote, KvBucket.live_put_self, logOf_wrote_self, valueOf_concat, value_]
  · simp only [CasStore.wrote, KvBucket.live_put_of_ne _ _ same, logOf_wrote_of_ne _ _ _ same]
    exact folded.value other

theorem Folded.expired (folded : Folded apply init s) (key : String) :
    Folded apply init (s.expired key) := by
  refine ⟨folded.counted.follows (.expire key), fun other => ?_⟩
  by_cases same : other = key
  · subst same
    simp [CasStore.expired, KvBucket.live, valueOf]
  · simp only [CasStore.expired, logOf_expired_of_ne _ same, KvBucket.live,
      KvBucket.expire_entries_of_ne _ same]
    exact folded.value other

/-- What a call does to the store, whatever it answers: it lands, or leaves bucket and history. -/
inductive Lands (apply : V → B → V) (init : V) (s : CasStore V B τ) (n : Nat) :
    CasStore V B τ → Prop where
  | same {s' : CasStore V B τ} (bucket : s'.bucket = s.bucket) (history : s'.history = s.history) :
      Lands apply init s n s'
  | wrote (by_ : B) (key : String) (value : V)
      (value_ : value = apply ((logOf s.history key).foldl apply init) by_) :
      Lands apply init s n (s.wrote n by_ key (s.bucket.put key value))

theorem Lands.follows {n : Nat} (lands : Lands apply init s n s') :
    s.bucket.Follows s'.bucket := by
  cases lands with
  | same bucket history => exact bucket ▸ .same
  | wrote by_ key value value_ => exact .put key value

theorem Folded.lands {n : Nat} (folded : Folded apply init s) (lands : Lands apply init s n s') :
    Folded apply init s' := by
  cases lands with
  | same bucket history =>
      exact ⟨bucket ▸ folded.counted, by rw [bucket, history]; exact folded.value⟩
  | wrote by_ key value value_ => exact folded.wrote n value_

theorem lands_of_stores {E : Type} {n : Nat} {by_ : B} {key : String} (value : V)
    {next : Option (KvBucket V)} {lost : String → E} {answer : Except E Nat}
    (applied : ∀ bucket, next = some bucket → bucket = s.bucket.put key value ∧
      value = apply ((logOf s.history key).foldl apply init) by_)
    (stores : Stores s n by_ key next lost answer s') : Lands apply init s n s' := by
  cases stores with
  | stored done =>
      obtain ⟨rfl, value_⟩ := applied _ done
      exact .wrote by_ key value value_
  | unacknowledged done message =>
      obtain ⟨rfl, value_⟩ := applied _ done
      exact .wrote by_ key value value_
  | refused error => exact .same rfl rfl

/-- The step lemma: a write that rests on its read lands on the fold, or does nothing. -/
theorem lands_of_served {n : Nat} {trace : Trace (CasPorts V B side)} {op : (CasPorts V B side).Op}
    {answer : (CasPorts V B side).Ans op} (folded : Folded apply init s)
    (facts : Facts (fun _ op answer => inHand s op answer) trace)
    (issued : Issues apply init trace op) (served : serves sideServes n op s answer s') :
    Lands apply init s n s' ∧ inHand s' op answer := by
  cases op with
  | entry key =>
      obtain ⟨rfl, answered⟩ := served
      refine ⟨.same rfl rfl, ?_⟩
      match answer, answered with
      | .ok (some (.put value revision)), answered =>
          exact folded.counted.inHand (eq_of_answered answered)
      | .ok (some (.marker revision)), _ => trivial
      | .ok none, _ => trivial
      | .error error, _ => trivial
  | create by_ key value =>
      refine ⟨lands_of_stores value (fun bucket done => ?_) served, trivial⟩
      obtain ⟨absent, rfl⟩ := KvBucket.create_eq_some done
      have empty := valueOf_eq_none ((folded.value key).symm.trans absent)
      rw [empty]
      exact ⟨rfl, issued.2⟩
  | update by_ key value revision =>
      obtain ⟨-, before, old, rfl, rfl⟩ := issued
      have known : s.bucket.InHand key old revision := (facts_snoc.mp facts).2
      refine ⟨lands_of_stores (apply old by_) (fun bucket done => ?_) served, trivial⟩
      obtain ⟨still, rfl⟩ := known.of_update done
      have live : s.bucket.live key = some old := KvBucket.live_eq_some.mpr ⟨revision, still⟩
      rw [valueOf_eq_some ((folded.value key).symm.trans live)]
      exact ⟨rfl, rfl⟩
  | beside op => exact ⟨.same served.1 served.2.1, trivial⟩

/-- What a call adds to the history is a write of its own that did not lose; and an acknowledged
write is added. -/
theorem history_of_served {n : Nat} {op : (CasPorts V B side).Op}
    {answer : (CasPorts V B side).Ans op} (served : serves sideServes n op s answer s') :
    (s'.history = s.history ∧ acknowledged ⟨op, answer⟩ = false) ∨
    ∃ by_ key, s'.history = s.history ++ [.wrote n by_ key] ∧
      writeOf ⟨op, answer⟩ = some (by_, key) ∧ conflicted ⟨op, answer⟩ = false := by
  cases op with
  | entry key =>
      obtain ⟨rfl, -⟩ := served
      exact .inl ⟨rfl, rfl⟩
  | beside op => exact .inl ⟨served.2.1, rfl⟩
  | create by_ key value =>
      cases served with
      | stored done => exact .inr ⟨by_, key, rfl, rfl, rfl⟩
      | unacknowledged done message => exact .inr ⟨by_, key, rfl, rfl, rfl⟩
      | refused error => exact .inl ⟨rfl, rfl⟩
  | update by_ key value revision =>
      cases served with
      | stored done => exact .inr ⟨by_, key, rfl, rfl, rfl⟩
      | unacknowledged done message => exact .inr ⟨by_, key, rfl, rfl, rfl⟩
      | refused error => exact .inl ⟨rfl, rfl⟩

/-! ## Runs -/

variable {ι α : Type} {main : ι → Program (CasPorts V B side) α} {admits : τ → ι → Prop}

variable (apply init) in
def invariants : Invariants (CasPorts V B side) (CasStore V B τ) ι where
  inv := Folded apply init
  input _ _ := True
  fact _ s _ op answer := inHand s op answer

abbrev Run (V B τ : Type) (side : Signature) (ι α : Type) :=
  Config (CasPorts V B side) (CasStore V B τ) ι α

variable {meets : Run V B τ side ι α → Label (CasPorts V B side) ι → Run V B τ side ι α → Prop}
  {c : Run V B τ side ι α} {s₀ : CasStore V B τ}

/-- Whatever programs of this kind do together, every live value is the fold of its log. -/
theorem holds
    (issues : ∀ input, Along (fun _ _ _ => True) (Issues apply init) (fun _ _ => True) []
      (main input))
    (start : Folded apply init s₀)
    (reached : (system sideServes sideEnvironment main admits).Reaches meets ⟨s₀, []⟩ c) :
    (invariants apply init).Holds (system sideServes sideEnvironment main admits) c := by
  refine Invariants.holds_of_reaches (I := invariants apply init) start
    (fun _ _ _ _ => trivial) ?_ ?_ reached
  · intro c n t op next a s' holds found stands served _
    have knows := holds.tasks t (System.mem_of_found found)
    have issued := knows.issues ((issues t.input).assuming fun _ _ _ _ => trivial) stands
    obtain ⟨lands, fact⟩ := lands_of_served holds.inv knows.facts issued served
    exact ⟨⟨holds.inv.lands lands, fun _ h => h,
      fun _ _ op a => inHand_follows lands.follows op a⟩, fact⟩
  · intro c s' holds acted _
    cases acted with
    | expired key =>
        exact ⟨holds.inv.expired key, fun _ h => h,
          fun _ _ op a => inHand_follows (.expire key) op a⟩
    | beside acted =>
        exact ⟨⟨holds.inv.counted, holds.inv.value⟩, fun _ h => h,
          fun _ _ op a => inHand_follows .same op a⟩

/-- The history and the tasks agree on what has landed. -/
structure Landings (c : Run V B τ side ι α) : Prop where
  of_wrote : ∀ n by_ key, .wrote n by_ key ∈ c.shared.history → ∃ t, c.tasks[n]? = some t ∧
    ∃ call ∈ t.trace, writeOf call = some (by_, key) ∧ conflicted call = false
  once : (c.shared.history.filterMap Landing.task).Nodup
  of_acknowledged : ∀ n t, c.tasks[n]? = some t → ∀ call ∈ t.trace, ∀ by_ key,
    writeOf call = some (by_, key) → acknowledged call = true → .wrote n by_ key ∈ c.shared.history

theorem exists_wrote {history : List (Landing B)} {n : Nat}
    (mem : n ∈ history.filterMap Landing.task) : ∃ by_ key, .wrote n by_ key ∈ history := by
  obtain ⟨landing, there, own⟩ := List.mem_filterMap.mp mem
  cases landing with
  | wrote m by_ key =>
      obtain rfl : m = n := Option.some.inj own
      exact ⟨by_, key, there⟩
  | expired key => cases own

theorem unlanded_of_issues {trace : Trace (CasPorts V B side)} {op : (CasPorts V B side).Op}
    {answer : (CasPorts V B side).Ans op} {by_ : B} {key : String}
    (write : writeOf ⟨op, answer⟩ = some (by_, key)) (issued : Issues apply init trace op) :
    Unlanded trace := by
  cases op with
  | entry key => cases write
  | beside op => cases write
  | create by_ key value => exact issued.1
  | update by_ key value revision => exact issued.1

/-- A task as it is after another step, with what it has had answered. -/
theorem Landings.of_extends {c c' : Run V B τ side ι α} (landings : Landings c)
    (history : ∀ landing, landing ∈ c'.shared.history → landing ∈ c.shared.history ∨
      ∃ key, landing = .expired key)
    (once : c'.shared.history.filterMap Landing.task = c.shared.history.filterMap Landing.task)
    (kept : ∀ landing, landing ∈ c.shared.history → landing ∈ c'.shared.history)
    (extends_ : ∀ (n : Nat) (t : Task (CasPorts V B side) ι α), c.tasks[n]? = some t →
      ∃ t' : Task (CasPorts V B side) ι α, c'.tasks[n]? = some t' ∧ t.trace <+: t'.trace)
    (added : ∀ (n : Nat) (t' : Task (CasPorts V B side) ι α), c'.tasks[n]? = some t' →
      ∀ call ∈ t'.trace, acknowledged call = true →
      ∃ t : Task (CasPorts V B side) ι α, c.tasks[n]? = some t ∧ call ∈ t.trace) :
    Landings c' := by
  refine ⟨fun n by_ key mem => ?_, once ▸ landings.once,
    fun n t' found call mem by_ key write ack => ?_⟩
  · rcases history _ mem with old | ⟨gone, same⟩
    · obtain ⟨t, found, call, inTrace, write⟩ := landings.of_wrote n by_ key old
      obtain ⟨t', found', longer⟩ := extends_ n t found
      exact ⟨t', found', call, longer.subset inTrace, write⟩
    · cases same
  · obtain ⟨t, before, inTrace⟩ := added n t' found call mem ack
    exact kept _ (landings.of_acknowledged n t before call inTrace by_ key write ack)

theorem Landings.step {c c' : Run V B τ side ι α} {l : Label (CasPorts V B side) ι}
    (landings : Landings c)
    (issued : ∀ t ∈ c.tasks, ∀ op next, t.rest = .call op next → Issues apply init t.trace op)
    (step : (system sideServes sideEnvironment main admits).Step c l c') : Landings c' := by
  cases step with
  | @spawn input admitted =>
      refine landings.of_extends (fun _ mem => .inl mem) rfl (fun _ mem => mem)
        (fun n t found => ?_) fun n t' found call mem _ => ?_
      · exact ⟨t, List.getElem?_append_left (List.getElem?_eq_some_iff.mp found).1 ▸ found,
          List.prefix_rfl⟩
      · rcases Nat.lt_or_ge n c.tasks.length with old | new
        · rw [List.getElem?_append_left old] at found
          exact ⟨t', found, mem⟩
        · rw [List.getElem?_append_right new] at found
          obtain rfl := List.mem_singleton.mp (List.mem_of_getElem? found)
          cases mem
  | @environment s' acted =>
      cases acted with
      | expired key =>
          refine landings.of_extends (fun landing mem => ?_) ?_
            (fun landing mem => List.mem_append_left _ mem)
            (fun n t found => ⟨t, found, List.prefix_rfl⟩)
            fun n t found call mem _ => ⟨t, found, mem⟩
          · rcases List.mem_append.mp mem with old | new
            · exact .inl old
            · exact .inr ⟨key, List.mem_singleton.mp new⟩
          · simp [CasStore.expired, Landing.task]
      | beside acted => exact ⟨landings.of_wrote, landings.once, landings.of_acknowledged⟩
  | @call n t op next a s' found stands served =>
      have bound : n < c.tasks.length := (List.getElem?_eq_some_iff.mp found).1
      have here : (c.tasks.set n (t.answered op a next))[n]? = some (t.answered op a next) :=
        List.getElem?_set_self bound
      have extends_ : ∀ (m : Nat) (u : Task (CasPorts V B side) ι α), c.tasks[m]? = some u →
          ∃ u' : Task (CasPorts V B side) ι α,
            (c.tasks.set n (t.answered op a next))[m]? = some u' ∧ u.trace <+: u'.trace := by
        intro m u old
        by_cases same : n = m
        · subst same
          obtain rfl := Option.some.inj (found.symm.trans old)
          exact ⟨_, here, List.prefix_append _ _⟩
        · exact ⟨u, by rw [List.getElem?_set_ne same, old], List.prefix_rfl⟩
      -- A call in a trace afterwards was there before, or is the one just answered.
      have answered : ∀ (m : Nat) (u' : Task (CasPorts V B side) ι α),
          (c.tasks.set n (t.answered op a next))[m]? = some u' → ∀ call ∈ u'.trace,
          (∃ u : Task (CasPorts V B side) ι α, c.tasks[m]? = some u ∧ call ∈ u.trace) ∨
            m = n ∧ call = ⟨op, a⟩ := by
        intro m u' new call mem
        by_cases same : n = m
        · subst same
          obtain rfl := Option.some.inj (here.symm.trans new)
          rcases List.mem_append.mp mem with old | last
          · exact .inl ⟨t, found, old⟩
          · exact .inr ⟨rfl, List.mem_singleton.mp last⟩
        · rw [List.getElem?_set_ne same] at new
          exact .inl ⟨u', new, mem⟩
      rcases history_of_served served with ⟨same, unacknowledged⟩ | ⟨by_, key, added, write, landed⟩
      · refine landings.of_extends (fun landing mem => .inl (same ▸ mem)) (by rw [same])
          (fun landing mem => same.symm ▸ mem) extends_ fun m u' new call mem ack => ?_
        rcases answered m u' new call mem with old | ⟨-, rfl⟩
        · exact old
        · rw [unacknowledged] at ack
          cases ack
      · have unlanded := unlanded_of_issues write
          (issued t (System.mem_of_found found) op next stands)
        refine ⟨fun m other k mem => ?_, ?_, fun m u' new call mem other k write' ack => ?_⟩
        · rw [added] at mem
          rcases List.mem_append.mp mem with old | last
          · obtain ⟨u, before, call, inTrace, writes⟩ := landings.of_wrote m other k old
            obtain ⟨u', after, longer⟩ := extends_ m u before
            exact ⟨u', after, call, longer.subset inTrace, writes⟩
          · cases List.mem_singleton.mp last
            exact ⟨_, here, ⟨op, a⟩, List.mem_append_right _ (List.mem_singleton_self _), write,
              landed⟩
        · rw [added, List.filterMap_append, List.nodup_append]
          refine ⟨landings.once, List.nodup_singleton n, ?_⟩
          rintro m mem m' mem' rfl
          obtain rfl : m = n := List.mem_singleton.mp mem'
          -- It would have written before, and not lost.
          obtain ⟨other, k, there⟩ := exists_wrote mem
          obtain ⟨u, before, call, inTrace, writes, won⟩ := landings.of_wrote m other k there
          obtain rfl := Option.some.inj (found.symm.trans before)
          rw [unlanded call inTrace (by rw [writes]; rfl)] at won
          cases won
        · rw [added]
          rcases answered m u' new call mem with ⟨u, before, inTrace⟩ | ⟨rfl, rfl⟩
          · exact List.mem_append_left _
              (landings.of_acknowledged m u before call inTrace other k write' ack)
          · cases write.symm.trans write'
            exact List.mem_append_right _ (List.mem_singleton_self _)

theorem landings
    (issues : ∀ input, Along (fun _ _ _ => True) (Issues apply init) (fun _ _ => True) []
      (main input))
    (start : Folded apply init s₀) (unwritten : s₀.history = [])
    (reached : (system sideServes sideEnvironment main admits).Reaches meets ⟨s₀, []⟩ c) :
    Landings c := by
  refine reached.invariant ?_ fun c l c' earlier landings step _ => ?_
  · refine ⟨fun n by_ key mem => ?_, ?_, fun n t found => ?_⟩
    · rw [unwritten] at mem
      cases mem
    · rw [unwritten]
      exact List.nodup_nil
    · cases found
  · have known := holds issues start earlier
    have issued : ∀ t ∈ c.tasks, ∀ op next, t.rest = .call op next →
        Issues apply init t.trace op := by
      intro t mem op next stands
      exact (known.tasks t mem).issues ((issues t.input).assuming fun _ _ _ _ => trivial) stands
    exact landings.step issued step

end

/-! ## Without faults -/

/-- A bucket that answers every call and loses no acknowledgement, beside ports that do so too. -/
structure Working (sideServes : Nat → (op : side.Op) → τ → side.Ans op → τ → Prop) where
  answer : (op : side.Op) → τ → side.Ans op
  after : Nat → side.Op → τ → τ
  lawful : ∀ n op s, sideServes n op s (answer op s) (after n op s)

namespace Working

variable {sideServes : Nat → (op : side.Op) → τ → side.Ans op → τ → Prop}
  (working : Working sideServes)

def reply (s : CasStore V B τ) : (op : (CasPorts V B side).Op) → (CasPorts V B side).Ans op
  | .entry key => .ok (s.bucket.entries key)
  | .create _ key value =>
      match s.bucket.create key value with
      | some bucket => .ok bucket.lastRevision
      | none => .error .alreadyExists
  | .update _ key value revision =>
      match s.bucket.update key value revision with
      | some bucket => .ok bucket.lastRevision
      | none => .error .wrongLastRevision
  | .beside op => working.answer op s.side

def next (n : Nat) (s : CasStore V B τ) : (CasPorts V B side).Op → CasStore V B τ
  | .entry _ => s
  | .create by_ key value =>
      match s.bucket.create key value with
      | some bucket => s.wrote n by_ key bucket
      | none => s
  | .update by_ key value revision =>
      match s.bucket.update key value revision with
      | some bucket => s.wrote n by_ key bucket
      | none => s
  | .beside op => ⟨s.bucket, s.history, working.after n op s.side⟩

variable {ι α : Type} {main : ι → Program (CasPorts V B side) α} {admits : τ → ι → Prop}
  {sideEnvironment : τ → τ → Prop}

/-- Answer the call the `n`-th program stands at. -/
def serve (c : Run V B τ side ι α) (n : Nat) : Run V B τ side ι α :=
  match c.tasks[n]? with
  | none => c
  | some t =>
      match t.rest with
      | .ret _ => c
      | .call op following =>
          ⟨working.next n c.shared op,
            c.tasks.set n (t.answered op (working.reply c.shared op) following)⟩

end Working

end CasFold

end Delphi.Theory
