/-
# Delphi.Chat.LockPaths -- what a lock operation has seen when it writes

Each operation writes over a record, or removes one, only after reading it and
testing it; `Writes` and `Removes` list what the tests allow.  `Issues` says of
every bucket call an operation makes what its trace must hold, and `along_…`
proves it on every path, wherever the operation is called from.

The one argument is in `along_claimAttempt`.  A running lock of another worker is
turned away while it is fresh, and once it has expired it stays so, because later
readings of the clock are not earlier ones (`Clocked`).
-/
import Delphi.Chat.Lock

namespace Delphi.Chat

open Delphi.Theory

set_option autoImplicit false

namespace LockCall

/-- What an operation may write over a record it read. -/
inductive Writes : LockCall → ChatLock → ChatLock → Prop where
  | claims {tenantId conversationId turnId workerId : String} {lock : ChatLock}
      {leaseExpiresAt : Timestamp} (turn : lock.turnId = turnId) (open_ : lock.isTerminal = false)
      (mine : lock.state = .running → lock.workerId = some workerId) :
      Writes (.claimLock tenantId conversationId turnId workerId) lock
        (lock.claimed workerId leaseExpiresAt)
  | terminates {tenantId conversationId turnId : String} {workerId : Option String}
      {terminal : ChatTerminalUpdate} {lock : ChatLock} {leaseExpiresAt : Timestamp}
      (turn : lock.turnId = turnId) (held : NatsChatBus.isHeldBy lock workerId = true) :
      Writes (.markLockTerminal tenantId conversationId turnId workerId terminal) lock
        (lock.terminated terminal leaseExpiresAt)
  | publishes {tenantId conversationId turnId : String} {lock : ChatLock}
      (turn : lock.turnId = turnId) (terminal : lock.isTerminal = true) :
      Writes (.markTerminalEventPublished tenantId conversationId turnId) lock lock.published
  | stops {tenantId conversationId requestedBy : String} {lock : ChatLock} {now : Timestamp} :
      Writes (.requestStop tenantId conversationId requestedBy) lock (lock.stopped requestedBy now)
  | renews {tenantId conversationId turnId workerId : String} {lock : ChatLock}
      {leaseExpiresAt : Timestamp} (turn : lock.turnId = turnId)
      (held : lock.workerId = some workerId) :
      Writes (.renewLock tenantId conversationId turnId workerId) lock (lock.renewed leaseExpiresAt)

/-- Which record an operation may remove, by what counts as expired. -/
inductive Removes (expired : ChatLock → Prop) : LockCall → ChatLock → Prop where
  | acquires {new lock : ChatLock} (past : expired lock) : Removes expired (.acquireLock new) lock
  | stops {tenantId conversationId requestedBy : String} {lock : ChatLock} (past : expired lock) :
      Removes expired (.requestStop tenantId conversationId requestedBy) lock
  | releases {tenantId conversationId turnId : String} {lock : ChatLock}
      (turn : lock.turnId = turnId) : Removes expired (.releaseLock tenantId conversationId turnId) lock

/-- The operation has read the clock past the lease. -/
def SeenExpired (trace : Trace ChatPorts) (lock : ChatLock) : Prop :=
  ∃ now : Timestamp, (⟨.now, now⟩ : Call ChatPorts) ∈ trace ∧ lock.isExpiredAt now = true

/-- The operation has read the record at the revision. -/
def Has (call : LockCall) (trace : Trace ChatPorts) (lock : ChatLock) (revision : Nat) : Prop :=
  (⟨.kvEntry call, .ok (some (.put lock revision))⟩ : Call ChatPorts) ∈ trace

/-- What an operation has seen when it makes a call. -/
def Issues (call : LockCall) (trace : Trace ChatPorts) : ChatCall → Prop
  | .kvEntry by_ => by_ = call
  | .kvCreate by_ lock => by_ = call ∧ call = .acquireLock lock
  | .kvUpdate by_ lock revision => by_ = call ∧ ∃ old, call.Has trace old revision ∧
      Writes call old lock
  | .kvPurge by_ revision => by_ = call ∧ ∃ old, call.Has trace old revision ∧
      Removes (SeenExpired trace) call old
  | .now => True
  | _ => False

theorem Has.mono {call : LockCall} {trace reached : Trace ChatPorts} {lock : ChatLock}
    {revision : Nat} (has : call.Has trace lock revision) (since : trace <+: reached) :
    call.Has reached lock revision := since.subset has

theorem has_snoc (call : LockCall) (trace : Trace ChatPorts) (lock : ChatLock) (revision : Nat) :
    call.Has (trace ++ [⟨.kvEntry call, .ok (some (.put lock revision))⟩]) lock revision :=
  List.mem_append_right _ List.mem_cons_self

end LockCall

open LockCall

namespace NatsChatBus

variable {A : Trace ChatPorts → (op : ChatCall) → op.Ans → Prop}
  {P : Trace ChatPorts → ChatCall → Prop} {α : Type}

theorem since_snoc {trace reached : Trace ChatPorts} (since : trace <+: reached)
    (call : Call ChatPorts) : trace <+: reached ++ [call] :=
  since.trans (List.prefix_append _ _)

theorem along_ask {Q : Trace ChatPorts → α → Prop} {trace : Trace ChatPorts} {op : ChatCall}
    {next : op.Ans → Program ChatPorts α} (issued : P trace op)
    (rest : ∀ a, A trace op a → Along (S := ChatPorts) A P Q (trace ++ [⟨op, a⟩]) (next a)) :
    Along (S := ChatPorts) A P Q trace (ask op >>= next) :=
  ⟨issued, rest⟩

/-- An error answers nothing. -/
theorem no_ok {ε β : Type} {error : ε} {value : β} {p : Prop}
    (same : (Except.error error : Except ε β) = .ok value) : p := by cases same

/-- An answer swaps nothing. -/
theorem no_swap {result : Except ChatBusError α} {lock : ChatLock} {value : α} {p : Prop}
    (same : Attempt.answer result = .swap lock value) : p := by cases same

/-! ## The clock -/

/-- Readings of the clock do not go back. -/
def Clocked (A : Trace ChatPorts → (op : ChatCall) → op.Ans → Prop) : Prop :=
  ∀ before (now : Timestamp), A before .now now →
    ∀ earlier : Timestamp, (⟨.now, earlier⟩ : Call ChatPorts) ∈ before → earlier ≤ now

theorem along_isExpired {Q : Trace ChatPorts → α → Prop} {trace : Trace ChatPorts}
    {lock : ChatLock} {next : Bool → Program ChatPorts α} (issued : P trace .now)
    (read : ∀ now, A trace .now now →
      Along (S := ChatPorts) A P Q (trace ++ [⟨.now, now⟩]) (next (lock.isExpiredAt now))) :
    Along (S := ChatPorts) A P Q trace (isExpired lock >>= next) :=
  ⟨issued, read⟩

theorem along_andFresh {Q : Trace ChatPorts → α → Prop} {trace : Trace ChatPorts}
    {condition : Bool} {lock : ChatLock} {next : Bool → Program ChatPorts α} (issued : P trace .now)
    (skipped : condition = false → Along (S := ChatPorts) A P Q trace (next false))
    (read : condition = true → ∀ now, A trace .now now →
      Along (S := ChatPorts) A P Q (trace ++ [⟨.now, now⟩]) (next (!lock.isExpiredAt now))) :
    Along (S := ChatPorts) A P Q trace (andFresh condition lock >>= next) := by
  unfold andFresh
  cases met : condition with
  | true => exact ⟨issued, read met⟩
  | false => exact skipped met

theorem along_lockExpiresAt {Q : Trace ChatPorts → α → Prop} {trace : Trace ChatPorts}
    {ttl : Timestamp} {next : Timestamp → Program ChatPorts α} (issued : P trace .now)
    (read : ∀ now : Timestamp, A trace .now now →
      Along (S := ChatPorts) A P Q (trace ++ [⟨.now, now⟩]) (next (now + ttl))) :
    Along (S := ChatPorts) A P Q trace (lockExpiresAt ttl >>= next) :=
  ⟨issued, read⟩

/-! ## Reads -/

theorem along_loadLock {tenantId conversationId : String} {trace : Trace ChatPorts}
    {Q : Trace ChatPorts → Except ChatBusError (Option ChatLock) → Prop}
    (issued : P trace (.kvEntry (.loadLock tenantId conversationId)))
    (found : ∀ lock revision, A trace (.kvEntry (.loadLock tenantId conversationId))
        (.ok (some (.put lock revision))) →
      Q (trace ++ [⟨.kvEntry (.loadLock tenantId conversationId), .ok (some (.put lock revision))⟩])
        (.ok (some lock)))
    (absent : ∀ entry, (∀ lock revision, entry ≠ some (.put lock revision)) →
      A trace (.kvEntry (.loadLock tenantId conversationId)) (.ok entry) →
      Q (trace ++ [⟨.kvEntry (.loadLock tenantId conversationId), .ok entry⟩]) (.ok none))
    (failed : ∀ error error', Q (trace ++ [⟨.kvEntry (.loadLock tenantId conversationId),
      .error error⟩]) (.error error')) :
    Along (S := ChatPorts) A P Q trace (loadLock tenantId conversationId) := by
  refine ⟨issued, fun answer fact => ?_⟩
  rcases answer with error | (_ | (⟨lock, revision⟩ | revision))
  · exact failed error _
  · exact absent none (by simp) fact
  · exact found lock revision fact
  · exact absent (some (.marker revision)) (by simp) fact

theorem along_stopRequested {tenantId conversationId turnId : String} {trace : Trace ChatPorts}
    (allowed : ∀ reached op, trace <+: reached →
      Issues (.stopRequested tenantId conversationId turnId) reached op → P reached op) :
    Along (S := ChatPorts) A P (fun reached _ => trace <+: reached) trace
      (stopRequested tenantId conversationId turnId) := by
  refine along_ask (allowed _ _ List.prefix_rfl rfl) fun answer _ => ?_
  have since := List.prefix_append trace
    [(⟨.kvEntry (.stopRequested tenantId conversationId turnId), answer⟩ : Call ChatPorts)]
  rcases answer with error | (_ | (⟨lock, revision⟩ | revision))
  · exact since
  · exact since
  · exact ⟨allowed _ _ since trivial, fun now _ => since_snoc since _⟩
  · exact since

/-! ## Acquiring -/

/-- The create that made an acquire succeed. -/
def AcquiredBy (lock : ChatLock) (reached : Trace ChatPorts) : Prop :=
  ∃ before next, reached = before ++ [⟨.kvCreate (.acquireLock lock) lock, .ok next⟩]

theorem along_createKvLock {lock : ChatLock} {trace : Trace ChatPorts}
    (issued : P trace (.kvCreate (.acquireLock lock) lock)) :
    Along (S := ChatPorts) A P (fun reached result => trace <+: reached ∧
      (result = .ok () → AcquiredBy lock reached)) trace (createKvLock (.acquireLock lock) lock) := by
  refine ⟨issued, fun answer _ => ?_⟩
  have since := List.prefix_append trace
    [(⟨.kvCreate (.acquireLock lock) lock, answer⟩ : Call ChatPorts)]
  rcases answer with (_ | message) | next
  · exact ⟨since, fun same => no_ok same⟩
  · exact ⟨since, fun same => no_ok same⟩
  · exact ⟨since, fun _ => ⟨trace, next, rfl⟩⟩

theorem along_acquireLock {lock : ChatLock} {trace : Trace ChatPorts}
    (allowed : ∀ reached op, trace <+: reached → Issues (.acquireLock lock) reached op →
      P reached op) :
    Along (S := ChatPorts) A P (fun reached result => trace <+: reached ∧
      (result = .ok () → AcquiredBy lock reached)) trace (acquireLock lock) := by
  have created : ∀ reached, trace <+: reached → Along (S := ChatPorts) A P
      (fun reached result => trace <+: reached ∧ (result = .ok () → AcquiredBy lock reached)) reached
      (createKvLock (.acquireLock lock) lock) := by
    intro reached since
    refine (along_createKvLock (allowed _ _ since ⟨rfl, rfl⟩)).imp ?_
    exact fun later result post => ⟨since.trans post.1, post.2⟩
  refine along_ask (allowed _ _ List.prefix_rfl rfl) fun answer _ => ?_
  have since := List.prefix_append trace
    [(⟨.kvEntry (.acquireLock lock), answer⟩ : Call ChatPorts)]
  rcases answer with error | (_ | (⟨stored, revision⟩ | revision))
  · exact ⟨since, fun same => no_ok same⟩
  · exact created _ since
  · refine along_isExpired (allowed _ _ since trivial) fun now _ => ?_
    have since' := since_snoc since (⟨.now, now⟩ : Call ChatPorts)
    split
    · rename_i expired
      have read := (has_snoc (.acquireLock lock) trace stored revision).mono
        (List.prefix_append _ [(⟨.now, now⟩ : Call ChatPorts)])
      refine ⟨allowed _ _ since' ⟨rfl, stored, read,
        .acquires ⟨now, List.mem_append_right _ List.mem_cons_self, expired⟩⟩, fun answer _ => ?_⟩
      cases answer with
      | error message => exact ⟨since_snoc since' _, fun same => no_ok same⟩
      | ok done => exact created _ (since_snoc since' _)
    · exact ⟨since', fun same => no_ok same⟩
  · exact created _ since

/-! ## Swapping -/

/-- The loop, from what one attempt does. -/
theorem along_swapLoop {call : LockCall} {context : String} {missing : Except ChatBusError α}
    {attempt : ChatLock → Nat → Program ChatPorts (Attempt α)} {start : Trace ChatPorts}
    {Q : Trace ChatPorts → Except ChatBusError α → Prop}
    (read : ∀ reached, start <+: reached → P reached (.kvEntry call))
    (failed : ∀ reached error, start <+: reached → Q reached (.error error))
    (absent : ∀ reached, start <+: reached → Q reached missing)
    (tried : ∀ trace lock revision, start <+: trace → call.Has trace lock revision →
      Along (S := ChatPorts) A P (fun reached tried => match tried with
        | .answer result => Q reached result
        | .swap lock result => start <+: reached ∧ P reached (.kvUpdate call lock revision) ∧
            ∀ next, Q (reached ++ [⟨.kvUpdate call lock revision, .ok next⟩]) (.ok result)) trace
        (attempt lock revision))
    (attempts : Nat) (trace : Trace ChatPorts) (since : start <+: trace) :
    Along (S := ChatPorts) A P Q trace (swapLoop call context missing attempt attempts) := by
  induction attempts generalizing trace with
  | zero => exact failed trace _ since
  | succ attempts ih =>
      refine along_ask (read trace since) fun answer _ => ?_
      have since' := since_snoc since (⟨.kvEntry call, answer⟩ : Call ChatPorts)
      rcases answer with error | (_ | (⟨lock, revision⟩ | revision))
      · exact failed _ _ since'
      · exact absent _ since'
      · refine Along.bind (tried _ lock revision since' (has_snoc call trace lock revision)) ?_
        intro reached tried post
        cases tried with
        | answer result => exact post
        | swap lock' result =>
            obtain ⟨sinceSwap, issued, swapped⟩ := post
            refine along_ask issued fun answer _ => ?_
            have sinceAnswer := since_snoc sinceSwap
              (⟨.kvUpdate call lock' revision, answer⟩ : Call ChatPorts)
            rcases answer with (_ | message) | next
            · exact ih _ sinceAnswer
            · exact failed _ _ sinceAnswer
            · exact swapped next
      · exact absent _ since'

section Operations

variable {ttl : Timestamp} {tenantId conversationId turnId : String} {trace : Trace ChatPorts}

/-- The swap an answered lock was stored by. -/
def StoredBy (call : LockCall) (lock : ChatLock) (reached : Trace ChatPorts) : Prop :=
  ∃ before revision next, reached = before ++ [⟨.kvUpdate call lock revision, .ok next⟩]

/-- A terminal lock of the turn that an operation has read. -/
def FoundTerminal (call : LockCall) (turnId : String) (lock : ChatLock)
    (reached : Trace ChatPorts) : Prop :=
  lock.isTerminal = true ∧ lock.turnId = turnId ∧ ∃ revision, call.Has reached lock revision

/-- What `claim_lock` answers with: a terminal lock of the turn, or the one it stored. -/
def ClaimedBy (call : LockCall) (turnId workerId : String) (reached : Trace ChatPorts)
    (result : Except ChatBusError ChatLock) : Prop :=
  ∀ lock, result = .ok lock → FoundTerminal call turnId lock reached ∨
    lock.workerId = some workerId ∧ StoredBy call lock reached

theorem along_claimAttempt {workerId : String} (tenantId conversationId : String)
    (clocked : Clocked A) {lock : ChatLock} (now : ∀ reached, trace <+: reached → P reached .now) :
    Along (S := ChatPorts) A P (fun reached tried => trace <+: reached ∧ match tried with
      | .answer result => ∀ lock', result = .ok lock' →
          lock' = lock ∧ lock.turnId = turnId ∧ lock.isTerminal = true
      | .swap lock' result => result = lock' ∧ lock'.workerId = some workerId ∧
          Writes (.claimLock tenantId conversationId turnId workerId) lock lock') trace
      (claimAttempt ttl turnId workerId lock) := by
  unfold claimAttempt
  split
  · rename_i done
    refine ⟨List.prefix_rfl, ?_⟩
    rintro _ ⟨⟩
    exact ⟨rfl, done⟩
  · rename_i undone
    refine along_andFresh (now _ List.prefix_rfl) ?_ ?_
    · intro own
      have turn : lock.turnId = turnId := by simpa using own
      simp only [Bool.false_eq_true, if_false]
      refine along_andFresh (now _ List.prefix_rfl) ?_ ?_
      · intro mine
        have mine : lock.state = .running → lock.workerId = some workerId := by
          simpa [turn] using mine
        simp only [Bool.false_eq_true, if_false, turn, ne_eq, not_true_eq_false]
        refine along_isExpired (now _ List.prefix_rfl) fun second _ => ?_
        have since := List.prefix_append trace [(⟨.now, second⟩ : Call ChatPorts)]
        split
        · exact ⟨since, fun _ same => no_ok same⟩
        · refine along_lockExpiresAt (now _ since) fun third _ => ?_
          refine ⟨since_snoc since _, rfl, rfl, .claims turn ?_ mine⟩
          cases terminal : lock.isTerminal with
          | false => rfl
          | true => exact absurd ⟨turn, terminal⟩ undone
      · -- Another worker's: turned away while fresh, and expired for good.
        intro _ first _
        have since := List.prefix_append trace [(⟨.now, first⟩ : Call ChatPorts)]
        split
        · exact ⟨since, fun _ same => no_ok same⟩
        · rename_i expired
          simp only [turn, ne_eq, not_true_eq_false, if_false]
          refine along_isExpired (now _ since) fun second fact => ?_
          have later := clocked _ second fact first
            (List.mem_append_right _ List.mem_cons_self)
          have still : lock.isExpiredAt second = true := by
            simp only [ChatLock.isExpiredAt, Bool.not_eq_true, Bool.not_eq_false',
              decide_eq_true_eq] at expired ⊢
            exact le_trans expired later
          simp only [still, if_true]
          exact ⟨since_snoc since _, fun _ same => no_ok same⟩
    · intro foreign first _
      have since := List.prefix_append trace [(⟨.now, first⟩ : Call ChatPorts)]
      have turn : lock.turnId ≠ turnId := by simpa using foreign
      split
      · exact ⟨since, fun _ same => no_ok same⟩
      · refine along_andFresh (now _ since) ?_ ?_
        · intro _
          rw [if_neg Bool.false_ne_true]
          exact ⟨since, fun _ same => no_ok same⟩
        · intro own
          simp [turn] at own

theorem along_claimLock {workerId : String} (clocked : Clocked A)
    (allowed : ∀ reached op, trace <+: reached →
      Issues (.claimLock tenantId conversationId turnId workerId) reached op → P reached op) :
    Along (S := ChatPorts) A P (fun reached result => trace <+: reached ∧
      ClaimedBy (.claimLock tenantId conversationId turnId workerId) turnId workerId reached
        result) trace
      (claimLock ttl tenantId conversationId turnId workerId) := by
  refine along_swapLoop (fun reached since => allowed _ _ since rfl)
    (fun reached error since => ⟨since, fun _ same => no_ok same⟩)
    (fun reached since => ⟨since, fun _ same => no_ok same⟩) ?_ attempts trace List.prefix_rfl
  intro start lock revision since has
  refine (along_claimAttempt tenantId conversationId clocked
    fun reached later => allowed _ _ (since.trans later) trivial).imp ?_
  rintro reached (result | ⟨lock', result⟩) ⟨later, post⟩
  · refine ⟨since.trans later, fun lock' same => .inl ?_⟩
    obtain ⟨rfl, turn, terminal⟩ := post lock' same
    exact ⟨terminal, turn, revision, has.mono later⟩
  · obtain ⟨rfl, worker, writes⟩ := post
    refine ⟨since.trans later, allowed _ _ (since.trans later)
      ⟨rfl, lock, has.mono later, writes⟩, fun next => ⟨since_snoc (since.trans later) _, ?_⟩⟩
    rintro _ ⟨⟩
    exact .inr ⟨worker, reached, revision, next, rfl⟩

/-- An operation whose attempts only ever swap what `Writes` allows. -/
theorem along_swapping {call : LockCall} {context : String} {missing : Except ChatBusError α}
    {attempt : ChatLock → Nat → Program ChatPorts (Attempt α)}
    (allowed : ∀ reached op, trace <+: reached → Issues call reached op → P reached op)
    (tried : ∀ start lock revision, trace <+: start → call.Has start lock revision →
      Along (S := ChatPorts) A P (fun reached tried => start <+: reached ∧
        ∀ lock' result, tried = .swap lock' result → Writes call lock lock') start
        (attempt lock revision)) :
    Along (S := ChatPorts) A P (fun reached _ => trace <+: reached) trace
      (swapLoop call context missing attempt attempts) := by
  refine along_swapLoop (fun reached since => allowed _ _ since rfl)
    (fun reached error since => since) (fun reached since => since) ?_ attempts trace
    List.prefix_rfl
  intro start lock revision since has
  refine (tried start lock revision since has).imp ?_
  rintro reached (result | ⟨lock', result⟩) ⟨later, writes⟩
  · exact since.trans later
  · exact ⟨since.trans later, allowed _ _ (since.trans later)
      ⟨rfl, lock, has.mono later, writes lock' result rfl⟩,
      fun next => since_snoc (since.trans later) _⟩

theorem along_markLockTerminal {workerId : Option String} {terminal : ChatTerminalUpdate}
    (allowed : ∀ reached op, trace <+: reached →
      Issues (.markLockTerminal tenantId conversationId turnId workerId terminal) reached op →
      P reached op) :
    Along (S := ChatPorts) A P (fun reached _ => trace <+: reached) trace
      (markLockTerminal ttl tenantId conversationId turnId workerId terminal) := by
  refine along_swapping allowed fun start lock revision since has => ?_
  unfold markAttempt
  split
  · exact ⟨List.prefix_rfl, fun _ _ same => no_swap same⟩
  · rename_i turn
    split
    · exact ⟨List.prefix_rfl, fun _ _ same => no_swap same⟩
    · rename_i held
      refine along_lockExpiresAt (allowed _ _ since trivial) fun now _ => ?_
      refine ⟨List.prefix_append _ _, ?_⟩
      rintro _ _ ⟨⟩
      exact .terminates (not_not.mp turn) (by simpa using held)

theorem along_markTerminalEventPublished
    (allowed : ∀ reached op, trace <+: reached →
      Issues (.markTerminalEventPublished tenantId conversationId turnId) reached op →
      P reached op) :
    Along (S := ChatPorts) A P (fun reached _ => trace <+: reached) trace
      (markTerminalEventPublished tenantId conversationId turnId) := by
  refine along_swapping allowed fun start lock revision since has => ?_
  unfold publishedAttempt
  split
  · exact ⟨List.prefix_rfl, fun _ _ same => no_swap same⟩
  · rename_i done
    simp only [ne_eq, not_or, not_not, Bool.not_eq_false] at done
    refine ⟨List.prefix_rfl, ?_⟩
    rintro _ _ ⟨⟩
    exact .publishes done.1 done.2

theorem along_requestStop {requestedBy : String}
    (allowed : ∀ reached op, trace <+: reached →
      Issues (.requestStop tenantId conversationId requestedBy) reached op → P reached op) :
    Along (S := ChatPorts) A P (fun reached _ => trace <+: reached) trace
      (requestStop tenantId conversationId requestedBy) := by
  refine along_swapping allowed fun start lock revision since has => ?_
  unfold stopAttempt
  refine along_isExpired (allowed _ _ since trivial) fun now _ => ?_
  have later := List.prefix_append start [(⟨.now, now⟩ : Call ChatPorts)]
  split
  · rename_i expired
    refine ⟨allowed _ _ (since.trans later) ⟨rfl, lock, has.mono later,
      .stops ⟨now, List.mem_append_right _ List.mem_cons_self, expired⟩⟩, fun answer _ => ?_⟩
    exact ⟨since_snoc later _, fun _ _ same => no_swap same⟩
  · refine ⟨allowed _ _ (since.trans later) trivial, fun at_ _ => ?_⟩
    refine ⟨since_snoc later _, ?_⟩
    rintro _ _ ⟨⟩
    exact .stops

theorem along_renewLock {workerId : String}
    (allowed : ∀ reached op, trace <+: reached →
      Issues (.renewLock tenantId conversationId turnId workerId) reached op → P reached op) :
    Along (S := ChatPorts) A P (fun reached _ => trace <+: reached) trace
      (renewLock ttl tenantId conversationId turnId workerId) := by
  refine along_swapping allowed fun start lock revision since has => ?_
  unfold renewAttempt
  split
  · exact ⟨List.prefix_rfl, fun _ _ same => no_swap same⟩
  · rename_i own
    simp only [ne_eq, not_or, not_not] at own
    refine along_isExpired (allowed _ _ since trivial) fun now _ => ?_
    have later := List.prefix_append start [(⟨.now, now⟩ : Call ChatPorts)]
    split
    · exact ⟨later, fun _ _ same => no_swap same⟩
    · refine along_lockExpiresAt (allowed _ _ (since.trans later) trivial) fun at_ _ => ?_
      refine ⟨since_snoc later _, ?_⟩
      rintro _ _ ⟨⟩
      exact .renews own.1 own.2

theorem along_releaseLock
    (allowed : ∀ reached op, trace <+: reached →
      Issues (.releaseLock tenantId conversationId turnId) reached op → P reached op) :
    Along (S := ChatPorts) A P (fun reached _ => trace <+: reached) trace
      (releaseLock tenantId conversationId turnId) := by
  refine along_ask (allowed _ _ List.prefix_rfl rfl) fun answer _ => ?_
  have since := List.prefix_append trace
    [(⟨.kvEntry (.releaseLock tenantId conversationId turnId), answer⟩ : Call ChatPorts)]
  rcases answer with error | (_ | (⟨stored, revision⟩ | revision))
  · exact since
  · exact since
  · by_cases own : stored.turnId = turnId
    · simp only [own, ne_eq, not_true_eq_false, if_false]
      exact along_ask (allowed _ _ since ⟨rfl, stored, has_snoc _ _ _ _, .releases own⟩)
        fun answer _ => since_snoc since _
    · simp only [own, ne_eq, not_false_eq_true, if_true]
      exact since
  · exact since

end Operations

end NatsChatBus

namespace LockCall

/-- What an answered operation rests on. -/
def Answers (call : LockCall) (reached : Trace ChatPorts)
    (result : Except ChatBusError LockAnswer) : Prop :=
  match call with
  | .acquireLock lock => ∀ value, result = .ok value → NatsChatBus.AcquiredBy lock reached
  | .claimLock tenantId conversationId turnId workerId => ∀ lock, result = .ok (.lock lock) →
      lock.isTerminal = true ∨ lock.workerId = some workerId ∧
        NatsChatBus.StoredBy (.claimLock tenantId conversationId turnId workerId) lock reached
  | _ => True

theorem along_run {A : Trace ChatPorts → (op : ChatCall) → op.Ans → Prop} (ttl : Timestamp)
    (clocked : NatsChatBus.Clocked A) (call : LockCall) :
    Along (S := ChatPorts) A call.Issues call.Answers [] (call.run ttl) := by
  cases call with
  | acquireLock lock =>
      refine Along.bind (NatsChatBus.along_acquireLock fun _ _ _ issues => issues) ?_
      rintro reached (error | value) ⟨-, acquired⟩
      · exact fun _ same => NatsChatBus.no_ok same
      · exact fun _ _ => acquired rfl
  | loadLock tenantId conversationId =>
      exact Along.bind (Q := fun _ _ => True) (NatsChatBus.along_loadLock rfl (fun _ _ _ => trivial)
        (fun _ _ _ => trivial) fun _ _ => trivial) fun _ _ _ => trivial
  | claimLock tenantId conversationId turnId workerId =>
      refine Along.bind (NatsChatBus.along_claimLock clocked fun _ _ _ issues => issues) ?_
      rintro reached (error | lock) ⟨-, claimed⟩
      · exact fun _ same => NatsChatBus.no_ok same
      · rintro _ ⟨⟩
        exact (claimed lock rfl).imp_left And.left
  | markLockTerminal tenantId conversationId turnId workerId terminal =>
      exact Along.bind (NatsChatBus.along_markLockTerminal fun _ _ _ issues => issues)
        fun _ _ _ => trivial
  | markTerminalEventPublished tenantId conversationId turnId =>
      exact Along.bind (NatsChatBus.along_markTerminalEventPublished fun _ _ _ issues => issues)
        fun _ _ _ => trivial
  | requestStop tenantId conversationId requestedBy =>
      exact Along.bind (NatsChatBus.along_requestStop fun _ _ _ issues => issues)
        fun _ _ _ => trivial
  | stopRequested tenantId conversationId turnId =>
      exact Along.bind (NatsChatBus.along_stopRequested fun _ _ _ issues => issues)
        fun _ _ _ => trivial
  | renewLock tenantId conversationId turnId workerId =>
      exact Along.bind (NatsChatBus.along_renewLock fun _ _ _ issues => issues)
        fun _ _ _ => trivial
  | releaseLock tenantId conversationId turnId =>
      exact Along.bind (NatsChatBus.along_releaseLock fun _ _ _ issues => issues)
        fun _ _ _ => trivial

end LockCall

end Delphi.Chat
