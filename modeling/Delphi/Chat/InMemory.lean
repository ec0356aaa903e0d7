/-
# Delphi.Chat.InMemory -- the bus the tests run on

`InMemoryChatBus` keeps the locks in a map and the events in a list.  Run side by
side with the NATS operations, one call after another, it holds the same locks and
answers in the same class, but for two cases: a claim for another turn than that of
an expired lock is a missing payload here and a turn in flight there, and a key the
bucket does not take is a key like any other here and an error there.  And a replay
from sequence zero is everything here and nothing there.
-/
import Mathlib
import Delphi.Chat.LockRecord
import Delphi.Chat.EventStream

namespace Delphi.Chat

open Delphi.Theory

set_option autoImplicit false

/-- The map of locks, by key. -/
abbrev Locks := String → Option ChatLock

namespace InMemoryChatBus

/-! ## Locks -/

def acquireLock (locks : Locks) (now : Timestamp) (lock : ChatLock) :
    Except ChatBusError Unit × Locks :=
  let key := ChatSubjects.lockKey lock.tenantId lock.conversationId
  if (locks key).any fun existing => !existing.isExpiredAt now then (.error .inFlight, locks)
  else (.ok (), Function.update locks key (some lock))

def loadLock (locks : Locks) (tenantId conversationId : String) :
    Except ChatBusError (Option ChatLock) × Locks :=
  (.ok (locks (ChatSubjects.lockKey tenantId conversationId)), locks)

section Operations

variable (ttl : Timestamp) (locks : Locks) (now : Timestamp)
  (tenantId conversationId turnId : String)

def claimLock (workerId : String) : Except ChatBusError ChatLock × Locks :=
  let key := ChatSubjects.lockKey tenantId conversationId
  match locks key with
  | some existing =>
      if existing.turnId = turnId then
        if existing.isTerminal = true then (.ok existing, locks)
        else if existing.isExpiredAt now = true then
          (.error (.payload "chat lock payload expired before worker claim"), locks)
        else if existing.state = .running ∧ existing.workerId ≠ some workerId then
          (.error .inFlight, locks)
        else
          let lock := existing.claimed workerId (now + ttl)
          (.ok lock, Function.update locks key (some lock))
      else if existing.isExpiredAt now = false then (.error .inFlight, locks)
      else (.error (.payload "chat lock payload missing before worker claim"), locks)
  | none => (.error (.payload "chat lock payload missing before worker claim"), locks)

def markLockTerminal (workerId : Option String) (terminal : ChatTerminalUpdate) :
    Except ChatBusError ChatLock × Locks :=
  let key := ChatSubjects.lockKey tenantId conversationId
  match locks key with
  | none => (.error .inFlight, locks)
  | some lock =>
      if lock.turnId ≠ turnId then (.error .inFlight, locks)
      else if NatsChatBus.isHeldBy lock workerId = false then (.error .inFlight, locks)
      else
        let lock := lock.terminated terminal (now + ttl)
        (.ok lock, Function.update locks key (some lock))

def markTerminalEventPublished : Except ChatBusError Unit × Locks :=
  let key := ChatSubjects.lockKey tenantId conversationId
  match locks key with
  | none => (.ok (), locks)
  | some lock =>
      if lock.turnId = turnId ∧ lock.isTerminal = true then
        (.ok (), Function.update locks key (some lock.published))
      else (.ok (), locks)

def requestStop (requestedBy : String) : Except ChatBusError (Option ChatLock) × Locks :=
  let key := ChatSubjects.lockKey tenantId conversationId
  match locks key with
  | some lock =>
      if lock.isExpiredAt now = false then
        let lock := lock.stopped requestedBy now
        (.ok (some lock), Function.update locks key (some lock))
      else (.ok none, Function.update locks key none)
  | none => (.ok none, locks)

def stopRequested : Except ChatBusError Bool × Locks :=
  (.ok ((locks (ChatSubjects.lockKey tenantId conversationId)).any fun lock =>
    !lock.isExpiredAt now && lock.turnId = turnId && lock.stopRequested), locks)

def renewLock (workerId : String) : Except ChatBusError ChatLock × Locks :=
  let key := ChatSubjects.lockKey tenantId conversationId
  match locks key with
  | none => (.error .inFlight, locks)
  | some lock =>
      if lock.turnId ≠ turnId ∨ lock.workerId ≠ some workerId ∨ lock.isExpiredAt now = true then
        (.error .inFlight, locks)
      else
        let lock := lock.renewed (now + ttl)
        (.ok lock, Function.update locks key (some lock))

def releaseLock : Locks :=
  let key := ChatSubjects.lockKey tenantId conversationId
  if (locks key).any fun lock => lock.turnId = turnId then Function.update locks key none else locks

end Operations

/-- The operation a call stands for. -/
def perform (ttl : Timestamp) (locks : Locks) (now : Timestamp) :
    LockCall → LockCall.Outcome × Locks
  | .acquireLock lock =>
      (acquireLock locks now lock).map (LockCall.answerWith fun _ => .unit) id
  | .loadLock tenantId conversationId =>
      (loadLock locks tenantId conversationId).map (LockCall.answerWith .found) id
  | .claimLock tenantId conversationId turnId workerId =>
      (claimLock ttl locks now tenantId conversationId turnId workerId).map
        (LockCall.answerWith .lock) id
  | .markLockTerminal tenantId conversationId turnId workerId terminal =>
      (markLockTerminal ttl locks now tenantId conversationId turnId workerId terminal).map
        (LockCall.answerWith .lock) id
  | .markTerminalEventPublished tenantId conversationId turnId =>
      (markTerminalEventPublished locks tenantId conversationId turnId).map
        (LockCall.answerWith fun _ => .unit) id
  | .requestStop tenantId conversationId requestedBy =>
      (requestStop locks now tenantId conversationId requestedBy).map
        (LockCall.answerWith .found) id
  | .stopRequested tenantId conversationId turnId =>
      (stopRequested locks now tenantId conversationId turnId).map (LockCall.answerWith .flag) id
  | .renewLock tenantId conversationId turnId workerId =>
      (renewLock ttl locks now tenantId conversationId turnId workerId).map
        (LockCall.answerWith .lock) id
  | .releaseLock tenantId conversationId turnId =>
      (.ok .unit, releaseLock locks tenantId conversationId turnId)

/-! ## Events -/

/-- The log after publishing: events numbered from one on. -/
def eventLog (published : List ChatEventEnvelope) : List SequencedChatEvent :=
  (published.zipIdx 1).map fun entry => ⟨toString entry.2, entry.1⟩

def replayEvents (log : List SequencedChatEvent) (tenantId conversationId : String)
    (startSeq endSeq : Nat) : List SequencedChatEvent :=
  log.filter fun event =>
    (event.eventId.toNat?.any fun sequence => startSeq ≤ sequence && sequence ≤ endSeq) &&
    event.envelope.tenantId = tenantId && event.envelope.conversationId = conversationId

end InMemoryChatBus

/-! ## Side by side -/

/-- What a caller can tell of an outcome: the answer, or the kind of error. -/
inductive AnswerClass where
  | ok (answer : LockAnswer)
  | unavailable
  | payload
  | inFlight
deriving DecidableEq

def classOf : LockCall.Outcome → AnswerClass
  | .ok answer => .ok answer
  | .error .unavailable => .unavailable
  | .error (.payload _) => .payload
  | .error .inFlight => .inFlight

namespace NatsChatBus

/-- Run an operation alone, on a store without faults. -/
def alone {α : Type} (s : LockStore) (program : Program ChatPorts α) : LockStore × α :=
  Program.exec (S := ChatPorts) LockStore.answer LockStore.after s program

variable {α β : Type} {s : LockStore}

@[simp] theorem alone_pure (s : LockStore) (value : α) :
    alone s (pure value : Program ChatPorts α) = (s, value) := rfl

@[simp] theorem alone_ret (s : LockStore) (value : α) :
    alone s (.ret value : Program ChatPorts α) = (s, value) := rfl

@[simp] theorem alone_ask (s : LockStore) (op : ChatCall) (next : op.Ans → Program ChatPorts α) :
    alone s (ask op >>= next) = alone (s.after op) (next (s.answer op)) := rfl

theorem alone_bind (s : LockStore) (program : Program ChatPorts α)
    (next : α → Program ChatPorts β) :
    alone s (program >>= next) = alone (alone s program).1 (next (alone s program).2) :=
  Program.exec_bind (S := ChatPorts) _ _ program next s

@[simp] theorem alone_isExpired (s : LockStore) (lock : ChatLock)
    (next : Bool → Program ChatPorts α) :
    alone s (isExpired lock >>= next) = alone s (next (lock.isExpiredAt s.clock)) := rfl

@[simp] theorem alone_lockExpiresAt (s : LockStore) (ttl : Timestamp)
    (next : Timestamp → Program ChatPorts α) :
    alone s (lockExpiresAt ttl >>= next) = alone s (next (s.clock + ttl)) := rfl

@[simp] theorem alone_andFresh (s : LockStore) (condition : Bool) (lock : ChatLock)
    (next : Bool → Program ChatPorts α) :
    alone s (andFresh condition lock >>= next) =
      alone s (next (condition && !lock.isExpiredAt s.clock)) := by
  cases condition <;> rfl

theorem answer_entry {call : LockCall} (valid : KvBucket.isValidKey call.key = true) :
    s.answer (.kvEntry call) = .ok (s.bucket.entries call.key) :=
  if_pos valid

theorem answer_create {call : LockCall} {lock : ChatLock} {bucket : KvBucket ChatLock}
    (valid : KvBucket.isValidKey call.key = true)
    (done : s.bucket.create call.key lock = some bucket) :
    s.answer (.kvCreate call lock) = .ok bucket.lastRevision := by
  refine (if_pos valid).trans ?_
  rw [done]

theorem answer_update {call : LockCall} {lock : ChatLock} {revision : Nat}
    {bucket : KvBucket ChatLock} (valid : KvBucket.isValidKey call.key = true)
    (done : s.bucket.update call.key lock revision = some bucket) :
    s.answer (.kvUpdate call lock revision) = .ok bucket.lastRevision := by
  refine (if_pos valid).trans ?_
  rw [done]

theorem answer_purge {call : LockCall} {revision : Nat} {bucket : KvBucket ChatLock}
    (valid : KvBucket.isValidKey call.key = true)
    (done : s.bucket.purgeExpectRevision call.key revision = some bucket) :
    s.answer (.kvPurge call revision) = .ok () := by
  refine (if_pos valid).trans ?_
  rw [done]

theorem answer_entry_refused {call : LockCall} (invalid : KvBucket.isValidKey call.key = false) :
    s.answer (.kvEntry call) = .error (.read LockStore.invalidKey) :=
  if_neg (by simp [invalid])

/-- What an attempt that left the store alone comes to. -/
def settled (s : LockStore) (call : LockCall) : Attempt α → LockStore × Except ChatBusError α
  | .answer result => (s, result)
  | .swap lock result => (s.with_ (s.bucket.put call.key lock), .ok result)

/-- The loop alone: its first swap goes through. -/
theorem alone_swapLoop {call : LockCall} {context : String} {missing : Except ChatBusError α}
    {attempt : ChatLock → Nat → Program ChatPorts (Attempt α)} {attempts : Nat}
    {lock : ChatLock} {revision : Nat} {tried : Attempt α}
    (valid : KvBucket.isValidKey call.key = true)
    (held : s.bucket.entries call.key = some (.put lock revision))
    (only : alone s (attempt lock revision) = (s, tried)) :
    alone s (swapLoop call context missing attempt (attempts + 1)) = settled s call tried := by
  have read : s.answer (.kvEntry call) = .ok (some (.put lock revision)) :=
    (answer_entry valid).trans (congrArg Except.ok held)
  rw [swapLoop, alone_ask, read]
  show alone s (attempt lock revision >>= _) = _
  rw [alone_bind, only]
  cases tried with
  | answer result => rfl
  | swap lock' result =>
      have current : s.bucket.update call.key lock' revision =
          some (s.bucket.put call.key lock') := by
        simp [KvBucket.update, KvBucket.revisionOf, held, KvEntry.revision]
      have stored : s.answer (.kvUpdate call lock' revision) = .ok (s.bucket.lastRevision + 1) :=
        answer_update valid current
      have left : s.after (.kvUpdate call lock' revision) =
          s.with_ (s.bucket.put call.key lock') := by
        simp only [LockStore.after, LockStore.keyed_of_valid valid, current, LockStore.orSame]
      show alone s (ask (.kvUpdate call lock' revision) >>= _) = _
      rw [alone_ask, stored, left]
      rfl

theorem alone_swapLoop_missing {call : LockCall} {context : String}
    {missing : Except ChatBusError α} {attempt : ChatLock → Nat → Program ChatPorts (Attempt α)}
    {attempts : Nat} (valid : KvBucket.isValidKey call.key = true)
    (absent : s.live call.key = none) :
    alone s (swapLoop call context missing attempt (attempts + 1)) = (s, missing) := by
  rw [swapLoop, alone_ask, answer_entry valid]
  unfold LockStore.live KvBucket.live at absent
  cases held : s.bucket.entries call.key with
  | none => rfl
  | some entry =>
      cases entry with
      | put lock revision => simp [held] at absent
      | marker revision => rfl

/-- Under a key the bucket does not take the first read of the loop fails. -/
theorem alone_swapLoop_refused {call : LockCall} {context : String}
    {missing : Except ChatBusError α} {attempt : ChatLock → Nat → Program ChatPorts (Attempt α)}
    (attempts : Nat) (invalid : KvBucket.isValidKey call.key = false) :
    alone s (swapLoop call context missing attempt (attempts + 1)) =
      (s, .error (readError (.read LockStore.invalidKey))) := by
  rw [swapLoop, alone_ask, answer_entry_refused invalid]
  rfl

end NatsChatBus

/-- The store and the map hold the same locks. -/
def Same (s : LockStore) (locks : Locks) : Prop := ∀ key, s.live key = locks key

theorem Same.put {s : LockStore} {locks : Locks} (same : Same s locks) (key : String)
    (lock : ChatLock) :
    Same (s.with_ (s.bucket.put key lock)) (Function.update locks key (some lock)) := by
  intro other
  by_cases own : other = key
  · subst own
    rw [LockStore.live_with_put_self, Function.update_self]
  · rw [Function.update_of_ne own, ← same other]
    exact KvBucket.live_put_of_ne s.bucket lock own

theorem Same.purge {s : LockStore} {locks : Locks} (same : Same s locks) (key : String) :
    Same (s.with_ (s.bucket.purge key)) (Function.update locks key none) := by
  intro other
  by_cases own : other = key
  · subst own
    rw [Function.update_self]
    simp [LockStore.live, LockStore.with_, KvBucket.live]
  · rw [Function.update_of_ne own, ← same other]
    simp [LockStore.live, LockStore.with_, KvBucket.live, KvBucket.purge_entries_of_ne _ own]

/-- Both sides of a call: the same answer, the same locks, and no time passed. -/
structure Matches {α : Type} (s : LockStore) (kv : LockStore × Except ChatBusError α)
    (memory : Except ChatBusError α × Locks) : Prop where
  answer : kv.2 = memory.1
  locks : Same kv.1 memory.2
  clock : kv.1.clock = s.clock

namespace NatsChatBus

variable {α : Type} {s : LockStore} {locks : Locks} {ttl : Timestamp}
  {tenantId conversationId turnId : String}

theorem entry_of_live {key : String} {lock : ChatLock} (live : s.live key = some lock) :
    ∃ revision, s.bucket.entries key = some (.put lock revision) :=
  KvBucket.live_eq_some.mp live

/-- A swapping operation, from what its attempt and the map's operation do with the lock. -/
theorem matches_swapLoop {call : LockCall} {context : String} {missing : Except ChatBusError α}
    {attempt : ChatLock → Nat → Program ChatPorts (Attempt α)}
    {memory : Except ChatBusError α × Locks} (same : Same s locks)
    (valid : KvBucket.isValidKey call.key = true)
    (absent : locks call.key = none → memory = (missing, locks))
    (present : ∀ lock revision, locks call.key = some lock →
      ∃ tried, alone s (attempt lock revision) = (s, tried) ∧
        match tried with
        | .answer result => memory = (result, locks)
        | .swap lock' result =>
            memory = (.ok result, Function.update locks call.key (some lock'))) :
    Matches s (alone s (swapLoop call context missing attempt attempts)) memory := by
  cases live : s.live call.key with
  | none =>
      rw [attempts, alone_swapLoop_missing valid live, absent ((same _).symm.trans live)]
      exact ⟨rfl, same, rfl⟩
  | some lock =>
      obtain ⟨revision, held⟩ := entry_of_live live
      obtain ⟨tried, only, outcome⟩ := present lock revision ((same _).symm.trans live)
      rw [attempts, alone_swapLoop valid held only]
      cases tried with
      | answer result =>
          rw [outcome]
          exact ⟨rfl, same, rfl⟩
      | swap lock' result =>
          rw [outcome]
          exact ⟨rfl, same.put _ _, rfl⟩

theorem matches_markLockTerminal (same : Same s locks) (workerId : Option String)
    (terminal : ChatTerminalUpdate)
    (valid : KvBucket.isValidKey
      (LockCall.markLockTerminal tenantId conversationId turnId workerId terminal).key = true) :
    Matches s (alone s (markLockTerminal ttl tenantId conversationId turnId workerId terminal))
      (InMemoryChatBus.markLockTerminal ttl locks s.clock tenantId conversationId turnId workerId
        terminal) := by
  refine matches_swapLoop same valid ?_ ?_
  · intro absent
    simp only [LockCall.key] at absent
    simp only [InMemoryChatBus.markLockTerminal, absent]
  · intro lock revision found
    simp only [LockCall.key] at found
    simp only [InMemoryChatBus.markLockTerminal, found, markAttempt]
    split
    · exact ⟨_, rfl, rfl⟩
    · split
      · exact ⟨_, rfl, rfl⟩
      · exact ⟨_, rfl, rfl⟩

theorem matches_markTerminalEventPublished (same : Same s locks)
    (valid : KvBucket.isValidKey
      (LockCall.markTerminalEventPublished tenantId conversationId turnId).key = true) :
    Matches s (alone s (markTerminalEventPublished tenantId conversationId turnId))
      (InMemoryChatBus.markTerminalEventPublished locks tenantId conversationId turnId) := by
  refine matches_swapLoop same valid ?_ ?_
  · intro absent
    simp only [LockCall.key] at absent
    simp only [InMemoryChatBus.markTerminalEventPublished, absent]
  · intro lock revision found
    simp only [LockCall.key] at found
    simp only [InMemoryChatBus.markTerminalEventPublished, found, publishedAttempt]
    by_cases done : lock.turnId = turnId ∧ lock.isTerminal = true
    · exact ⟨_, by rw [if_neg (by simp [done.1, done.2])]; rfl, by simp [done.1, done.2, LockCall.key]⟩
    · refine ⟨_, by rw [if_pos (by simpa [← imp_iff_not_or] using done)]; rfl, by rw [if_neg done]⟩

theorem matches_renewLock (same : Same s locks) (workerId : String)
    (valid : KvBucket.isValidKey
      (LockCall.renewLock tenantId conversationId turnId workerId).key = true) :
    Matches s (alone s (renewLock ttl tenantId conversationId turnId workerId))
      (InMemoryChatBus.renewLock ttl locks s.clock tenantId conversationId turnId workerId) := by
  refine matches_swapLoop same valid ?_ ?_
  · intro absent
    simp only [LockCall.key] at absent
    simp only [InMemoryChatBus.renewLock, absent]
  · intro lock revision found
    simp only [LockCall.key] at found
    simp only [InMemoryChatBus.renewLock, found, renewAttempt]
    by_cases foreign : lock.turnId ≠ turnId ∨ lock.workerId ≠ some workerId
    · refine ⟨.answer (.error .inFlight), by rw [if_pos foreign]; rfl, ?_⟩
      rw [if_pos (by tauto)]
    · rw [if_neg foreign, alone_isExpired]
      cases expired : lock.isExpiredAt s.clock with
      | true => exact ⟨.answer (.error .inFlight), rfl, by simp⟩
      | false =>
          refine ⟨_, rfl, ?_⟩
          rw [if_neg (by simpa using foreign)]
          rfl

theorem matches_claimLock (same : Same s locks) (workerId : String)
    (valid : KvBucket.isValidKey
      (LockCall.claimLock tenantId conversationId turnId workerId).key = true)
    (named : ∀ lock, locks (ChatSubjects.lockKey tenantId conversationId) = some lock →
      lock.turnId ≠ turnId → lock.isExpiredAt s.clock = false) :
    Matches s (alone s (claimLock ttl tenantId conversationId turnId workerId))
      (InMemoryChatBus.claimLock ttl locks s.clock tenantId conversationId turnId workerId) := by
  refine matches_swapLoop same valid ?_ ?_
  · intro absent
    simp only [LockCall.key] at absent
    simp only [InMemoryChatBus.claimLock, absent]
  · intro lock revision found
    simp only [LockCall.key] at found
    simp only [InMemoryChatBus.claimLock, found, claimAttempt]
    by_cases own : lock.turnId = turnId
    · simp only [own, true_and, ne_eq, not_true_eq_false, decide_false, if_true, if_false]
      by_cases terminal : lock.isTerminal = true
      · exact ⟨.answer (.ok lock), by rw [if_pos terminal]; rfl, by rw [if_pos terminal]⟩
      · rw [if_neg terminal, if_neg terminal]
        cases expired : lock.isExpiredAt s.clock with
        | true =>
            refine ⟨.answer (.error (.payload "chat lock payload expired before worker claim")),
              ?_, by simp⟩
            simp [expired]
        | false =>
            by_cases taken : lock.state = .running ∧ ¬ lock.workerId = some workerId
            · exact ⟨.answer (.error .inFlight), by simp [expired, taken], by simp [taken]⟩
            · refine ⟨.swap (lock.claimed workerId (s.clock + ttl))
                (lock.claimed workerId (s.clock + ttl)), ?_, by simp [taken, LockCall.key]⟩
              simp [expired, taken]
    · have fresh := named lock found own
      exact ⟨.answer (.error .inFlight), by simp [own, fresh], by simp [own, fresh]⟩

/-- The one case in which the two differ. -/
theorem claimLock_misnamed (same : Same s locks) (workerId : String)
    (valid : KvBucket.isValidKey
      (LockCall.claimLock tenantId conversationId turnId workerId).key = true) {lock : ChatLock}
    (found : locks (ChatSubjects.lockKey tenantId conversationId) = some lock)
    (other : lock.turnId ≠ turnId) (expired : lock.isExpiredAt s.clock = true) :
    (alone s (claimLock ttl tenantId conversationId turnId workerId)).2 = .error .inFlight ∧
      (InMemoryChatBus.claimLock ttl locks s.clock tenantId conversationId turnId workerId).1 =
        .error (.payload "chat lock payload missing before worker claim") := by
  obtain ⟨revision, held⟩ := entry_of_live ((same _).trans found)
  have only : alone s (claimAttempt ttl turnId workerId lock) =
      (s, .answer (.error .inFlight)) := by
    simp [claimAttempt, other, expired]
  constructor
  · rw [claimLock, attempts, alone_swapLoop valid held only]
    rfl
  · simp [InMemoryChatBus.claimLock, found, other, expired]

theorem matches_loadLock (same : Same s locks)
    (valid : KvBucket.isValidKey (LockCall.loadLock tenantId conversationId).key = true) :
    Matches s (alone s (loadLock tenantId conversationId))
      (InMemoryChatBus.loadLock locks tenantId conversationId) := by
  have read := same (ChatSubjects.lockKey tenantId conversationId)
  unfold loadLock
  rw [alone_ask, answer_entry valid]
  simp only [LockCall.key, LockStore.live, KvBucket.live] at read ⊢
  cases held : s.bucket.entries (ChatSubjects.lockKey tenantId conversationId) with
  | none => exact ⟨by simpa [InMemoryChatBus.loadLock, held] using read, same, rfl⟩
  | some entry =>
      cases entry <;>
        exact ⟨by simpa [InMemoryChatBus.loadLock, held] using read, same, rfl⟩

theorem matches_stopRequested (same : Same s locks)
    (valid : KvBucket.isValidKey
      (LockCall.stopRequested tenantId conversationId turnId).key = true) :
    Matches s (alone s (stopRequested tenantId conversationId turnId))
      (InMemoryChatBus.stopRequested locks s.clock tenantId conversationId turnId) := by
  have read := same (ChatSubjects.lockKey tenantId conversationId)
  unfold stopRequested
  rw [alone_ask, answer_entry valid]
  simp only [LockCall.key, LockStore.live, KvBucket.live] at read ⊢
  cases held : s.bucket.entries (ChatSubjects.lockKey tenantId conversationId) with
  | none =>
      rw [held] at read
      exact ⟨by simp [InMemoryChatBus.stopRequested, ← read], same, rfl⟩
  | some entry =>
      rw [held] at read
      cases entry with
      | put lock revision =>
          exact ⟨by simp [InMemoryChatBus.stopRequested, ← read]; rfl, same, rfl⟩
      | marker revision => exact ⟨by simp [InMemoryChatBus.stopRequested, ← read], same, rfl⟩

theorem purgeExpectRevision_of_entry {key : String} {lock : ChatLock} {revision : Nat}
    (held : s.bucket.entries key = some (.put lock revision)) :
    s.bucket.purgeExpectRevision key revision = some (s.bucket.purge key) := by
  simp [KvBucket.purgeExpectRevision, KvBucket.revisionOf, held, KvEntry.revision]

/-- A purge of what was just read goes through. -/
theorem alone_purge {call : LockCall} {lock : ChatLock} {revision : Nat}
    (valid : KvBucket.isValidKey call.key = true)
    (held : s.bucket.entries call.key = some (.put lock revision))
    (next : (ChatCall.kvPurge call revision).Ans → Program ChatPorts α) :
    alone s (ask (.kvPurge call revision) >>= next) =
      alone (s.with_ (s.bucket.purge call.key)) (next (Except.ok () : Except String Unit)) := by
  rw [alone_ask, answer_purge valid (purgeExpectRevision_of_entry held)]
  simp only [LockStore.after, LockStore.keyed_of_valid valid, purgeExpectRevision_of_entry held,
    LockStore.orSame]

theorem alone_createKvLock {call : LockCall} {lock : ChatLock}
    (valid : KvBucket.isValidKey call.key = true) (absent : s.live call.key = none) :
    alone s (createKvLock call lock) = (s.with_ (s.bucket.put call.key lock), .ok ()) := by
  have created : s.bucket.create call.key lock = some (s.bucket.put call.key lock) := by
    simp only [LockStore.live] at absent
    simp [KvBucket.create, absent]
  unfold createKvLock
  rw [alone_ask, answer_create valid created]
  simp only [LockStore.after, LockStore.keyed_of_valid valid, created, LockStore.orSame]
  rfl

theorem matches_requestStop (same : Same s locks) (requestedBy : String)
    (valid : KvBucket.isValidKey
      (LockCall.requestStop tenantId conversationId requestedBy).key = true) :
    Matches s (alone s (requestStop tenantId conversationId requestedBy))
      (InMemoryChatBus.requestStop locks s.clock tenantId conversationId requestedBy) := by
  by_cases expiry : ∃ lock, locks (ChatSubjects.lockKey tenantId conversationId) = some lock ∧
      lock.isExpiredAt s.clock = true
  · -- The attempt itself purges the record, so the loop's own lemma does not apply.
    obtain ⟨lock, found, expired⟩ := expiry
    obtain ⟨revision, held⟩ := entry_of_live ((same _).trans found)
    have kept : s.bucket.entries (LockCall.requestStop tenantId conversationId requestedBy).key =
        some (.put lock revision) := held
    have read : s.answer (.kvEntry (.requestStop tenantId conversationId requestedBy)) =
        .ok (some (.put lock revision)) :=
      (answer_entry valid).trans (congrArg Except.ok held)
    have ends : alone s (requestStop tenantId conversationId requestedBy) =
        (s.with_ (s.bucket.purge (ChatSubjects.lockKey tenantId conversationId)), .ok none) := by
      unfold requestStop attempts swapLoop
      rw [alone_ask, read]
      show alone s (stopAttempt _ requestedBy lock revision >>= _) = _
      rw [alone_bind, stopAttempt, alone_isExpired, expired, if_pos rfl, alone_purge valid kept]
      rfl
    rw [ends]
    simp only [InMemoryChatBus.requestStop, found, expired]
    exact ⟨rfl, same.purge _, rfl⟩
  · refine matches_swapLoop same valid ?_ ?_
    · intro absent
      simp only [LockCall.key] at absent
      simp only [InMemoryChatBus.requestStop, absent]
    · intro lock revision found
      simp only [LockCall.key] at found
      have fresh : lock.isExpiredAt s.clock = false := by
        by_contra stale
        exact expiry ⟨lock, found, by simpa using stale⟩
      refine ⟨.swap (lock.stopped requestedBy s.clock) (some (lock.stopped requestedBy s.clock)),
        ?_, ?_⟩
      · rw [stopAttempt, alone_isExpired, fresh]
        rfl
      · simp [InMemoryChatBus.requestStop, found, fresh, LockCall.key]

/-- Nothing is held: both create. -/
theorem matches_createKvLock (same : Same s locks) (lock : ChatLock)
    (valid : KvBucket.isValidKey (LockCall.acquireLock lock).key = true)
    (absent : s.live (ChatSubjects.lockKey lock.tenantId lock.conversationId) = none) :
    Matches s (alone s (createKvLock (.acquireLock lock) lock))
      (InMemoryChatBus.acquireLock locks s.clock lock) := by
  have read := same (ChatSubjects.lockKey lock.tenantId lock.conversationId)
  have free : s.live (LockCall.acquireLock lock).key = none := absent
  rw [alone_createKvLock valid free]
  simp only [InMemoryChatBus.acquireLock, ← read, absent]
  exact ⟨rfl, same.put _ _, rfl⟩

theorem matches_acquireLock (same : Same s locks) (lock : ChatLock)
    (valid : KvBucket.isValidKey (LockCall.acquireLock lock).key = true) :
    Matches s (alone s (acquireLock lock)) (InMemoryChatBus.acquireLock locks s.clock lock) := by
  have read := same (ChatSubjects.lockKey lock.tenantId lock.conversationId)
  have key : (LockCall.acquireLock lock).key =
    ChatSubjects.lockKey lock.tenantId lock.conversationId := rfl
  unfold acquireLock
  rw [alone_ask, answer_entry valid]
  simp only [key]
  cases held : s.bucket.entries (ChatSubjects.lockKey lock.tenantId lock.conversationId) with
  | none => exact matches_createKvLock same lock valid (by simp [LockStore.live, KvBucket.live, held])
  | some entry =>
      cases entry with
      | marker revision =>
          exact matches_createKvLock same lock valid (by simp [LockStore.live, KvBucket.live, held])
      | put stored revision =>
          have present : s.live (ChatSubjects.lockKey lock.tenantId lock.conversationId) =
              some stored := by
            simp [LockStore.live, KvBucket.live, held]
          show Matches s (alone s (isExpired stored >>= _)) _
          rw [alone_isExpired]
          cases expired : stored.isExpiredAt s.clock with
          | false =>
              simp only [InMemoryChatBus.acquireLock, ← read, present, Option.any, expired]
              exact ⟨rfl, same, rfl⟩
          | true =>
              rw [if_pos rfl, alone_purge valid (by rw [key]; exact held)]
              show Matches s (alone _ (createKvLock _ lock)) _
              rw [alone_createKvLock valid (by simp [LockStore.live, LockStore.with_, KvBucket.live])]
              simp only [InMemoryChatBus.acquireLock, ← read, present, Option.any, expired]
              have replaced := (same.purge (LockCall.acquireLock lock).key).put
                (LockCall.acquireLock lock).key lock
              rw [Function.update_idem] at replaced
              exact ⟨rfl, replaced, rfl⟩

theorem alone_releaseLock (same : Same s locks)
    (valid : KvBucket.isValidKey (LockCall.releaseLock tenantId conversationId turnId).key = true) :
    Same (alone s (releaseLock tenantId conversationId turnId)).1
        (InMemoryChatBus.releaseLock locks tenantId conversationId turnId) ∧
      (alone s (releaseLock tenantId conversationId turnId)).1.clock = s.clock := by
  have read := same (ChatSubjects.lockKey tenantId conversationId)
  have key : (LockCall.releaseLock tenantId conversationId turnId).key =
    ChatSubjects.lockKey tenantId conversationId := rfl
  unfold releaseLock
  rw [alone_ask, answer_entry valid]
  simp only [key]
  simp only [LockStore.live, KvBucket.live] at read
  cases held : s.bucket.entries (ChatSubjects.lockKey tenantId conversationId) with
  | none =>
      rw [held] at read
      simp only [InMemoryChatBus.releaseLock, ← read]
      exact ⟨same, rfl⟩
  | some entry =>
      rw [held] at read
      cases entry with
      | marker revision =>
          simp only [InMemoryChatBus.releaseLock, ← read]
          exact ⟨same, rfl⟩
      | put stored revision =>
          simp only [InMemoryChatBus.releaseLock, ← read, Option.any, decide_eq_true_eq]
          by_cases own : stored.turnId = turnId
          · simp only [own, if_true, ne_eq, not_true_eq_false, if_false]
            rw [alone_purge valid (by rw [key]; exact held)]
            exact ⟨same.purge _, rfl⟩
          · simp only [own, if_false, ne_eq, not_false_eq_true, if_true]
            exact ⟨same, rfl⟩

end NatsChatBus

/-! ## Traces -/

namespace LockCall

/-- A claim for another turn than that of the expired lock it finds. -/
def misnames (call : LockCall) (found : Option ChatLock) (now : Timestamp) : Bool :=
  match call with
  | .claimLock _ _ turnId _ => found.any fun lock => lock.turnId ≠ turnId && lock.isExpiredAt now
  | _ => false

variable {s : LockStore} {locks : Locks} {ttl : Timestamp}

theorem alone_bind_return {α : Type} (s : LockStore)
    (program : Program ChatPorts (Except ChatBusError α)) (wrap : α → LockAnswer) :
    NatsChatBus.alone s (program >>= fun result => return answerWith wrap result) =
      (NatsChatBus.alone s program).map id (answerWith wrap) := by
  rw [NatsChatBus.alone_bind]
  rfl

theorem Matches.wrap {α : Type} {program : Program ChatPorts (Except ChatBusError α)}
    {memory : Except ChatBusError α × Locks} (wrap : α → LockAnswer)
    (agrees : Matches s (NatsChatBus.alone s program) memory) :
    Matches s (NatsChatBus.alone s (program >>= fun result => return answerWith wrap result))
      (memory.map (answerWith wrap) id) := by
  rw [alone_bind_return]
  exact ⟨congrArg (answerWith wrap) agrees.answer, agrees.locks, agrees.clock⟩

/-- One call on both sides, under a key the bucket takes. -/
theorem matches_run (same : Same s locks) {call : LockCall}
    (valid : KvBucket.isValidKey call.key = true)
    (named : call.misnames (s.live call.key) s.clock = false) :
    Matches s (NatsChatBus.alone s (call.run ttl))
      (InMemoryChatBus.perform ttl locks s.clock call) := by
  cases call with
  | acquireLock lock => exact Matches.wrap _ (NatsChatBus.matches_acquireLock same lock valid)
  | loadLock tenantId conversationId =>
      exact Matches.wrap _ (NatsChatBus.matches_loadLock same valid)
  | claimLock tenantId conversationId turnId workerId =>
      refine Matches.wrap _ (NatsChatBus.matches_claimLock same workerId valid ?_)
      intro lock found other
      rw [same] at named
      simpa [misnames, key, found, other] using named
  | markLockTerminal tenantId conversationId turnId workerId terminal =>
      exact Matches.wrap _ (NatsChatBus.matches_markLockTerminal same workerId terminal valid)
  | markTerminalEventPublished tenantId conversationId turnId =>
      exact Matches.wrap _ (NatsChatBus.matches_markTerminalEventPublished same valid)
  | requestStop tenantId conversationId requestedBy =>
      exact Matches.wrap _ (NatsChatBus.matches_requestStop same requestedBy valid)
  | stopRequested tenantId conversationId turnId =>
      exact Matches.wrap _ (NatsChatBus.matches_stopRequested same valid)
  | renewLock tenantId conversationId turnId workerId =>
      exact Matches.wrap _ (NatsChatBus.matches_renewLock same workerId valid)
  | releaseLock tenantId conversationId turnId =>
      obtain ⟨kept, still⟩ := NatsChatBus.alone_releaseLock same valid
      show Matches s (NatsChatBus.alone s (NatsChatBus.releaseLock _ _ _ >>= _)) _
      rw [NatsChatBus.alone_bind]
      exact ⟨rfl, kept, still⟩

theorem classOf_misnamed (same : Same s locks) {call : LockCall}
    (valid : KvBucket.isValidKey call.key = true)
    (misnamed : call.misnames (s.live call.key) s.clock = true) :
    classOf (NatsChatBus.alone s (call.run ttl)).2 = .inFlight ∧
      classOf (InMemoryChatBus.perform ttl locks s.clock call).1 = .payload := by
  cases call with
  | claimLock tenantId conversationId turnId workerId =>
      rw [same] at misnamed
      simp only [misnames, key] at misnamed
      cases found : locks (ChatSubjects.lockKey tenantId conversationId) with
      | none => simp [found] at misnamed
      | some lock =>
          simp only [found, Option.any_some, ne_eq, Bool.and_eq_true, decide_eq_true_eq] at misnamed
          obtain ⟨kv, memory⟩ :=
            @NatsChatBus.claimLock_misnamed _ _ ttl _ _ _ same workerId valid _ found misnamed.1
              misnamed.2
          constructor
          · simp only [run]
            rw [alone_bind_return]
            simp only [Prod.map_snd, kv]
            rfl
          · simp only [InMemoryChatBus.perform, Prod.map_fst, memory]
            rfl
  | _ => cases misnamed

/-! ## A key the bucket does not take -/

/-- What a call comes to whose reads fail. -/
def refusal : LockCall → AnswerClass
  | .releaseLock _ _ _ => .ok .unit
  | _ => .payload

/-- A claim of a lock that is not there, and a release of one, come to the same in memory. -/
def missesAlike : LockCall → Bool
  | .claimLock _ _ _ _ => true
  | .releaseLock _ _ _ => true
  | _ => false

theorem run_refused (s : LockStore) {call : LockCall}
    (invalid : KvBucket.isValidKey call.key = false) :
    (NatsChatBus.alone s (call.run ttl)).1 = s ∧
      classOf (NatsChatBus.alone s (call.run ttl)).2 = call.refusal := by
  have read := @NatsChatBus.answer_entry_refused s call invalid
  have loop : ∀ {α : Type} (context : String) (missing : Except ChatBusError α)
      (attempt : ChatLock → Nat → Program ChatPorts (NatsChatBus.Attempt α)),
      NatsChatBus.alone s (NatsChatBus.swapLoop call context missing attempt NatsChatBus.attempts) =
        (s, .error (NatsChatBus.readError (.read LockStore.invalidKey))) :=
    fun _ _ _ => NatsChatBus.alone_swapLoop_refused 7 invalid
  cases call with
  | acquireLock lock =>
      rw [run, alone_bind_return, NatsChatBus.acquireLock, NatsChatBus.alone_ask, read]
      exact ⟨rfl, rfl⟩
  | loadLock tenantId conversationId =>
      rw [run, alone_bind_return, NatsChatBus.loadLock, NatsChatBus.alone_ask, read]
      exact ⟨rfl, rfl⟩
  | claimLock tenantId conversationId turnId workerId =>
      rw [run, alone_bind_return, NatsChatBus.claimLock, loop]
      exact ⟨rfl, rfl⟩
  | markLockTerminal tenantId conversationId turnId workerId terminal =>
      rw [run, alone_bind_return, NatsChatBus.markLockTerminal, loop]
      exact ⟨rfl, rfl⟩
  | markTerminalEventPublished tenantId conversationId turnId =>
      rw [run, alone_bind_return, NatsChatBus.markTerminalEventPublished, loop]
      exact ⟨rfl, rfl⟩
  | requestStop tenantId conversationId requestedBy =>
      rw [run, alone_bind_return, NatsChatBus.requestStop, loop]
      exact ⟨rfl, rfl⟩
  | stopRequested tenantId conversationId turnId =>
      rw [run, alone_bind_return, NatsChatBus.stopRequested, NatsChatBus.alone_ask, read]
      exact ⟨rfl, rfl⟩
  | renewLock tenantId conversationId turnId workerId =>
      rw [run, alone_bind_return, NatsChatBus.renewLock, loop]
      exact ⟨rfl, rfl⟩
  | releaseLock tenantId conversationId turnId =>
      rw [run, NatsChatBus.alone_bind, NatsChatBus.releaseLock, NatsChatBus.alone_ask, read]
      exact ⟨rfl, rfl⟩

theorem perform_absent {call : LockCall} (absent : locks call.key = none) (now : Timestamp) :
    (classOf (InMemoryChatBus.perform ttl locks now call).1 = call.refusal ↔
      call.missesAlike = true) ∧
    (call.missesAlike = true → (InMemoryChatBus.perform ttl locks now call).2 = locks) := by
  cases call <;> simp only [key] at absent <;>
    simp [InMemoryChatBus.perform, InMemoryChatBus.acquireLock, InMemoryChatBus.loadLock,
      InMemoryChatBus.claimLock, InMemoryChatBus.markLockTerminal,
      InMemoryChatBus.markTerminalEventPublished, InMemoryChatBus.requestStop,
      InMemoryChatBus.stopRequested, InMemoryChatBus.renewLock, InMemoryChatBus.releaseLock,
      absent, answerWith, Except.map, classOf, refusal, missesAlike]

/-- A call touches the lock of its own key. -/
theorem perform_of_ne {call : LockCall} {other : String} (ne : other ≠ call.key)
    (now : Timestamp) : (InMemoryChatBus.perform ttl locks now call).2 other = locks other := by
  have written : ∀ lock, Function.update locks call.key lock other = locks other :=
    fun lock => Function.update_of_ne ne lock locks
  -- Every branch of every operation returns the map, or the map with the key's lock replaced.
  cases call
  all_goals
    simp only [InMemoryChatBus.perform, InMemoryChatBus.acquireLock, InMemoryChatBus.loadLock,
      InMemoryChatBus.claimLock, InMemoryChatBus.markLockTerminal,
      InMemoryChatBus.markTerminalEventPublished, InMemoryChatBus.requestStop,
      InMemoryChatBus.stopRequested, InMemoryChatBus.renewLock, InMemoryChatBus.releaseLock,
      Prod.map_snd, id]
    repeat' split
  all_goals first
    | rfl
    | exact written _

end LockCall

/-- A call, or time passing between calls. -/
inductive TraceStep where
  | call (call : LockCall)
  | advance (duration : Timestamp)

/-- The classes of the two answers are the same at every call, and so are the locks at the end. -/
def AgreeAlong (ttl : Timestamp) : LockStore → Locks → List TraceStep → Prop
  | s, locks, [] => Same s locks
  | s, locks, .advance duration :: rest => AgreeAlong ttl ⟨s.bucket, s.clock + duration⟩ locks rest
  | s, locks, .call call :: rest =>
      let kv := NatsChatBus.alone s (call.run ttl)
      let memory := InMemoryChatBus.perform ttl locks s.clock call
      classOf kv.2 = classOf memory.1 ∧ AgreeAlong ttl kv.1 memory.2 rest

/-- No claim of the trace misnames the turn of an expired lock, and every call but a claim or
a release is under a key the bucket takes. -/
def FaithfulAlong (ttl : Timestamp) : LockStore → List TraceStep → Prop
  | _, [] => True
  | s, .advance duration :: rest => FaithfulAlong ttl ⟨s.bucket, s.clock + duration⟩ rest
  | s, .call call :: rest =>
      call.misnames (s.live call.key) s.clock = false ∧
      (KvBucket.isValidKey call.key = true ∨ call.missesAlike = true) ∧
        FaithfulAlong ttl (NatsChatBus.alone s (call.run ttl)).1 rest

/-- No lock is held under a key the bucket does not take. -/
def KeysTaken (locks : Locks) : Prop := ∀ key, KvBucket.isValidKey key = false → locks key = none

theorem agreeAlong_iff (ttl : Timestamp) (trace : List TraceStep) :
    ∀ (s : LockStore) (locks : Locks), Same s locks → KeysTaken locks →
      (AgreeAlong ttl s locks trace ↔ FaithfulAlong ttl s trace) := by
  induction trace with
  | nil => exact fun s locks same _ => ⟨fun _ => trivial, fun _ => same⟩
  | cons step rest ih =>
      intro s locks same taken
      cases step with
      | advance duration => exact ih _ _ same taken
      | call call =>
          simp only [AgreeAlong, FaithfulAlong]
          cases valid : KvBucket.isValidKey call.key with
          | false =>
              have absent := taken call.key valid
              obtain ⟨still, kv⟩ := @LockCall.run_refused ttl s call valid
              obtain ⟨memory, kept⟩ := @LockCall.perform_absent _ ttl call absent s.clock
              have named : call.misnames (s.live call.key) s.clock = false := by
                rw [same, absent]
                cases call <;> rfl
              rw [kv, still, named, eq_comm, memory]
              simp only [true_and, Bool.false_eq_true, false_or]
              refine and_congr_right fun misses => ?_
              rw [kept misses]
              exact ih _ _ same taken
          | true =>
              cases named : call.misnames (s.live call.key) s.clock with
              | false =>
                  have agrees := @LockCall.matches_run _ _ ttl same _ valid named
                  have taken' : KeysTaken (InMemoryChatBus.perform ttl locks s.clock call).2 := by
                    intro key invalid
                    rw [LockCall.perform_of_ne _ s.clock]
                    · exact taken key invalid
                    · rintro rfl
                      rw [valid] at invalid
                      cases invalid
                  rw [ih _ _ agrees.locks taken', agrees.answer]
                  simp only [true_and, true_or]
              | true =>
                  obtain ⟨kv, memory⟩ := @LockCall.classOf_misnamed _ _ ttl same _ valid named
                  rw [kv, memory]
                  simp only [reduceCtorEq, false_and]

/-! ## Replay -/

namespace InMemoryChatBus

variable {published : List ChatEventEnvelope} {tenantId conversationId : String}
  {startSeq endSeq : Nat}

/-- What a sequence of the window adds to a replay; nothing outside the window. -/
def within (published : List ChatEventEnvelope) (tenantId conversationId : String)
    (startSeq endSeq sequence : Nat) : Option SequencedChatEvent :=
  if startSeq ≤ sequence ∧ sequence ≤ endSeq then
    NatsChatBus.replayOne ⟨published, 1⟩ tenantId conversationId sequence
  else none

theorem filterMap_zipIdx {β : Type} (published : List ChatEventEnvelope) (start : Nat)
    (f : Nat → ChatEventEnvelope → Option β) :
    (published.zipIdx start).filterMap (fun entry => f entry.2 entry.1) =
      (List.range' start published.length).filterMap fun sequence =>
        published[sequence - start]?.bind (f sequence) := by
  induction published generalizing start with
  | nil => rfl
  | cons envelope rest ih =>
      have tail : (List.range' (start + 1) rest.length).filterMap (fun sequence =>
          (envelope :: rest)[sequence - start]?.bind (f sequence)) =
          (List.range' (start + 1) rest.length).filterMap fun sequence =>
            rest[sequence - (start + 1)]?.bind (f sequence) := by
        refine List.filterMap_congr ?_
        intro sequence mem
        obtain ⟨low, -⟩ := List.mem_range'_1.mp mem
        obtain ⟨gap, rfl⟩ := Nat.exists_eq_add_of_le low
        have here : start + 1 + gap - start = gap + 1 := by omega
        rw [here, List.getElem?_cons_succ, Nat.add_sub_cancel_left]
      rw [List.zipIdx_cons, List.length_cons, List.range'_succ, List.filterMap_cons,
        List.filterMap_cons, ih, tail, Nat.sub_self]
      rfl

theorem replayEvents_eventLog :
    replayEvents (eventLog published) tenantId conversationId startSeq endSeq =
      (List.range' 1 published.length).filterMap
        (within published tenantId conversationId startSeq endSeq) := by
  have each : ∀ entry : ChatEventEnvelope × Nat,
      (Option.guard (fun event : SequencedChatEvent =>
        (event.eventId.toNat?.any fun sequence => startSeq ≤ sequence && sequence ≤ endSeq) &&
          event.envelope.tenantId = tenantId && event.envelope.conversationId = conversationId)
        ⟨toString entry.2, entry.1⟩) =
      if startSeq ≤ entry.2 ∧ entry.2 ≤ endSeq then
        if entry.1.isOf tenantId conversationId then
          some (⟨toString entry.2, entry.1⟩ : SequencedChatEvent) else none
      else none := by
    intro entry
    have number : (toString entry.2).toNat? = some entry.2 := Nat.toNat?_repr entry.2
    simp only [Option.guard, number, Option.any_some]
    by_cases window : startSeq ≤ entry.2 ∧ entry.2 ≤ endSeq
    · simp [window, ChatEventEnvelope.isOf]
    · have outside : (decide (startSeq ≤ entry.2) && decide (entry.2 ≤ endSeq)) = false := by
        simpa [← not_and_or] using window
      simp [window, outside]
  unfold replayEvents eventLog
  rw [← List.filterMap_eq_filter, List.filterMap_map]
  simp only [Function.comp_def, each]
  rw [filterMap_zipIdx published 1 fun sequence envelope =>
    if startSeq ≤ sequence ∧ sequence ≤ endSeq then
      if envelope.isOf tenantId conversationId then
        some (⟨toString sequence, envelope⟩ : SequencedChatEvent) else none
    else none]
  refine List.filterMap_congr ?_
  intro sequence mem
  obtain ⟨positive, -⟩ := List.mem_range'_1.mp mem
  have above : ¬ sequence < 1 := by omega
  have nonzero : sequence ≠ 0 := by omega
  simp only [within, NatsChatBus.replayOne_eq, EventStream.getRawMessage, EventStream.at_, above,
    nonzero, if_false]
  by_cases window : startSeq ≤ sequence ∧ sequence ≤ endSeq
  · simp only [window, and_self, if_true]
    cases published[sequence - 1]? with
    | none => rfl
    | some envelope =>
        by_cases own : envelope.isOf tenantId conversationId = true <;> simp [Option.filter, own]
  · simp [window]

theorem within_of_length_lt {sequence : Nat} (past : published.length < sequence) :
    within published tenantId conversationId startSeq endSeq sequence = none := by
  have absent : published[sequence - 1]? = none := List.getElem?_eq_none (by omega)
  simp [within, NatsChatBus.replayOne_eq, EventStream.getRawMessage, EventStream.at_, absent]

/-- A window may be read up to any sequence past its end. -/
theorem filterMap_range'_le {β : Type} {f : Nat → Option β} {count longer : Nat}
    (le : count ≤ longer) (past : ∀ sequence, count < sequence → f sequence = none) :
    (List.range' 1 longer).filterMap f = (List.range' 1 count).filterMap f := by
  obtain ⟨extra, rfl⟩ := Nat.exists_eq_add_of_le le
  have split := @List.range'_append_1 1 count extra
  have nothing : (List.range' (1 + count) extra).filterMap f = [] := by
    refine List.filterMap_eq_nil_iff.mpr ?_
    intro sequence mem
    obtain ⟨low, -⟩ := List.mem_range'_1.mp mem
    exact past sequence (by omega)
  rw [← split, List.filterMap_append, nothing, List.append_nil]

theorem replayEvents_eq_of_pos (positive : startSeq ≠ 0) :
    NatsChatBus.replayEvents ⟨published, 1⟩ tenantId conversationId startSeq endSeq =
      replayEvents (eventLog published) tenantId conversationId startSeq endSeq := by
  rw [replayEvents_eventLog, NatsChatBus.replayEvents, NatsChatBus.replayReading]
  have upTo : (List.range' 1 published.length).filterMap
        (within published tenantId conversationId startSeq endSeq) =
      (List.range' 1 endSeq).filterMap
        (within published tenantId conversationId startSeq endSeq) := by
    rw [← filterMap_range'_le (Nat.le_max_left published.length endSeq) fun _ past =>
      within_of_length_lt past]
    refine filterMap_range'_le (Nat.le_max_right published.length endSeq) ?_
    intro sequence past
    exact if_neg fun window => absurd window.2 (by omega)
  rw [upTo]
  by_cases empty : endSeq < startSeq
  · rw [if_pos (.inr empty)]
    refine (List.filterMap_eq_nil_iff.mpr ?_).symm
    intro sequence _
    exact if_neg fun window => absurd window (by omega)
  · rw [if_neg (by omega)]
    have split := @List.range'_append_1 1 (startSeq - 1) (endSeq + 1 - startSeq)
    have starts : 1 + (startSeq - 1) = startSeq := by omega
    have ends : startSeq - 1 + (endSeq + 1 - startSeq) = endSeq := by omega
    rw [starts, ends] at split
    have before : (List.range' 1 (startSeq - 1)).filterMap
        (within published tenantId conversationId startSeq endSeq) = [] := by
      refine List.filterMap_eq_nil_iff.mpr ?_
      intro sequence mem
      obtain ⟨-, high⟩ := List.mem_range'_1.mp mem
      exact if_neg fun window => absurd window.1 (by omega)
    rw [← split, List.filterMap_append, before, List.nil_append]
    refine List.filterMap_congr ?_
    intro sequence mem
    obtain ⟨low, high⟩ := List.mem_range'_1.mp mem
    exact (if_pos ⟨low, by omega⟩).symm

/-- The replay of a log, on the stream and in memory, is the same but for a start at zero. -/
theorem replayEvents_eq_iff :
    NatsChatBus.replayEvents ⟨published, 1⟩ tenantId conversationId startSeq endSeq =
        replayEvents (eventLog published) tenantId conversationId startSeq endSeq ↔
      startSeq ≠ 0 ∨
        ∀ envelope ∈ published.take endSeq, envelope.isOf tenantId conversationId = false := by
  by_cases zero : startSeq = 0
  · subst zero
    have none_ : NatsChatBus.replayEvents ⟨published, 1⟩ tenantId conversationId 0 endSeq = [] := by
      unfold NatsChatBus.replayEvents NatsChatBus.replayReading
      exact if_pos (.inl rfl)
    rw [none_, replayEvents_eventLog, eq_comm, List.filterMap_eq_nil_iff]
    simp only [ne_eq, not_true_eq_false, false_or]
    constructor
    · intro silent envelope mem
      obtain ⟨index, inside, rfl⟩ := List.mem_iff_getElem.mp mem
      rw [List.length_take] at inside
      have here := silent (index + 1) (List.mem_range'_1.mpr (by omega))
      have present : published[index]? = some published[index] :=
        List.getElem?_eq_getElem (by omega)
      rw [List.getElem_take]
      by_contra own
      simp [within, NatsChatBus.replayOne_eq, EventStream.getRawMessage, EventStream.at_, present,
        Option.filter, own] at here
      omega
    · intro silent sequence mem
      obtain ⟨low, high⟩ := List.mem_range'_1.mp mem
      refine ite_eq_right_iff.mpr ?_
      intro window
      have present : published[sequence - 1]? = some (published[sequence - 1]) :=
        List.getElem?_eq_getElem (by omega)
      have other := silent published[sequence - 1] (List.mem_iff_getElem.mpr
        ⟨sequence - 1, by rw [List.length_take]; omega, List.getElem_take⟩)
      have nonzero : sequence ≠ 0 := by omega
      simp [NatsChatBus.replayOne_eq, EventStream.getRawMessage, EventStream.at_, nonzero, present,
        Option.filter, other]
  · simp only [ne_eq, zero, not_false_eq_true, true_or, iff_true]
    exact replayEvents_eq_of_pos zero

end InMemoryChatBus

/-! ## The double -/

/-- The two buses agree on a trace exactly when no claim of it misnames the turn of an expired
lock and its other calls are under keys the bucket takes, and on a replay exactly when it does
not start at zero or has nothing to say. -/
theorem in_memory_bus_faithful_iff (ttl start : Timestamp) (trace : List TraceStep)
    (published : List ChatEventEnvelope) (tenantId conversationId : String)
    (startSeq endSeq : Nat) :
    (AgreeAlong ttl ⟨.empty, start⟩ (fun _ => none) trace ↔
      FaithfulAlong ttl ⟨.empty, start⟩ trace) ∧
      (NatsChatBus.replayEvents ⟨published, 1⟩ tenantId conversationId startSeq endSeq =
          InMemoryChatBus.replayEvents (InMemoryChatBus.eventLog published) tenantId
            conversationId startSeq endSeq ↔
        startSeq ≠ 0 ∨
          ∀ envelope ∈ published.take endSeq, envelope.isOf tenantId conversationId = false) :=
  ⟨agreeAlong_iff ttl trace _ _ (fun _ => rfl) fun _ _ => rfl,
    InMemoryChatBus.replayEvents_eq_iff⟩

/-- Turn `t1` is requested, its lease runs out, and a delivery of turn `t2` claims the
conversation; the lock of a tenant with a blank in its name is loaded; and one event is replayed
from sequence zero. -/
theorem in_memory_bus_differs :
    ¬ AgreeAlong 900 ⟨.empty, 0⟩ (fun _ => none)
        [.call (.acquireLock (.requested "t" "u" "c" "t1" "m1" "hello" none "sub" 900)),
          .advance 900, .call (.claimLock "t" "c" "t2" "w2")] ∧
      ¬ AgreeAlong 900 ⟨.empty, 0⟩ (fun _ => none) [.call (.loadLock "a b" "c1")] ∧
      NatsChatBus.replayEvents ⟨[⟨"t", "u", "c", "t1", 0, .turnStarted "t1"⟩], 1⟩ "t" "c" 0 1 ≠
        InMemoryChatBus.replayEvents
          (InMemoryChatBus.eventLog [⟨"t", "u", "c", "t1", 0, .turnStarted "t1"⟩]) "t" "c" 0 1 := by
  refine ⟨?_, ?_, ?_⟩
  · rintro ⟨-, differ, -⟩
    revert differ
    decide +kernel
  · rintro ⟨differ, -⟩
    revert differ
    decide +kernel
  · rw [ne_eq, InMemoryChatBus.replayEvents_eq_iff]
    decide

end Delphi.Chat
