/-
# Delphi.Chat.LockRecord -- the life of a lock record

Any number of lock operations, by requests and by workers, interleaved at the
granularity of single bucket calls, over a bucket whose records expire at any
time, under one clock that does not go back, and in which any call may fail and
any acknowledgement may be lost.

Everything said of a record is read off one relation: what a single step of an
operation can do to the store (`Moves`).  A record is written over only by an
operation that read it and whose tests it passed; the compare-and-swap is what
carries "read" to "still there" (`KvBucket.InHand`).  Under a key the bucket does
not take (`isValidKey`) every call fails.
-/
import Delphi.Theory.Pool
import Delphi.Chat.LockPaths

namespace Delphi.Chat

open Delphi.Theory

set_option autoImplicit false

/-- The lock bucket and the clock. -/
structure LockStore where
  bucket : KvBucket ChatLock
  clock : Timestamp

namespace LockStore

def live (s : LockStore) (key : String) : Option ChatLock := s.bucket.live key

def with_ (s : LockStore) (bucket : KvBucket ChatLock) : LockStore := ⟨bucket, s.clock⟩

/-! ## Serving -/

/-- A write is done only under a key the bucket takes. -/
def keyed (key : String) (done : Option (KvBucket ChatLock)) : Option (KvBucket ChatLock) :=
  if KvBucket.isValidKey key then done else none

theorem of_keyed {key : String} {done : Option (KvBucket ChatLock)} {bucket : KvBucket ChatLock}
    (some_ : keyed key done = some bucket) : done = some bucket := by
  unfold keyed at some_
  split at some_
  · exact some_
  · cases some_

theorem keyed_of_valid {key : String} (valid : KvBucket.isValidKey key = true)
    (done : Option (KvBucket ChatLock)) : keyed key done = done :=
  if_pos valid

/-- What the bucket may answer to a write: done, refused, or done and not acknowledged. -/
inductive Served {ε α : Type} (s : LockStore) (done : Option (KvBucket ChatLock))
    (lost : ε → Prop) : Except ε α → LockStore → Prop where
  | done {bucket : KvBucket ChatLock} (some_ : done = some bucket) (value : α) :
      Served s done lost (.ok value) (s.with_ bucket)
  | unacknowledged {bucket : KvBucket ChatLock} (some_ : done = some bucket) {error : ε}
      (lost_ : lost error) : Served s done lost (.error error) (s.with_ bucket)
  | refused (error : ε) : Served s done lost (.error error) s

def serves (s : LockStore) : (op : ChatCall) → op.Ans → LockStore → Prop
  | .kvEntry by_, answer, s' =>
      s' = s ∧ (answer = .ok (s.bucket.entries by_.key) ∧ KvBucket.isValidKey by_.key = true ∨
        ∃ error, answer = .error error)
  | .kvCreate by_ lock, answer, s' =>
      Served s (keyed by_.key (s.bucket.create by_.key lock))
        (fun error => ∃ message, error = .other message) answer s'
  | .kvUpdate by_ lock revision, answer, s' =>
      Served s (keyed by_.key (s.bucket.update by_.key lock revision))
        (fun error => ∃ message, error = .other message) answer s'
  | .kvPurge by_ revision, answer, s' =>
      Served s (keyed by_.key (s.bucket.purgeExpectRevision by_.key revision)) (fun _ => True)
        answer s'
  | .now, answer, s' => s' = s ∧ answer = s.clock
  | _, _, s' => s' = s

/-- A read tells what is held, or fails. -/
theorem serves_entry {s s' : LockStore} {by_ : LockCall} {answer : (ChatCall.kvEntry by_).Ans}
    (served : s.serves (.kvEntry by_) answer s') :
    s' = s ∧ (answer = .ok (s.bucket.entries by_.key) ∨ ∃ error, answer = .error error) :=
  ⟨served.1, served.2.imp_left And.left⟩

/-- The client's refusal of a key. -/
def invalidKey : String := "key cannot be empty or start/end with `.`"

/-- The store without faults; it answers for the bucket and the clock only. -/
def answer (s : LockStore) : (op : ChatCall) → op.Ans
  | .kvEntry by_ =>
      if KvBucket.isValidKey by_.key then .ok (s.bucket.entries by_.key)
      else .error (.read invalidKey)
  | .kvCreate by_ lock =>
      if KvBucket.isValidKey by_.key then
        match s.bucket.create by_.key lock with
        | some bucket => .ok bucket.lastRevision
        | none => .error .alreadyExists
      else .error (.other invalidKey)
  | .kvUpdate by_ lock revision =>
      if KvBucket.isValidKey by_.key then
        match s.bucket.update by_.key lock revision with
        | some bucket => .ok bucket.lastRevision
        | none => .error .wrongLastRevision
      else .error (.other invalidKey)
  | .kvPurge by_ revision =>
      if KvBucket.isValidKey by_.key then
        match s.bucket.purgeExpectRevision by_.key revision with
        | some _ => .ok ()
        | none => .error "wrong last sequence"
      else .error invalidKey
  | .now => s.clock
  | .ulid => ""
  | .assertParentTail _ _ _ _ => .error .notFound
  | .getConversation _ _ _ => .error .notFound
  | .commitTurn _ => .error .notFound
  | .recordTurnFailed _ _ _ _ _ => .error .notFound
  | .publishTurnRequested _ => .error .unavailable
  | .ackTurnRequested _ => .error .unavailable
  | .progressTurnRequested _ => .error .unavailable
  | .publishEvent _ => .error .unavailable
  | .publishStop _ _ => .error .unavailable
  | .receivedStop _ => false
  | .streamChat _ => .error ""
  | .select => .idle
  | .spawnTitleGeneration _ _ _ => ()

/-- The bucket after a write, where it applies. -/
def orSame (s : LockStore) : Option (KvBucket ChatLock) → LockStore
  | some bucket => s.with_ bucket
  | none => s

def after (s : LockStore) : ChatCall → LockStore
  | .kvCreate by_ lock => s.orSame (keyed by_.key (s.bucket.create by_.key lock))
  | .kvUpdate by_ lock revision => s.orSame (keyed by_.key (s.bucket.update by_.key lock revision))
  | .kvPurge by_ revision =>
      s.orSame (keyed by_.key (s.bucket.purgeExpectRevision by_.key revision))
  | _ => s

theorem serves_answer (s : LockStore) (op : ChatCall) : s.serves op (s.answer op) (s.after op) := by
  cases op with
  | kvEntry by_ =>
      simp only [serves, answer]
      cases KvBucket.isValidKey by_.key with
      | false => exact ⟨rfl, .inr ⟨_, rfl⟩⟩
      | true => exact ⟨rfl, .inl ⟨rfl, rfl⟩⟩
  | kvCreate by_ lock =>
      simp only [serves, answer, after, keyed]
      cases KvBucket.isValidKey by_.key with
      | false => exact .refused _
      | true =>
          simp only [if_true]
          cases s.bucket.create by_.key lock with
          | some bucket => exact .done rfl _
          | none => exact .refused _
  | kvUpdate by_ lock revision =>
      simp only [serves, answer, after, keyed]
      cases KvBucket.isValidKey by_.key with
      | false => exact .refused _
      | true =>
          simp only [if_true]
          cases s.bucket.update by_.key lock revision with
          | some bucket => exact .done rfl _
          | none => exact .refused _
  | kvPurge by_ revision =>
      simp only [serves, answer, after, keyed]
      cases KvBucket.isValidKey by_.key with
      | false => exact .refused _
      | true =>
          simp only [if_true]
          cases s.bucket.purgeExpectRevision by_.key revision with
          | some bucket => exact .done rfl _
          | none => exact .refused _
  | now => exact ⟨rfl, rfl⟩
  | _ => rfl

/-- What else happens to the store: a record's age limit passes, and time does. -/
inductive Disturbed (s : LockStore) : LockStore → Prop where
  | expired (key : String) : Disturbed s (s.with_ (s.bucket.expire key))
  | passed {later : Timestamp} (forward : s.clock ≤ later) : Disturbed s ⟨s.bucket, later⟩

/-! ## What is known -/

/-- What an answer says from then on. -/
def known (s : LockStore) (before : Trace ChatPorts) : (op : ChatCall) → op.Ans → Prop
  | .kvEntry by_, .ok (some (.put lock revision)) => s.bucket.InHand by_.key lock revision
  | .now, (now : Timestamp) => now ≤ s.clock ∧
      ∀ earlier : Timestamp, (⟨.now, earlier⟩ : Call ChatPorts) ∈ before → earlier ≤ now
  | _, _ => True

theorem clocked_known (s : LockStore) : NatsChatBus.Clocked s.known :=
  fun _ _ fact => fact.2

/-- One store follows another: the bucket by single operations, the clock forward. -/
structure Follows (s s' : LockStore) : Prop where
  bucket : s.bucket.Follows s'.bucket
  clock : s.clock ≤ s'.clock

theorem Follows.refl (s : LockStore) : s.Follows s := ⟨.same, le_rfl⟩

theorem known_follows {s s' : LockStore} (follows : s.Follows s') {before : Trace ChatPorts}
    {op : ChatCall} {answer : op.Ans} (fact : s.known before op answer) :
    s'.known before op answer := by
  cases op with
  | kvEntry by_ =>
      match answer, fact with
      | .ok (some (.put lock revision)), fact => exact fact.follows follows.bucket
      | .ok (some (.marker revision)), _ => trivial
      | .ok none, _ => trivial
      | .error error, _ => trivial
  | now => exact ⟨le_trans fact.1 follows.clock, fact.2⟩
  | _ => trivial

/-! ## Moves -/

/-- What one step of an operation can do. -/
inductive Moves (s : LockStore) (call : LockCall) : LockStore → Prop where
  | same : Moves s call s
  | created {lock : ChatLock} (acquires : call = .acquireLock lock)
      (absent : s.live call.key = none) : Moves s call (s.with_ (s.bucket.put call.key lock))
  | written {old new : ChatLock} (found : s.live call.key = some old)
      (writes : call.Writes old new) : Moves s call (s.with_ (s.bucket.put call.key new))
  | removed {old : ChatLock} (found : s.live call.key = some old)
      (removes : call.Removes (fun lock => lock.isExpiredAt s.clock = true) old) :
      Moves s call (s.with_ (s.bucket.purge call.key))

variable {s s' : LockStore} {call : LockCall} {trace : Trace ChatPorts}

theorem Moves.follows (moves : Moves s call s') : s.Follows s' := by
  cases moves with
  | same => exact .refl s
  | created => exact ⟨.put _ _, le_rfl⟩
  | written => exact ⟨.put _ _, le_rfl⟩
  | removed => exact ⟨.purge _, le_rfl⟩

theorem Disturbed.follows (disturbed : Disturbed s s') : s.Follows s' := by
  cases disturbed with
  | expired key => exact ⟨.expire key, le_rfl⟩
  | passed forward => exact ⟨.same, forward⟩

theorem inHand_of_has (facts : Facts s.known trace) {lock : ChatLock} {revision : Nat}
    (has : call.Has trace lock revision) : s.bucket.InHand call.key lock revision := by
  obtain ⟨before, fact⟩ := facts.of_mem has
  exact fact

/-- An expired lease stays so. -/
theorem expired_of_seen (facts : Facts s.known trace) {lock : ChatLock}
    (seen : LockCall.SeenExpired trace lock) : lock.isExpiredAt s.clock = true := by
  obtain ⟨now, mem, expired⟩ := seen
  obtain ⟨before, fact⟩ := facts.of_mem mem
  have past : now ≤ s.clock := fact.1
  simp only [ChatLock.isExpiredAt, decide_eq_true_eq] at expired ⊢
  exact le_trans expired past

theorem Removes.imp {expired expired' : ChatLock → Prop} {lock : ChatLock}
    (removes : call.Removes expired lock) (weaker : expired lock → expired' lock) :
    call.Removes expired' lock := by
  cases removes with
  | acquires past => exact .acquires (weaker past)
  | stops past => exact .stops (weaker past)
  | releases turn => exact .releases turn

/-- One served call of an operation. -/
theorem moves_of_served (facts : Facts s.known trace) {op : ChatCall} (issued : call.Issues trace op)
    {answer : op.Ans} (served : s.serves op answer s') : Moves s call s' := by
  cases op with
  | kvEntry by_ => exact served.1 ▸ .same
  | kvCreate by_ lock =>
      obtain ⟨rfl, acquires⟩ := issued
      have effect : ∀ bucket, s.bucket.create by_.key lock = some bucket →
          Moves s by_ (s.with_ bucket) := by
        intro bucket created
        obtain ⟨absent, rfl⟩ := KvBucket.create_eq_some created
        exact .created acquires absent
      cases served with
      | done some_ => exact effect _ (of_keyed some_)
      | unacknowledged some_ => exact effect _ (of_keyed some_)
      | refused => exact .same
  | kvUpdate by_ lock revision =>
      obtain ⟨rfl, old, has, writes⟩ := issued
      have effect : ∀ bucket, s.bucket.update by_.key lock revision = some bucket →
          Moves s by_ (s.with_ bucket) := by
        intro bucket updated
        obtain ⟨held, rfl⟩ := (inHand_of_has facts has).of_update updated
        exact .written (KvBucket.live_eq_some.mpr ⟨revision, held⟩) writes
      cases served with
      | done some_ => exact effect _ (of_keyed some_)
      | unacknowledged some_ => exact effect _ (of_keyed some_)
      | refused => exact .same
  | kvPurge by_ revision =>
      obtain ⟨rfl, old, has, removes⟩ := issued
      have effect : ∀ bucket, s.bucket.purgeExpectRevision by_.key revision = some bucket →
          Moves s by_ (s.with_ bucket) := by
        intro bucket purged
        unfold KvBucket.purgeExpectRevision at purged
        split at purged
        · rename_i same
          cases purged
          exact .removed (KvBucket.live_eq_some.mpr
            ⟨revision, (inHand_of_has facts has).unchanged same⟩)
            (Removes.imp removes (expired_of_seen facts))
        · cases purged
      cases served with
      | done some_ => exact effect _ (of_keyed some_)
      | unacknowledged some_ => exact effect _ (of_keyed some_)
      | refused => exact .same
  | now => exact served.1 ▸ .same
  | _ => exact issued.elim

/-- What a served call says from then on. -/
theorem known_of_served (counted : s.bucket.Counted) (facts : Facts s.known trace) {op : ChatCall}
    {answer : op.Ans} (served : s.serves op answer s') (follows : s.Follows s') :
    s'.known trace op answer := by
  cases op with
  | kvEntry by_ =>
      obtain ⟨rfl, answered⟩ := serves_entry served
      match answer, answered with
      | .ok (some (.put lock revision)), answered =>
          have held : s'.bucket.entries by_.key = some (.put lock revision) :=
            eq_of_answered answered
          exact counted.inHand held
      | .ok (some (.marker revision)), _ => trivial
      | .ok none, _ => trivial
      | .error error, _ => trivial
  | now =>
      obtain ⟨rfl, rfl⟩ := served
      refine ⟨le_rfl, fun earlier mem => ?_⟩
      obtain ⟨before, fact⟩ := facts.of_mem mem
      exact fact.1
  | _ => trivial

/-! ## A record that stays -/

end LockStore

namespace ChatLock

/-- Who asked for the turn, and for what. -/
def prompt (lock : ChatLock) :
    String × String × String × String × String × String × Option String × String :=
  (lock.tenantId, lock.userId, lock.conversationId, lock.turnId, lock.userMessageId, lock.text,
    lock.parentMessageId, lock.bearerSubject)

/-- `last` is what became of the record `first`. -/
structure Continues (first last : ChatLock) : Prop where
  prompt : last.prompt = first.prompt
  worker : first.workerId = none ∨ last.workerId = first.workerId
  stop : first.stopRequested = true → last.stopRequested = true

theorem Continues.refl (lock : ChatLock) : Continues lock lock := ⟨rfl, .inr rfl, id⟩

theorem Continues.trans {first middle last : ChatLock} (earlier : Continues first middle)
    (later : Continues middle last) : Continues first last := by
  refine ⟨later.prompt.trans earlier.prompt, ?_, fun stop => later.stop (earlier.stop stop)⟩
  rcases earlier.worker with none_ | same
  · exact .inl none_
  · rcases later.worker with none_ | same'
    · exact .inl (same ▸ none_)
    · exact .inr (same'.trans same)

end ChatLock

namespace LockCall

/-- What callers pass: a lock just requested, and a terminal state. -/
def Proper : LockCall → Prop
  | .acquireLock lock => lock.state = .requested ∧ lock.workerId = none
  | .markLockTerminal _ _ _ _ terminal => terminal.state.isTerminal = true
  | _ => True

/-- The turn a claim, a renewal, a mark or a release is for. -/
def turnId? : LockCall → Option String
  | .claimLock _ _ turnId _ => some turnId
  | .markLockTerminal _ _ turnId _ _ => some turnId
  | .markTerminalEventPublished _ _ turnId => some turnId
  | .renewLock _ _ turnId _ => some turnId
  | .releaseLock _ _ turnId => some turnId
  | _ => none

theorem Writes.turn {call : LockCall} {old new : ChatLock} (writes : call.Writes old new)
    {turnId : String} (names : call.turnId? = some turnId) : old.turnId = turnId := by
  cases writes <;> simp_all [turnId?]

theorem Removes.turn {call : LockCall} {expired : ChatLock → Prop} {old : ChatLock}
    (removes : call.Removes expired old) {turnId : String} (names : call.turnId? = some turnId) :
    old.turnId = turnId := by
  cases removes <;> simp_all [turnId?]

theorem Writes.continues {call : LockCall} {old new : ChatLock} (writes : call.Writes old new)
    (unclaimed : old.state = .requested → old.workerId = none) : old.Continues new := by
  cases writes with
  | claims turn open_ mine =>
      refine ⟨rfl, ?_, id⟩
      cases state : old.state with
      | requested => exact .inl (unclaimed state)
      | running => exact .inr (mine state).symm
      | committed => simp [ChatLock.isTerminal, state, ChatLockState.isTerminal] at open_
      | interrupted => simp [ChatLock.isTerminal, state, ChatLockState.isTerminal] at open_
      | failed => simp [ChatLock.isTerminal, state, ChatLockState.isTerminal] at open_
  | terminates => exact ⟨rfl, .inr rfl, id⟩
  | publishes => exact ⟨rfl, .inr rfl, id⟩
  | stops => exact ⟨rfl, .inr rfl, fun _ => rfl⟩
  | renews => exact ⟨rfl, .inr rfl, id⟩

/-- Whatever is written, a lock still requested has no worker. -/
theorem Writes.unclaimed {call : LockCall} {old new : ChatLock} (writes : call.Writes old new)
    (proper : call.Proper) (unclaimed : old.state = .requested → old.workerId = none) :
    new.state = .requested → new.workerId = none := by
  cases writes with
  | claims => exact nofun
  | @terminates _ _ _ _ terminal =>
      intro requested
      have same : terminal.state = .requested := requested
      simp [Proper, same, ChatLockState.isTerminal] at proper
  | publishes => exact unclaimed
  | stops => exact unclaimed
  | renews => exact unclaimed

end LockCall

namespace LockStore

variable {s s' : LockStore} {call : LockCall}

structure Kept (s : LockStore) : Prop where
  counted : s.bucket.Counted
  unclaimed : ∀ key lock, s.live key = some lock → lock.state = .requested → lock.workerId = none

theorem live_with_put_self (s : LockStore) (key : String) (lock : ChatLock) :
    (s.with_ (s.bucket.put key lock)).live key = some lock :=
  KvBucket.live_put_self s.bucket key lock

theorem live_of_purged {key gone : String} {lock : ChatLock}
    (live : (s.with_ (s.bucket.purge gone)).live key = some lock) : s.live key = some lock := by
  by_cases same : key = gone
  · subst same
    simp [LockStore.live, with_, KvBucket.live] at live
  · simpa [LockStore.live, with_, KvBucket.live, KvBucket.purge_entries_of_ne _ same] using live

theorem live_of_expired {key gone : String} {lock : ChatLock}
    (live : (s.with_ (s.bucket.expire gone)).live key = some lock) : s.live key = some lock := by
  by_cases same : key = gone
  · subst same
    simp [LockStore.live, with_, KvBucket.live] at live
  · simpa [LockStore.live, with_, KvBucket.live, KvBucket.expire_entries_of_ne _ same] using live

/-- What a step leaves of a record that stays. -/
theorem Moves.continues (moves : Moves s call s') (kept : Kept s) {key : String}
    {first last : ChatLock} (before : s.live key = some first) (after : s'.live key = some last) :
    first.Continues last := by
  cases moves with
  | same =>
      rw [before] at after
      cases after
      exact .refl first
  | created acquires absent =>
      by_cases same : key = call.key
      · rw [same, absent] at before
        cases before
      · have left : s.live key = some last := by
          rw [← after]
          exact (KvBucket.live_put_of_ne s.bucket _ same).symm
        rw [before] at left
        cases left
        exact .refl first
  | @written old new found writes =>
      by_cases same : key = call.key
      · subst same
        rw [found] at before
        cases before
        rw [live_with_put_self] at after
        cases after
        exact writes.continues (kept.unclaimed _ _ found)
      · have left : s.live key = some last := by
          rw [← after]
          exact (KvBucket.live_put_of_ne s.bucket _ same).symm
        rw [before] at left
        cases left
        exact .refl first
  | removed found removes =>
      have left := live_of_purged after
      rw [before] at left
      cases left
      exact .refl first

theorem Disturbed.continues (disturbed : Disturbed s s') {key : String} {first last : ChatLock}
    (before : s.live key = some first) (after : s'.live key = some last) :
    first.Continues last := by
  have left : s.live key = some last := by
    cases disturbed with
    | expired gone => exact live_of_expired after
    | passed => exact after
  rw [before] at left
  cases left
  exact .refl first

theorem Kept.moves (kept : Kept s) (proper : call.Proper) (moves : Moves s call s') : Kept s' := by
  refine ⟨kept.counted.follows moves.follows.bucket, ?_⟩
  have put : ∀ new : ChatLock, (new.state = .requested → new.workerId = none) →
      ∀ key lock, (s.with_ (s.bucket.put call.key new)).live key = some lock →
        lock.state = .requested → lock.workerId = none := by
    intro new written key lock live
    by_cases same : key = call.key
    · subst same
      rw [live_with_put_self] at live
      cases live
      exact written
    · refine kept.unclaimed key lock ?_
      rw [← live]
      exact (KvBucket.live_put_of_ne s.bucket _ same).symm
  cases moves with
  | same => exact kept.unclaimed
  | created acquires absent =>
      subst acquires
      exact put _ fun _ => proper.2
  | written found writes => exact put _ (writes.unclaimed proper (kept.unclaimed _ _ found))
  | removed found removes =>
      exact fun key lock live => kept.unclaimed key lock (live_of_purged live)

theorem Kept.disturbed (kept : Kept s) (disturbed : Disturbed s s') : Kept s' := by
  refine ⟨kept.counted.follows disturbed.follows.bucket, fun key lock live => ?_⟩
  cases disturbed with
  | expired gone => exact kept.unclaimed key lock (live_of_expired live)
  | passed forward => exact kept.unclaimed key lock live

/-! ## A record that is left alone -/

/-- A step that neither writes nor removes a record of the key leaves the key alone. -/
theorem Moves.leaves (moves : Moves s call s') {key : String} {record : ChatLock}
    (live : s.live key = some record)
    (writes : ∀ new, call.key = key → ¬ call.Writes record new)
    (removes : call.key = key → ¬ call.Removes (fun lock => lock.isExpiredAt s.clock = true) record) :
    s'.bucket.entries key = s.bucket.entries key := by
  cases moves with
  | same => rfl
  | created acquires absent =>
      refine s.bucket.put_entries_of_ne _ ?_
      rintro rfl
      rw [live] at absent
      cases absent
  | @written old new found allowed =>
      refine s.bucket.put_entries_of_ne _ ?_
      rintro rfl
      rw [live] at found
      cases found
      exact writes _ rfl allowed
  | removed found allowed =>
      refine s.bucket.purge_entries_of_ne ?_
      rintro rfl
      rw [live] at found
      cases found
      exact removes rfl allowed

/-- An operation of another turn leaves the record alone. -/
theorem Moves.leaves_other_turn (moves : Moves s call s') {key turnId : String} {record : ChatLock}
    (live : s.live key = some record) (names : call.turnId? = some turnId)
    (other : record.turnId ≠ turnId) : s'.bucket.entries key = s.bucket.entries key :=
  moves.leaves live (fun _ _ writes => other (writes.turn names))
    fun _ removes => other (removes.turn names)

/-- An acquire leaves a fresh record alone. -/
theorem Moves.leaves_fresh {lock : ChatLock} (moves : Moves s (.acquireLock lock) s') {key : String}
    {record : ChatLock} (live : s.live key = some record)
    (fresh : record.isExpiredAt s.clock = false) : s'.bucket.entries key = s.bucket.entries key := by
  refine moves.leaves live (fun _ _ writes => nomatch writes) fun _ removes => ?_
  cases removes with
  | acquires past =>
      rw [fresh] at past
      cases past

end LockStore

/-! ## Runs of lock operations -/

namespace LockCall

abbrev Outcome := Except ChatBusError LockAnswer

/-- Callers of the lock operations over one store. -/
def system (ttl : Timestamp) : System ChatPorts LockStore LockCall Outcome where
  main := run ttl
  admits _ call := call.Proper
  serves _ op s answer s' := LockStore.serves s op answer s'
  environment := LockStore.Disturbed

def invariants : Invariants ChatPorts LockStore LockCall where
  inv := LockStore.Kept
  input _ call := call.Proper
  fact _ s before op answer := s.known before op answer

abbrev Run := Config ChatPorts LockStore LockCall Outcome

/-- Nothing is locked. -/
def start (clock : Timestamp) : Run := ⟨⟨.empty, clock⟩, []⟩

variable {ttl clock : Timestamp} {c c' : Run}

theorem holds (reached : (system ttl).Reaches System.anyStep (start clock) c) :
    invariants.Holds (system ttl) c := by
  refine Invariants.holds_of_reaches (I := invariants) ?_ (fun _ _ _ proper => proper) ?_ ?_ reached
  · refine ⟨KvBucket.counted_empty, fun key lock live => ?_⟩
    simp [LockStore.live, KvBucket.live, KvBucket.empty] at live
  · intro c n t op next answer s' holds found stands served _
    have knows := holds.tasks t (System.mem_of_found found)
    have issued := knows.issues (along_run ttl c.shared.clocked_known t.input) stands
    have moves := LockStore.moves_of_served knows.facts issued served
    exact ⟨⟨holds.inv.moves knows.input moves, fun _ proper => proper,
      fun _ _ _ _ => LockStore.known_follows moves.follows⟩,
      LockStore.known_of_served holds.inv.counted knows.facts served moves.follows⟩
  · intro c s' holds disturbed _
    exact ⟨holds.inv.disturbed disturbed, fun _ proper => proper,
      fun _ _ _ _ => LockStore.known_follows disturbed.follows⟩

/-- What a step of a run does to the store. -/
theorem moves_of_step {n : Nat} {op : ChatCall} {answer : op.Ans}
    {t : Task ChatPorts LockCall Outcome}
    (reached : (system ttl).Reaches System.anyStep (start clock) c)
    (step : (system ttl).Step c (.call n op answer) c') (found : c.tasks[n]? = some t) :
    LockStore.Moves c.shared t.input c'.shared := by
  have known := holds reached
  cases step with
  | @call _ u _ next _ s' stood stands served =>
      obtain rfl : u = t := Option.some.inj (stood.symm.trans found)
      have knows := known.tasks u (System.mem_of_found found)
      exact LockStore.moves_of_served knows.facts
        (knows.issues (along_run ttl c.shared.clocked_known u.input) stands) served

/-- The record of a key is there all along. -/
def Stays (key : String) : Run → Label ChatPorts LockCall → Run → Prop :=
  fun _ _ after => after.shared.live key ≠ none

/-- A record along a stretch of a run in which it stays. -/
theorem continues_of_stretch {key : String} {first : ChatLock}
    (reached : (system ttl).Reaches System.anyStep (start clock) c)
    (live : c.shared.live key = some first) (stretch : (system ttl).Reaches (Stays key) c c') :
    (system ttl).Reaches System.anyStep (start clock) c' ∧
      ∃ last, c'.shared.live key = some last ∧ first.Continues last := by
  refine stretch.invariant (J := fun now => (system ttl).Reaches System.anyStep (start clock) now ∧
    ∃ last, now.shared.live key = some last ∧ first.Continues last)
    ⟨reached, first, live, .refl first⟩ ?_
  rintro before l after - ⟨earlier, middle, held, continues⟩ step there
  refine ⟨earlier.step step trivial, ?_⟩
  obtain ⟨last, left⟩ := Option.ne_none_iff_exists'.mp there
  refine ⟨last, left, continues.trans ?_⟩
  cases step with
  | spawn admitted =>
      have left : before.shared.live key = some last := left
      rw [held] at left
      cases left
      exact .refl middle
  | call found stands served =>
      exact (moves_of_step earlier (.call found stands served) found).continues (holds earlier).inv
        held left
  | environment disturbed => exact LockStore.Disturbed.continues disturbed held left

/-- The step that made an operation return. -/
structure Returns (ttl : Timestamp) (c : Run) (n : Nat) (call : LockCall) (value : LockAnswer)
    (c' : Run) : Prop where
  step : ∃ op answer, (system ttl).Step c (.call n op answer) c'
  returned : ∃ t, c'.tasks[n]? = some t ∧ t.input = call ∧ t.rest = .ret (.ok value)

/-- The trace of an operation that just returned, and the call it ended in. -/
theorem Returns.last {n : Nat} {call : LockCall} {value : LockAnswer}
    (reached : (system ttl).Reaches System.anyStep (start clock) c)
    (returns : Returns ttl c n call value c') :
    ∃ before op answer, c.shared.serves op answer c'.shared ∧
      call.Answers (before ++ [⟨op, answer⟩]) (.ok value) := by
  obtain ⟨op, answer, step⟩ := returns.step
  obtain ⟨t, found, rfl, done⟩ := returns.returned
  have after := (holds (reached.step step trivial)).tasks t (System.mem_of_found found)
  have answers := after.returns (along_run ttl c'.shared.clocked_known t.input) done
  cases step with
  | @call _ u _ next _ s' stood stands served =>
      obtain rfl := System.found_answered stood found
      exact ⟨u.trace, op, answer, served, answers⟩

/-- An acquire succeeds by creating the record. -/
theorem absent_of_acquired {n : Nat} {lock : ChatLock} {value : LockAnswer}
    (reached : (system ttl).Reaches System.anyStep (start clock) c)
    (returns : Returns ttl c n (.acquireLock lock) value c') :
    c.shared.live (LockCall.acquireLock lock).key = none := by
  obtain ⟨before, op, answer, served, answers⟩ := returns.last reached
  obtain ⟨before', next, shape⟩ := answers value rfl
  obtain ⟨-, last⟩ := List.append_inj' shape rfl
  cases last
  generalize c'.shared = s' at served
  cases served with
  | done some_ => exact (KvBucket.create_eq_some (LockStore.of_keyed some_)).1

/-- A claim succeeds by storing the lock it returns, or finds it terminal. -/
theorem live_of_claimed {n : Nat} {tenantId conversationId turnId workerId : String}
    {lock : ChatLock} (reached : (system ttl).Reaches System.anyStep (start clock) c)
    (returns : Returns ttl c n (.claimLock tenantId conversationId turnId workerId) (.lock lock) c')
    (open_ : lock.isTerminal = false) :
    lock.workerId = some workerId ∧
      c'.shared.live (ChatSubjects.lockKey tenantId conversationId) = some lock := by
  obtain ⟨before, op, answer, served, answers⟩ := returns.last reached
  rcases answers lock rfl with terminal | ⟨worker, before', revision, next, shape⟩
  · rw [open_] at terminal
    cases terminal
  · obtain ⟨-, last⟩ := List.append_inj' shape rfl
    cases last
    refine ⟨worker, ?_⟩
    generalize c'.shared = s' at served
    cases served with
    | done some_ =>
        obtain ⟨-, rfl⟩ := KvBucket.update_eq_some (LockStore.of_keyed some_)
        exact LockStore.live_with_put_self _ _ _

/-- In every run of lock operations, of any callers: while a record stays, its prompt does
not change, its worker changes at most once and only from none, and a requested stop stays
requested; operations for another turn leave it alone; no acquire removes a fresh record or
succeeds while there is one; and its successful claims are all one worker's. -/
theorem lock_record_invariant (reached : (system ttl).Reaches System.anyStep (start clock) c)
    (key : String) :
    (∀ first c', c.shared.live key = some first → (system ttl).Reaches (Stays key) c c' →
      ∃ last, c'.shared.live key = some last ∧ first.Continues last) ∧
    (∀ record n op answer c' t turnId, c.shared.live key = some record →
      (system ttl).Step c (.call n op answer) c' → c.tasks[n]? = some t →
      t.input.turnId? = some turnId → record.turnId ≠ turnId →
      c'.shared.bucket.entries key = c.shared.bucket.entries key) ∧
    (∀ record n op answer c' t lock, c.shared.live key = some record →
      record.isExpiredAt c.shared.clock = false → (system ttl).Step c (.call n op answer) c' →
      c.tasks[n]? = some t → t.input = .acquireLock lock →
      c'.shared.bucket.entries key = c.shared.bucket.entries key) ∧
    (∀ record n c' lock value, c.shared.live key = some record →
      (LockCall.acquireLock lock).key = key → ¬ Returns ttl c n (.acquireLock lock) value c') ∧
    (∀ n m tenantId conversationId turnId turnId' worker worker' lock lock' c₁ c₂ c₃,
      ChatSubjects.lockKey tenantId conversationId = key →
      Returns ttl c n (.claimLock tenantId conversationId turnId worker) (.lock lock) c₁ →
      lock.isTerminal = false → (system ttl).Reaches (Stays key) c₁ c₂ →
      Returns ttl c₂ m (.claimLock tenantId conversationId turnId' worker') (.lock lock') c₃ →
      lock'.isTerminal = false → worker = worker') := by
  refine ⟨fun first c' live stretch => (continues_of_stretch reached live stretch).2, ?_, ?_, ?_,
    ?_⟩
  · intro record n op answer c' t turnId live step found names other
    exact (moves_of_step reached step found).leaves_other_turn live names other
  · intro record n op answer c' t lock live fresh step found acquires
    have moves := moves_of_step reached step found
    rw [acquires] at moves
    exact moves.leaves_fresh live fresh
  · intro record n c' lock value live own returns
    have absent := absent_of_acquired reached returns
    rw [own, live] at absent
    cases absent
  · intro n m tenantId conversationId turnId turnId' worker worker' lock lock' c₁ c₂ c₃ own first
      open_ stretch second open_'
    obtain ⟨held, live⟩ := live_of_claimed reached first open_
    obtain ⟨op, answer, step⟩ := first.step
    rw [own] at live
    obtain ⟨reached₂, middle, live₂, continues⟩ :=
      continues_of_stretch (reached.step step trivial) live stretch
    obtain ⟨held', live₃⟩ := live_of_claimed reached₂ second open_'
    rw [own] at live₃
    obtain ⟨op', answer', step'⟩ := second.step
    have once : (system ttl).Reaches (Stays key) c₂ c₃ :=
      (System.Reaches.refl c₂).step step' (by rw [Stays, live₃]; exact Option.some_ne_none lock')
    obtain ⟨-, last, live₄, continues'⟩ := continues_of_stretch reached₂ live₂ once
    rw [live₃] at live₄
    cases live₄
    have whole := continues.trans continues'
    rcases whole.worker with none_ | same
    · rw [held] at none_
      cases none_
    · rw [held, held'] at same
      exact (Option.some.inj same).symm

/-- The store without faults. -/
def store (ttl : Timestamp) : (system ttl).Reply where
  answer op s := s.answer op
  after op s := s.after op
  lawful _ op s := s.serves_answer op

def someLock : ChatLock :=
  ChatLock.requested "t" "alice" "c1" "t1" "m1" "hello" none "alice" 900

/-- A worker's claim outlives another worker's attempt and a stop. -/
theorem lock_record_invariant_of_race :
    ∃ c c' : Run, (system 900).Reaches System.anyStep (start 0) c ∧
      (system 900).Reaches (Stays "t/c1") c c' ∧
      ∃ last, c'.shared.live "t/c1" = some last ∧ last.workerId = some "w1" := by
  let calls : List LockCall := [.acquireLock someLock, .claimLock "t" "c1" "t1" "w1",
    .claimLock "t" "c1" "t1" "w2", .requestStop "t" "c1" "alice"]
  let asked : Run := ⟨⟨.empty, 0⟩, calls.map (system 900).started⟩
  have spawned : (system 900).Reaches System.anyStep (start 0) asked :=
    ((((System.Reaches.refl (start 0)).spawned (.acquireLock someLock)
      (show someLock.state = .requested ∧ someLock.workerId = none from ⟨rfl, rfl⟩) trivial).spawned
      (.claimLock "t" "c1" "t1" "w1") trivial trivial).spawned
      (.claimLock "t" "c1" "t1" "w2") trivial trivial).spawned
      (.requestStop "t" "c1" "alice") trivial trivial
  let held : Run := [0, 0, 1, 1, 1, 1].foldl (store 900).reply asked
  have claimed : (system 900).Reaches System.anyStep (start 0) held :=
    spawned.replies (store 900) [0, 0, 1, 1, 1, 1]
  let check : Run → Nat → Bool := fun c n => (((store 900).reply c n).shared.live "t/c1").isSome
  have contested : (system 900).Reaches (Stays "t/c1") held
      ([2, 3, 3, 2, 3, 3].foldl (store 900).reply held) := by
    refine (System.Reaches.refl held).checked (store 900) ?_ _
      (show (store 900).passes check held _ = true by decide +kernel)
    intro c n t op next found stands passed
    exact Option.isSome_iff_ne_none.mp passed
  obtain ⟨lock, live, worker⟩ : ∃ lock, held.shared.live "t/c1" = some lock ∧
      lock.workerId = some "w1" := ⟨_, rfl, rfl⟩
  obtain ⟨last, live', continues⟩ := (lock_record_invariant claimed "t/c1").1 lock _ live contested
  refine ⟨held, _, claimed, contested, last, live', ?_⟩
  rcases continues.worker with none_ | same
  · rw [worker] at none_
    cases none_
  · rw [same, worker]

end LockCall

end Delphi.Chat
