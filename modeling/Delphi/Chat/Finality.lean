/-
# Delphi.Chat.Finality -- whether a terminal lock is final

Deliveries of any turns to any workers, their maintenance ticks, new requests and
stop requests, interleaved at the granularity of single bucket calls, over a
bucket and a clock as in `LockRecord`.  The database, the model and the streams
may answer anything.

A claim, a stop, a renewal and the note that the event was published leave the
answer of a terminal lock as it is.  `mark_lock_terminal` does not look: whatever
its read returns, it writes over (`LockCall.overwrites`).  So a terminal lock is
final in every run in which no mark reads one (`terminal_lock_final`), and a run
in which one does loses an answer (`terminal_lock_overwritten`).
-/
import Delphi.Chat.TurnPaths

namespace Delphi.Chat

open Delphi.Theory
open NatsChatBus (isHeldBy)

set_option autoImplicit false

/-! ## The paths of the other jobs -/

section Jobs

variable {A : Trace ChatPorts → (op : ChatCall) → op.Ans → Prop} {trace : Trace ChatPorts}

namespace Api

theorem along_giveUp {request : TurnRequest} {error : ChatBusError} :
    Along (S := ChatPorts) A Locking (Onward trace) trace (giveUp request error) :=
  along_ask_onward (locking_of_plain rfl) fun _ =>
    Along.bind (NatsChatBus.along_releaseLock fun _ _ _ issues =>
      locking_of_issues (by trivial) issues) fun _ _ since => since

theorem along_enqueueTurn {isUlid : String → Bool} {ttl : Timestamp} {request : TurnRequest} :
    Along (S := ChatPorts) A Locking (Onward trace) trace (enqueueTurn isUlid ttl request) := by
  unfold enqueueTurn
  split
  · exact List.prefix_rfl
  · refine along_onward (along_call_onward (locking_of_plain rfl)) fun _ _ _ =>
      along_ask_onward (locking_of_plain rfl) fun (now : Timestamp) => ?_
    have proper : (LockCall.acquireLock (request.lock (now + ttl))).Proper := ⟨rfl, rfl⟩
    refine along_onward ((NatsChatBus.along_acquireLock fun _ _ _ =>
      locking_of_issues proper).imp fun _ _ post => post.1) fun _ _ _ =>
        along_ask_onward (locking_of_plain rfl) fun _ =>
          along_ask_onward (locking_of_plain rfl) fun answer => ?_
    rcases answer with error | _
    · exact along_giveUp
    · exact List.prefix_rfl

theorem along_stopTurn {auth : AuthContext} {conversationId : String} :
    Along (S := ChatPorts) A Locking (Onward trace) trace (stopTurn auth conversationId) := by
  refine along_onward (along_call_onward (locking_of_plain rfl)) fun _ _ _ =>
    along_onward (NatsChatBus.along_requestStop fun _ _ _ issues =>
      locking_of_issues (by trivial) issues) fun _ found _ => ?_
  split
  · exact along_onward (along_call_onward (locking_of_plain rfl)) fun _ _ _ => List.prefix_rfl
  · exact List.prefix_rfl

end Api

theorem along_maintain {ttl : Timestamp} {workerId : String} {command : TurnRequested} :
    Along (S := ChatPorts) A Locking (Onward trace) trace
      (ChatWorker.maintain ttl workerId command) :=
  along_ask_onward (locking_of_plain rfl) fun _ => NatsChatBus.along_renewLock fun _ _ _ issues =>
    locking_of_issues (by trivial) issues

/-- Whatever a job does to the bucket, it does by a lock operation. -/
theorem locking_job {isUlid : String → Bool} {ttl : Timestamp} (clocked : NatsChatBus.Clocked A)
    (job : ChatJob) :
    Along (S := ChatPorts) A Locking (fun _ _ => True) [] (job.main isUlid ttl) := by
  cases job with
  | enqueue request => exact Along.bind Api.along_enqueueTurn fun _ _ _ => trivial
  | stop auth conversationId => exact Along.bind Api.along_stopTurn fun _ _ _ => trivial
  | turn delivery =>
      exact Along.bind ((ChatWorker.along_runTurn clocked).calls fun _ _ issued => issued.locking)
        fun _ _ _ => trivial
  | tick workerId command => exact Along.bind along_maintain fun _ _ _ => trivial

end Jobs

/-! ## The answer of a lock -/

namespace ChatLock

/-- What a terminal lock says of its turn. -/
def answer (lock : ChatLock) :
    ChatLockState × Option String × Option String × Option String :=
  (lock.state, lock.assistantMessageId, lock.terminalContent, lock.terminalError)

end ChatLock

namespace LockCall

/-- Would a mark that read this lock write over an answer? -/
def overwrites : LockCall → ChatLock → Bool
  | .markLockTerminal _ _ turnId workerId _, lock =>
      decide (lock.turnId = turnId) && isHeldBy lock workerId && lock.isTerminal
  | _, _ => false

theorem Writes.answer {call : LockCall} {old new : ChatLock} (writes : call.Writes old new)
    (spared : call.overwrites old = false) (terminal : old.isTerminal = true) :
    new.answer = old.answer := by
  cases writes with
  | claims turn open_ mine =>
      rw [terminal] at open_
      cases open_
  | terminates turn held => simp [overwrites, turn, held, terminal] at spared
  | publishes => rfl
  | stops => rfl
  | renews => rfl

end LockCall

/-! ## Runs -/

def chatSystem (isUlid : String → Bool) (ttl : Timestamp) :
    System ChatPorts LockStore ChatJob ChatResult where
  main := ChatJob.main isUlid ttl
  admits _ _ := True
  serves _ op s answer s' := s.serves op answer s'
  environment := LockStore.Disturbed

abbrev ChatRun := Config ChatPorts LockStore ChatJob ChatResult

def ChatRun.start (clock : Timestamp) : ChatRun := ⟨⟨.empty, clock⟩, []⟩

/-- No mark reads a lock of its turn, in its hands, that is already terminal. -/
def MarksSpare (c : ChatRun) (l : Label ChatPorts ChatJob) (_ : ChatRun) : Prop :=
  ∀ n call answer, l = .call n (.kvEntry call) answer → ∀ record,
    c.shared.live call.key = some record → call.overwrites record = false

namespace LockStore

variable {s s' : LockStore} {trace : Trace ChatPorts} {op : ChatCall} {answer : op.Ans}

/-- What was read is not to be written over. -/
def Spares : (op : ChatCall) → op.Ans → Prop
  | .kvEntry call, .ok (some (.put lock _)) => call.overwrites lock = false
  | _, _ => True

theorem serves_plain (plain : op.isKv = false) (served : s.serves op answer s') : s' = s := by
  cases op with
  | kvEntry call => cases plain
  | kvCreate call lock => cases plain
  | kvUpdate call lock revision => cases plain
  | kvPurge call revision => cases plain
  | now => exact served.1
  | _ => exact served

/-- A call of a job moves the store as a lock operation does. -/
theorem moves_of_locking (facts : Facts s.known trace) (locking : Locking trace op)
    (served : s.serves op answer s') : s' = s ∨ ∃ call : LockCall, call.Proper ∧ Moves s call s' := by
  cases kv : op.isKv with
  | false => exact .inl (serves_plain kv served)
  | true =>
      obtain ⟨call, proper, issued⟩ := locking kv
      exact .inr ⟨call, proper, moves_of_served facts issued served⟩

theorem Kept.served (kept : Kept s) (facts : Facts s.known trace) (locking : Locking trace op)
    (served : s.serves op answer s') : Kept s' ∧ s.Follows s' := by
  rcases moves_of_locking facts locking served with rfl | ⟨call, proper, moves⟩
  · exact ⟨kept, .refl _⟩
  · exact ⟨kept.moves proper moves, moves.follows⟩

theorem spares_of_served
    (spared : ∀ call, op = .kvEntry call → ∀ record, s.live call.key = some record →
      call.overwrites record = false)
    (served : s.serves op answer s') : Spares op answer := by
  cases op with
  | kvEntry call =>
      obtain ⟨-, answered⟩ := serves_entry served
      match answer, answered with
      | .ok (some (.put lock revision)), answered =>
          refine spared call rfl lock (KvBucket.live_eq_some.mpr ⟨revision, ?_⟩)
          exact eq_of_answered answered
      | .ok (some (.marker revision)), _ => trivial
      | .ok none, _ => trivial
      | .error error, _ => trivial
  | _ => trivial

/-- A swap of a spared record leaves the answers of terminal ones as they are. -/
theorem answer_of_update {call : LockCall} {old new first last : ChatLock} {key : String}
    {revision : Nat} {bucket : KvBucket ChatLock} (held : s.bucket.InHand call.key old revision)
    (spared : call.overwrites old = false) (writes : call.Writes old new)
    (updated : s.bucket.update call.key new revision = some bucket)
    (live : s.live key = some first) (terminal : first.isTerminal = true)
    (left : (s.with_ bucket).live key = some last) : last.answer = first.answer := by
  obtain ⟨entry, rfl⟩ := held.of_update updated
  by_cases same : key = call.key
  · subst same
    have found : s.live call.key = some old := KvBucket.live_eq_some.mpr ⟨revision, entry⟩
    rw [live] at found
    cases found
    rw [live_with_put_self] at left
    cases left
    exact writes.answer spared terminal
  · have before : s.live key = some last := by
      rw [← left]
      exact (KvBucket.live_put_of_ne s.bucket _ same).symm
    rw [live] at before
    cases before
    rfl

/-- A step of a job that spares what it read leaves the answer of a terminal lock as it is. -/
theorem answer_of_served
    (facts : Facts (fun before op answer => s.known before op answer ∧ Spares op answer) trace)
    (locking : Locking trace op) (served : s.serves op answer s') {key : String}
    {first last : ChatLock} (live : s.live key = some first) (terminal : first.isTerminal = true)
    (left : s'.live key = some last) : last.answer = first.answer := by
  have stands : s' = s → last.answer = first.answer := by
    rintro rfl
    rw [live] at left
    cases left
    rfl
  cases op with
  | kvUpdate call new revision =>
      obtain ⟨call, -, rfl, old, has, writes⟩ := locking rfl
      obtain ⟨before, known, spared⟩ := facts.of_mem has
      cases served with
      | done some_ =>
          exact answer_of_update known spared writes (of_keyed some_) live terminal left
      | unacknowledged some_ =>
          exact answer_of_update known spared writes (of_keyed some_) live terminal left
      | refused => exact stands rfl
  | kvCreate call lock =>
      have gone : ∀ bucket, s.bucket.create call.key lock = some bucket →
          (s.with_ bucket).live key = some last → last.answer = first.answer := by
        intro bucket created left
        obtain ⟨absent, rfl⟩ := KvBucket.create_eq_some created
        have other : key ≠ call.key := by
          rintro rfl
          rw [LockStore.live, absent] at live
          cases live
        refine congrArg ChatLock.answer (Option.some.inj ?_)
        rw [← live, ← left]
        exact KvBucket.live_put_of_ne s.bucket _ other
      cases served with
      | done some_ => exact gone _ (of_keyed some_) left
      | unacknowledged some_ => exact gone _ (of_keyed some_) left
      | refused => exact stands rfl
  | kvPurge call revision =>
      have gone : ∀ bucket, s.bucket.purgeExpectRevision call.key revision = some bucket →
          (s.with_ bucket).live key = some last → last.answer = first.answer := by
        intro bucket purged left
        unfold KvBucket.purgeExpectRevision at purged
        split at purged
        · cases purged
          refine congrArg ChatLock.answer (Option.some.inj ?_)
          rw [← live, ← live_of_purged left]
        · cases purged
      cases served with
      | done some_ => exact gone _ (of_keyed some_) left
      | unacknowledged some_ => exact gone _ (of_keyed some_) left
      | refused => exact stands rfl
  | kvEntry call => exact stands served.1
  | now => exact stands served.1
  | _ => exact stands served

end LockStore

namespace ChatRun

variable {isUlid : String → Bool} {ttl clock : Timestamp} {c c' : ChatRun}

def invariants : Invariants ChatPorts LockStore ChatJob where
  inv := LockStore.Kept
  input _ _ := True
  fact _ s before op answer := s.known before op answer ∧ LockStore.Spares op answer

theorem holds (reached : (chatSystem isUlid ttl).Reaches MarksSpare (start clock) c) :
    invariants.Holds (chatSystem isUlid ttl) c := by
  refine Invariants.holds_of_reaches (I := invariants) ?_ (fun _ _ _ _ => trivial) ?_ ?_ reached
  · refine ⟨KvBucket.counted_empty, fun key lock live => ?_⟩
    simp [LockStore.live, KvBucket.live, KvBucket.empty] at live
  · intro c n t op next answer s' holds found stands served met
    have knows := holds.tasks t (System.mem_of_found found)
    have facts : Facts c.shared.known t.trace := knows.facts.imp fun _ _ _ known => known.1
    have locking := knows.issues ((locking_job c.shared.clocked_known t.input).assuming
      fun _ _ _ known => known.1) stands
    obtain ⟨kept, follows⟩ := holds.inv.served facts locking served
    refine ⟨⟨kept, fun _ known => known, fun _ _ _ _ known =>
      ⟨LockStore.known_follows follows known.1, known.2⟩⟩,
      LockStore.known_of_served holds.inv.counted facts served follows, ?_⟩
    refine LockStore.spares_of_served (fun call same record live => ?_) served
    subst same
    exact met n call answer rfl record live
  · intro c s' holds disturbed _
    exact ⟨holds.inv.disturbed disturbed, fun _ known => known, fun _ _ _ _ known =>
      ⟨LockStore.known_follows disturbed.follows known.1, known.2⟩⟩

/-- One step. -/
theorem answer_of_step {l : Label ChatPorts ChatJob}
    (reached : (chatSystem isUlid ttl).Reaches MarksSpare (start clock) c)
    (step : (chatSystem isUlid ttl).Step c l c') {key : String} {first last : ChatLock}
    (live : c.shared.live key = some first) (terminal : first.isTerminal = true)
    (left : c'.shared.live key = some last) : last.answer = first.answer := by
  have known := holds reached
  cases step with
  | spawn admitted =>
      have left : c.shared.live key = some last := left
      rw [live] at left
      cases left
      rfl
  | @call n t op next answer s' found stands served =>
      have knows := known.tasks t (System.mem_of_found found)
      have locking := knows.issues ((locking_job c.shared.clocked_known t.input).assuming
        fun _ _ _ known => known.1) stands
      exact LockStore.answer_of_served knows.facts locking served live terminal left
  | environment disturbed =>
      have before : c.shared.live key = some last := by
        cases disturbed with
        | expired gone => exact LockStore.live_of_expired left
        | passed => exact left
      rw [live] at before
      cases before
      rfl

end ChatRun

/-- In every run whose marks read no terminal lock of theirs: from the moment a lock is
terminal, and for as long as the record stays, its answer is the same. -/
theorem terminal_lock_final {isUlid : String → Bool} {ttl clock : Timestamp} {c c' : ChatRun}
    {key : String} {first : ChatLock}
    (reached : (chatSystem isUlid ttl).Reaches MarksSpare (ChatRun.start clock) c)
    (live : c.shared.live key = some first) (terminal : first.isTerminal = true)
    (stretch : (chatSystem isUlid ttl).Reaches
      (fun before l after => MarksSpare before l after ∧ after.shared.live key ≠ none) c c') :
    ∃ last, c'.shared.live key = some last ∧ last.answer = first.answer := by
  suffices along : (chatSystem isUlid ttl).Reaches MarksSpare (ChatRun.start clock) c' ∧
      ∃ last, c'.shared.live key = some last ∧ last.answer = first.answer from along.2
  refine stretch.invariant (J := fun now =>
    (chatSystem isUlid ttl).Reaches MarksSpare (ChatRun.start clock) now ∧
    ∃ last, now.shared.live key = some last ∧ last.answer = first.answer)
    ⟨reached, first, live, rfl⟩ ?_
  rintro before l after - ⟨earlier, middle, held, same⟩ step ⟨spare, there⟩
  obtain ⟨last, left⟩ := Option.ne_none_iff_exists'.mp there
  have still : middle.isTerminal = true := by
    have state : middle.state = first.state := congrArg Prod.fst same
    rw [ChatLock.isTerminal, state]
    exact terminal
  exact ⟨earlier.step step spare, last, left,
    (ChatRun.answer_of_step earlier step held still left).trans same⟩

/-! ## One turn, its worker and a second delivery -/

namespace ChatRun.Sample

/-- Every port works; the model's stream does this next. -/
def answer (wakeup : Wakeup) (s : LockStore) : (op : ChatCall) → op.Ans
  | .ulid => "01HX0000000000000000000009"
  | .assertParentTail _ _ _ _ => .ok ()
  | .getConversation _ _ conversationId => .ok ⟨conversationId, "New chat", [], 0⟩
  | .commitTurn commit => .ok ⟨commit.conversationId, "New chat", [], 0⟩
  | .recordTurnFailed _ _ _ _ _ => .ok ()
  | .publishTurnRequested _ => .ok ()
  | .ackTurnRequested _ => .ok ()
  | .progressTurnRequested _ => .ok ()
  | .publishEvent _ => .ok "1"
  | .publishStop _ _ => .ok ()
  | .streamChat _ => .ok ()
  | .select => wakeup
  | op => s.answer op

theorem serves_answer (wakeup : Wakeup) (s : LockStore) (op : ChatCall) :
    s.serves op (answer wakeup s op) (s.after op) := by
  cases op with
  | kvEntry call => exact s.serves_answer (.kvEntry call)
  | kvCreate call lock => exact s.serves_answer (.kvCreate call lock)
  | kvUpdate call lock revision => exact s.serves_answer (.kvUpdate call lock revision)
  | kvPurge call revision => exact s.serves_answer (.kvPurge call revision)
  | now => exact s.serves_answer .now
  | _ => rfl

/-- Text of the length of a ULID. -/
def isUlid (text : String) : Bool := text.length == 26

def working : (chatSystem isUlid 900).Reply where
  answer op s := answer .streamEnd s op
  after op s := s.after op
  lawful _ op s := serves_answer .streamEnd s op

def request : Api.TurnRequest where
  auth := ⟨"t", "alice", "alice"⟩
  conversationId := "c1"
  userMessageId := "01HX0000000000000000000001"
  turnId := "01HX0000000000000000000002"
  text := "hello"
  parentMessageId := none

def delivery (workerId : String) : ChatJob := .turn ⟨request.command, workerId, 8⟩

def reads (c : ChatRun) (n : Nat) : Option LockCall :=
  match c.tasks[n]?.bind fun t => t.rest.issues with
  | some (.kvEntry call) => some call
  | _ => none

/-- The next call is not a mark's read of a terminal lock of its own. -/
def spares (c : ChatRun) (n : Nat) : Bool :=
  match reads c n with
  | some call => (c.shared.live call.key).all fun record => !call.overwrites record
  | none => true

theorem marksSpare_of_spares {c c' : ChatRun} {n : Nat} {t : Task ChatPorts ChatJob ChatResult}
    {op : ChatCall} {next : op.Ans → Program ChatPorts ChatResult} {a : op.Ans}
    (found : c.tasks[n]? = some t) (stands : t.rest = .call op next) (spared : spares c n = true) :
    MarksSpare c (.call n op a) c' := by
  rintro _ call _ ⟨⟩ record live
  have reading : reads c n = some call := by
    unfold reads
    rw [found, Option.bind_some, stands]
    rfl
  simpa [spares, reading, live] using spared

/-- The turn requested, and its first worker past the commit. -/
def committing : ChatRun :=
  (List.replicate 6 0 ++ List.replicate 17 1).foldl working.reply
    ⟨⟨.empty, 0⟩, [ChatJob.enqueue request, delivery "w1"].map (chatSystem isUlid 900).started⟩

theorem reaches_committing :
    (chatSystem isUlid 900).Reaches MarksSpare (start 0) committing := by
  have started : (chatSystem isUlid 900).Reaches MarksSpare (start 0)
      ⟨⟨.empty, 0⟩, [ChatJob.enqueue request, delivery "w1"].map (chatSystem isUlid 900).started⟩ :=
    ((System.Reaches.refl (start 0)).spawned (.enqueue request) trivial
      fun _ _ _ label => nomatch label).spawned (delivery "w1") trivial fun _ _ _ label => nomatch label
  exact started.checked working (fun _ _ _ _ _ => marksSpare_of_spares)
    (List.replicate 6 0 ++ List.replicate 17 1) (by decide +kernel)

end ChatRun.Sample

open ChatRun ChatRun.Sample in
/-- The committed answer outlives the note that its event was published. -/
theorem terminal_lock_final_published :
    ∃ c c' : ChatRun, (chatSystem isUlid 900).Reaches MarksSpare (start 0) c ∧
      (c.shared.live "t/c1").map (fun lock => (lock.state, lock.terminalEventPublished)) =
        some (ChatLockState.committed, false) ∧
      (c'.shared.live "t/c1").map (fun lock => (lock.state, lock.terminalEventPublished)) =
        some (ChatLockState.committed, true) ∧
      ∃ first last : ChatLock, c.shared.live "t/c1" = some first ∧
        c'.shared.live "t/c1" = some last ∧ last.answer = first.answer := by
  let marked : ChatRun := (List.replicate 3 1).foldl working.reply committing
  have reached : (chatSystem isUlid 900).Reaches MarksSpare (start 0) marked :=
    reaches_committing.checked working (fun _ _ _ _ _ => marksSpare_of_spares) (List.replicate 3 1)
      (by decide +kernel)
  let check : ChatRun → Nat → Bool := fun c n =>
    spares c n && ((working.reply c n).shared.live "t/c1").isSome
  have stretch : (chatSystem isUlid 900).Reaches
      (fun before l after => MarksSpare before l after ∧ after.shared.live "t/c1" ≠ none) marked
      ((List.replicate 4 1).foldl working.reply marked) := by
    refine (System.Reaches.refl marked).checked working ?_ _
      (show working.passes check marked _ = true by decide +kernel)
    intro c n t op next found stands passed
    obtain ⟨spared, stays⟩ := Bool.and_eq_true_iff.mp passed
    exact ⟨marksSpare_of_spares found stands spared, Option.isSome_iff_ne_none.mp stays⟩
  have committed : (marked.shared.live "t/c1").map
      (fun lock => (lock.state, lock.terminalEventPublished)) =
        some (ChatLockState.committed, false) := by
    decide +kernel
  obtain ⟨first, live, state⟩ := Option.map_eq_some_iff.mp committed
  have terminal : first.isTerminal = true := by
    rw [ChatLock.isTerminal, (Prod.mk.inj state).1]
    rfl
  obtain ⟨last, left, same⟩ := terminal_lock_final reached live terminal stretch
  exact ⟨marked, _, reached, committed, by decide +kernel, first, last, live, left, same⟩

open ChatRun ChatRun.Sample in
/-- The first worker is slow to mark its commit.  The lease expires, a second delivery finds
the turn running, and marks it failed on top of the first worker's answer. -/
theorem terminal_lock_overwritten :
    ∃ c c' : ChatRun, (chatSystem isUlid 900).Reaches System.anyStep (start 0) c ∧
      (c.shared.live "t/c1").map ChatLock.answer =
        some (.committed, some "01HX0000000000000000000009", none, none) ∧
      (chatSystem isUlid 900).Reaches (fun _ _ after => after.shared.live "t/c1" ≠ none) c c' ∧
      (c'.shared.live "t/c1").map ChatLock.answer =
        some (.failed, none, none, some ChatWorker.leaseExpiredMessage) := by
  have any : (chatSystem isUlid 900).Reaches System.anyStep (start 0) committing :=
    reaches_committing.imp fun _ _ _ _ _ _ => trivial
  have late := (any.disturbed ⟨committing.shared.bucket, 1000⟩
    (.passed (show (0 : Timestamp) ≤ 1000 by decide)) trivial).spawned (delivery "w2") trivial trivial
  let marked : ChatRun := [2, 2, 1, 1, 1].foldl working.reply
    ⟨⟨committing.shared.bucket, 1000⟩,
      committing.tasks ++ [(chatSystem isUlid 900).started (delivery "w2")]⟩
  have reached : (chatSystem isUlid 900).Reaches System.anyStep (start 0) marked :=
    late.replies working [2, 2, 1, 1, 1]
  let check : ChatRun → Nat → Bool := fun c n => ((working.reply c n).shared.live "t/c1").isSome
  have stretch : (chatSystem isUlid 900).Reaches
      (fun _ _ after => after.shared.live "t/c1" ≠ none) marked
      ([2, 2, 2].foldl working.reply marked) := by
    refine (System.Reaches.refl marked).checked working ?_ _
      (show working.passes check marked _ = true by decide +kernel)
    intro c n t op next found stands stays
    exact Option.isSome_iff_ne_none.mp stays
  exact ⟨marked, _, reached, by decide +kernel, stretch, by decide +kernel⟩

end Delphi.Chat
