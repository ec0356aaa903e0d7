/-
# Delphi.Chat.Redelivery -- whether a committed turn is declared failed

Any number of deliveries of one command, to any workers, with their maintenance
ticks, over the database's three tables and the lock bucket.  A commit may be
reported as failed after its transaction has committed; everything else may
happen to the lock, and to the database but for the turn's own row.

A worker decides on the lock alone whether a turn has failed.  Of the environment
three things are asked (`Orderly`): a commit that was made is reported as made, no
lock engages a delivery once the turn is committed, and at the commit no other
delivery at work has been engaged already.  Nothing is asked of what the workers
then do.  Under these a committed turn stays committed and nobody fails it
(`committed_turn_never_failed`); when the commit's answer is lost, the worker that
made it fails it (`committed_turn_failed`).
-/
import Delphi.Chat.Finality

namespace Delphi.Chat

open Delphi.Theory

set_option autoImplicit false

/-! ## The world of one turn -/

structure TurnWorld where
  locks : LockStore
  db : ChatDb
  /-- The turn's commit transaction has committed. -/
  committed : Bool

namespace TurnRequested

/-- The key of the turn's row. -/
def rowKey (command : TurnRequested) : String × String := (command.tenantId, command.turnId)

end TurnRequested

def TurnCommit.rowKey (commit : TurnCommit) : String × String := (commit.tenantId, commit.turnId)

namespace TurnWorld

variable (command : TurnRequested)

/-- A commit: its transaction commits, whatever is then reported, or is refused. -/
inductive Committing (w : TurnWorld) (commit : TurnCommit) :
    Except StorageError ConversationDetail → TurnWorld → Prop where
  | applied {now : Timestamp} {db' : ChatDb} {answer : Except StorageError ConversationDetail}
      (done : PgRepository.commitTransaction w.db commit now = .ok db')
      (reported : answer = PgRepository.getConversation db' commit.tenantId commit.userId
        commit.conversationId ∨ ∃ error, answer = .error error) :
      Committing w commit answer
        ⟨w.locks, db', w.committed || decide (commit.rowKey = command.rowKey)⟩
  | refused (error : StorageError) : Committing w commit (.error error) w

inductive Recording (w : TurnWorld) (tenantId userId conversationId turnId error : String) :
    Except StorageError Unit → TurnWorld → Prop where
  | applied {now : Timestamp} {db' : ChatDb} (answer : Except StorageError Unit)
      (done : PgRepository.recordTurnFailed w.db tenantId userId conversationId turnId error now =
        .ok db') :
      Recording w tenantId userId conversationId turnId error answer ⟨w.locks, db', w.committed⟩
  | refused (refusal : StorageError) :
      Recording w tenantId userId conversationId turnId error (.error refusal) w

def serves (w : TurnWorld) : (op : ChatCall) → op.Ans → TurnWorld → Prop
  | .commitTurn commit, answer, w' => Committing command w commit answer w'
  | .recordTurnFailed tenantId userId conversationId turnId error, answer, w' =>
      Recording w tenantId userId conversationId turnId error answer w'
  | op, answer, w' => w.locks.serves op answer w'.locks ∧ w'.db = w.db ∧ w'.committed = w.committed

def turnRows (db : ChatDb) : List TurnRow := db.turns.filter fun row => row.key = command.rowKey

/-- What others do: anything to the lock, and to the database but for the turn's row. -/
structure Elsewhere (w w' : TurnWorld) : Prop where
  clock : w.locks.clock ≤ w'.locks.clock
  rows : turnRows command w'.db = turnRows command w.db
  committed : w'.committed = w.committed

/-- Deliveries of the command, and the ticks of their maintenance. -/
def Delivers : ChatJob → Prop
  | .turn delivery => delivery.command = command
  | .tick _ ticked => ticked = command
  | _ => False

def system (isUlid : String → Bool) (ttl : Timestamp) :
    System ChatPorts TurnWorld ChatJob ChatResult where
  main := ChatJob.main isUlid ttl
  admits _ := Delivers command
  serves _ op w answer w' := w.serves command op answer w'
  environment := Elsewhere command

end TurnWorld

abbrev TurnRun := Config ChatPorts TurnWorld ChatJob ChatResult

/-- The turn is not committed yet; whatever else there is. -/
def TurnRun.start (locks : LockStore) (db : ChatDb) : TurnRun := ⟨⟨locks, db, false⟩, []⟩

/-- What the environment owes a turn that is committed. -/
structure Orderly (command : TurnRequested) (c : TurnRun) (l : Label ChatPorts ChatJob)
    (c' : TurnRun) : Prop where
  /-- The commit of the turn is not answered with an error. -/
  reported : ∀ n commit, ∀ error : StorageError,
    l = .call n (.commitTurn commit) (.error error : Except StorageError ConversationDetail) →
    c.shared.committed = false → c'.shared.committed = false
  /-- Once the turn is committed, nobody finds the lock missing, failed and not announced, or
  running on a lease that is over, and no claim of it is granted. -/
  spared : ∀ n op answer t, l = .call n op answer → c.tasks[n]? = some t →
    c.shared.committed = true → engages command t.trace op answer = false
  /-- When the turn is committed, no other delivery at work has found so before. -/
  others : ∀ n commit answer, l = .call n (.commitTurn commit) answer →
    c.shared.committed = false → c'.shared.committed = true →
    ∀ m t, m ≠ n → c.tasks[m]? = some t → t.rest.returned = none → ¬ Engaged command t.trace

/-! ## What a job does -/

/-- Who fails the turn may: a delivery that is engaged and has no commit answered.  A tick
never does. -/
def JobIssues (command : TurnRequested) (trace : Trace ChatPorts) (op : ChatCall) : Prop :=
  Failing op → MayFail command trace

section Jobs

variable {command : TurnRequested} {A : Trace ChatPorts → (op : ChatCall) → op.Ans → Prop}

theorem along_delivers {isUlid : String → Bool} {ttl : Timestamp} (clocked : NatsChatBus.Clocked A)
    (job : ChatJob) (delivers : TurnWorld.Delivers command job) :
    Along (S := ChatPorts) A (JobIssues command) (fun _ _ => True) [] (job.main isUlid ttl) := by
  cases job with
  | enqueue request => exact delivers.elim
  | stop auth conversationId => exact delivers.elim
  | turn delivery =>
      obtain rfl : delivery.command = command := delivers
      exact Along.bind ((ChatWorker.along_runTurn clocked).calls fun _ _ issued => issued.failing)
        fun _ _ _ => trivial
  | tick workerId ticked =>
      obtain rfl : ticked = command := delivers
      refine Along.bind (Q := fun _ _ => True) ?_ fun _ _ _ => trivial
      refine NatsChatBus.along_ask (fun failing => failing.elim) fun _ _ => ?_
      refine (NatsChatBus.along_renewLock fun _ _ _ issues => ?_).imp fun _ _ _ => trivial
      exact (@turnIssues_of_issues ticked _ (.renewLock ticked.tenantId ticked.conversationId
        ticked.turnId workerId) trivial nofun _ issues).failing

end Jobs

/-! ## Runs -/

namespace TurnWorld

variable {command : TurnRequested} {w w' : TurnWorld} {trace : Trace ChatPorts} {op : ChatCall}
  {answer : op.Ans}

/-- The clock has been read, and does not go back. -/
def timed (w : TurnWorld) (before : Trace ChatPorts) : (op : ChatCall) → op.Ans → Prop
  | .now, (now : Timestamp) => now ≤ w.locks.clock ∧
      ∀ earlier : Timestamp, (⟨.now, earlier⟩ : Call ChatPorts) ∈ before → earlier ≤ now
  | _, _ => True

theorem clocked_timed (w : TurnWorld) : NatsChatBus.Clocked w.timed := fun _ _ fact => fact.2

theorem timed_later (forward : w.locks.clock ≤ w'.locks.clock) (fact : w.timed trace op answer) :
    w'.timed trace op answer := by
  cases op with
  | now => exact ⟨le_trans fact.1 forward, fact.2⟩
  | _ => trivial

theorem locks_clock {s s' : LockStore} (served : s.serves op answer s') : s'.clock = s.clock := by
  cases op with
  | kvEntry call => rw [served.1]
  | kvCreate call lock => cases served <;> rfl
  | kvUpdate call lock revision => cases served <;> rfl
  | kvPurge call revision => cases served <;> rfl
  | now => rw [served.1]
  | _ => rw [show s' = s from served]

theorem serves_clock (served : w.serves command op answer w') :
    w'.locks.clock = w.locks.clock := by
  cases op with
  | commitTurn commit => cases served <;> rfl
  | recordTurnFailed => cases served <;> rfl
  | _ => exact locks_clock served.1

theorem timed_of_served (facts : Facts w.timed trace) (served : w.serves command op answer w') :
    w'.timed trace op answer := by
  cases op with
  | now =>
      obtain ⟨⟨same, rfl⟩, -⟩ := served
      refine ⟨?_, fun earlier mem => ?_⟩
      · rw [same]
      · obtain ⟨before, fact⟩ := facts.of_mem mem
        exact fact.1
  | _ => trivial

def invariants (command : TurnRequested) : Invariants ChatPorts TurnWorld ChatJob where
  inv _ := True
  input _ := Delivers command
  fact _ w := w.timed

/-- No row of the turn says it failed. -/
def Unfailed (command : TurnRequested) (db : ChatDb) : Prop :=
  ∀ row ∈ db.turns, row.key = command.rowKey → row.status ≠ .failed

theorem Unfailed.of_rows {db db' : ChatDb} (unfailed : Unfailed command db)
    (same : turnRows command db' = turnRows command db) : Unfailed command db' := by
  intro row mem own
  have kept : row ∈ turnRows command db' := List.mem_filter.mpr ⟨mem, by simpa using own⟩
  rw [same] at kept
  exact unfailed row (List.mem_filter.mp kept).1 own

/-- A commit of the turn says so in its row; of another turn, leaves the row alone. -/
theorem Unfailed.commits {db db' : ChatDb} {commit : TurnCommit} {now : Timestamp}
    (before : commit.rowKey ≠ command.rowKey → Unfailed command db)
    (done : PgRepository.commitTransaction db commit now = .ok db') : Unfailed command db' := by
  obtain ⟨ordinal, between, commits⟩ := PgRepository.commits_of_ok done
  intro row mem own
  rw [commits.turns, PgRepository.upsertTurn] at mem
  have rowKey : (PgRepository.turnRow commit now).key = commit.rowKey := rfl
  by_cases same : commit.rowKey = command.rowKey
  · have status : (PgRepository.turnRow commit now).status ≠ .failed := by
      unfold PgRepository.turnRow
      cases commit.interrupted <;> simp
    rcases (mem_upsert_self (own.trans (same.symm.trans rowKey.symm))).mp mem with
      ⟨held, -, -, rfl⟩ | ⟨-, rfl⟩
    · exact status
    · exact status
  · have other : row.key ≠ (PgRepository.turnRow commit now).key := by
      rw [own, rowKey]
      exact fun eq => same eq.symm
    rw [mem_upsert_of_ne (fun _ _ _ => rfl) other] at mem
    exact before same row mem own

end TurnWorld

namespace TurnRun

variable {command : TurnRequested} {isUlid : String → Bool} {ttl : Timestamp} {c c' : TurnRun}

/-- Once committed: the row does not say failed, and nobody at work may fail the turn. -/
structure Settled (command : TurnRequested) (c : TurnRun) : Prop where
  rows : c.shared.committed = true → TurnWorld.Unfailed command c.shared.db
  spent : c.shared.committed = true → ∀ t ∈ c.tasks, t.rest.returned = none →
    ¬ MayFail command t.trace

theorem holds {locks : LockStore} {db : ChatDb}
    (reached : (TurnWorld.system command isUlid ttl).Reaches (Orderly command) (start locks db) c) :
    (TurnWorld.invariants command).Holds (TurnWorld.system command isUlid ttl) c := by
  refine Invariants.holds_of_reaches (I := TurnWorld.invariants command) trivial
    (fun _ _ _ admitted => admitted) ?_ ?_ reached
  · intro c n t op next answer w' holds found stands served _
    have facts := (holds.tasks t (System.mem_of_found found)).facts
    refine ⟨⟨trivial, fun _ known => known, fun _ _ _ _ fact => ?_⟩,
      TurnWorld.timed_of_served facts served⟩
    exact TurnWorld.timed_later (TurnWorld.serves_clock served).ge fact
  · intro c w' holds disturbed _
    exact ⟨trivial, fun _ known => known, fun _ _ _ _ fact =>
      TurnWorld.timed_later disturbed.clock fact⟩

/-- What the path logic says of the call a task stands at. -/
theorem issues {t : Task ChatPorts ChatJob ChatResult} {op : ChatCall}
    {next : op.Ans → Program ChatPorts ChatResult}
    (knows : (TurnWorld.invariants command).Knows (TurnWorld.system command isUlid ttl) c.shared t)
    (stands : t.rest = .call op next) : JobIssues command t.trace op :=
  knows.issues (along_delivers c.shared.clocked_timed t.input knows.input) stands

/-- What a served call leaves of the turn's row. -/
theorem unfailed_of_served {t : Task ChatPorts ChatJob ChatResult} {op : ChatCall}
    {answer : op.Ans} {w' : TurnWorld} (settled : Settled command c) (mem : t ∈ c.tasks)
    (working : t.rest.returned = none) (issued : JobIssues command t.trace op)
    (served : c.shared.serves command op answer w') (committed : w'.committed = true) :
    TurnWorld.Unfailed command w'.db := by
  cases op with
  | commitTurn commit =>
      cases served with
      | applied done reported =>
          refine TurnWorld.Unfailed.commits (fun other => settled.rows ?_) done
          simpa [other] using committed
      | refused error => exact settled.rows committed
  | recordTurnFailed tenantId userId conversationId turnId error =>
      have before : c.shared.committed = true := by cases served <;> exact committed
      exact absurd (issued trivial) (settled.spent before t mem working)
  | _ =>
      obtain ⟨-, same, flag⟩ := served
      rw [same]
      exact settled.rows (flag ▸ committed)

/-- Only a commit sets the flag. -/
theorem committed_of_served {w w' : TurnWorld} {op : ChatCall} {answer : op.Ans}
    (served : w.serves command op answer w') (committed : w'.committed = true) :
    w.committed = true ∨ ∃ commit, op = .commitTurn commit := by
  cases op with
  | commitTurn commit => exact .inr ⟨commit, rfl⟩
  | recordTurnFailed => cases served <;> exact .inl committed
  | _ => exact .inl (served.2.2 ▸ committed)

/-- An answer after the commit leaves a delivery that may not fail the turn as it is. -/
theorem not_mayFail_snoc {trace : Trace ChatPorts} {op : ChatCall} {answer : op.Ans}
    (before : ¬ MayFail command trace) (spared : engages command trace op answer = false) :
    ¬ MayFail command (trace ++ [⟨op, answer⟩]) := by
  intro mayFail
  refine before ⟨?_, fun answered => mayFail.unanswered ?_⟩
  · rcases engaged_snoc_iff.mp mayFail.engaged with old | new
    · exact old
    · rw [spared] at new
      cases new
  · obtain ⟨commit, detail, mem⟩ := answered
    exact ⟨commit, detail, List.mem_append_left _ mem⟩

/-- A commit that is reported as made leaves nothing to fail. -/
theorem not_mayFail_of_answered {trace : Trace ChatPorts} {commit : TurnCommit}
    {answer : (ChatCall.commitTurn commit).Ans}
    (reported : ∀ error : StorageError,
      answer ≠ (.error error : Except StorageError ConversationDetail)) :
    ¬ MayFail command (trace ++ [⟨.commitTurn commit, answer⟩]) := by
  intro mayFail
  rcases answer with error | detail
  · exact reported error rfl
  · exact mayFail.unanswered ⟨commit, detail, List.mem_append_right _ List.mem_cons_self⟩

/-- The step lemma. -/
theorem Settled.step {l : Label ChatPorts ChatJob} (settled : Settled command c)
    (known : (TurnWorld.invariants command).Holds (TurnWorld.system command isUlid ttl) c)
    (step : (TurnWorld.system command isUlid ttl).Step c l c') (met : Orderly command c l c') :
    Settled command c' := by
  cases step with
  | @spawn input admitted =>
      refine ⟨settled.rows, fun committed t mem working => ?_⟩
      rcases List.mem_append.mp mem with old | new
      · exact settled.spent committed t old working
      · rw [List.mem_singleton.mp new]
        exact fun mayFail => mayFail.engaged facts_nil
  | environment acted =>
      refine ⟨fun committed => ?_, fun committed => settled.spent (acted.committed ▸ committed)⟩
      exact (settled.rows (acted.committed ▸ committed)).of_rows acted.rows
  | @call n t op next answer w' found stands served =>
      have mem := System.mem_of_found found
      have issued := issues (known.tasks t mem) stands
      have working : t.rest.returned = none := by rw [stands]; rfl
      refine ⟨unfailed_of_served settled mem working issued served,
        fun committed u inside at_work => ?_⟩
      cases flag : c.shared.committed with
      | true =>
          rcases System.mem_set_answered inside with old | rfl
          · exact settled.spent flag u old at_work
          · exact not_mayFail_snoc (settled.spent flag t mem working)
              (met.spared n op answer t rfl found flag)
      | false =>
          -- This is the commit: its own delivery has it reported, the others are not engaged.
          rcases committed_of_served served committed with before | ⟨commit, rfl⟩
          · rw [flag] at before
            cases before
          · obtain ⟨m, here⟩ := List.mem_iff_getElem?.mp inside
            by_cases same : n = m
            · subst same
              obtain rfl := System.found_answered found here
              refine not_mayFail_of_answered fun error refused => ?_
              subst refused
              have still := met.reported n commit error rfl flag
              rw [committed] at still
              cases still
            · rw [List.getElem?_set_ne same] at here
              exact fun mayFail => met.others n commit answer rfl flag committed m u
                (fun eq => same eq.symm) here at_work mayFail.engaged

end TurnRun

/-- In every run of deliveries of one command with an orderly environment: once the turn's
commit transaction has committed, its row never says failed, and no worker stands at marking
the lock failed, at recording a failure or at publishing a clear. -/
theorem committed_turn_never_failed {command : TurnRequested} {isUlid : String → Bool}
    {ttl : Timestamp} {locks : LockStore} {db : ChatDb} {c : TurnRun}
    (reached : (TurnWorld.system command isUlid ttl).Reaches (Orderly command)
      (TurnRun.start locks db) c)
    (committed : c.shared.committed = true) :
    (∀ row ∈ c.shared.db.turns, row.key = command.rowKey → row.status ≠ .failed) ∧
      ∀ t ∈ c.tasks, ∀ op next, t.rest = .call op next → ¬ Failing op := by
  have settled : TurnRun.Settled command c := by
    refine reached.invariant ⟨(fun flag => nomatch flag), fun flag => nomatch flag⟩ ?_
    intro before l after earlier settled step met
    exact settled.step (TurnRun.holds earlier) step met
  refine ⟨settled.rows committed, fun t mem op next stands failing => ?_⟩
  have issued := TurnRun.issues ((TurnRun.holds reached).tasks t mem) stands
  refine settled.spent committed t mem ?_ (issued failing)
  rw [stands]
  rfl

/-! ## A commit whose answer is lost -/

namespace TurnRun.Sample

open ChatRun.Sample (request isUlid delivery)

def command : TurnRequested := request.command

def system : System ChatPorts TurnWorld ChatJob ChatResult :=
  TurnWorld.system command isUlid 900

/-- The turn is requested, in a conversation with no message. -/
def locks : LockStore :=
  let lock := request.lock 900
  (⟨.empty, 0⟩ : LockStore).after (.kvCreate (.acquireLock lock) lock)

def db : ChatDb := ⟨[⟨"t", "alice", "c1", "New chat", 1, 0, none⟩], [], []⟩

/-- The commit, reported or not. -/
def commits (lost : Bool) (w : TurnWorld) (commit : TurnCommit) :
    Except StorageError ConversationDetail × TurnWorld :=
  match PgRepository.commitTransaction w.db commit w.locks.clock with
  | .error error => (.error error, w)
  | .ok db' =>
      (if lost then .error (.internal "connection reset")
        else PgRepository.getConversation db' commit.tenantId commit.userId commit.conversationId,
        ⟨w.locks, db', w.committed || decide (commit.rowKey = command.rowKey)⟩)

def records (w : TurnWorld) (tenantId userId conversationId turnId error : String) :
    Except StorageError Unit × TurnWorld :=
  match PgRepository.recordTurnFailed w.db tenantId userId conversationId turnId error
      w.locks.clock with
  | .error error => (.error error, w)
  | .ok db' => (.ok (), ⟨w.locks, db', w.committed⟩)

def answer (lost : Bool) (w : TurnWorld) : (op : ChatCall) → op.Ans
  | .commitTurn commit => (commits lost w commit).1
  | .recordTurnFailed tenantId userId conversationId turnId error =>
      (records w tenantId userId conversationId turnId error).1
  | op => ChatRun.Sample.answer .streamEnd w.locks op

def after (lost : Bool) (w : TurnWorld) : ChatCall → TurnWorld
  | .commitTurn commit => (commits lost w commit).2
  | .recordTurnFailed tenantId userId conversationId turnId error =>
      (records w tenantId userId conversationId turnId error).2
  | op => ⟨w.locks.after op, w.db, w.committed⟩

theorem committing_commits (lost : Bool) (w : TurnWorld) (commit : TurnCommit) :
    TurnWorld.Committing command w commit (commits lost w commit).1 (commits lost w commit).2 := by
  unfold commits
  split
  · exact .refused _
  · rename_i db' done
    refine .applied done ?_
    cases lost
    · exact .inl rfl
    · exact .inr ⟨_, rfl⟩

theorem recording_records (w : TurnWorld) (tenantId userId conversationId turnId error : String) :
    TurnWorld.Recording w tenantId userId conversationId turnId error
      (records w tenantId userId conversationId turnId error).1
      (records w tenantId userId conversationId turnId error).2 := by
  unfold records
  split
  · exact .refused _
  · rename_i db' done
    exact .applied _ done

theorem serves_answer (lost : Bool) (w : TurnWorld) (op : ChatCall) :
    w.serves command op (answer lost w op) (after lost w op) := by
  cases op with
  | commitTurn commit => exact committing_commits lost w commit
  | recordTurnFailed tenantId userId conversationId turnId error =>
      exact recording_records w tenantId userId conversationId turnId error
  | _ => exact ⟨ChatRun.Sample.serves_answer .streamEnd w.locks _, rfl, rfl⟩

def served (lost : Bool) : system.Reply where
  answer op w := answer lost w op
  after op w := after lost w op
  lawful _ op w := serves_answer lost w op

def deliver (c : TurnRun) (workerId : String) : TurnRun :=
  ⟨c.shared, c.tasks ++ [system.started (delivery workerId)]⟩

def statuses (c : TurnRun) : List TurnStatus :=
  (TurnWorld.turnRows command c.shared.db).map TurnRow.status

/-- The event a task is about to publish. -/
def publishes (t : Task ChatPorts ChatJob ChatResult) : Option ChatEvent :=
  match t.rest.issues with
  | some (.publishEvent envelope) => some envelope.event
  | _ => none

/-- The next answer engages nobody once the turn is committed, and a commit is made by the only
delivery, which is told. -/
def orderly (c : TurnRun) (n : Nat) : Bool :=
  match c.tasks[n]? with
  | none => true
  | some t =>
      match t.rest.issues with
      | some (.commitTurn commit) => c.tasks.length == 1 && (commits false c.shared commit).1.toBool
      | some op => !c.shared.committed || !engages command t.trace op (answer false c.shared op)
      | none => true

theorem orderly_sound {c : TurnRun} {n : Nat} {t : Task ChatPorts ChatJob ChatResult}
    {op : ChatCall} {next : op.Ans → Program ChatPorts ChatResult}
    (found : c.tasks[n]? = some t) (stands : t.rest = .call op next) (passed : orderly c n = true) :
    Orderly command c (.call n op (answer false c.shared op)) ((served false).reply c n) := by
  have issued : t.rest.issues = some op := by rw [stands]; rfl
  cases op with
  | commitTurn commit =>
      obtain ⟨alone, told⟩ : c.tasks.length = 1 ∧
          (commits false c.shared commit).1.toBool = true := by
        simpa [orderly, found, issued] using passed
      refine ⟨fun m made error label _ => ?_, fun m op answer u label at_m committed => ?_,
        fun m made answer label _ _ k u other at_k _ => ?_⟩
      · obtain ⟨-, same, answers⟩ := Label.call.inj label
        cases same
        have refused : (commits false c.shared commit).1 = .error error := eq_of_heq answers
        rw [refused] at told
        cases told
      · obtain ⟨-, same, -⟩ := Label.call.inj label
        subst same
        rfl
      · obtain ⟨same, -, -⟩ := Label.call.inj label
        have here := (List.getElem?_eq_some_iff.mp found).1
        have there := (List.getElem?_eq_some_iff.mp at_k).1
        omega
  | _ =>
      refine ⟨fun _ _ _ label => (nomatch label), fun m op answer u label at_m committed => ?_,
        fun _ _ _ label => (nomatch label)⟩
      cases label
      obtain rfl : t = u := Option.some.inj (found.symm.trans at_m)
      simpa [orderly, found, issued, committed] using passed

end TurnRun.Sample

open TurnRun TurnRun.Sample in
/-- The worker is gone once it has marked its commit; the next one finds the turn committed
and announces it. -/
theorem committed_turn_announced :
    ∃ c : TurnRun, system.Reaches (Orderly command)
        (start locks db) c ∧
      c.tasks.length = 2 ∧ c.shared.committed = true ∧ statuses c = [.committed] ∧
      ∀ row ∈ c.shared.db.turns, row.key = command.rowKey → row.status ≠ .failed := by
  let marked : TurnRun := (List.replicate 20 0).foldl (served false).reply
    (deliver (start locks db) "w1")
  have first : system.Reaches (Orderly command)
      (start locks db) marked :=
    ((System.Reaches.refl (start locks db)).spawned (ChatRun.Sample.delivery "w1") rfl
      ⟨fun _ _ _ label => (nomatch label), fun _ _ _ _ label => (nomatch label),
        fun _ _ _ label => (nomatch label)⟩).checked (served false)
      (fun _ _ _ _ _ => orderly_sound) (List.replicate 20 0) (by decide +kernel)
  let ended : TurnRun := (List.replicate 5 1).foldl (served false).reply (deliver marked "w2")
  have second : system.Reaches (Orderly command)
      (start locks db) ended :=
    (first.spawned (ChatRun.Sample.delivery "w2") rfl
      ⟨fun _ _ _ label => (nomatch label), fun _ _ _ _ label => (nomatch label),
        fun _ _ _ label => (nomatch label)⟩).checked (served false)
      (fun _ _ _ _ _ => orderly_sound) (List.replicate 5 1) (by decide +kernel)
  exact ⟨ended, second, by decide +kernel, by decide +kernel, by decide +kernel,
    (committed_turn_never_failed second (by decide +kernel)).1⟩

open TurnRun TurnRun.Sample in
/-- The commit commits and its answer is lost: the worker marks the turn failed, records the
failure over the commit and publishes the clear. -/
theorem committed_turn_failed :
    ∃ c c' : TurnRun, system.Reaches System.anyStep
        (start locks db) c ∧
      c.shared.committed = true ∧ statuses c = [.committed] ∧
      system.Reaches System.anyStep c c' ∧
      statuses c' = [.failed] ∧
      c'.tasks.map publishes = [some (.clear .failedBeforeCommit)] := by
  let committed : TurnRun := (List.replicate 17 0).foldl (served true).reply
    (deliver (start locks db) "w1")
  have first : system.Reaches System.anyStep
      (start locks db) committed :=
    ((System.Reaches.refl (start locks db)).spawned (ChatRun.Sample.delivery "w1") rfl trivial).replies
      (served true) (List.replicate 17 0)
  let failed : TurnRun := (List.replicate 7 0).foldl (served true).reply committed
  exact ⟨committed, failed, first, by decide +kernel, by decide +kernel,
    (System.Reaches.refl committed).replies (served true) (List.replicate 7 0), by decide +kernel,
    by decide +kernel⟩

end Delphi.Chat
