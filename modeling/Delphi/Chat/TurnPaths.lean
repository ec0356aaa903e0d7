/-
# Delphi.Chat.TurnPaths -- what a chat job has seen when it acts

Two things are read off the paths of a delivery.  Whatever it does to the lock
bucket it does by one of the bus operations, called as callers call them
(`Locking`).  And it fails the turn, in the lock, in the database or to the client,
only after the lock has engaged it and while no commit of its own has been answered
(`MayFail`).  The lock engages a delivery that finds it missing, failed and not
announced, or running on a lease that is over, and one whose claim is granted
(`engages`).
-/
import Delphi.Chat.LockRecord
import Delphi.Chat.Turns

namespace Delphi.Chat

open Delphi.Theory
open NatsChatBus (along_ask no_ok)

set_option autoImplicit false

/-! ## What is read off -/

def ChatCall.isKv : ChatCall → Bool
  | .kvEntry _ | .kvCreate _ _ | .kvUpdate _ _ _ | .kvPurge _ _ => true
  | _ => false

def ChatCall.isCommit : ChatCall → Bool
  | .commitTurn _ => true
  | _ => false

/-- A call of the lock bucket is one of an operation, properly called. -/
def Locking (trace : Trace ChatPorts) (op : ChatCall) : Prop :=
  op.isKv = true → ∃ call : LockCall, call.Proper ∧ call.Issues trace op

/-- A mark that the turn has failed. -/
def LockCall.fails : LockCall → Bool
  | .markLockTerminal _ _ _ _ terminal => terminal.state = .failed
  | _ => false

/-- A call that fails a turn. -/
def Failing : ChatCall → Prop
  | .kvEntry call => call.fails = true
  | .kvUpdate call _ _ => call.fails = true
  | .publishEvent envelope => envelope.event = .clear .failedBeforeCommit
  | .recordTurnFailed _ _ _ _ _ => True
  | _ => False

/-- The running lock of the turn that a delivery's first call found. -/
def foundRunning (command : TurnRequested) : Trace ChatPorts → Option ChatLock
  | [⟨.kvEntry (.loadLock _ _), .ok (some (.put lock _))⟩] =>
      if lock.turnId = command.turnId ∧ lock.state = .running then some lock else none
  | _ => none

/-- The answers on which a delivery goes to work on the turn: no lock, a failed one that is not
announced, a running one whose lease is over, and a claim that is granted. -/
def engages (command : TurnRequested) (before : Trace ChatPorts) : (op : ChatCall) → op.Ans → Bool
  | .kvEntry (.loadLock _ _), .ok (some (.put lock _)) =>
      lock.turnId = command.turnId && lock.state = .failed && !lock.terminalEventPublished
  | .kvEntry (.loadLock _ _), .ok _ => true
  | .now, (now : Timestamp) => (foundRunning command before).any fun lock => lock.isExpiredAt now
  | .kvEntry (.claimLock _ _ turnId _), .ok (some (.put lock _)) =>
      lock.turnId = turnId && lock.isTerminal
  | .kvUpdate (.claimLock _ _ _ _) _ _, .ok _ => true
  | _, _ => false

/-- An answer so far has engaged the delivery. -/
def Engaged (command : TurnRequested) (trace : Trace ChatPorts) : Prop :=
  ¬ Facts (fun before op answer => engages command before op answer = false) trace

/-- A commit so far was answered with the conversation. -/
def Answered (trace : Trace ChatPorts) : Prop :=
  ∃ commit, ∃ detail : ConversationDetail,
    (⟨.commitTurn commit, (.ok detail : Except StorageError ConversationDetail)⟩ : Call ChatPorts) ∈
      trace

/-- What a delivery has seen that fails the turn. -/
structure MayFail (command : TurnRequested) (trace : Trace ChatPorts) : Prop where
  engaged : Engaged command trace
  unanswered : ¬ Answered trace

/-- What a delivery of the command has seen when it makes a call. -/
structure TurnIssues (command : TurnRequested) (trace : Trace ChatPorts) (op : ChatCall) : Prop where
  locking : Locking trace op
  failing : Failing op → MayFail command trace

section

variable {A : Trace ChatPorts → (op : ChatCall) → op.Ans → Prop} {command : TurnRequested}
  {trace reached : Trace ChatPorts} {α β ε ε' : Type}

theorem engaged_snoc_iff {op : ChatCall} {answer : op.Ans} :
    Engaged command (trace ++ [⟨op, answer⟩]) ↔
      Engaged command trace ∨ engages command trace op answer = true := by
  refine (not_congr (facts_snoc (S := ChatPorts))).trans (not_and_or.trans ?_)
  exact or_congr Iff.rfl (Bool.not_eq_false _).to_iff

theorem Engaged.mono (engaged : Engaged command trace) (since : trace <+: reached) :
    Engaged command reached :=
  fun facts => engaged (facts.mono since)

theorem answered_snoc_iff {op : ChatCall} {answer : op.Ans} (other : op.isCommit = false) :
    Answered (trace ++ [⟨op, answer⟩]) ↔ Answered trace := by
  constructor
  · rintro ⟨commit, detail, mem⟩
    rcases List.mem_append.mp mem with old | new
    · exact ⟨commit, detail, old⟩
    · cases List.mem_singleton.mp new
      cases other
  · rintro ⟨commit, detail, mem⟩
    exact ⟨commit, detail, List.mem_append_left _ mem⟩

theorem locking_of_issues {call : LockCall} (proper : call.Proper) {op : ChatCall}
    (issues : call.Issues trace op) : Locking trace op :=
  fun _ => ⟨call, proper, issues⟩

theorem locking_of_plain {op : ChatCall} (plain : op.isKv = false) : Locking trace op :=
  fun kv => absurd (plain.symm.trans kv) Bool.false_ne_true

/-- A call that neither locks nor fails. -/
def ChatCall.isAside : ChatCall → Bool
  | .kvEntry _ | .kvCreate _ _ | .kvUpdate _ _ _ | .kvPurge _ _ => false
  | .recordTurnFailed _ _ _ _ _ => false
  | .publishEvent envelope => envelope.event ≠ .clear .failedBeforeCommit
  | _ => true

theorem turnIssues_of_aside {op : ChatCall} (aside : op.isAside = true) :
    TurnIssues command trace op := by
  refine ⟨fun kv => ?_, fun failing => ?_⟩
  · cases op with
    | kvEntry => cases aside
    | kvCreate => cases aside
    | kvUpdate => cases aside
    | kvPurge => cases aside
    | _ => cases kv
  · cases op with
    | kvEntry => cases aside
    | kvUpdate => cases aside
    | publishEvent envelope => simp [ChatCall.isAside, show _ = _ from failing] at aside
    | recordTurnFailed => cases aside
    | _ => exact failing.elim

/-! ## One thing after another -/

variable {P : Trace ChatPorts → ChatCall → Prop}

theorem along_orReturn {convert : ε → ε'} {first : Program ChatPorts (Except ε α)}
    {next : α → Program ChatPorts (Except ε' β)}
    {R : Trace ChatPorts → Except ε α → Prop} {Q : Trace ChatPorts → Except ε' β → Prop}
    (begun : Along (S := ChatPorts) A P R trace first)
    (rest : ∀ reached value, R reached (.ok value) →
      Along (S := ChatPorts) A P Q reached (next value))
    (failed : ∀ reached error, R reached (.error error) → Q reached (.error (convert error))) :
    Along (S := ChatPorts) A P Q trace (orReturn convert first next) := by
  refine Along.bind begun fun reached result post => ?_
  cases result with
  | ok value => exact rest reached value post
  | error error => exact failed reached error post

/-- The trace only gets longer. -/
def Onward {α : Type} (trace : Trace ChatPorts) (reached : Trace ChatPorts) (_ : α) : Prop :=
  trace <+: reached

theorem along_onward {convert : ε → ε'} {first : Program ChatPorts (Except ε α)}
    {next : α → Program ChatPorts (Except ε' β)}
    (begun : Along (S := ChatPorts) A P (Onward trace) trace first)
    (rest : ∀ reached value, trace <+: reached →
      Along (S := ChatPorts) A P (Onward reached) reached (next value)) :
    Along (S := ChatPorts) A P (Onward trace) trace (orReturn convert first next) := by
  refine along_orReturn begun (fun reached value since => ?_) fun _ _ since => since
  exact (rest reached value since).imp fun _ _ later => since.trans later

theorem along_call_onward {op : ChatCall} (issued : P trace op) :
    Along (S := ChatPorts) A P (Onward trace) trace (ask op) :=
  ⟨issued, fun _ _ => List.prefix_append _ _⟩

/-- One call, then the rest. -/
theorem along_ask_onward {op : ChatCall} {next : op.Ans → Program ChatPorts α} (issued : P trace op)
    (rest : ∀ answer, Along (S := ChatPorts) A P (Onward (trace ++ [⟨op, answer⟩]))
      (trace ++ [⟨op, answer⟩]) (next answer)) :
    Along (S := ChatPorts) A P (Onward trace) trace (ask op >>= next) :=
  along_ask issued fun answer _ =>
    (rest answer).imp fun _ _ later => (List.prefix_append _ _).trans later

/-! ## No commit in between -/

/-- The trace got longer by no answered commit. -/
structure Quiet (trace reached : Trace ChatPorts) : Prop where
  since : trace <+: reached
  answered : Answered reached → Answered trace

theorem Quiet.refl (trace : Trace ChatPorts) : Quiet trace trace := ⟨List.prefix_rfl, id⟩

theorem Quiet.trans {later : Trace ChatPorts} (first : Quiet trace reached)
    (second : Quiet reached later) : Quiet trace later :=
  ⟨first.since.trans second.since, fun answered => first.answered (second.answered answered)⟩

theorem quiet_snoc {op : ChatCall} (answer : op.Ans) (other : op.isCommit = false) :
    Quiet trace (trace ++ [⟨op, answer⟩]) :=
  ⟨List.prefix_append _ _, (answered_snoc_iff other).mp⟩

/-- A commit that is answered with an error is not answered. -/
theorem quiet_refused {commit : TurnCommit} (error : StorageError) :
    Quiet trace (trace ++ [⟨.commitTurn commit,
      (.error error : Except StorageError ConversationDetail)⟩]) := by
  refine ⟨List.prefix_append _ _, ?_⟩
  rintro ⟨other, detail, mem⟩
  rcases List.mem_append.mp mem with old | new
  · exact ⟨other, detail, old⟩
  · cases List.mem_singleton.mp new

theorem MayFail.quiet (mayFail : MayFail command trace) (quiet : Quiet trace reached) :
    MayFail command reached :=
  ⟨mayFail.engaged.mono quiet.since, fun answered => mayFail.unanswered (quiet.answered answered)⟩

theorem quiet_append {added : Trace ChatPorts}
    (only : ∀ call ∈ added, ChatCall.isCommit call.1 = false) : Quiet trace (trace ++ added) := by
  refine ⟨List.prefix_append _ _, ?_⟩
  rintro ⟨commit, detail, mem⟩
  rcases List.mem_append.mp mem with old | new
  · exact ⟨commit, detail, old⟩
  · cases only _ new

/-- A piece that commits nothing. -/
theorem along_quiet {p : Program ChatPorts α} {Q : Trace ChatPorts → α → Prop}
    (calls : Along (S := ChatPorts) A
      (fun reached op => TurnIssues command reached op ∧ op.isCommit = false) Q trace p) :
    Along (S := ChatPorts) A (TurnIssues command)
      (fun reached result => Quiet trace reached ∧ Q reached result) trace p := by
  refine ((calls.adds fun _ _ kind => kind.2).calls fun _ _ kind => kind.1).imp ?_
  rintro reached result ⟨post, added, rfl, only⟩
  exact ⟨quiet_append only, post⟩

theorem quiet_ask {op : ChatCall} (issued : TurnIssues command trace op)
    (other : op.isCommit = false) :
    Along (S := ChatPorts) A (TurnIssues command) (fun reached _ => Quiet trace reached) trace
      (ask op) :=
  ⟨issued, fun answer _ => quiet_snoc answer other⟩

theorem quiet_orReturn {convert : ε → ε'} {first : Program ChatPorts (Except ε α)}
    {next : α → Program ChatPorts (Except ε' β)}
    (begun : Along (S := ChatPorts) A (TurnIssues command) (fun reached _ => Quiet trace reached)
      trace first)
    (rest : ∀ reached value, Quiet trace reached → Along (S := ChatPorts) A (TurnIssues command)
      (fun later _ => Quiet reached later) reached (next value)) :
    Along (S := ChatPorts) A (TurnIssues command) (fun reached _ => Quiet trace reached) trace
      (orReturn convert first next) := by
  refine along_orReturn begun (fun reached value quiet => ?_) fun _ _ quiet => quiet
  exact (rest reached value quiet).imp fun _ _ later => quiet.trans later

/-! ## Lock operations of a worker -/

/-- Operations on the lock do not commit a turn, and fail one only by marking it failed. -/
theorem turnIssues_of_issues {call : LockCall} (proper : call.Proper)
    (fails : call.fails = true → MayFail command trace) {op : ChatCall}
    (issues : call.Issues trace op) : TurnIssues command trace op := by
  refine ⟨locking_of_issues proper issues, fun failing => ?_⟩
  cases op with
  | kvEntry by_ =>
      obtain rfl : by_ = call := issues
      exact fails failing
  | kvUpdate by_ lock revision =>
      obtain ⟨rfl, -⟩ := issues
      exact fails failing
  | publishEvent => exact issues.elim
  | recordTurnFailed => exact issues.elim
  | _ => exact failing.elim

theorem isCommit_of_issues {call : LockCall} {op : ChatCall} (issues : call.Issues trace op) :
    op.isCommit = false := by
  cases op <;> first | rfl | exact issues.elim

/-- An operation on the lock, from what its path logic allows it. -/
theorem quiet_locking {p : Program ChatPorts α} {Q : Trace ChatPorts → α → Prop} (call : LockCall)
    (proper : call.Proper) (fails : call.fails = true → MayFail command trace)
    (path : Along (S := ChatPorts) A call.Issues Q trace p) :
    Along (S := ChatPorts) A (TurnIssues command)
      (fun reached result => Quiet trace reached ∧ Q reached result) trace p := by
  refine along_quiet ((path.added fun _ _ => isCommit_of_issues).calls ?_)
  rintro _ op ⟨issues, added, rfl, only⟩
  exact ⟨turnIssues_of_issues proper (fun failing => (fails failing).quiet (quiet_append only))
    issues, isCommit_of_issues issues⟩

section Operations

variable {ttl : Timestamp} {tenantId conversationId turnId : String}

theorem quiet_marks {workerId : Option String} {terminal : ChatTerminalUpdate}
    (proper : terminal.state.isTerminal = true)
    (fails : terminal.state = .failed → MayFail command trace) :
    Along (S := ChatPorts) A (TurnIssues command) (fun reached _ => Quiet trace reached) trace
      (NatsChatBus.markLockTerminal ttl tenantId conversationId turnId workerId terminal) :=
  (quiet_locking (.markLockTerminal tenantId conversationId turnId workerId terminal) proper
    (fun failed => fails (of_decide_eq_true failed))
    (NatsChatBus.along_markLockTerminal fun _ _ _ issues => issues)).imp fun _ _ post => post.1

theorem quiet_published :
    Along (S := ChatPorts) A (TurnIssues command) (fun reached _ => Quiet trace reached) trace
      (NatsChatBus.markTerminalEventPublished tenantId conversationId turnId) :=
  (quiet_locking (.markTerminalEventPublished tenantId conversationId turnId) trivial nofun
    (NatsChatBus.along_markTerminalEventPublished fun _ _ _ issues => issues)).imp
      fun _ _ post => post.1

theorem quiet_released :
    Along (S := ChatPorts) A (TurnIssues command) (fun reached _ => Quiet trace reached) trace
      (NatsChatBus.releaseLock tenantId conversationId turnId) :=
  (quiet_locking (.releaseLock tenantId conversationId turnId) trivial nofun
    (NatsChatBus.along_releaseLock fun _ _ _ issues => issues)).imp fun _ _ post => post.1

theorem quiet_stopRequested :
    Along (S := ChatPorts) A (TurnIssues command) (fun reached _ => Quiet trace reached) trace
      (NatsChatBus.stopRequested tenantId conversationId turnId) :=
  (quiet_locking (.stopRequested tenantId conversationId turnId) trivial nofun
    (NatsChatBus.along_stopRequested fun _ _ _ issues => issues)).imp fun _ _ post => post.1

theorem engaged_of_mem {op : ChatCall} {answer : op.Ans}
    (mem : (⟨op, answer⟩ : Call ChatPorts) ∈ trace)
    (engages : ∀ before, engages command before op answer = true) : Engaged command trace := by
  intro facts
  obtain ⟨before, idle⟩ := facts.of_mem mem
  rw [engages before] at idle
  cases idle

/-- A claim that is granted engages the delivery. -/
theorem along_claims {workerId : String} (clocked : NatsChatBus.Clocked A) :
    Along (S := ChatPorts) A (TurnIssues command) (fun reached result => Quiet trace reached ∧
      ∀ lock, result = .ok lock → Engaged command reached) trace
      (NatsChatBus.claimLock ttl tenantId conversationId turnId workerId) := by
  refine (quiet_locking (.claimLock tenantId conversationId turnId workerId) trivial nofun
    (NatsChatBus.along_claimLock clocked fun _ _ _ issues => issues)).imp ?_
  rintro reached result ⟨quiet, -, claimed⟩
  refine ⟨quiet, fun lock same => ?_⟩
  rcases claimed lock same with ⟨terminal, turn, revision, has⟩ | ⟨-, before, revision, next, rfl⟩
  · exact engaged_of_mem has fun _ => by simp [engages, terminal, turn]
  · exact engaged_snoc_iff.mpr (.inr rfl)

end Operations

end

/-! ## The worker -/

namespace ChatWorker

variable {A : Trace ChatPorts → (op : ChatCall) → op.Ans → Prop} {command : TurnRequested}
  {trace : Trace ChatPorts} {ttl : Timestamp} {workerId : String} {lock : ChatLock}

/-- Events, of which only one that clears the turn needs leave. -/
theorem quiet_publishEvents {events : List ChatEvent}
    (clears : .clear .failedBeforeCommit ∈ events → MayFail command trace) :
    Along (S := ChatPorts) A (TurnIssues command) (fun reached _ => Quiet trace reached) trace
      (publishEvents command events) := by
  induction events generalizing trace with
  | nil => exact .refl trace
  | cons event rest ih =>
      refine quiet_orReturn ?_ fun reached _ quiet => ih fun mem =>
        (clears (List.mem_cons_of_mem _ mem)).quiet quiet
      refine along_ask (turnIssues_of_aside rfl) fun ts _ => ?_
      have quiet : Quiet trace (trace ++ [⟨.now, ts⟩]) := quiet_snoc ts rfl
      refine ⟨⟨locking_of_plain rfl, fun failing => ?_⟩, fun answer _ =>
        quiet.trans (@quiet_snoc _ (.publishEvent _) answer rfl)⟩
      exact (clears (List.mem_cons.mpr (.inl failing.symm))).quiet quiet

theorem quiet_publishFailedTurn {userId message : String} (mayFail : MayFail command trace) :
    Along (S := ChatPorts) A (TurnIssues command) (fun reached _ => Quiet trace reached) trace
      (publishFailedTurn command userId message) := by
  refine along_ask ⟨locking_of_plain rfl, fun _ => mayFail⟩ fun answer _ => ?_
  have quiet : Quiet trace (trace ++ [⟨.recordTurnFailed command.tenantId userId
      command.conversationId command.turnId message, answer⟩]) := quiet_snoc answer rfl
  exact (quiet_publishEvents fun _ => mayFail.quiet quiet).imp fun _ _ later => quiet.trans later

/-- Only a failed lock stands for a clear. -/
theorem failed_of_clear {events : List ChatEvent} (found : terminalEvents lock = .ok (some events))
    (clear : .clear .failedBeforeCommit ∈ events) : lock.state = .failed := by
  unfold terminalEvents at found
  cases state : lock.state with
  | failed => rfl
  | committed =>
      cases message : lock.assistantMessageId <;> simp [state, message] at found
      simp [← found] at clear
  | interrupted =>
      cases message : lock.assistantMessageId <;> simp [state, message] at found
      simp [← found] at clear
  | requested => simp [state] at found
  | running => simp [state] at found

theorem quiet_publishMissingTerminalEvent
    (failed : lock.state = .failed → lock.terminalEventPublished = false → MayFail command trace) :
    Along (S := ChatPorts) A (TurnIssues command) (fun reached _ => Quiet trace reached) trace
      (publishMissingTerminalEvent command lock) := by
  unfold publishMissingTerminalEvent
  split
  · exact .refl trace
  · rename_i unpublished
    split
    · exact .refl trace
    · exact .refl trace
    · rename_i events found
      refine quiet_orReturn (quiet_publishEvents fun clear => ?_) fun reached _ _ =>
        quiet_orReturn quiet_published fun later _ _ => .refl later
      exact failed (failed_of_clear found clear) (by simpa using unpublished)

theorem quiet_failOwnedTurn {message : String} (mayFail : MayFail command trace) :
    Along (S := ChatPorts) A (TurnIssues command) (fun reached _ => Quiet trace reached) trace
      (failOwnedTurn ttl workerId command lock message) :=
  quiet_orReturn (quiet_marks rfl fun _ => mayFail) fun _ _ quiet =>
    quiet_orReturn (quiet_publishFailedTurn (mayFail.quiet quiet)) fun _ _ _ =>
      quiet_orReturn quiet_published fun later _ _ => .refl later

theorem quiet_acknowledge :
    Along (S := ChatPorts) A (TurnIssues command) (fun reached _ => Quiet trace reached) trace
      (acknowledge command) :=
  quiet_orReturn (quiet_ask (turnIssues_of_aside rfl) rfl) fun _ _ _ =>
    Along.bind quiet_released fun _ _ quiet => quiet

theorem quiet_recoverTurn (mayFail : MayFail command trace) :
    Along (S := ChatPorts) A (TurnIssues command) (fun reached _ => Quiet trace reached) trace
      (recoverTurn ttl command) := by
  refine quiet_orReturn (quiet_marks rfl fun _ => mayFail) fun reached failed quiet => ?_
  refine quiet_orReturn (quiet_ask ⟨locking_of_plain rfl, fun _ => mayFail.quiet quiet⟩ rfl)
    fun recorded _ quiet' => ?_
  exact quiet_orReturn (quiet_publishMissingTerminalEvent fun _ _ =>
    mayFail.quiet (quiet.trans quiet')) fun _ _ _ => quiet_acknowledge

/-- Committed or interrupted, and an event to match. -/
structure Settlement.Proper (settlement : Settlement) : Prop where
  terminal : settlement.state.isTerminal = true
  unfailed : settlement.state ≠ .failed
  harmless : ∀ id, settlement.event id ≠ .clear .failedBeforeCommit

theorem completed_proper : completed.Proper := ⟨rfl, nofun, fun _ same => nomatch same⟩

theorem interrupted_proper (assistantText : String) : (interrupted assistantText).Proper :=
  ⟨rfl, nofun, fun _ same => nomatch same⟩

/-- An announcement fails nothing, whatever the delivery has seen. -/
theorem quiet_announce {settlement : Settlement} {assistantMessageId : String}
    (proper : settlement.Proper) :
    Along (S := ChatPorts) A (TurnIssues command) (fun reached _ => Quiet trace reached) trace
      (announce ttl workerId command settlement assistantMessageId) :=
  quiet_orReturn (quiet_marks proper.terminal fun failed => absurd failed proper.unfailed)
    fun _ _ _ =>
    quiet_orReturn (quiet_publishEvents fun mem =>
      absurd (List.mem_singleton.mp mem).symm (proper.harmless assistantMessageId)) fun _ _ _ =>
        quiet_orReturn quiet_published fun later _ _ => .refl later

/-- After its commit a delivery fails the turn only when the answer was an error. -/
theorem along_commitAndAnnounce {settlement : Settlement} {assistantText : String}
    (proper : settlement.Proper) (mayFail : MayFail command trace) :
    Along (S := ChatPorts) A (TurnIssues command) (Onward trace) trace
      (commitAndAnnounce ttl workerId command lock settlement assistantText) := by
  refine along_ask_onward (turnIssues_of_aside rfl) fun assistantMessageId => ?_
  refine along_ask_onward (turnIssues_of_aside rfl) fun answer => ?_
  have drawn : Quiet trace (trace ++ [⟨.ulid, assistantMessageId⟩]) :=
    quiet_snoc assistantMessageId rfl
  rcases answer with error | detail
  · exact Along.bind (quiet_failOwnedTurn (mayFail.quiet (drawn.trans (quiet_refused error))))
      fun _ _ quiet => quiet.since
  · exact along_onward ((quiet_announce proper).imp fun _ _ quiet => quiet.since)
      fun _ _ _ => List.prefix_rfl

theorem along_commitInterruptedTurn {assistantText : String} (mayFail : MayFail command trace) :
    Along (S := ChatPorts) A (TurnIssues command) (Onward trace) trace
      (commitInterruptedTurn ttl workerId command lock assistantText) :=
  along_onward (along_commitAndAnnounce (interrupted_proper assistantText) mayFail)
    fun _ _ _ => List.prefix_rfl

/-- With a text the loop has committed nothing. -/
def StreamedOut (command : TurnRequested) (reached : Trace ChatPorts)
    (result : Except String (Option String)) : Prop :=
  ∀ text, result = .ok (some text) → MayFail command reached

/-- A branch that settles the turn and leaves the loop. -/
theorem along_settles {p : Program ChatPorts (Except String Unit)}
    (settled : Along (S := ChatPorts) A (TurnIssues command) (Onward trace) trace p) :
    Along (S := ChatPorts) A (TurnIssues command) (StreamedOut command) trace
      (orReturn id p fun _ => return .ok none) :=
  along_orReturn settled (fun _ _ _ _ same => nomatch same) fun _ _ _ _ same => nomatch same

theorem along_awaitStream (wakeups : Nat) {assistantText : String}
    (mayFail : MayFail command trace) :
    Along (S := ChatPorts) A (TurnIssues command) (StreamedOut command) trace
      (awaitStream ttl workerId command lock wakeups assistantText) := by
  induction wakeups generalizing trace assistantText with
  | zero => exact fun _ same => nomatch same
  | succ wakeups ih =>
      refine along_ask (turnIssues_of_aside rfl) fun answer _ => ?_
      have awake : MayFail command (trace ++ [⟨.select, answer⟩]) :=
        mayFail.quiet (quiet_snoc answer rfl)
      cases answer with
      | maintenanceError message =>
          exact along_settles ((quiet_failOwnedTurn awake).imp fun _ _ quiet => quiet.since)
      | streamError message =>
          exact along_settles ((quiet_failOwnedTurn awake).imp fun _ _ quiet => quiet.since)
      | stopPoll =>
          refine along_orReturn quiet_stopRequested (fun reached stopped quiet => ?_)
            fun _ _ _ _ same => nomatch same
          cases stopped with
          | true => exact along_settles (along_commitInterruptedTurn (awake.quiet quiet))
          | false => exact ih (awake.quiet quiet)
      | stopSignal signal =>
          dsimp only
          split
          · exact along_settles (along_commitInterruptedTurn awake)
          · exact ih awake
      | idle => exact ih awake
      | streamEnd => exact fun _ _ => awake
      | delta chunk =>
          refine along_orReturn (quiet_publishEvents fun _ => awake) (fun reached _ quiet => ?_)
            fun _ _ _ _ same => nomatch same
          exact ih (awake.quiet quiet)

theorem along_complete {shouldGenerateTitle : Bool} {assistantText : String}
    (mayFail : MayFail command trace) :
    Along (S := ChatPorts) A (TurnIssues command) (Onward trace) trace
      (complete ttl workerId command lock shouldGenerateTitle assistantText) := by
  refine along_onward (along_commitAndAnnounce completed_proper mayFail) fun _ announced _ => ?_
  split
  · exact along_ask_onward (turnIssues_of_aside rfl) fun _ => List.prefix_rfl
  · exact List.prefix_rfl

theorem quiet_stoppedAlready :
    Along (S := ChatPorts) A (TurnIssues command) (fun reached _ => Quiet trace reached) trace
      (stoppedAlready command lock) := by
  unfold stoppedAlready
  split
  · exact .refl trace
  · refine along_ask (turnIssues_of_aside rfl) fun received _ => ?_
    have quiet : Quiet trace (trace ++ [⟨.receivedStop command, received⟩]) :=
      quiet_snoc received rfl
    cases received with
    | true => exact quiet
    | false => exact quiet_stopRequested.imp fun _ _ later => quiet.trans later

theorem along_driveTurn {wakeups : Nat} (mayFail : MayFail command trace) :
    Along (S := ChatPorts) A (TurnIssues command) (fun _ _ => True) trace
      (driveTurn ttl workerId command lock wakeups) := by
  refine along_orReturn (quiet_ask (turnIssues_of_aside rfl) rfl) (fun _ conversation loaded => ?_)
    fun _ _ _ => trivial
  have loaded := mayFail.quiet loaded
  refine along_orReturn (quiet_publishEvents fun _ => loaded) (fun _ _ begun => ?_)
    fun _ _ _ => trivial
  have begun := loaded.quiet begun
  refine along_orReturn quiet_stoppedAlready (fun reached stopped asked => ?_) fun _ _ _ => trivial
  have asked := begun.quiet asked
  cases stopped with
  | true => exact (along_commitInterruptedTurn asked).imp fun _ _ _ => trivial
  | false =>
      refine along_ask (turnIssues_of_aside rfl) fun answer _ => ?_
      have streams : MayFail command (reached ++
          [⟨.streamChat (llmMessages conversation.messages lock.text), answer⟩]) :=
        asked.quiet (quiet_snoc answer rfl)
      rcases answer with error | _
      · exact (quiet_failOwnedTurn streams).imp fun _ _ _ => trivial
      · refine along_orReturn (along_awaitStream wakeups streams) (fun _ ended post => ?_)
          fun _ _ _ => trivial
        cases ended with
        | none => trivial
        | some assistantText =>
            exact (along_complete (post assistantText rfl)).imp fun _ _ _ => trivial

theorem along_claimAndDrive (clocked : NatsChatBus.Clocked A) {wakeups : Nat}
    (unanswered : ¬ Answered trace) :
    Along (S := ChatPorts) A (TurnIssues command) (fun _ _ => True) trace
      (claimAndDrive ttl workerId command wakeups) := by
  refine along_orReturn (along_claims clocked) (fun reached lock claimed => ?_) fun _ _ _ => trivial
  have mayFail : MayFail command reached :=
    ⟨claimed.2 lock rfl, fun answered => unanswered (claimed.1.answered answered)⟩
  refine along_orReturn (along_driveTurn mayFail) (fun _ _ _ => ?_) fun _ _ _ => trivial
  exact quiet_acknowledge.imp fun _ _ _ => trivial

/-- What the first read tells a delivery. -/
def Loaded (command : TurnRequested) (reached : Trace ChatPorts) :
    Except ChatBusError (Option ChatLock) → Prop
  | .error _ => True
  | .ok none => MayFail command reached
  | .ok (some lock) => ¬ Answered reached ∧
      (lock.turnId = command.turnId → lock.state = .failed → lock.terminalEventPublished = false →
        Engaged command reached) ∧
      (lock.turnId = command.turnId → lock.state = .running →
        foundRunning command reached = some lock)

theorem unanswered_nil : ¬ Answered [] := by
  rintro ⟨commit, detail, mem⟩
  cases mem

theorem along_load :
    Along (S := ChatPorts) A (TurnIssues command) (Loaded command) []
      (NatsChatBus.loadLock command.tenantId command.conversationId) := by
  have alone : ∀ answer, ¬ Answered ([] ++
      [⟨.kvEntry (.loadLock command.tenantId command.conversationId), answer⟩]) :=
    fun answer answered => unanswered_nil ((answered_snoc_iff rfl).mp answered)
  have issues : LockCall.Issues (.loadLock command.tenantId command.conversationId) []
      (.kvEntry (.loadLock command.tenantId command.conversationId)) := rfl
  refine NatsChatBus.along_loadLock (@turnIssues_of_issues command []
    (.loadLock command.tenantId command.conversationId) trivial nofun _ issues) ?_ ?_ ?_
  · intro lock revision _
    refine ⟨alone _, fun turn failed unpublished => ?_, fun turn running => ?_⟩
    · refine engaged_snoc_iff.mpr (.inr ?_)
      simp [engages, turn, failed, unpublished]
    · simp [foundRunning, turn, running]
  · intro entry gone _
    refine ⟨engaged_snoc_iff.mpr (.inr ?_), alone _⟩
    match entry, gone with
    | none, _ => rfl
    | some (.marker revision), _ => rfl
    | some (.put lock revision), gone => exact absurd rfl (gone lock revision)
  · intro error error'
    trivial

/-- Every path of a delivery. -/
theorem along_runTurn (clocked : NatsChatBus.Clocked A) {wakeups : Nat} :
    Along (S := ChatPorts) A (TurnIssues command) (fun _ _ => True) []
      (runTurn ttl workerId command wakeups) := by
  refine along_orReturn along_load (fun reached existing loaded => ?_) fun _ _ _ => trivial
  cases existing with
  | none =>
      refine Along.imp (Q := fun later _ => Quiet reached later) ?_ fun _ _ _ => trivial
      exact quiet_orReturn (quiet_publishFailedTurn loaded) fun _ _ _ =>
        quiet_orReturn (quiet_ask (turnIssues_of_aside rfl) rfl) fun later _ _ => .refl later
  | some existing =>
      obtain ⟨unanswered, failed, running⟩ := loaded
      dsimp only
      split
      · trivial
      · rename_i own
        have turn : existing.turnId = command.turnId := not_not.mp own
        split
        · refine Along.imp (Q := fun later _ => Quiet reached later) ?_ fun _ _ _ => trivial
          exact quiet_orReturn (quiet_publishMissingTerminalEvent fun fails unpublished =>
            ⟨failed turn fails unpublished, unanswered⟩) fun _ _ _ => quiet_acknowledge
        · split
          · rename_i runs
            refine NatsChatBus.along_isExpired (turnIssues_of_aside rfl) fun now _ => ?_
            split
            · rename_i expired
              have engaged : Engaged command (reached ++ [⟨.now, now⟩]) := by
                refine engaged_snoc_iff.mpr (.inr ?_)
                simp [engages, running turn runs, expired]
              exact (quiet_recoverTurn ⟨engaged, fun answered =>
                unanswered ((answered_snoc_iff rfl).mp answered)⟩).imp fun _ _ _ => trivial
            · trivial
          · exact along_claimAndDrive clocked unanswered

end ChatWorker

end Delphi.Chat
