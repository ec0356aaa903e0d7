/-
# Delphi.Chat.TurnStream -- what a turn tells the client and the database

A delivery that drives a turn publishes events and hands one commit to the
repository, in an order that depends on a stop, on the model's stream, on the lock
and on every failing call.  `advance` is the protocol all of that follows:

* the turn's start and the user's message, then the answer in pieces;
* one commit at most, after the last piece and before the terminal event, and its
  text is the text of the pieces published so far;
* after an accepted commit one event, which names the message it stored; after a
  refused one, or none, the error and the `clear`.

`along_driveTurn_told`: every path of `drive_turn` follows it, whatever its calls
are answered.  `told_after` reads the events and the commits back off the phase.
`delivery_told` puts a delivery together: it drives the turn of the lock that
`claim_lock` answered (`Claims`), or tells the end that the lock `load_lock` answered
stands for (`Closing`).
-/
import Delphi.Chat.TurnPaths

namespace Delphi.Chat

open Delphi.Theory
open NatsChatBus (along_ask)

set_option autoImplicit false

/-! ## What is said and stored -/

/-- A call the client or the database learns of. -/
inductive TurnAct where
  | say (event : ChatEvent)
  | store (commit : TurnCommit) (accepted : Bool)
deriving DecidableEq

namespace TurnAct

def event : TurnAct → Option ChatEvent
  | .say event => some event
  | .store _ _ => none

def commit : TurnAct → Option (TurnCommit × Bool)
  | .say _ => none
  | .store commit accepted => some (commit, accepted)

end TurnAct

def accepts {ε α : Type} : Except ε α → Bool
  | .ok _ => true
  | .error _ => false

/-- What became of a call of `publish_event` nobody knows: its event counts either way. -/
def actOf : Call ChatPorts → Option TurnAct
  | ⟨.publishEvent envelope, _⟩ => some (.say envelope.event)
  | ⟨.commitTurn commit, answer⟩ => some (.store commit (accepts (ε := StorageError) answer))
  | _ => none

def acts (trace : Trace ChatPorts) : List TurnAct := trace.filterMap actOf

/-- The events published. -/
def said (trace : Trace ChatPorts) : List ChatEvent := (acts trace).filterMap TurnAct.event

/-- The commits, each with whether it was accepted. -/
def filed (trace : Trace ChatPorts) : List (TurnCommit × Bool) :=
  (acts trace).filterMap TurnAct.commit

/-! ## The protocol -/

/-- How far a turn has come, with the pieces published and the commit tried. -/
inductive TurnPhase where
  | quiet
  | opened
  | streaming (chunks : List String)
  | filed (chunks : List String) (commit : TurnCommit) (accepted : Bool)
  | failing (chunks : List String) (refused : Option TurnCommit)
  | closed (chunks : List String) (tried : Option (TurnCommit × Bool))
deriving DecidableEq

namespace TurnPhase

/-- The event that announces a commit. -/
def announcement (commit : TurnCommit) : ChatEvent :=
  if commit.interrupted then .interrupted commit.assistantMessageId commit.assistantText
  else .finish commit.assistantMessageId .stop

/-- A commit of this turn with this text, as one of the two ways a turn is settled. -/
def Settles (command : TurnRequested) (lock : ChatLock) (chunks : List String)
    (commit : TurnCommit) : Prop :=
  commit = ChatWorker.turnCommit command lock ChatWorker.completed commit.assistantMessageId
      (String.join chunks) ∨
    commit = ChatWorker.turnCommit command lock (ChatWorker.interrupted (String.join chunks))
      commit.assistantMessageId (String.join chunks)

instance (command : TurnRequested) (lock : ChatLock) (chunks : List String) (commit : TurnCommit) :
    Decidable (Settles command lock chunks commit) :=
  inferInstanceAs (Decidable (_ ∨ _))

variable (command : TurnRequested) (lock : ChatLock)

def startedEvent : ChatEvent := .turnStarted command.turnId

def userEvent : ChatEvent := .userMessage lock.userMessageId (some command.turnId) lock.text

/-- The phase after an act, or nothing where the act is out of place. -/
def advance : TurnPhase → TurnAct → Option TurnPhase
  | .quiet, .say event => if event = startedEvent command then some .opened else none
  | .opened, .say event => if event = userEvent command lock then some (.streaming []) else none
  | .streaming chunks, .say (.textDelta chunk) => some (.streaming (chunks ++ [chunk]))
  | .streaming chunks, .say event =>
      if event = .error ChatWorker.failureMessage then some (.failing chunks none) else none
  | .streaming chunks, .store commit accepted =>
      if Settles command lock chunks commit then some (.filed chunks commit accepted) else none
  | .filed chunks commit true, .say event =>
      if event = announcement commit then some (.closed chunks (some (commit, true))) else none
  | .filed chunks commit false, .say event =>
      if event = .error ChatWorker.failureMessage then some (.failing chunks (some commit))
      else none
  | .failing chunks refused, .say event =>
      if event = .clear .failedBeforeCommit then
        some (.closed chunks (refused.map fun commit => (commit, false)))
      else none
  | _, _ => none

/-- The worker is done with the turn: it has told its end, or its commit was refused. -/
def isFinished : TurnPhase → Bool
  | .closed _ _ => true
  | .filed _ _ accepted => !accepted
  | .failing _ refused => refused.isSome
  | _ => false

/-- The phase after these acts. -/
def after : Option TurnPhase → List TurnAct → Option TurnPhase :=
  List.foldl fun phase act => phase.bind fun phase => phase.advance command lock act

variable {command lock}

theorem after_none (acts : List TurnAct) : after command lock none acts = none := by
  induction acts with
  | nil => rfl
  | cons act rest ih => exact ih

theorem after_cons {phase next : TurnPhase} {act : TurnAct} (rest : List TurnAct)
    (advances : phase.advance command lock act = some next) :
    after command lock (some phase) (act :: rest) = after command lock (some next) rest := by
  show after command lock (phase.advance command lock act) rest = _
  rw [advances]

theorem exists_advance {phase last : TurnPhase} {act : TurnAct} {rest : List TurnAct}
    (ends : after command lock (some phase) (act :: rest) = some last) :
    ∃ next, phase.advance command lock act = some next ∧
      after command lock (some next) rest = some last := by
  change after command lock (phase.advance command lock act) rest = some last at ends
  cases advances : phase.advance command lock act with
  | none =>
      rw [advances, after_none] at ends
      cases ends
  | some next => exact ⟨next, rfl, by rwa [advances] at ends⟩

/-! What a phase remembers. -/

def chunks : TurnPhase → List String
  | .quiet | .opened => []
  | .streaming chunks | .filed chunks _ _ | .failing chunks _ | .closed chunks _ => chunks

def tried : TurnPhase → List (TurnCommit × Bool)
  | .quiet | .opened | .streaming _ => []
  | .filed _ commit accepted => [(commit, accepted)]
  | .failing _ refused => (refused.map fun commit => (commit, false)).toList
  | .closed _ tried => tried.toList

/-- The events up to the last piece. -/
def opening (command : TurnRequested) (lock : ChatLock) (chunks : List String) : List ChatEvent :=
  [startedEvent command, userEvent command lock] ++ chunks.map .textDelta

def told (command : TurnRequested) (lock : ChatLock) : TurnPhase → List ChatEvent
  | .quiet => []
  | .opened => [startedEvent command]
  | .streaming chunks | .filed chunks _ _ => opening command lock chunks
  | .failing chunks _ => opening command lock chunks ++ [.error ChatWorker.failureMessage]
  | .closed chunks (some (commit, true)) => opening command lock chunks ++ [announcement commit]
  | .closed chunks _ =>
      opening command lock chunks ++ [.error ChatWorker.failureMessage, .clear .failedBeforeCommit]

/-- Every commit tried settles the turn with the pieces published. -/
def Faithful (command : TurnRequested) (lock : ChatLock) (phase : TurnPhase) : Prop :=
  ∀ entry ∈ phase.tried, Settles command lock phase.chunks entry.1

theorem faithful_quiet : Faithful command lock .quiet :=
  fun _ mem => absurd mem List.not_mem_nil

theorem told_advance {phase next : TurnPhase} {act : TurnAct}
    (advances : phase.advance command lock act = some next) :
    next.told command lock = phase.told command lock ++ act.event.toList ∧
      next.tried = phase.tried ++ act.commit.toList ∧
      (phase.Faithful command lock → next.Faithful command lock) := by
  unfold advance at advances
  split at advances
  case h_3 chunks chunk =>
    obtain rfl := Option.some.inj advances
    exact ⟨by simp [told, opening, TurnAct.event], rfl, fun _ => by simp [Faithful, tried]⟩
  case h_9 => cases advances
  all_goals
    split at advances
    case isFalse => cases advances
    obtain rfl := Option.some.inj advances
  case h_1 event same =>
    exact ⟨by simp [told, TurnAct.event, same], rfl, fun _ => by simp [Faithful, tried]⟩
  case h_2 event same =>
    exact ⟨by simp [told, opening, TurnAct.event, same], rfl, fun _ => by simp [Faithful, tried]⟩
  case h_4 chunks event _ same =>
    exact ⟨by simp [told, TurnAct.event, same], rfl, fun _ => by simp [Faithful, tried]⟩
  case h_5 chunks commit accepted settles =>
    refine ⟨by simp [told, TurnAct.event], rfl, fun _ entry mem => ?_⟩
    obtain rfl := List.mem_singleton.mp mem
    exact settles
  case h_6 chunks commit event same =>
    exact ⟨by simp [told, TurnAct.event, same], rfl, id⟩
  case h_7 chunks commit event same =>
    exact ⟨by simp [told, TurnAct.event, same], rfl, id⟩
  case h_8 chunks refused event same =>
    cases refused with
    | none => exact ⟨by simp [told, TurnAct.event, same], rfl, id⟩
    | some commit => exact ⟨by simp [told, TurnAct.event, same], rfl, id⟩

theorem told_after {phase last : TurnPhase} {acts : List TurnAct}
    (ends : after command lock (some phase) acts = some last) :
    last.told command lock = phase.told command lock ++ acts.filterMap TurnAct.event ∧
      last.tried = phase.tried ++ acts.filterMap TurnAct.commit ∧
      (phase.Faithful command lock → last.Faithful command lock) := by
  induction acts generalizing phase with
  | nil =>
      obtain rfl := Option.some.inj ends
      simp
  | cons act rest ih =>
      obtain ⟨next, advances, later⟩ := exists_advance ends
      obtain ⟨saidNext, triedNext, faithful⟩ := told_advance advances
      obtain ⟨saidLast, triedLast, faithful'⟩ := ih later
      refine ⟨?_, ?_, fun start => faithful' (faithful start)⟩
      · rw [saidLast, saidNext, List.append_assoc, List.filterMap_cons]
        cases act.event <;> rfl
      · rw [triedLast, triedNext, List.append_assoc, List.filterMap_cons]
        cases act.commit <;> rfl

/-- Done is done. -/
theorem isFinished_advance {phase next : TurnPhase} {act : TurnAct}
    (finished : phase.isFinished = true) (advances : phase.advance command lock act = some next) :
    next.isFinished = true := by
  cases phase with
  | quiet => cases finished
  | opened => cases finished
  | streaming chunks => cases finished
  | filed chunks commit accepted =>
      cases accepted with
      | true => cases finished
      | false =>
          cases act with
          | say event =>
              by_cases same : event = .error ChatWorker.failureMessage <;>
                simp [advance, same] at advances
              rw [← advances]
              rfl
          | store commit' accepted => cases advances
  | failing chunks refused =>
      cases act with
      | say event =>
          by_cases same : event = .clear .failedBeforeCommit <;> simp [advance, same] at advances
          rw [← advances]
          rfl
      | store commit accepted => cases advances
  | closed chunks tried => cases act <;> cases advances

theorem isFinished_after {phase last : TurnPhase} {acts : List TurnAct}
    (finished : phase.isFinished = true) (ends : after command lock (some phase) acts = some last) :
    last.isFinished = true := by
  induction acts generalizing phase with
  | nil =>
      obtain rfl := Option.some.inj ends
      exact finished
  | cons act rest ih =>
      obtain ⟨next, advances, later⟩ := exists_advance ends
      exact ih (isFinished_advance finished advances) later

end TurnPhase

open TurnPhase

variable (command : TurnRequested) (lock : ChatLock) in
/-- The phase a turn is in once these calls are answered. -/
def phaseAt (trace : Trace ChatPorts) : Option TurnPhase :=
  after command lock (some .quiet) (acts trace)

section

variable {command : TurnRequested} {lock : ChatLock} {trace : Trace ChatPorts} {phase : TurnPhase}

theorem acts_snoc (call : Call ChatPorts) :
    acts (trace ++ [call]) = acts trace ++ (actOf call).toList := by
  rw [acts, List.filterMap_append, acts]
  cases act : actOf call <;> simp [act]

theorem phaseAt_snoc (call : Call ChatPorts) : phaseAt command lock (trace ++ [call]) =
    match actOf call with
    | none => phaseAt command lock trace
    | some act =>
        (phaseAt command lock trace).bind fun phase => phase.advance command lock act := by
  unfold phaseAt acts after
  rw [List.filterMap_append, List.foldl_append]
  cases act : actOf call <;> simp [act]

theorem phaseAt_congr {reached : Trace ChatPorts} (same : acts reached = acts trace) :
    phaseAt command lock reached = phaseAt command lock trace := by
  rw [phaseAt, same, phaseAt]

/-- A call neither the client nor the database learns of. -/
def Mute : ChatCall → Prop
  | .publishEvent _ | .commitTurn _ => False
  | _ => True

theorem Mute.actOf {op : ChatCall} (mute : Mute op) (answer : op.Ans) :
    actOf ⟨op, answer⟩ = none := by
  cases op with
  | publishEvent => exact mute.elim
  | commitTurn => exact mute.elim
  | _ => rfl

theorem phaseAt_append (added : Trace ChatPorts) : phaseAt command lock (trace ++ added) =
    after command lock (phaseAt command lock trace) (acts added) := by
  unfold phaseAt acts after
  rw [List.filterMap_append, List.foldl_append]

theorem phaseAt_say {envelope : ChatEventEnvelope} {answer : Except ChatBusError String}
    (now : phaseAt command lock trace = some phase) :
    phaseAt command lock (trace ++ [⟨.publishEvent envelope, answer⟩]) =
      phase.advance command lock (.say envelope.event) := by
  rw [phaseAt_snoc, now]
  rfl

theorem phaseAt_store {commit : TurnCommit} {answer : Except StorageError ConversationDetail}
    (now : phaseAt command lock trace = some phase) :
    phaseAt command lock (trace ++ [⟨.commitTurn commit, answer⟩]) =
      phase.advance command lock (.store commit (accepts answer)) := by
  rw [phaseAt_snoc, now]
  rfl

end

/-! ## The paths of a worker -/

namespace ChatWorker

variable {A : Trace ChatPorts → (op : ChatCall) → op.Ans → Prop} {command : TurnRequested}
  {lock : ChatLock} {trace : Trace ChatPorts} {phase : TurnPhase} {ttl : Timestamp}
  {workerId : String} {α : Type}

/-- A call the protocol allows. -/
def Allowed (command : TurnRequested) (lock : ChatLock) (trace : Trace ChatPorts)
    (op : ChatCall) : Prop :=
  ∀ answer : op.Ans, (phaseAt command lock (trace ++ [⟨op, answer⟩])).isSome

/-- The turn is in this phase. -/
def Reaches (command : TurnRequested) (lock : ChatLock) (phase : TurnPhase)
    (reached : Trace ChatPorts) (_ : α) : Prop :=
  phaseAt command lock reached = some phase

theorem acts_mute {op : ChatCall} (mute : Mute op) (answer : op.Ans) :
    acts (trace ++ [⟨op, answer⟩]) = acts trace := by
  rw [acts_snoc, mute.actOf]
  exact List.append_nil _

theorem phaseAt_mute {op : ChatCall} (mute : Mute op) (answer : op.Ans) :
    phaseAt command lock (trace ++ [⟨op, answer⟩]) = phaseAt command lock trace :=
  phaseAt_congr (acts_mute mute answer)

/-- The trace got longer, and nothing was said or stored. -/
structure Still (trace reached : Trace ChatPorts) : Prop where
  since : trace <+: reached
  same : acts reached = acts trace

theorem Still.refl (trace : Trace ChatPorts) : Still trace trace := ⟨List.prefix_rfl, rfl⟩

theorem Still.trans {reached later : Trace ChatPorts} (first : Still trace reached)
    (second : Still reached later) : Still trace later :=
  ⟨first.since.trans second.since, second.same.trans first.same⟩

theorem Still.mute {op : ChatCall} (mute : Mute op) (answer : op.Ans) :
    Still trace (trace ++ [⟨op, answer⟩]) :=
  ⟨List.prefix_append _ _, acts_mute mute answer⟩

/-- Calls nobody learns of, where they may be made. -/
theorem along_muteActs {Q : Trace ChatPorts → α → Prop} {P : Trace ChatPorts → ChatCall → Prop}
    {p : Program ChatPorts α} (mute : Along (S := ChatPorts) A (fun _ op => Mute op) Q trace p)
    (allowed : ∀ reached op, Still trace reached → Mute op → P reached op) :
    Along (S := ChatPorts) A P (fun reached value => Still trace reached ∧ Q reached value)
      trace p := by
  induction p generalizing trace with
  | ret value => exact ⟨.refl trace, mute⟩
  | call op next ih =>
      obtain ⟨issued, rest⟩ := mute
      refine ⟨allowed trace op (.refl trace) issued, fun answer fact => ?_⟩
      have still : Still trace (trace ++ [⟨op, answer⟩]) := .mute issued answer
      refine (ih answer (rest answer fact) fun reached op later mute' =>
        allowed reached op (still.trans later) mute').imp ?_
      exact fun reached value post => ⟨still.trans post.1, post.2⟩

theorem allowed_of_mute {op : ChatCall} (mute : Mute op)
    (now : phaseAt command lock trace = some phase) : Allowed command lock trace op := by
  intro answer
  rw [phaseAt_mute mute answer, now]
  rfl

/-- Calls nobody learns of leave the turn where it is. -/
theorem along_mute {Q : Trace ChatPorts → α → Prop} {p : Program ChatPorts α}
    (mute : Along (S := ChatPorts) A (fun _ op => Mute op) Q trace p)
    (now : phaseAt command lock trace = some phase) :
    Along (S := ChatPorts) A (Allowed command lock) (Reaches command lock phase) trace p := by
  have same : ∀ reached, Still trace reached → phaseAt command lock reached = some phase :=
    fun reached still => (phaseAt_congr still.same).trans now
  refine (along_muteActs mute fun reached op still mute' => ?_).imp
    fun reached _ post => same reached post.1
  exact allowed_of_mute mute' (same reached still)

theorem along_askMute {Q : Trace ChatPorts → α → Prop} {op : ChatCall} (mute : Mute op)
    (now : phaseAt command lock trace = some phase) {next : op.Ans → Program ChatPorts α}
    (rest : ∀ answer, phaseAt command lock (trace ++ [⟨op, answer⟩]) = some phase →
      Along (S := ChatPorts) A (Allowed command lock) Q (trace ++ [⟨op, answer⟩]) (next answer)) :
    Along (S := ChatPorts) A (Allowed command lock) Q trace (ask op >>= next) := by
  refine along_ask (allowed_of_mute mute now) fun answer _ => rest answer ?_
  exact (phaseAt_mute mute answer).trans now

/-- No operation on the lock is learnt of. -/
theorem mute_of_issues {call : LockCall} {reached : Trace ChatPorts} {op : ChatCall}
    (issues : call.Issues reached op) : Mute op := by
  cases op <;> trivial

theorem along_markMute {tenantId conversationId turnId : String} {holder : Option String}
    {terminal : ChatTerminalUpdate} (now : phaseAt command lock trace = some phase) :
    Along (S := ChatPorts) A (Allowed command lock) (Reaches command lock phase) trace
      (NatsChatBus.markLockTerminal ttl tenantId conversationId turnId holder terminal) :=
  along_mute (NatsChatBus.along_markLockTerminal fun _ _ _ => mute_of_issues) now

theorem along_publishedMute {tenantId conversationId turnId : String}
    (now : phaseAt command lock trace = some phase) :
    Along (S := ChatPorts) A (Allowed command lock) (Reaches command lock phase) trace
      (NatsChatBus.markTerminalEventPublished tenantId conversationId turnId) :=
  along_mute (NatsChatBus.along_markTerminalEventPublished fun _ _ _ => mute_of_issues) now

/-- The turn is somewhere, and there once the call went well. -/
def Comes (command : TurnRequested) (lock : ChatLock) {ε : Type} (phase : TurnPhase)
    (reached : Trace ChatPorts) (result : Except ε α) : Prop :=
  (phaseAt command lock reached).isSome ∧
    ∀ value, result = .ok value → phaseAt command lock reached = some phase

theorem along_publishEvent {event : ChatEvent} {next : TurnPhase}
    (now : phaseAt command lock trace = some phase)
    (advances : phase.advance command lock (.say event) = some next) :
    Along (S := ChatPorts) A (Allowed command lock) (Reaches command lock next) trace
      (publishEvent command event) := by
  refine along_askMute (by trivial) now fun ts still => ?_
  have said : ∀ answer : Except ChatBusError String,
      phaseAt command lock (trace ++ [⟨.now, ts⟩] ++ [⟨.publishEvent ⟨command.tenantId,
        command.userId, command.conversationId, command.turnId, ts, event⟩, answer⟩]) =
      some next := fun answer => (phaseAt_say still).trans advances
  refine ⟨fun answer => ?_, fun answer _ => said answer⟩
  rw [said answer]
  rfl

/-- Events the protocol has next are told in their order. -/
theorem along_publishTold {events : List ChatEvent} {last : TurnPhase}
    (now : phaseAt command lock trace = some phase)
    (tells : after command lock (some phase) (events.map .say) = some last) :
    Along (S := ChatPorts) A (Allowed command lock) (Comes command lock last) trace
      (publishEvents command events) := by
  induction events generalizing trace phase with
  | nil =>
      obtain rfl := Option.some.inj tells
      exact ⟨by rw [now]; rfl, fun _ _ => now⟩
  | cons event rest ih =>
      obtain ⟨next, advances, later⟩ := exists_advance tells
      refine along_orReturn (along_publishEvent now advances) (fun _ _ there => ih there later)
        fun _ _ there => ⟨?_, fun _ same => nomatch same⟩
      rw [there]
      rfl

theorem comes_of_error {ε : Type} {last : TurnPhase} {error : ε}
    (now : phaseAt command lock trace = some phase) :
    Comes (α := α) command lock last trace (.error error) := by
  refine ⟨?_, fun _ same => nomatch same⟩
  rw [now]
  rfl

/-- What the phases of a driven turn look like when the worker is done with it. -/
def Finished (command : TurnRequested) (lock : ChatLock) (reached : Trace ChatPorts)
    (result : Except String α) : Prop :=
  ∃ phase, phaseAt command lock reached = some phase ∧
    ∀ value, result = .ok value → phase.isFinished = true

theorem finished_of_error {error : String} (now : phaseAt command lock trace = some phase) :
    Finished (α := α) command lock trace (.error error) :=
  ⟨phase, now, fun _ same => nomatch same⟩

theorem finished_of_comes {last : TurnPhase} (finished : last.isFinished = true)
    {result : Except String α} (comes : Comes command lock last trace result) :
    Finished command lock trace result := by
  obtain ⟨phase, now⟩ := Option.isSome_iff_exists.mp comes.1
  refine ⟨phase, now, fun value same => ?_⟩
  obtain rfl := Option.some.inj (now.symm.trans (comes.2 value same))
  exact finished

/-- The error and the `clear`, from wherever the error may be told. -/
theorem along_failOwnedTurn_told {message : String} {chunks : List String}
    {refused : Option TurnCommit} (now : phaseAt command lock trace = some phase)
    (fails : phase.advance command lock (.say (.error failureMessage)) =
      some (.failing chunks refused)) :
    Along (S := ChatPorts) A (Allowed command lock)
      (Comes command lock (.closed chunks (refused.map fun commit => (commit, false)))) trace
      (failOwnedTurn ttl workerId command lock message) := by
  let last : TurnPhase := .closed chunks (refused.map fun commit => (commit, false))
  have tells : after command lock (some phase)
      ([ChatEvent.error failureMessage, .clear .failedBeforeCommit].map .say) = some last := by
    rw [List.map_cons, after_cons _ fails]
    rfl
  refine along_orReturn (along_markMute now) (fun marked failed still => ?_)
    fun _ _ still => comes_of_error still
  refine along_orReturn (R := Comes command lock last) ?_ (fun told _ there => ?_)
    fun _ _ there => ⟨there.1, fun _ same => nomatch same⟩
  · exact along_askMute (by trivial) still fun _ recorded => along_publishTold recorded tells
  · refine along_orReturn (along_publishedMute (there.2 _ rfl)) (fun _ _ done => ?_)
      fun _ _ done => comes_of_error done
    exact ⟨by rw [done]; rfl, fun _ _ => done⟩

/-- The one event after an accepted commit. -/
theorem along_announce_told {settlement : Settlement} {assistantMessageId : String}
    {chunks : List String} {commit : TurnCommit}
    (now : phaseAt command lock trace = some (.filed chunks commit true))
    (names : settlement.event assistantMessageId = announcement commit) :
    Along (S := ChatPorts) A (Allowed command lock)
      (Comes command lock (.closed chunks (some (commit, true)))) trace
      (announce ttl workerId command settlement assistantMessageId) := by
  let last : TurnPhase := .closed chunks (some (commit, true))
  have tells : after command lock (some (.filed chunks commit true))
      ([settlement.event assistantMessageId].map .say) = some last := by
    simp [after, advance, names, last]
  refine along_orReturn (along_markMute now) (fun _ _ still => ?_)
    fun _ _ still => comes_of_error still
  refine along_orReturn (along_publishTold still tells) (fun _ _ there => ?_)
    fun _ _ there => ⟨there.1, fun _ same => nomatch same⟩
  refine along_orReturn (along_publishedMute (there.2 _ rfl)) (fun _ _ done => ?_)
    fun _ _ done => comes_of_error done
  exact ⟨by rw [done]; rfl, fun _ _ => done⟩

/-- The two ways to settle a turn, each with the event that announces it. -/
structure Settlement.Announced (settlement : Settlement) (command : TurnRequested) (lock : ChatLock)
    (chunks : List String) : Prop where
  settles : ∀ id, Settles command lock chunks
    (turnCommit command lock settlement id (String.join chunks))
  names : ∀ id, settlement.event id =
    announcement (turnCommit command lock settlement id (String.join chunks))

theorem completed_announced (chunks : List String) : completed.Announced command lock chunks :=
  ⟨fun _ => .inl rfl, fun _ => rfl⟩

theorem interrupted_announced (chunks : List String) :
    (interrupted (String.join chunks)).Announced command lock chunks :=
  ⟨fun _ => .inr rfl, fun _ => rfl⟩

theorem along_commitAndAnnounce_told {settlement : Settlement} {chunks : List String}
    (now : phaseAt command lock trace = some (.streaming chunks))
    (announced : settlement.Announced command lock chunks) :
    Along (S := ChatPorts) A (Allowed command lock) (Finished command lock) trace
      (commitAndAnnounce ttl workerId command lock settlement (String.join chunks)) := by
  refine along_askMute (by trivial) now fun assistantMessageId still => ?_
  let commit := turnCommit command lock settlement assistantMessageId (String.join chunks)
  have filed : ∀ answer : Except StorageError ConversationDetail,
      phaseAt command lock
        (trace ++ [⟨.ulid, assistantMessageId⟩] ++ [⟨.commitTurn commit, answer⟩]) =
      some (.filed chunks commit (accepts answer)) := by
    intro answer
    rw [phaseAt_store still]
    exact if_pos (announced.settles assistantMessageId)
  refine along_ask (fun answer => ?_) fun answer _ => ?_
  · rw [filed answer]
    rfl
  have stands := filed answer
  cases answer with
  | error error =>
      -- What `fail_owned_turn` answers is dropped.
      have fails : (TurnPhase.filed chunks commit false).advance command lock
          (.say (.error failureMessage)) = some (.failing chunks (some commit)) := by
        simp [advance]
      refine Along.bind (along_failOwnedTurn_told stands fails).path ?_
      rintro _ result ⟨⟨told, -⟩, added, rfl, -⟩
      obtain ⟨phase, there⟩ := Option.isSome_iff_exists.mp told
      refine ⟨phase, there, fun _ _ => ?_⟩
      rw [phaseAt_append, stands] at there
      exact isFinished_after rfl there
  | ok detail =>
      refine along_orReturn (along_announce_told stands (announced.names assistantMessageId))
        (fun _ _ there => ⟨_, there.2 _ rfl, fun _ _ => rfl⟩) fun _ _ there => ?_
      obtain ⟨phase, now⟩ := Option.isSome_iff_exists.mp there.1
      exact finished_of_error now

theorem along_thenReturn {β : Type} {first : Program ChatPorts (Except String α)} {value : β}
    (settled : Along (S := ChatPorts) A (Allowed command lock) (Finished command lock) trace
      first) :
    Along (S := ChatPorts) A (Allowed command lock) (Finished command lock) trace
      (orReturn id first fun _ => return .ok value) := by
  refine along_orReturn settled ?_ ?_
  · rintro reached value ⟨phase, now, finished⟩
    exact ⟨phase, now, fun _ _ => finished value rfl⟩
  · rintro reached error ⟨phase, now, -⟩
    exact finished_of_error now

theorem along_failOwnedTurn_finished {message : String} {chunks : List String}
    (now : phaseAt command lock trace = some (.streaming chunks)) :
    Along (S := ChatPorts) A (Allowed command lock) (Finished command lock) trace
      (failOwnedTurn ttl workerId command lock message) := by
  have fails : (TurnPhase.streaming chunks).advance command lock (.say (.error failureMessage)) =
      some (.failing chunks none) := by
    simp [advance]
  exact (along_failOwnedTurn_told now fails).imp fun _ _ comes => finished_of_comes rfl comes

theorem along_commitInterruptedTurn_told (chunks : List String)
    (now : phaseAt command lock trace = some (.streaming chunks)) :
    Along (S := ChatPorts) A (Allowed command lock) (Finished command lock) trace
      (commitInterruptedTurn ttl workerId command lock (String.join chunks)) :=
  along_thenReturn (along_commitAndAnnounce_told now (interrupted_announced chunks))

/-- The loop comes out with all it published, or done. -/
def Streamed (command : TurnRequested) (lock : ChatLock) (reached : Trace ChatPorts)
    (result : Except String (Option String)) : Prop :=
  ∃ phase, phaseAt command lock reached = some phase ∧
    (result = .ok none → phase.isFinished = true) ∧
    ∀ text, result = .ok (some text) →
      ∃ chunks, phase = .streaming chunks ∧ text = String.join chunks

theorem streamed_of_error {error : String} (now : phaseAt command lock trace = some phase) :
    Streamed command lock trace (.error error) :=
  ⟨phase, now, fun same => (nomatch same), fun _ same => nomatch same⟩

/-- A branch that settles the turn and leaves the loop. -/
theorem along_settles_told {p : Program ChatPorts (Except String Unit)}
    (settled : Along (S := ChatPorts) A (Allowed command lock) (Finished command lock) trace p) :
    Along (S := ChatPorts) A (Allowed command lock) (Streamed command lock) trace
      (orReturn id p fun _ => return .ok none) := by
  refine along_orReturn settled ?_ ?_
  · rintro reached value ⟨phase, now, finished⟩
    exact ⟨phase, now, fun _ => finished value rfl, fun _ same => nomatch same⟩
  · rintro reached error ⟨phase, now, -⟩
    exact streamed_of_error now

theorem along_stopRequestedMute {tenantId conversationId turnId : String}
    (now : phaseAt command lock trace = some phase) :
    Along (S := ChatPorts) A (Allowed command lock) (Reaches command lock phase) trace
      (NatsChatBus.stopRequested tenantId conversationId turnId) :=
  along_mute (NatsChatBus.along_stopRequested fun _ _ _ => mute_of_issues) now

theorem along_awaitStream_told (wakeups : Nat) (chunks : List String)
    (now : phaseAt command lock trace = some (.streaming chunks)) :
    Along (S := ChatPorts) A (Allowed command lock) (Streamed command lock) trace
      (awaitStream ttl workerId command lock wakeups (String.join chunks)) := by
  induction wakeups generalizing trace chunks with
  | zero => exact streamed_of_error now
  | succ wakeups ih =>
      refine along_askMute (by trivial) now fun answer awake => ?_
      cases answer with
      | maintenanceError message => exact along_settles_told (along_failOwnedTurn_finished awake)
      | streamError message => exact along_settles_told (along_failOwnedTurn_finished awake)
      | stopPoll =>
          refine along_orReturn (along_stopRequestedMute awake) (fun _ stopped still => ?_)
            fun _ _ still => streamed_of_error still
          cases stopped with
          | true => exact along_settles_told (along_commitInterruptedTurn_told _ still)
          | false => exact ih _ still
      | stopSignal signal =>
          dsimp only
          split
          · exact along_settles_told (along_commitInterruptedTurn_told _ awake)
          · exact ih _ awake
      | idle => exact ih _ awake
      | streamEnd =>
          refine ⟨_, awake, fun same => (nomatch same), ?_⟩
          rintro _ ⟨⟩
          exact ⟨chunks, rfl, rfl⟩
      | delta chunk =>
          have tells : after command lock (some (.streaming chunks))
              ([ChatEvent.textDelta chunk].map .say) = some (.streaming (chunks ++ [chunk])) := rfl
          have joined : String.join chunks ++ chunk = String.join (chunks ++ [chunk]) := by
            simp [String.join_append]
          refine along_orReturn (along_publishTold awake tells) (fun _ _ there => ?_)
            fun _ _ there => ?_
          · rw [joined]
            exact ih _ (there.2 _ rfl)
          · obtain ⟨phase, somewhere⟩ := Option.isSome_iff_exists.mp there.1
            exact streamed_of_error somewhere

theorem along_complete_told {shouldGenerateTitle : Bool} {chunks : List String}
    (now : phaseAt command lock trace = some (.streaming chunks)) :
    Along (S := ChatPorts) A (Allowed command lock) (Finished command lock) trace
      (complete ttl workerId command lock shouldGenerateTitle (String.join chunks)) := by
  refine along_orReturn (along_commitAndAnnounce_told now (completed_announced chunks)) ?_ ?_
  · rintro reached announced ⟨phase, there, finished⟩
    split
    · exact along_askMute (by trivial) there fun _ still =>
        ⟨phase, still, fun _ _ => finished _ rfl⟩
    · exact ⟨phase, there, fun _ _ => finished _ rfl⟩
  · rintro reached error ⟨phase, there, -⟩
    exact finished_of_error there

theorem along_stoppedAlready_told (now : phaseAt command lock trace = some phase) :
    Along (S := ChatPorts) A (Allowed command lock) (Reaches command lock phase) trace
      (stoppedAlready command lock) := by
  unfold stoppedAlready
  split
  · exact now
  · refine along_askMute (by trivial) now fun received still => ?_
    cases received with
    | true => exact still
    | false => exact along_stopRequestedMute still

/-- Every path of a driven turn follows the protocol. -/
theorem along_driveTurn_told {wakeups : Nat} (now : phaseAt command lock trace = some .quiet) :
    Along (S := ChatPorts) A (Allowed command lock) (Finished command lock) trace
      (driveTurn ttl workerId command lock wakeups) := by
  have opens : after command lock (some .quiet) ([ChatEvent.turnStarted command.turnId,
      .userMessage lock.userMessageId (some command.turnId) lock.text].map .say) =
      some (.streaming []) := by
    simp [after, advance, startedEvent, userEvent]
  refine along_orReturn (R := Reaches command lock .quiet) ?_ (fun _ conversation still => ?_)
    fun _ _ still => finished_of_error still
  · exact along_mute (p := ask _) (Q := fun _ _ => True) ⟨trivial, fun _ _ => trivial⟩ now
  refine along_orReturn (along_publishTold still opens) (fun _ _ there => ?_) fun _ _ there => ?_
  · refine along_orReturn (along_stoppedAlready_told (there.2 _ rfl)) (fun _ stopped asked => ?_)
      fun _ _ asked => finished_of_error asked
    cases stopped with
    | true => exact along_commitInterruptedTurn_told [] asked
    | false =>
        refine along_askMute (by trivial) asked fun answer streams => ?_
        cases answer with
        | error error => exact along_failOwnedTurn_finished streams
        | ok _ =>
            refine along_orReturn (along_awaitStream_told wakeups [] streams) ?_ ?_
            · rintro reached ended ⟨phase, somewhere, settled, left⟩
              cases ended with
              | none => exact ⟨phase, somewhere, fun _ _ => settled rfl⟩
              | some text =>
                  obtain ⟨chunks, rfl, rfl⟩ := left text rfl
                  exact along_complete_told somewhere
            · rintro reached error ⟨phase, somewhere, -⟩
              exact finished_of_error somewhere
  · obtain ⟨phase, somewhere⟩ := Option.isSome_iff_exists.mp there.1
    exact finished_of_error somewhere

end ChatWorker

/-! ## A delivery -/

/-- What `load_lock` answered. -/
def Loads (command : TurnRequested) (trace : Trace ChatPorts) : Option ChatLock → Prop
  | some lock => ∃ revision,
      (LockCall.loadLock command.tenantId command.conversationId).Has trace lock revision
  | none => ∃ entry : Option (KvEntry ChatLock), (∀ lock revision, entry ≠ some (.put lock revision)) ∧
      (⟨.kvEntry (.loadLock command.tenantId command.conversationId), .ok entry⟩ : Call ChatPorts) ∈
        trace

/-- What `claim_lock` answered: a terminal lock of the turn, or the one it stored. -/
def Claims (command : TurnRequested) (workerId : String) (lock : ChatLock)
    (trace : Trace ChatPorts) : Prop :=
  let call := LockCall.claimLock command.tenantId command.conversationId command.turnId workerId
  NatsChatBus.FoundTerminal call command.turnId lock trace ∨
    ∃ revision next, (⟨.kvUpdate call lock revision, .ok next⟩ : Call ChatPorts) ∈ trace

/-- How a delivery that drives nothing tells the end of a turn, by the lock it loaded. -/
inductive Closing (command : TurnRequested) (trace : Trace ChatPorts) : List ChatEvent → Prop where
  | silent : Closing command trace []
  | missing (loaded : Loads command trace none) :
      Closing command trace [.error ChatWorker.failureMessage, .clear .failedBeforeCommit]
  | terminal {lock : ChatLock} {events : List ChatEvent} (loaded : Loads command trace (some lock))
      (turn : lock.turnId = command.turnId) (unpublished : lock.terminalEventPublished = false)
      (ends : ChatWorker.terminalEvents lock = .ok (some events)) : Closing command trace events
  | lost {lock : ChatLock} (loaded : Loads command trace (some lock))
      (turn : lock.turnId = command.turnId) (running : lock.state = .running)
      (expired : LockCall.SeenExpired trace lock) :
      Closing command trace [.error ChatWorker.failureMessage, .clear .failedBeforeCommit]

/-- The calls drive the turn of the lock that was claimed, by the protocol. -/
def Drives (command : TurnRequested) (workerId : String) (trace : Trace ChatPorts) : Prop :=
  ∃ lock phase, Claims command workerId lock trace ∧ phaseAt command lock trace = some phase

/-- The calls tell the end of a turn that was driven before, or begin to. -/
def Closes (command : TurnRequested) (trace : Trace ChatPorts) : Prop :=
  ∃ events, Closing command trace events ∧ said trace <+: events ∧ filed trace = []

section

variable {command : TurnRequested} {workerId : String} {lock : ChatLock}
  {trace reached : Trace ChatPorts} {events : List ChatEvent}

theorem Loads.mono {found : Option ChatLock} (loaded : Loads command trace found)
    (since : trace <+: reached) : Loads command reached found := by
  cases found with
  | none =>
      obtain ⟨entry, absent, mem⟩ := loaded
      exact ⟨entry, absent, since.subset mem⟩
  | some lock =>
      obtain ⟨revision, has⟩ := loaded
      exact ⟨revision, has.mono since⟩

theorem Claims.mono (claimed : Claims command workerId lock trace) (since : trace <+: reached) :
    Claims command workerId lock reached := by
  rcases claimed with ⟨terminal, turn, revision, has⟩ | ⟨revision, next, mem⟩
  · exact .inl ⟨terminal, turn, revision, has.mono since⟩
  · exact .inr ⟨revision, next, since.subset mem⟩

theorem Closing.mono (closing : Closing command trace events) (since : trace <+: reached) :
    Closing command reached events := by
  cases closing with
  | silent => exact .silent
  | missing loaded => exact .missing (loaded.mono since)
  | terminal loaded turn unpublished ends => exact .terminal (loaded.mono since) turn unpublished ends
  | lost loaded turn running expired =>
      obtain ⟨now, mem, past⟩ := expired
      exact .lost (loaded.mono since) turn running ⟨now, since.subset mem, past⟩

end

namespace ChatWorker

variable {A : Trace ChatPorts → (op : ChatCall) → op.Ans → Prop} {command : TurnRequested}
  {trace : Trace ChatPorts} {ttl : Timestamp} {workerId : String} {α : Type}

/-- A call a delivery may make. -/
def Delivers (command : TurnRequested) (workerId : String) (trace : Trace ChatPorts)
    (op : ChatCall) : Prop :=
  ∀ answer : op.Ans, Drives command workerId (trace ++ [⟨op, answer⟩]) ∨
    Closes command (trace ++ [⟨op, answer⟩])

theorem delivers_of_allowed {lock : ChatLock} {op : ChatCall}
    (claimed : Claims command workerId lock trace) (allowed : Allowed command lock trace op) :
    Delivers command workerId trace op := by
  intro answer
  obtain ⟨phase, now⟩ := Option.isSome_iff_exists.mp (allowed answer)
  exact .inl ⟨lock, phase, claimed.mono (List.prefix_append _ _), now⟩

/-- A program that drives the turn of the claimed lock. -/
theorem along_drives {lock : ChatLock} {Q : Trace ChatPorts → α → Prop} {p : Program ChatPorts α}
    (claimed : Claims command workerId lock trace)
    (told : Along (S := ChatPorts) A (Allowed command lock) Q trace p) :
    Along (S := ChatPorts) A (Delivers command workerId)
      (fun reached value => trace <+: reached ∧ Q reached value) trace p := by
  refine ((told.adds (R := fun _ => True) fun _ _ _ => trivial).added (R := fun _ => True)
    fun _ _ _ => trivial).calls ?_ |>.imp ?_
  · rintro _ op ⟨allowed, added, rfl, -⟩
    exact delivers_of_allowed (claimed.mono (List.prefix_append _ _)) allowed
  · rintro _ value ⟨post, added, rfl, -⟩
    exact ⟨List.prefix_append _ _, post⟩

theorem closes_of_untold (untold : acts trace = []) : Closes command trace :=
  ⟨[], .silent, by simp [said, untold], by simp [filed, untold]⟩

theorem Still.closes {reached : Trace ChatPorts} (still : Still trace reached)
    (closes : Closes command trace) : Closes command reached := by
  obtain ⟨events, closing, within, none⟩ := closes
  refine ⟨events, closing.mono still.since, ?_, ?_⟩
  · rwa [said, still.same]
  · rwa [filed, still.same]

theorem delivers_of_mute {op : ChatCall} (closes : Closes command trace) (mute : Mute op) :
    Delivers command workerId trace op :=
  fun answer => .inr ((Still.mute mute answer).closes closes)

/-- A piece of a delivery that says nothing. -/
theorem along_silent {Q : Trace ChatPorts → α → Prop} {p : Program ChatPorts α}
    (mute : Along (S := ChatPorts) A (fun _ op => Mute op) Q trace p)
    (closes : Closes command trace) :
    Along (S := ChatPorts) A (Delivers command workerId)
      (fun reached value => Still trace reached ∧ Q reached value) trace p :=
  along_muteActs mute fun _ _ still => delivers_of_mute (still.closes closes)

theorem closes_midway {events before rest : List ChatEvent} (closing : Closing command trace events)
    (split : events = before ++ rest) (told : acts trace = before.map .say) :
    Closes command trace := by
  refine ⟨events, closing, ?_, ?_⟩
  · rw [said, told, split]
    simp [TurnAct.event, List.filterMap_map, Function.comp_def]
  · rw [filed, told]
    simp [TurnAct.commit, List.filterMap_map, Function.comp_def]

/-- The events of an end are told one after the other. -/
theorem along_publishClosing {events rest : List ChatEvent} (before : List ChatEvent)
    (closing : Closing command trace events) (split : events = before ++ rest)
    (told : acts trace = before.map .say) :
    Along (S := ChatPorts) A (Delivers command workerId) (fun reached _ => Closes command reached)
      trace (publishEvents command rest) := by
  induction rest generalizing trace before with
  | nil => exact closes_midway closing split told
  | cons event rest ih =>
      have split' : events = (before ++ [event]) ++ rest := by rw [split, List.append_assoc]; rfl
      have closes := closes_midway closing split told
      have said : ∀ (ts : Timestamp) (answer : Except ChatBusError String),
          acts (trace ++ [⟨.now, ts⟩] ++ [⟨.publishEvent ⟨command.tenantId, command.userId,
            command.conversationId, command.turnId, ts, event⟩, answer⟩]) =
          (before ++ [event]).map .say := by
        intro ts answer
        rw [acts_snoc, acts_snoc, told, List.map_append]
        exact congrArg (· ++ _) (List.append_nil _)
      refine along_orReturn (R := fun reached _ => Closing command reached events ∧
        acts reached = (before ++ [event]).map .say) ?_
        (fun _ _ post => ih _ post.1 split' post.2) fun _ _ post => closes_midway post.1 split' post.2
      refine along_ask (delivers_of_mute closes (by trivial)) fun ts _ => ?_
      have later : ∀ answer, Closing command (trace ++ [⟨.now, ts⟩] ++
          [⟨.publishEvent ⟨command.tenantId, command.userId, command.conversationId,
            command.turnId, ts, event⟩, answer⟩]) events :=
        fun answer => closing.mono (NatsChatBus.since_snoc (List.prefix_append _ _) _)
      refine ⟨fun answer => ?_, fun answer _ => ⟨later answer, said ts answer⟩⟩
      exact .inr (closes_midway (later answer) split' (said ts answer))

theorem mute_ask {op : ChatCall} (mute : Mute op) :
    Along (S := ChatPorts) A (fun _ op => Mute op) (fun _ _ => True) trace (ask op) :=
  ⟨mute, fun _ _ => trivial⟩

theorem mute_acknowledge : Along (S := ChatPorts) A (fun _ op => Mute op) (fun _ _ => True) trace
    (acknowledge command) :=
  along_orReturn (mute_ask (by trivial)) (fun _ _ _ => Along.bind
    (NatsChatBus.along_releaseLock fun _ _ _ => mute_of_issues) fun _ _ _ => trivial)
    fun _ _ _ => trivial

theorem mute_loadLock : Along (S := ChatPorts) A (fun _ op => Mute op)
    (fun reached result => ∀ found, result = .ok found → Loads command reached found) trace
    (NatsChatBus.loadLock command.tenantId command.conversationId) := by
  refine NatsChatBus.along_loadLock trivial ?_ ?_ fun _ _ _ same => NatsChatBus.no_ok same
  · rintro lock revision - _ ⟨⟩
    exact ⟨revision, LockCall.has_snoc _ _ _ _⟩
  · rintro entry absent - _ ⟨⟩
    exact ⟨entry, absent, List.mem_append_right _ List.mem_cons_self⟩

/-- A mark answers with a lock in the state it was asked for. -/
theorem mute_markLockTerminal {tenantId conversationId turnId : String} {holder : Option String}
    {terminal : ChatTerminalUpdate} :
    Along (S := ChatPorts) A (fun _ op => Mute op)
      (fun _ result => ∀ lock, result = .ok lock → lock.state = terminal.state) trace
      (NatsChatBus.markLockTerminal ttl tenantId conversationId turnId holder terminal) := by
  refine NatsChatBus.along_swapLoop (fun _ _ => trivial)
    (fun _ _ _ _ same => NatsChatBus.no_ok same) (fun _ _ _ same => NatsChatBus.no_ok same) ?_
    NatsChatBus.attempts trace List.prefix_rfl
  intro start lock revision since _
  unfold NatsChatBus.markAttempt
  split
  · exact fun _ same => NatsChatBus.no_ok same
  split
  · exact fun _ same => NatsChatBus.no_ok same
  refine NatsChatBus.along_lockExpiresAt trivial fun now _ => ?_
  refine ⟨NatsChatBus.since_snoc since _, trivial, fun _ => ?_⟩
  rintro _ ⟨⟩
  rfl

theorem mute_claimLock : Along (S := ChatPorts) A (fun _ op => Mute op)
    (fun reached result => ∀ lock, result = .ok lock → Claims command workerId lock reached) trace
    (NatsChatBus.claimLock ttl command.tenantId command.conversationId command.turnId workerId) := by
  refine NatsChatBus.along_swapLoop (fun _ _ => trivial)
    (fun _ _ _ _ same => NatsChatBus.no_ok same) (fun _ _ _ same => NatsChatBus.no_ok same) ?_
    NatsChatBus.attempts trace List.prefix_rfl
  intro start lock revision since has
  have asked : ∀ (condition : Bool) reached, trace <+: reached →
      Along (S := ChatPorts) A (fun _ op => Mute op) (fun later _ => trace <+: later) reached
        (NatsChatBus.andFresh condition lock) := by
    intro condition reached since
    unfold NatsChatBus.andFresh
    split
    · exact ⟨trivial, fun _ _ => NatsChatBus.since_snoc since _⟩
    · exact since
  unfold NatsChatBus.claimAttempt
  split
  · rename_i done
    rintro _ ⟨⟩
    exact .inl ⟨done.2, done.1, revision, has⟩
  refine Along.bind (asked _ start since) fun first foreign since => ?_
  split
  · exact fun _ same => NatsChatBus.no_ok same
  refine Along.bind (asked _ first since) fun second other since => ?_
  split
  · exact fun _ same => NatsChatBus.no_ok same
  split
  · exact fun _ same => NatsChatBus.no_ok same
  refine NatsChatBus.along_isExpired trivial fun now _ => ?_
  split
  · exact fun _ same => NatsChatBus.no_ok same
  refine NatsChatBus.along_lockExpiresAt trivial fun later _ => ?_
  refine ⟨NatsChatBus.since_snoc (NatsChatBus.since_snoc since _) _, trivial, fun next => ?_⟩
  rintro _ ⟨⟩
  exact .inr ⟨revision, next, List.mem_append_right _ List.mem_cons_self⟩

/-- What a terminal lock stands for is told, where it may be. -/
theorem along_publishMissing_told {lock : ChatLock} (untold : acts trace = [])
    (closing : ∀ events, lock.terminalEventPublished = false →
      terminalEvents lock = .ok (some events) → Closing command trace events) :
    Along (S := ChatPorts) A (Delivers command workerId) (fun reached _ => Closes command reached)
      trace (publishMissingTerminalEvent command lock) := by
  have closes : Closes command trace := closes_of_untold untold
  unfold publishMissingTerminalEvent
  split
  · exact closes
  · rename_i unpublished
    split
    · exact closes
    · exact closes
    · rename_i events ends
      have ended := closing events (by simpa using unpublished) ends
      refine along_orReturn (along_publishClosing [] ended rfl untold)
        (fun reached _ told => ?_) fun _ _ told => told
      have mute : Along (S := ChatPorts) A (fun _ op => Mute op) (fun _ _ => True) reached
          (NatsChatBus.markTerminalEventPublished command.tenantId command.conversationId
            command.turnId) :=
        (NatsChatBus.along_markTerminalEventPublished fun _ _ _ => mute_of_issues).imp
          fun _ _ _ => trivial
      exact along_orReturn (along_silent mute told) (fun _ _ post => post.1.closes told)
        fun _ _ post => post.1.closes told

/-- The command is acknowledged last, and nothing more is said. -/
theorem along_acknowledge_told (closes : Closes command trace) :
    Along (S := ChatPorts) A (Delivers command workerId) (fun _ _ => True) trace
      (acknowledge command) :=
  (along_silent mute_acknowledge closes).imp fun _ _ _ => trivial

theorem along_recoverTurn_told (untold : acts trace = [])
    (closing : Closing command trace [.error failureMessage, .clear .failedBeforeCommit]) :
    Along (S := ChatPorts) A (Delivers command workerId) (fun _ _ => True) trace
      (recoverTurn ttl command) := by
  refine along_orReturn (along_silent mute_markLockTerminal (closes_of_untold untold))
    (fun marked lock post => ?_) fun _ _ _ => trivial
  obtain ⟨still, failed⟩ := post
  have failed : lock.state = .failed := failed lock rfl
  refine along_orReturn (along_silent (mute_ask (by trivial)) (closes_of_untold
    (still.same.trans untold))) (fun recorded _ post => ?_) fun _ _ _ => trivial
  have later := still.trans post.1
  refine along_orReturn (along_publishMissing_told (later.same.trans untold) ?_) ?_ ?_
  · intro events _ ends
    obtain rfl : [ChatEvent.error failureMessage, .clear .failedBeforeCommit] = events := by
      simpa [terminalEvents, failed] using ends
    exact closing.mono later.since
  · exact fun _ _ told => along_acknowledge_told told
  · exact fun _ _ _ => trivial

theorem along_claimAndDrive_told {wakeups : Nat} (untold : acts trace = []) :
    Along (S := ChatPorts) A (Delivers command workerId) (fun _ _ => True) trace
      (claimAndDrive ttl workerId command wakeups) := by
  refine along_orReturn (along_silent mute_claimLock (closes_of_untold untold))
    (fun claimed lock post => ?_) fun _ _ _ => trivial
  obtain ⟨still, granted⟩ := post
  have granted := granted lock rfl
  have quiet : phaseAt command lock claimed = some .quiet := by
    rw [phaseAt, still.same, untold]
    rfl
  refine along_orReturn (along_drives granted (along_driveTurn_told quiet)) ?_ ?_
  · rintro driven _ ⟨since, phase, now, -⟩
    exact (along_drives (granted.mono since) (along_mute mute_acknowledge now)).imp
      fun _ _ _ => trivial
  · exact fun _ _ _ => trivial

/-- Every path of a delivery. -/
theorem along_runTurn_told {wakeups : Nat} :
    Along (S := ChatPorts) A (Delivers command workerId) (fun _ _ => True) []
      (runTurn ttl workerId command wakeups) := by
  refine along_orReturn (along_silent mute_loadLock (closes_of_untold rfl))
    (fun reached existing post => ?_) fun _ _ _ => trivial
  obtain ⟨⟨-, untold⟩, loaded⟩ := post
  have untold : acts reached = [] := untold
  have loaded := loaded existing rfl
  have closes : Closes command reached := closes_of_untold untold
  cases existing with
  | none =>
      refine along_orReturn (R := fun reached _ => Closes command reached) ?_ ?_ fun _ _ _ => trivial
      · refine along_ask (delivers_of_mute closes (by trivial)) fun answer _ => ?_
        refine along_publishClosing [] ((Closing.missing loaded).mono (List.prefix_append _ _)) rfl ?_
        exact (acts_mute (by trivial) answer).trans untold
      · intro told _ closes
        refine along_orReturn (along_silent (mute_ask (by trivial)) closes) ?_ ?_
        · exact fun _ _ _ => trivial
        · exact fun _ _ _ => trivial
  | some existing =>
      dsimp only
      split
      · trivial
      rename_i own
      have turn : existing.turnId = command.turnId := not_not.mp own
      split
      · exact along_orReturn
          (along_publishMissing_told untold fun _ => Closing.terminal loaded turn)
          (fun _ _ told => along_acknowledge_told told) fun _ _ _ => trivial
      split
      · rename_i running
        refine NatsChatBus.along_isExpired (delivers_of_mute closes (by trivial)) fun now _ => ?_
        have still : Still reached (reached ++ [⟨.now, now⟩]) := @Still.mute _ .now trivial now
        cases past : existing.isExpiredAt now with
        | true =>
            refine along_recoverTurn_told (still.same.trans untold) ?_
            exact .lost (loaded.mono still.since) turn running
              ⟨now, List.mem_append_right _ List.mem_cons_self, past⟩
        | false => trivial
      · exact along_claimAndDrive_told untold

/-- Whatever a delivery's calls are answered, it either drives the turn of the lock it claimed,
or tells the end that the lock it loaded stands for and stores nothing. A driven turn is told in
order; its one commit comes after the last piece with the text of the pieces, and decides what the
last event is. -/
theorem delivery_told {wakeups : Nat} {trace : Trace ChatPorts}
    {q : Program ChatPorts (Except String Unit)}
    (path : (runTurn ttl workerId command wakeups).Resumes trace q) :
    (∃ lock phase, Claims command workerId lock trace ∧ phaseAt command lock trace = some phase ∧
      said trace = phase.told command lock ∧ filed trace = phase.tried ∧
      ∀ commit accepted, (commit, accepted) ∈ filed trace →
        Settles command lock phase.chunks commit) ∨
    ∃ events, Closing command trace events ∧ said trace <+: events ∧ filed trace = [] := by
  have driven : Drives command workerId trace ∨ Closes command trace := by
    cases path with
    | start => exact .inr (closes_of_untold rfl)
    | answer a before =>
        have along := (along_runTurn_told (A := fun _ _ _ => True)).resumes before
          fun _ _ _ _ _ => trivial
        exact along.1 a
  refine driven.imp ?_ id
  rintro ⟨lock, phase, claimed, now⟩
  obtain ⟨told, tried, faithful⟩ := told_after now
  refine ⟨lock, phase, claimed, now, told.symm, tried.symm, fun commit accepted mem => ?_⟩
  have tried : phase.tried = filed trace := tried
  rw [← tried] at mem
  exact faithful faithful_quiet _ mem

end ChatWorker

/-! ## One delivery -/

namespace Spoken

def command : TurnRequested := ⟨"t", "alice", "c1", "t1"⟩

def lock : ChatLock := .requested "t" "alice" "c1" "t1" "m1" "hello" none "alice" 900

/-- Every port works, and the model's stream does these things. -/
def answer : LockStore × List Wakeup → (op : ChatCall) → op.Ans
  | _, .ulid => "m2"
  | _, .assertParentTail _ _ _ _ => .ok ()
  | _, .getConversation _ _ conversationId => .ok ⟨conversationId, "New chat", [], 0⟩
  | _, .commitTurn commit => .ok ⟨commit.conversationId, "New chat", [], 0⟩
  | _, .recordTurnFailed _ _ _ _ _ => .ok ()
  | _, .publishTurnRequested _ => .ok ()
  | _, .ackTurnRequested _ => .ok ()
  | _, .progressTurnRequested _ => .ok ()
  | _, .publishEvent _ => .ok "1"
  | _, .publishStop _ _ => .ok ()
  | _, .streamChat _ => .ok ()
  | (_, wakeups), .select => wakeups.headD .streamEnd
  | (locks, _), op => locks.answer op

def after : LockStore × List Wakeup → ChatCall → LockStore × List Wakeup
  | (locks, wakeups), .select => (locks, wakeups.tail)
  | (locks, wakeups), op => (locks.after op, wakeups)

def start : LockStore × List Wakeup :=
  (LockStore.after ⟨.empty, 0⟩ (.kvCreate (.acquireLock lock) lock),
    [.delta "a", .idle, .delta "b"])

/-- One delivery of the turn, to its end. -/
def trace : Trace ChatPorts :=
  (ChatWorker.runTurn 900 "w1" command 8).transcript (S := ChatPorts) answer after start

end Spoken

open Spoken in
/-- An answer in two pieces: what is stored is the two of them together. -/
theorem delivery_told_spoken :
    ((∃ lock phase, Claims command "w1" lock trace ∧ phaseAt command lock trace = some phase ∧
      said trace = phase.told command lock ∧ filed trace = phase.tried ∧
      ∀ commit accepted, (commit, accepted) ∈ filed trace →
        Settles command lock phase.chunks commit) ∨
    ∃ events, Closing command trace events ∧ said trace <+: events ∧ filed trace = []) ∧
    said trace = [.turnStarted "t1", .userMessage "m1" (some "t1") "hello", .textDelta "a",
      .textDelta "b", .finish "m2" .stop] ∧
    (filed trace).map (fun entry => (entry.1.assistantText, entry.2)) = [("ab", true)] := by
  refine ⟨?_, by decide +kernel, by decide +kernel⟩
  exact ChatWorker.delivery_told (Program.resumes_transcript (S := ChatPorts) answer Spoken.after
    (ChatWorker.runTurn 900 "w1" command 8) start)

end Delphi.Chat
