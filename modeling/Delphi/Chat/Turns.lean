/-
# Delphi.Chat.Turns -- the API and the worker around a turn

`enqueue_turn` and `stop_turn` of the API, and `run_turn` of the worker with
everything it calls, over the ports of `Bus`.  The maintenance task of a turn is
one tick here (`maintain`): a tick's error reaches the turn as one of the answers
of its `select!`.

`drive_turn` waits in a loop; `wakeups` bounds how often, and a delivery that has
used them up is a worker that is gone.  `orReturn` is the source's `?`.
-/
import Delphi.Chat.Lock
import Delphi.Document.Validation

namespace Delphi.Chat

open Delphi.Theory

set_option autoImplicit false

/-- `text.trim().is_empty()` -/
def isBlank (text : String) : Bool := text.toList.all Document.isWhitespace

/-- The value of an answer, or return its error. -/
def orReturn {ε ε' α β : Type} (convert : ε → ε') (first : Program ChatPorts (Except ε α))
    (next : α → Program ChatPorts (Except ε' β)) : Program ChatPorts (Except ε' β) := do
  match ← first with
  | .ok value => next value
  | .error error => return .error (convert error)

/-! ## The API -/

namespace Api

inductive ServiceError where
  | notFound
  | forbidden
  | staleParent
  | inFlight
  | invalidRequest (message : String)
  | internal (message : String)
deriving DecidableEq

namespace ServiceError

def ofStorage : StorageError → ServiceError
  | .notFound => .notFound
  | .forbidden => .forbidden
  | .staleParent => .staleParent
  | .internal message => .internal message

def ofBus : ChatBusError → ServiceError
  | .inFlight => .inFlight
  | .unavailable => .internal "chat bus unavailable"
  | .payload message => .internal message

end ServiceError

structure AuthContext where
  tenantId : String
  userId : String
  bearerSubject : String
deriving DecidableEq

structure TurnRequest where
  auth : AuthContext
  conversationId : String
  userMessageId : String
  turnId : String
  text : String
  parentMessageId : Option String
deriving DecidableEq

namespace TurnRequest

def lock (request : TurnRequest) (leaseExpiresAt : Timestamp) : ChatLock :=
  ChatLock.requested request.auth.tenantId request.auth.userId request.conversationId request.turnId
    request.userMessageId request.text request.parentMessageId request.auth.bearerSubject
    leaseExpiresAt

def command (request : TurnRequest) : TurnRequested where
  tenantId := request.auth.tenantId
  userId := request.auth.userId
  conversationId := request.conversationId
  turnId := request.turnId

end TurnRequest

section

variable (isUlid : String → Bool) (ttl : Timestamp)

def validateUlid (value field : String) : Except ServiceError Unit :=
  if isUlid value then .ok () else .error (.invalidRequest (field ++ " must be a ULID"))

/-- The checks of a request that ask nobody. -/
def validate (request : TurnRequest) : Except ServiceError Unit := do
  validateUlid isUlid request.userMessageId "user_message_id"
  validateUlid isUlid request.turnId "turn_id"
  if isBlank request.text then .error (.invalidRequest "message text cannot be empty") else .ok ()

/-- The command could not be published: the turn is recorded as failed and unlocked. -/
def giveUp (request : TurnRequest) (error : ChatBusError) :
    Program ChatPorts (Except ServiceError String) := do
  let _ ← ask (.recordTurnFailed request.auth.tenantId request.auth.userId request.conversationId
    request.turnId ("failed to publish turn request: " ++ error.display))
  NatsChatBus.releaseLock request.auth.tenantId request.conversationId request.turnId
  return .error (.ofBus error)

def enqueueTurn (request : TurnRequest) : Program ChatPorts (Except ServiceError String) :=
  match validate isUlid request with
  | .error error => return .error error
  | .ok () =>
      orReturn ServiceError.ofStorage (ask (.assertParentTail request.auth.tenantId
        request.auth.userId request.conversationId request.parentMessageId)) fun _ => do
      let leaseExpiresAt ← NatsChatBus.lockExpiresAt ttl
      orReturn ServiceError.ofBus (NatsChatBus.acquireLock (request.lock leaseExpiresAt)) fun _ => do
      -- The command's own timestamp, which nothing reads.
      let _ ← ask .now
      match ← ask (.publishTurnRequested request.command) with
      | .error error => giveUp request error
      | .ok () => return .ok request.turnId

def stopTurn (auth : AuthContext) (conversationId : String) :
    Program ChatPorts (Except ServiceError Unit) :=
  orReturn ServiceError.ofStorage
    (ask (.getConversation auth.tenantId auth.userId conversationId)) fun _ =>
  orReturn ServiceError.ofBus
    (NatsChatBus.requestStop auth.tenantId conversationId auth.userId) fun found =>
  match found.bind fun lock => lock.workerId.map fun workerId => (workerId, lock.turnId) with
  | some (workerId, turnId) =>
      orReturn ServiceError.ofBus
        (ask (.publishStop workerId ⟨auth.tenantId, conversationId, turnId⟩)) fun _ => return .ok ()
  | none => return .ok ()

end

end Api

/-! ## The worker -/

namespace ChatWorker

def publishEvent (command : TurnRequested) (event : ChatEvent) :
    Program ChatPorts (Except ChatBusError String) := do
  let ts : Timestamp ← ask .now
  ask (.publishEvent ⟨command.tenantId, command.userId, command.conversationId, command.turnId, ts,
    event⟩)

def failureMessage : String := "The assistant failed before the turn could be saved."

/-- Every event, in order; the first failure ends it. -/
def publishEvents (command : TurnRequested) :
    List ChatEvent → Program ChatPorts (Except String Unit)
  | [] => return .ok ()
  | event :: rest =>
      orReturn ChatBusError.display (publishEvent command event) fun _ => publishEvents command rest

def publishFailedTurn (command : TurnRequested) (userId message : String) :
    Program ChatPorts (Except String Unit) := do
  let _ ← ask (.recordTurnFailed command.tenantId userId command.conversationId command.turnId message)
  publishEvents command [.error failureMessage, .clear .failedBeforeCommit]

/-- The events a terminal lock stands for. -/
def terminalEvents (lock : ChatLock) : Except String (Option (List ChatEvent)) :=
  match lock.state with
  | .committed =>
      match lock.assistantMessageId with
      | some assistantMessageId => .ok (some [.finish assistantMessageId .stop])
      | none => .error "committed turn missing assistant message id"
  | .interrupted =>
      match lock.assistantMessageId with
      | some assistantMessageId =>
          .ok (some [.interrupted assistantMessageId (lock.terminalContent.getD "")])
      | none => .error "interrupted turn missing assistant message id"
  | .failed => .ok (some [.error failureMessage, .clear .failedBeforeCommit])
  | .requested | .running => .ok none

def publishMissingTerminalEvent (command : TurnRequested) (lock : ChatLock) :
    Program ChatPorts (Except String Unit) :=
  if lock.terminalEventPublished then return .ok ()
  else
    match terminalEvents lock with
    | .error error => return .error error
    | .ok none => return .ok ()
    | .ok (some events) =>
        orReturn id (publishEvents command events) fun _ =>
        orReturn ChatBusError.display (NatsChatBus.markTerminalEventPublished command.tenantId
          command.conversationId command.turnId) fun _ => return .ok ()

section Turn

variable (ttl : Timestamp) (workerId : String) (command : TurnRequested) (lock : ChatLock)

def failedWith (message : String) : ChatTerminalUpdate where
  state := .failed
  assistantMessageId := none
  content := none
  error := some message

def failOwnedTurn (message : String) : Program ChatPorts (Except String Unit) :=
  orReturn ChatBusError.display (NatsChatBus.markLockTerminal ttl command.tenantId
    command.conversationId command.turnId (some workerId) (failedWith message)) fun failed =>
  orReturn id (publishFailedTurn command lock.userId message) fun _ =>
  orReturn ChatBusError.display (NatsChatBus.markTerminalEventPublished failed.tenantId
    failed.conversationId failed.turnId) fun _ => return .ok ()

/-- What distinguishes a completed turn from an interrupted one. -/
structure Settlement where
  interrupted : Bool
  finishReason : Option String
  refusal : String
  state : ChatLockState
  content : Option String
  event : String → ChatEvent

def completed : Settlement where
  interrupted := false
  finishReason := none
  refusal := "failed to commit completed chat turn: "
  state := .committed
  content := none
  event assistantMessageId := .finish assistantMessageId .stop

def interrupted (assistantText : String) : Settlement where
  interrupted := true
  finishReason := some "user_interrupted"
  refusal := "failed to commit interrupted chat turn: "
  state := .interrupted
  content := some assistantText
  event assistantMessageId := .interrupted assistantMessageId assistantText

def turnCommit (settlement : Settlement) (assistantMessageId assistantText : String) :
    TurnCommit where
  tenantId := command.tenantId
  userId := lock.userId
  conversationId := command.conversationId
  turnId := command.turnId
  userMessageId := lock.userMessageId
  userText := lock.text
  parentMessageId := lock.parentMessageId
  assistantMessageId := assistantMessageId
  assistantText := assistantText
  citations := []
  interrupted := settlement.interrupted
  finishReason := settlement.finishReason

def settledWith (settlement : Settlement) (assistantMessageId : String) : ChatTerminalUpdate where
  state := settlement.state
  assistantMessageId := some assistantMessageId
  content := settlement.content
  error := none

/-- The turn is committed: say so in the lock, then to the client. -/
def announce (settlement : Settlement) (assistantMessageId : String) :
    Program ChatPorts (Except String Unit) :=
  orReturn ChatBusError.display (NatsChatBus.markLockTerminal ttl command.tenantId
    command.conversationId command.turnId (some workerId)
    (settledWith settlement assistantMessageId)) fun terminalLock =>
  orReturn id (publishEvents command [settlement.event assistantMessageId]) fun _ =>
  orReturn ChatBusError.display (NatsChatBus.markTerminalEventPublished terminalLock.tenantId
    terminalLock.conversationId terminalLock.turnId) fun _ => return .ok ()

/-- Commit the turn and announce it; a failed commit fails the turn. `true` when announced. -/
def commitAndAnnounce (settlement : Settlement) (assistantText : String) :
    Program ChatPorts (Except String Bool) := do
  let assistantMessageId : String ← ask .ulid
  match ← ask (.commitTurn (turnCommit command lock settlement assistantMessageId assistantText)) with
  | .error error =>
      let _ ← failOwnedTurn ttl workerId command lock (settlement.refusal ++ StorageError.display error)
      return .ok false
  | .ok _ =>
      orReturn id (announce ttl workerId command settlement assistantMessageId) fun _ =>
      return .ok true

def commitInterruptedTurn (assistantText : String) : Program ChatPorts (Except String Unit) :=
  orReturn id (commitAndAnnounce ttl workerId command lock (interrupted assistantText) assistantText)
    fun _ => return .ok ()

def interruptedNote : String :=
  "The previous assistant response was interrupted by the user and may be incomplete. " ++
  "Treat it as partial context, not as a finished answer."

def llmMessages (history : List MessageDto) (userText : String) : List LlmMessage :=
  let last := history.getLast?.map fun message => message.id
  (history.flatMap fun message =>
    ⟨message.role, message.content⟩ ::
      if some message.id = last ∧ message.interrupted then [⟨.system, interruptedNote⟩] else []) ++
  [⟨.user, userText⟩]

/-- `lock.stop_requested || stop_requested(..)` -/
def stoppedAlready : Program ChatPorts (Except ChatBusError Bool) :=
  if lock.stopRequested then return .ok true
  else do
    let received : Bool ← ask (.receivedStop command)
    if received then return .ok true
    else NatsChatBus.stopRequested command.tenantId command.conversationId command.turnId

def isStopForTurn (signal : StopSignal) : Bool :=
  signal.tenantId = command.tenantId && signal.conversationId = command.conversationId &&
  signal.turnId = command.turnId

/-- The `select!` loop: the text once the stream has ended, or nothing when the turn was
settled on the way. -/
def awaitStream : Nat → String → Program ChatPorts (Except String (Option String))
  | 0, _ => return .error "worker lost"
  | wakeups + 1, assistantText => do
      match ← ask .select with
      | .maintenanceError message =>
          orReturn id (failOwnedTurn ttl workerId command lock message) fun _ => return .ok none
      | .stopPoll =>
          orReturn ChatBusError.display (NatsChatBus.stopRequested command.tenantId
            command.conversationId command.turnId) fun stopped =>
          if stopped then
            orReturn id (commitInterruptedTurn ttl workerId command lock assistantText)
              fun _ => return .ok none
          else awaitStream wakeups assistantText
      | .stopSignal signal =>
          if isStopForTurn command signal then
            orReturn id (commitInterruptedTurn ttl workerId command lock assistantText)
              fun _ => return .ok none
          else awaitStream wakeups assistantText
      | .idle => awaitStream wakeups assistantText
      | .streamEnd => return .ok (some assistantText)
      | .delta chunk =>
          orReturn id (publishEvents command [.textDelta chunk]) fun _ =>
          awaitStream wakeups (assistantText ++ chunk)
      | .streamError message =>
          orReturn id (failOwnedTurn ttl workerId command lock ("LLM stream failed: " ++ message))
            fun _ => return .ok none

/-- The stream has ended: commit, announce, and have a title made for a first answer. -/
def complete (shouldGenerateTitle : Bool) (assistantText : String) :
    Program ChatPorts (Except String Unit) :=
  orReturn id (commitAndAnnounce ttl workerId command lock completed assistantText) fun announced => do
  if announced && shouldGenerateTitle && !isBlank assistantText then
    let _ ← ask (.spawnTitleGeneration command lock assistantText)
    return .ok ()
  else return .ok ()

def driveTurn (wakeups : Nat) : Program ChatPorts (Except String Unit) :=
  orReturn StorageError.display (ask (.getConversation command.tenantId lock.userId
    command.conversationId)) fun conversation =>
  orReturn id (publishEvents command [.turnStarted command.turnId,
    .userMessage lock.userMessageId (some command.turnId) lock.text]) fun _ =>
  orReturn ChatBusError.display (stoppedAlready command lock) fun stopped =>
  if stopped then commitInterruptedTurn ttl workerId command lock ""
  else do
    match ← ask (.streamChat (llmMessages conversation.messages lock.text)) with
    | .error error => failOwnedTurn ttl workerId command lock ("LLM request failed: " ++ error)
    | .ok () =>
        orReturn id (awaitStream ttl workerId command lock wakeups "") fun ended =>
        match ended with
        | none => return .ok ()
        | some assistantText =>
            complete ttl workerId command lock
              (conversation.title = "New chat" && conversation.messages.isEmpty) assistantText

/-- Acknowledge the command and let the conversation go. -/
def acknowledge : Program ChatPorts (Except String Unit) :=
  orReturn ChatBusError.display (ask (.ackTurnRequested command.turnId)) fun _ => do
  NatsChatBus.releaseLock command.tenantId command.conversationId command.turnId
  return .ok ()

def leaseExpiredMessage : String := "chat worker lease expired before completion"

/-- The lease of a running turn has expired: its worker is taken for lost. -/
def recoverTurn : Program ChatPorts (Except String Unit) :=
  orReturn ChatBusError.display (NatsChatBus.markLockTerminal ttl command.tenantId
    command.conversationId command.turnId none (failedWith leaseExpiredMessage)) fun failed =>
  orReturn StorageError.display (ask (.recordTurnFailed command.tenantId failed.userId
    command.conversationId command.turnId leaseExpiredMessage)) fun _ =>
  orReturn id (publishMissingTerminalEvent command failed) fun _ => acknowledge command

end Turn

section Run

variable (ttl : Timestamp) (workerId : String) (command : TurnRequested)

/-- The turn's lock has been claimed or found terminal. -/
def claimAndDrive (wakeups : Nat) : Program ChatPorts (Except String Unit) :=
  orReturn ChatBusError.display (NatsChatBus.claimLock ttl command.tenantId command.conversationId
    command.turnId workerId) fun lock =>
  orReturn id (driveTurn ttl workerId command lock wakeups) fun _ => acknowledge command

def runTurn (wakeups : Nat) : Program ChatPorts (Except String Unit) :=
  orReturn ChatBusError.display (NatsChatBus.loadLock command.tenantId command.conversationId)
    fun existing =>
  match existing with
  | none =>
      orReturn id (publishFailedTurn command command.userId
        "chat turn payload missing before worker claim") fun _ =>
      orReturn ChatBusError.display (ask (.ackTurnRequested command.turnId)) fun _ => return .ok ()
  | some existing =>
      if existing.turnId ≠ command.turnId then
        return .error "conversation is owned by a different turn"
      else if existing.isTerminal then
        orReturn id (publishMissingTerminalEvent command existing) fun _ => acknowledge command
      else if existing.state = .running then do
        let expired ← NatsChatBus.isExpired existing
        if expired then recoverTurn ttl command
        else return .error "chat turn is already running with a fresh lease"
      else claimAndDrive ttl workerId command wakeups

/-- One tick of the maintenance task. -/
def maintain : Program ChatPorts (Except ChatBusError ChatLock) := do
  let _ ← ask (.progressTurnRequested command.turnId)
  NatsChatBus.renewLock ttl command.tenantId command.conversationId command.turnId workerId

end Run

end ChatWorker

/-! ## Any of them -/

/-- A delivery of a command to a worker, and how long the worker lives. -/
structure TurnDelivery where
  command : TurnRequested
  workerId : String
  wakeups : Nat
deriving DecidableEq

inductive ChatJob where
  | enqueue (request : Api.TurnRequest)
  | stop (auth : Api.AuthContext) (conversationId : String)
  | turn (delivery : TurnDelivery)
  | tick (workerId : String) (command : TurnRequested)
deriving DecidableEq

inductive ChatResult where
  | enqueued (result : Except Api.ServiceError String)
  | stopped (result : Except Api.ServiceError Unit)
  | ran (result : Except String Unit)
  | renewed (result : Except ChatBusError ChatLock)

def ChatJob.main (isUlid : String → Bool) (ttl : Timestamp) :
    ChatJob → Program ChatPorts ChatResult
  | .enqueue request => do return .enqueued (← Api.enqueueTurn isUlid ttl request)
  | .stop auth conversationId => do return .stopped (← Api.stopTurn auth conversationId)
  | .turn delivery => do
      return .ran
        (← ChatWorker.runTurn ttl delivery.workerId delivery.command delivery.wakeups)
  | .tick workerId command => do return .renewed (← ChatWorker.maintain ttl workerId command)

end Delphi.Chat
