/-
# Delphi.Chat.Bus -- the chat bus, and the calls of the chat services

The lock of a conversation (`ChatLock`), the command and event contracts, and the
ports of the API and of the worker: the lock bucket, the repository, the command
and event streams, the model, the clock and the id generator.

A call of the lock bucket carries the bus operation that makes it (`LockCall`),
so that a run can be asked who read and who wrote.
-/
import Delphi.Theory.KvBucket
import Delphi.Theory.Program
import Delphi.Chat.Storage

namespace Delphi.Chat

open Delphi.Theory

set_option autoImplicit false

/-! ## Errors -/

inductive ChatBusError where
  | unavailable
  | payload (message : String)
  | inFlight
deriving DecidableEq

namespace ChatBusError

def display : ChatBusError → String
  | .unavailable => "chat bus unavailable"
  | .payload message => "chat bus payload error: " ++ message
  | .inFlight => "chat conversation already has an in-flight turn"

end ChatBusError

namespace StorageError

def display : StorageError → String
  | .notFound => "not found"
  | .forbidden => "forbidden"
  | .staleParent => "stale parent"
  | .internal message => "storage error: " ++ message

end StorageError

/-! ## Locks -/

inductive ChatLockState where
  | requested
  | running
  | committed
  | interrupted
  | failed
deriving DecidableEq

namespace ChatLockState

def isTerminal : ChatLockState → Bool
  | .committed | .interrupted | .failed => true
  | .requested | .running => false

end ChatLockState

structure ChatLock where
  tenantId : String
  userId : String
  conversationId : String
  turnId : String
  userMessageId : String
  text : String
  parentMessageId : Option String
  bearerSubject : String
  state : ChatLockState
  workerId : Option String
  stopRequested : Bool
  stopRequestedBy : Option String
  stopRequestedAt : Option Timestamp
  leaseExpiresAt : Timestamp
  assistantMessageId : Option String
  terminalContent : Option String
  terminalError : Option String
  terminalEventPublished : Bool
deriving DecidableEq

structure ChatTerminalUpdate where
  state : ChatLockState
  assistantMessageId : Option String
  content : Option String
  error : Option String
deriving DecidableEq

namespace ChatLock

def requested (tenantId userId conversationId turnId userMessageId text : String)
    (parentMessageId : Option String) (bearerSubject : String) (leaseExpiresAt : Timestamp) :
    ChatLock where
  tenantId := tenantId
  userId := userId
  conversationId := conversationId
  turnId := turnId
  userMessageId := userMessageId
  text := text
  parentMessageId := parentMessageId
  bearerSubject := bearerSubject
  state := .requested
  workerId := none
  stopRequested := false
  stopRequestedBy := none
  stopRequestedAt := none
  leaseExpiresAt := leaseExpiresAt
  assistantMessageId := none
  terminalContent := none
  terminalError := none
  terminalEventPublished := false

def isExpiredAt (lock : ChatLock) (now : Timestamp) : Bool := lock.leaseExpiresAt ≤ now

def isTerminal (lock : ChatLock) : Bool := lock.state.isTerminal

/-! What each operation writes. -/

def claimed (lock : ChatLock) (workerId : String) (leaseExpiresAt : Timestamp) : ChatLock :=
  { lock with state := .running, workerId := some workerId, leaseExpiresAt }

def terminated (lock : ChatLock) (terminal : ChatTerminalUpdate) (leaseExpiresAt : Timestamp) :
    ChatLock :=
  { lock with
    state := terminal.state
    assistantMessageId := terminal.assistantMessageId
    terminalContent := terminal.content
    terminalError := terminal.error
    terminalEventPublished := false
    leaseExpiresAt }

def published (lock : ChatLock) : ChatLock := { lock with terminalEventPublished := true }

def stopped (lock : ChatLock) (requestedBy : String) (now : Timestamp) : ChatLock :=
  { lock with
    stopRequested := true, stopRequestedBy := some requestedBy, stopRequestedAt := some now }

def renewed (lock : ChatLock) (leaseExpiresAt : Timestamp) : ChatLock := { lock with leaseExpiresAt }

end ChatLock

namespace ChatSubjects

def lockKey (tenantId conversationId : String) : String := tenantId ++ "/" ++ conversationId

end ChatSubjects

/-- An operation of the bus on a lock. -/
inductive LockCall where
  | acquireLock (lock : ChatLock)
  | loadLock (tenantId conversationId : String)
  | claimLock (tenantId conversationId turnId workerId : String)
  | markLockTerminal (tenantId conversationId turnId : String) (workerId : Option String)
      (terminal : ChatTerminalUpdate)
  | markTerminalEventPublished (tenantId conversationId turnId : String)
  | requestStop (tenantId conversationId requestedBy : String)
  | stopRequested (tenantId conversationId turnId : String)
  | renewLock (tenantId conversationId turnId workerId : String)
  | releaseLock (tenantId conversationId turnId : String)
deriving DecidableEq

namespace LockCall

def key : LockCall → String
  | .acquireLock lock => ChatSubjects.lockKey lock.tenantId lock.conversationId
  | .loadLock tenantId conversationId
  | .claimLock tenantId conversationId _ _
  | .markLockTerminal tenantId conversationId _ _ _
  | .markTerminalEventPublished tenantId conversationId _
  | .requestStop tenantId conversationId _
  | .stopRequested tenantId conversationId _
  | .renewLock tenantId conversationId _ _
  | .releaseLock tenantId conversationId _ => ChatSubjects.lockKey tenantId conversationId

end LockCall

/-! ## Contracts -/

structure TurnRequested where
  tenantId : String
  userId : String
  conversationId : String
  turnId : String
deriving DecidableEq

inductive FinishReason where
  | stop
  | error
deriving DecidableEq

inductive ClearReason where
  | cancelled
  | workerLost
  | failedBeforeCommit
deriving DecidableEq

inductive ChatEvent where
  | turnStarted (turnId : String)
  | userMessage (id : String) (turnId : Option String) (content : String)
  | citations (citations : List CitationEntry)
  | textDelta (delta : String)
  | finish (assistantMessageId : String) (finishReason : FinishReason)
  | interrupted (assistantMessageId content : String)
  | clear (reason : ClearReason)
  | error (message : String)
  | titleUpdated (title : String)
deriving DecidableEq

structure ChatEventEnvelope where
  tenantId : String
  userId : String
  conversationId : String
  turnId : String
  ts : Timestamp
  event : ChatEvent
deriving DecidableEq

structure StopSignal where
  tenantId : String
  conversationId : String
  turnId : String
deriving DecidableEq

structure LlmMessage where
  role : MessageRole
  content : String
deriving DecidableEq

/-! ## Ports -/

inductive LockReadError where
  | read (message : String)
  | decode (message : String)
deriving DecidableEq

inductive LockCreateError where
  | alreadyExists
  | other (message : String)
deriving DecidableEq

inductive LockUpdateError where
  | wrongLastRevision
  | other (message : String)
deriving DecidableEq

/-- What the worker's `select!` woke up with. -/
inductive Wakeup where
  | maintenanceError (message : String)
  | stopPoll
  | stopSignal (signal : StopSignal)
  | delta (chunk : String)
  | streamError (message : String)
  | streamEnd
  | idle
deriving DecidableEq

inductive ChatCall where
  | kvEntry (by_ : LockCall)
  | kvCreate (by_ : LockCall) (lock : ChatLock)
  | kvUpdate (by_ : LockCall) (lock : ChatLock) (revision : Nat)
  | kvPurge (by_ : LockCall) (revision : Nat)
  | now
  | ulid
  | assertParentTail (tenantId userId conversationId : String) (parentMessageId : Option String)
  | getConversation (tenantId userId conversationId : String)
  | commitTurn (commit : TurnCommit)
  | recordTurnFailed (tenantId userId conversationId turnId error : String)
  | publishTurnRequested (command : TurnRequested)
  | ackTurnRequested (turnId : String)
  | progressTurnRequested (turnId : String)
  | publishEvent (envelope : ChatEventEnvelope)
  | publishStop (workerId : String) (signal : StopSignal)
  | receivedStop (command : TurnRequested)
  | streamChat (messages : List LlmMessage)
  | select
  | spawnTitleGeneration (command : TurnRequested) (lock : ChatLock) (assistantText : String)

namespace ChatCall

def Ans : ChatCall → Type
  | .kvEntry _ => Except LockReadError (Option (KvEntry ChatLock))
  | .kvCreate _ _ => Except LockCreateError Nat
  | .kvUpdate _ _ _ => Except LockUpdateError Nat
  | .kvPurge _ _ => Except String Unit
  | .now => Timestamp
  | .ulid => String
  | .assertParentTail _ _ _ _ => Except StorageError Unit
  | .getConversation _ _ _ => Except StorageError ConversationDetail
  | .commitTurn _ => Except StorageError ConversationDetail
  | .recordTurnFailed _ _ _ _ _ => Except StorageError Unit
  | .publishTurnRequested _ => Except ChatBusError Unit
  | .ackTurnRequested _ => Except ChatBusError Unit
  | .progressTurnRequested _ => Except ChatBusError Unit
  | .publishEvent _ => Except ChatBusError String
  | .publishStop _ _ => Except ChatBusError Unit
  | .receivedStop _ => Bool
  | .streamChat _ => Except String Unit
  | .select => Wakeup
  | .spawnTitleGeneration _ _ _ => Unit

end ChatCall

def ChatPorts : Signature := ⟨ChatCall, ChatCall.Ans⟩

/-- Issue one call. -/
def ask (op : ChatCall) : Program ChatPorts op.Ans := Program.perform (S := ChatPorts) op

end Delphi.Chat
