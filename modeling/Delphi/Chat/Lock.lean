/-
# Delphi.Chat.Lock -- the lock operations of the NATS bus

`acquire_kv_lock` to `renew_kv_lock` and `release_lock`, one bucket call at a
time.  Five of them are one loop (`swapLoop`): read, decide, swap at the revision
read, and start over when the revision has moved.  They differ in what they do
with the record they read.

Every test of a lease reads the clock anew, as `is_expired` does.
-/
import Delphi.Chat.Bus

namespace Delphi.Chat

open Delphi.Theory

set_option autoImplicit false

namespace NatsChatBus

/-! ## The clock -/

def isExpired (lock : ChatLock) : Program ChatPorts Bool := do
  let now : Timestamp ← ask .now
  return lock.isExpiredAt now

/-- `condition && !lock.is_expired()` -/
def andFresh (condition : Bool) (lock : ChatLock) : Program ChatPorts Bool :=
  if condition then do
    let expired ← isExpired lock
    return !expired
  else return false

def lockExpiresAt (ttl : Timestamp) : Program ChatPorts Timestamp := do
  let now : Timestamp ← ask .now
  return now + ttl

/-! ## Reading -/

def readError : LockReadError → ChatBusError
  | .read message => .payload ("read chat lock: " ++ message)
  | .decode message => .payload ("decode chat lock: " ++ message)

def loadLock (tenantId conversationId : String) :
    Program ChatPorts (Except ChatBusError (Option ChatLock)) := do
  match ← ask (.kvEntry (.loadLock tenantId conversationId)) with
  | .error error => return .error (readError error)
  | .ok (some (.put lock _)) => return .ok (some lock)
  | .ok _ => return .ok none

def stopRequested (tenantId conversationId turnId : String) :
    Program ChatPorts (Except ChatBusError Bool) := do
  match ← ask (.kvEntry (.stopRequested tenantId conversationId turnId)) with
  | .error error => return .error (readError error)
  | .ok (some (.put lock _)) =>
      let expired ← isExpired lock
      return .ok (!expired && lock.turnId = turnId && lock.stopRequested)
  | .ok _ => return .ok false

/-! ## Acquiring -/

def createKvLock (call : LockCall) (lock : ChatLock) :
    Program ChatPorts (Except ChatBusError Unit) := do
  match ← ask (.kvCreate call lock) with
  | .ok _ => return .ok ()
  | .error .alreadyExists => return .error .inFlight
  | .error (.other message) => return .error (.payload ("create chat lock: " ++ message))

def acquireLock (lock : ChatLock) : Program ChatPorts (Except ChatBusError Unit) := do
  let call := LockCall.acquireLock lock
  match ← ask (.kvEntry call) with
  | .error error => return .error (readError error)
  | .ok (some (.put stored revision)) =>
      if ← isExpired stored then
        match ← ask (.kvPurge call revision) with
        | .error message => return .error (.payload ("purge expired chat lock: " ++ message))
        | .ok () => createKvLock call lock
      else return .error .inFlight
  | .ok _ => createKvLock call lock

/-! ## Swapping -/

/-- What one attempt does with the record it read. -/
inductive Attempt (α : Type) where
  | answer (result : Except ChatBusError α)
  | swap (lock : ChatLock) (result : α)

/-- `for _ in 0..8` over read, decide and swap. -/
def swapLoop {α : Type} (call : LockCall) (context : String) (missing : Except ChatBusError α)
    (attempt : ChatLock → Nat → Program ChatPorts (Attempt α)) :
    Nat → Program ChatPorts (Except ChatBusError α)
  | 0 => return .error (.payload (context ++ " CAS retry limit exceeded"))
  | attempts + 1 => do
      match ← ask (.kvEntry call) with
      | .error error => return .error (readError error)
      | .ok (some (.put lock revision)) =>
          match ← attempt lock revision with
          | .answer result => return result
          | .swap lock result =>
              match ← ask (.kvUpdate call lock revision) with
              | .ok _ => return .ok result
              | .error .wrongLastRevision => swapLoop call context missing attempt attempts
              | .error (.other message) =>
                  return .error (.payload (context ++ ": " ++ message))
      | .ok _ => return missing

def attempts : Nat := 8

section Operations

variable (ttl : Timestamp)

def claimAttempt (turnId workerId : String) (lock : ChatLock) :
    Program ChatPorts (Attempt ChatLock) := do
  if lock.turnId = turnId ∧ lock.isTerminal = true then return .answer (.ok lock)
  else if ← andFresh (lock.turnId ≠ turnId) lock then return .answer (.error .inFlight)
  else if ← andFresh (lock.turnId = turnId ∧ lock.state = .running ∧
      lock.workerId ≠ some workerId) lock then
    return .answer (.error .inFlight)
  else if lock.turnId ≠ turnId then return .answer (.error .inFlight)
  else if ← isExpired lock then
    return .answer (.error (.payload "chat lock payload expired before worker claim"))
  else
    let leaseExpiresAt ← lockExpiresAt ttl
    let lock := lock.claimed workerId leaseExpiresAt
    return .swap lock lock

def claimLock (tenantId conversationId turnId workerId : String) :
    Program ChatPorts (Except ChatBusError ChatLock) :=
  swapLoop (.claimLock tenantId conversationId turnId workerId) "claim chat lock"
    (.error (.payload "chat lock payload missing before worker claim"))
    (fun lock _ => claimAttempt ttl turnId workerId lock) attempts

/-- Does the lock belong to the worker the caller names, if it names one? -/
def isHeldBy (lock : ChatLock) : Option String → Bool
  | none => true
  | some workerId => lock.workerId = some workerId

def markAttempt (turnId : String) (workerId : Option String) (terminal : ChatTerminalUpdate)
    (lock : ChatLock) : Program ChatPorts (Attempt ChatLock) := do
  if lock.turnId ≠ turnId then return .answer (.error .inFlight)
  else if isHeldBy lock workerId = false then return .answer (.error .inFlight)
  else
    let leaseExpiresAt ← lockExpiresAt ttl
    let lock := lock.terminated terminal leaseExpiresAt
    return .swap lock lock

def markLockTerminal (tenantId conversationId turnId : String) (workerId : Option String)
    (terminal : ChatTerminalUpdate) : Program ChatPorts (Except ChatBusError ChatLock) :=
  swapLoop (.markLockTerminal tenantId conversationId turnId workerId terminal)
    "mark terminal chat lock" (.error .inFlight)
    (fun lock _ => markAttempt ttl turnId workerId terminal lock) attempts

def publishedAttempt (turnId : String) (lock : ChatLock) : Program ChatPorts (Attempt Unit) :=
  if lock.turnId ≠ turnId ∨ lock.isTerminal = false then return .answer (.ok ())
  else return .swap lock.published ()

def markTerminalEventPublished (tenantId conversationId turnId : String) :
    Program ChatPorts (Except ChatBusError Unit) :=
  swapLoop (.markTerminalEventPublished tenantId conversationId turnId)
    "mark terminal event published" (.ok ()) (fun lock _ => publishedAttempt turnId lock) attempts

def stopAttempt (call : LockCall) (requestedBy : String) (lock : ChatLock) (revision : Nat) :
    Program ChatPorts (Attempt (Option ChatLock)) := do
  if ← isExpired lock then
    let _ ← ask (.kvPurge call revision)
    return .answer (.ok none)
  else
    let now : Timestamp ← ask .now
    let lock := lock.stopped requestedBy now
    return .swap lock (some lock)

def requestStop (tenantId conversationId requestedBy : String) :
    Program ChatPorts (Except ChatBusError (Option ChatLock)) :=
  let call := LockCall.requestStop tenantId conversationId requestedBy
  swapLoop call "request stop" (.ok none) (stopAttempt call requestedBy) attempts

def renewAttempt (turnId workerId : String) (lock : ChatLock) :
    Program ChatPorts (Attempt ChatLock) := do
  if lock.turnId ≠ turnId ∨ lock.workerId ≠ some workerId then return .answer (.error .inFlight)
  else if ← isExpired lock then return .answer (.error .inFlight)
  else
    let leaseExpiresAt ← lockExpiresAt ttl
    let lock := lock.renewed leaseExpiresAt
    return .swap lock lock

def renewLock (tenantId conversationId turnId workerId : String) :
    Program ChatPorts (Except ChatBusError ChatLock) :=
  swapLoop (.renewLock tenantId conversationId turnId workerId) "renew chat lock" (.error .inFlight)
    (fun lock _ => renewAttempt ttl turnId workerId lock) attempts

/-! ## Releasing -/

/-- Every failure is a log line. -/
def releaseLock (tenantId conversationId turnId : String) : Program ChatPorts Unit := do
  let call := LockCall.releaseLock tenantId conversationId turnId
  match ← ask (.kvEntry call) with
  | .ok (some (.put stored revision)) =>
      if stored.turnId ≠ turnId then return ()
      else
        let _ ← ask (.kvPurge call revision)
        return ()
  | _ => return ()

end Operations

end NatsChatBus

/-! ## Any of them -/

inductive LockAnswer where
  | unit
  | lock (lock : ChatLock)
  | found (lock : Option ChatLock)
  | flag (value : Bool)
deriving DecidableEq

namespace LockCall

def answerWith {α : Type} (wrap : α → LockAnswer) (result : Except ChatBusError α) :
    Except ChatBusError LockAnswer := result.map wrap

/-- The operation a call stands for. -/
def run (ttl : Timestamp) : LockCall → Program ChatPorts (Except ChatBusError LockAnswer)
  | .acquireLock lock => do
      return answerWith (fun _ => .unit) (← NatsChatBus.acquireLock lock)
  | .loadLock tenantId conversationId => do
      return answerWith .found (← NatsChatBus.loadLock tenantId conversationId)
  | .claimLock tenantId conversationId turnId workerId => do
      return answerWith .lock
        (← NatsChatBus.claimLock ttl tenantId conversationId turnId workerId)
  | .markLockTerminal tenantId conversationId turnId workerId terminal => do
      return answerWith .lock
        (← NatsChatBus.markLockTerminal ttl tenantId conversationId turnId workerId terminal)
  | .markTerminalEventPublished tenantId conversationId turnId => do
      return answerWith (fun _ => .unit)
        (← NatsChatBus.markTerminalEventPublished tenantId conversationId turnId)
  | .requestStop tenantId conversationId requestedBy => do
      return answerWith .found
        (← NatsChatBus.requestStop tenantId conversationId requestedBy)
  | .stopRequested tenantId conversationId turnId => do
      return answerWith .flag (← NatsChatBus.stopRequested tenantId conversationId turnId)
  | .renewLock tenantId conversationId turnId workerId => do
      return answerWith .lock
        (← NatsChatBus.renewLock ttl tenantId conversationId turnId workerId)
  | .releaseLock tenantId conversationId turnId => do
      NatsChatBus.releaseLock tenantId conversationId turnId
      return .ok .unit

end LockCall

end Delphi.Chat
