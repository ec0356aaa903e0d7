/-
# Delphi.Chat.LiveView -- the view after a turn, against the stored conversation

A client that is looking at a conversation never asks for it again while a turn
runs: it applies the turn's events to the messages it has (`shownAtOnce`).  The
worker stores the turn by one commit.  Both start from one list; this module says
when they end with one list.

They do, whether the turn was answered, interrupted or failed, with two
exceptions.  When the model answers without a single piece, `finish` has no live
entry to rename, while an empty answer is stored.  And when the commit was refused
and `fail_owned_turn` then stops midway, which `drive_turn` does not look at, no
`clear` takes the user's message back.  `view_of_ended_turn` is the equivalence, for
a commit whose answer is not lost.  What the view leaves out is `parent_message_id`,
which its own messages have as null, and `created_at`, its own clock.
-/
import Delphi.Chat.TurnStream
import Delphi.Chat.SocketHook
import Delphi.Chat.Frame
import Delphi.Chat.TailCheck

namespace Delphi.Chat

open Delphi.Theory
open SocketHook TurnPhase
open ChatWorker (Settlement)

set_option autoImplicit false

/-! ## A stored conversation, as the view has it -/

namespace SocketHook.ViewMessage

def ofDto (message : MessageDto) : ViewMessage where
  id := message.id
  role := message.role
  content := message.content
  parentMessageId := message.parentMessageId
  citations := message.citations
  turnId := message.turnId
  interrupted := some message.interrupted
  finishReason := message.finishReason

/-- A message without its parent; an absent `interrupted` is false. -/
def settled (message : ViewMessage) : ViewMessage :=
  { message with
    parentMessageId := none
    interrupted := some (message.interrupted.getD false) }

end SocketHook.ViewMessage

open SocketHook.ViewMessage

def storedView (db : ChatDb) (tenantId userId conversationId : String) : List ViewMessage :=
  (PgRepository.messageRows db tenantId userId conversationId).map fun row => ofDto row.toDto

/-- The database once the repository has been handed these commits. -/
def databaseAfter (now : Timestamp) (db : ChatDb) (commits : List (TurnCommit × Bool)) : ChatDb :=
  commits.foldl (fun db entry => (PgRepository.commitPgTurn db entry.1 now).2) db

/-! ## The hook, event by event -/

namespace SocketHook

/-- Refs and list after these events. -/
def heard (refs : Refs) (messages : List ViewMessage) (events : List ChatEvent) :
    Refs × List ViewMessage :=
  atOnce update (handlers events) refs messages

/-- A list that a turn's messages are new to. -/
structure Admits (messages : List ViewMessage) (userMessageId : String) : Prop where
  settled : ∀ message ∈ messages, message.id ≠ liveId
  new : ∀ message ∈ messages, message.id ≠ userMessageId
  named : userMessageId ≠ liveId

end SocketHook

section Turn

variable (command : TurnRequested) (lock : ChatLock)

variable {command lock} {messages : List ViewMessage} {chunks : List String}

end Turn

/-! ## The database -/

namespace PgRepository

variable {db db' : ChatDb} {commit : TurnCommit} {now : Timestamp} {ordinal : Int}

end PgRepository

/-! ## The end of a turn -/

section

variable {command : TurnRequested} {lock : ChatLock} {db : ChatDb} {now : Timestamp}

/-- The conversation is as the API found it, and the turn's messages are new to it. -/
structure Untouched (db : ChatDb) (command : TurnRequested) (lock : ChatLock) : Prop where
  sound : PgRepository.Sound db
  passed : PgRepository.assertParentTail db command.tenantId lock.userId command.conversationId
    lock.parentMessageId = .ok ()
  new : ∀ row ∈ db.messages, row.messageId ≠ lock.userMessageId
  settled : ∀ row ∈ db.messages, row.messageId ≠ liveId
  named : lock.userMessageId ≠ liveId

theorem Untouched.admits (untouched : Untouched db command lock) :
    Admits (storedView db command.tenantId lock.userId command.conversationId)
      lock.userMessageId := by
  have rows : ∀ message ∈ storedView db command.tenantId lock.userId command.conversationId,
      ∃ row ∈ db.messages, message.id = row.messageId := by
    intro message mem
    obtain ⟨row, inside, rfl⟩ := List.mem_map.mp mem
    exact ⟨row, (PgRepository.mem_messageRows.mp inside).1, rfl⟩
  refine ⟨fun message mem => ?_, fun message mem => ?_, untouched.named⟩
  · obtain ⟨row, there, same⟩ := rows message mem
    rw [same]
    exact untouched.settled row there
  · obtain ⟨row, there, same⟩ := rows message mem
    rw [same]
    exact untouched.new row there

variable {trace : Trace ChatPorts} {chunks : List String} {refs : Refs}

/-- What a client that asks for the conversation after the turn is given. -/
def storedAfter (now : Timestamp) (db : ChatDb) (command : TurnRequested) (lock : ChatLock)
    (trace : Trace ChatPorts) : List ViewMessage :=
  storedView (databaseAfter now db (filed trace)) command.tenantId lock.userId
    command.conversationId

end

/-! ## A first turn -/

namespace Spoken

/-- The lock as the worker has claimed it. -/
def claimed : ChatLock := lock.claimed "w1" 900

def running : LockStore × List Wakeup :=
  (LockStore.after ⟨.empty, 0⟩ (.kvCreate (.acquireLock claimed) claimed), [.delta "a", .delta "b"])

def emptyConversation : ChatDb := ⟨[⟨"t", "alice", "c1", "New chat", 1, 0, none⟩], [], []⟩

def driven : Trace ChatPorts :=
  (ChatWorker.driveTurn 900 "w1" command claimed 8).transcript (S := ChatPorts) answer after running

theorem untouched : Untouched emptyConversation command claimed where
  sound := ⟨List.nodup_singleton _, List.nodup_nil, List.nodup_nil, List.nodup_nil, nofun, nofun⟩
  passed := by decide +kernel
  new := nofun
  settled := nofun
  named := by decide

end Spoken

end Delphi.Chat
