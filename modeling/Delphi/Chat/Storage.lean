/-
# Delphi.Chat.Storage -- conversations, messages and turns in Postgres

`PgRepository` of the `storage` crate over its three tables.  A commit is one
transaction on the conversation's row lock, so it is a function of the tables:
find the parent's ordinal, prune what follows it, insert the two messages after
it, and upsert the turn.  The upserts go by the tables' primary keys, which are
tenant-wide.  Every statement is refused whole when a string it binds holds a NUL.

What a commit does is said once, in `Commits`.
-/
import Delphi.Document.Table
import Delphi.Theory.KeyedRows
import Mathlib.Data.List.Sort

namespace Delphi.Chat

open Delphi.Theory

set_option autoImplicit false

/-- Microseconds since the epoch. -/
abbrev Timestamp := Int

inductive StorageError where
  | notFound
  | forbidden
  | staleParent
  | internal (message : String)
deriving DecidableEq

inductive MessageRole where
  | user
  | assistant
  | system
deriving DecidableEq

structure CitationEntry where
  index : Nat
  label : String
  url : Option String
deriving DecidableEq

def CitationEntry.texts (citation : CitationEntry) : List String :=
  citation.label :: citation.url.toList

structure MessageDto where
  id : String
  role : MessageRole
  content : String
  parentMessageId : Option String
  citations : List CitationEntry
  turnId : Option String
  interrupted : Bool
  finishReason : Option String
  createdAt : Timestamp
deriving DecidableEq

structure ConversationDetail where
  id : String
  title : String
  messages : List MessageDto
  updatedAt : Timestamp
deriving DecidableEq

/-! ## Tables -/

structure ConversationRow where
  tenantId : String
  userId : String
  conversationId : String
  title : String
  nextMessageOrdinal : Int
  updatedAt : Timestamp
  deletedAt : Option Timestamp
deriving DecidableEq

structure MessageRow where
  tenantId : String
  userId : String
  conversationId : String
  messageId : String
  role : MessageRole
  content : String
  parentMessageId : Option String
  citations : List CitationEntry
  turnId : Option String
  interrupted : Bool
  finishReason : Option String
  ordinal : Int
  createdAt : Timestamp
deriving DecidableEq

inductive TurnStatus where
  | committed
  | interrupted
  | failed
deriving DecidableEq

structure TurnRow where
  tenantId : String
  turnId : String
  userId : String
  conversationId : String
  userMessageId : Option String
  assistantMessageId : Option String
  parentMessageId : Option String
  status : TurnStatus
  error : Option String
  updatedAt : Timestamp
deriving DecidableEq

namespace ConversationRow

/-- `PRIMARY KEY (tenant_id, conversation_id)` -/
def key (row : ConversationRow) : String × String := (row.tenantId, row.conversationId)

/-- What no operation changes of a conversation. -/
def owner (row : ConversationRow) : String × String × String :=
  (row.tenantId, row.conversationId, row.userId)

def visibleTo (row : ConversationRow) (tenantId userId conversationId : String) : Bool :=
  row.tenantId = tenantId && row.userId = userId && row.conversationId = conversationId &&
  row.deletedAt.isNone

end ConversationRow

namespace MessageRow

/-- `PRIMARY KEY (tenant_id, message_id)` -/
def key (row : MessageRow) : String × String := (row.tenantId, row.messageId)

/-- `UNIQUE (tenant_id, conversation_id, ordinal)` -/
def slot (row : MessageRow) : String × String × Int :=
  (row.tenantId, row.conversationId, row.ordinal)

def owner (row : MessageRow) : String × String × String :=
  (row.tenantId, row.conversationId, row.userId)

/-- The text parameters of the insert. -/
def texts (row : MessageRow) : List String :=
  [row.tenantId, row.userId, row.conversationId, row.messageId, row.content] ++
    row.parentMessageId.toList ++ row.turnId.toList ++ row.finishReason.toList

def isIn (row : MessageRow) (tenantId userId conversationId : String) : Bool :=
  row.tenantId = tenantId && row.userId = userId && row.conversationId = conversationId

def toDto (row : MessageRow) : MessageDto where
  id := row.messageId
  role := row.role
  content := row.content
  parentMessageId := row.parentMessageId
  citations := row.citations
  turnId := row.turnId
  interrupted := row.interrupted
  finishReason := row.finishReason
  createdAt := row.createdAt

end MessageRow

namespace TurnRow

/-- `PRIMARY KEY (tenant_id, turn_id)` -/
def key (row : TurnRow) : String × String := (row.tenantId, row.turnId)

def belongsTo (row : TurnRow) (tenantId userId : String) : Bool :=
  row.tenantId = tenantId && row.userId = userId

end TurnRow

structure ChatDb where
  conversations : List ConversationRow
  messages : List MessageRow
  turns : List TurnRow
deriving DecidableEq

/-- What a commit is given. -/
structure TurnCommit where
  tenantId : String
  userId : String
  conversationId : String
  turnId : String
  userMessageId : String
  userText : String
  parentMessageId : Option String
  assistantMessageId : String
  assistantText : String
  citations : List CitationEntry
  interrupted : Bool
  finishReason : Option String
deriving DecidableEq

namespace PgRepository

/-! ## Parameters -/

/-- The server takes text parameters without a NUL. -/
def bindText (texts : List String) : Except StorageError Unit :=
  if texts.all Document.textStorable then .ok ()
  else .error (.internal
    "error returned from database: invalid byte sequence for encoding \"UTF8\": 0x00")

/-- A `jsonb` parameter with a NUL in a string is refused as well. -/
def bindCitations (citations : List CitationEntry) : Except StorageError Unit :=
  if (citations.flatMap CitationEntry.texts).all Document.textStorable then .ok ()
  else .error (.internal "error returned from database: unsupported Unicode escape sequence")

/-! ## Reads -/

def visibleConversation (db : ChatDb) (tenantId userId conversationId : String) :
    Except StorageError ConversationRow := do
  bindText [tenantId, userId, conversationId]
  match db.conversations.find? fun row => row.visibleTo tenantId userId conversationId with
  | some row => .ok row
  | none => .error .notFound

def byOrdinal (row other : MessageRow) : Bool := row.ordinal ≤ other.ordinal

/-- The rows of a conversation, `ORDER BY ordinal ASC`. -/
def messageRows (db : ChatDb) (tenantId userId conversationId : String) : List MessageRow :=
  (db.messages.filter fun row => row.isIn tenantId userId conversationId).mergeSort byOrdinal

def getConversation (db : ChatDb) (tenantId userId conversationId : String) :
    Except StorageError ConversationDetail := do
  let row ← visibleConversation db tenantId userId conversationId
  return ⟨row.conversationId, row.title,
    (messageRows db row.tenantId row.userId row.conversationId).map MessageRow.toDto, row.updatedAt⟩

/-- `ORDER BY ordinal DESC LIMIT 1` -/
def tail (db : ChatDb) (tenantId userId conversationId : String) : Option MessageRow :=
  (messageRows db tenantId userId conversationId).getLast?

def assertParentTail (db : ChatDb) (tenantId userId conversationId : String)
    (parentMessageId : Option String) : Except StorageError Unit := do
  let _ ← visibleConversation db tenantId userId conversationId
  if (tail db tenantId userId conversationId).map (·.messageId) = parentMessageId then .ok ()
  else .error .staleParent

/-! ## Commit -/

/-- The ordinal a commit's messages follow.  The other parameters of the lookup are those of
the read before it. -/
def parentOrdinal (db : ChatDb) (commit : TurnCommit) : Except StorageError Int :=
  match commit.parentMessageId with
  | none => .ok 0
  | some parentMessageId => do
      bindText [parentMessageId]
      match db.messages.find? fun row =>
          row.isIn commit.tenantId commit.userId commit.conversationId &&
          row.messageId = parentMessageId with
      | some row => .ok row.ordinal
      | none => .error .staleParent

/-- `DELETE … WHERE ordinal > parent_ordinal` -/
def prune (messages : List MessageRow) (commit : TurnCommit) (ordinal : Int) : List MessageRow :=
  messages.filter fun row =>
    !(row.isIn commit.tenantId commit.userId commit.conversationId && decide (ordinal < row.ordinal))

def userRow (commit : TurnCommit) (ordinal : Int) (now : Timestamp) : MessageRow where
  tenantId := commit.tenantId
  userId := commit.userId
  conversationId := commit.conversationId
  messageId := commit.userMessageId
  role := .user
  content := commit.userText
  parentMessageId := commit.parentMessageId
  citations := []
  turnId := some commit.turnId
  interrupted := false
  finishReason := none
  ordinal := ordinal + 1
  createdAt := now

def assistantRow (commit : TurnCommit) (ordinal : Int) (now : Timestamp) : MessageRow where
  tenantId := commit.tenantId
  userId := commit.userId
  conversationId := commit.conversationId
  messageId := commit.assistantMessageId
  role := .assistant
  content := commit.assistantText
  parentMessageId := some commit.userMessageId
  citations := commit.citations
  turnId := some commit.turnId
  interrupted := commit.interrupted
  finishReason := commit.finishReason
  ordinal := ordinal + 2
  -- `now + Duration::milliseconds(1)`
  createdAt := now + 1000

/-- `DO UPDATE SET` of the user message. -/
def updateUser (held row : MessageRow) : MessageRow :=
  { held with
    content := row.content
    parentMessageId := row.parentMessageId
    turnId := row.turnId
    ordinal := row.ordinal
    createdAt := row.createdAt }

/-- `DO UPDATE SET` of the assistant message. -/
def updateAssistant (held row : MessageRow) : MessageRow :=
  { held with
    content := row.content
    parentMessageId := row.parentMessageId
    citations := row.citations
    turnId := row.turnId
    interrupted := row.interrupted
    finishReason := row.finishReason
    ordinal := row.ordinal
    createdAt := row.createdAt }

/-- An upsert fails when a string of it is refused, or the row it leaves is not alone in
its slot. -/
def insertMessage (update : MessageRow → MessageRow → MessageRow) (messages : List MessageRow)
    (row : MessageRow) : Except StorageError (List MessageRow) := do
  bindText row.texts
  bindCitations row.citations
  let stored := upsert MessageRow.key update messages row
  if (stored.map MessageRow.slot).Nodup then .ok stored
  else .error (.internal
    "error returned from database: duplicate key value violates unique constraint \"chat_message_tenant_id_conversation_id_ordinal_key\"")

def turnRow (commit : TurnCommit) (now : Timestamp) : TurnRow where
  tenantId := commit.tenantId
  turnId := commit.turnId
  userId := commit.userId
  conversationId := commit.conversationId
  userMessageId := some commit.userMessageId
  assistantMessageId := some commit.assistantMessageId
  parentMessageId := commit.parentMessageId
  status := if commit.interrupted then .interrupted else .committed
  error := none
  updatedAt := now

/-- All columns are set, and `error` is cleared.  The strings of the row were bound by the
inserts of the messages, so that none is refused here. -/
def upsertTurn (turns : List TurnRow) (row : TurnRow) : List TurnRow :=
  upsert TurnRow.key (fun _ row => row) turns row

def touch (conversations : List ConversationRow) (commit : TurnCommit) (ordinal : Int)
    (now : Timestamp) : List ConversationRow :=
  conversations.map fun row =>
    if row.visibleTo commit.tenantId commit.userId commit.conversationId then
      { row with updatedAt := now, nextMessageOrdinal := ordinal + 2 + 1 }
    else row

/-- The transaction of `commit_pg_turn`. -/
def commitTransaction (db : ChatDb) (commit : TurnCommit) (now : Timestamp) :
    Except StorageError ChatDb := do
  let _ ← visibleConversation db commit.tenantId commit.userId commit.conversationId
  let ordinal ← parentOrdinal db commit
  let messages ← insertMessage updateUser (prune db.messages commit ordinal)
    (userRow commit ordinal now)
  let messages ← insertMessage updateAssistant messages (assistantRow commit ordinal now)
  return {
    conversations := touch db.conversations commit ordinal now
    messages := messages
    turns := upsertTurn db.turns (turnRow commit now) }

/-- The transaction, and the read of the conversation that follows it. -/
def commitPgTurn (db : ChatDb) (commit : TurnCommit) (now : Timestamp) :
    Except StorageError ConversationDetail × ChatDb :=
  match commitTransaction db commit now with
  | .error error => (.error error, db)
  | .ok db' => (getConversation db' commit.tenantId commit.userId commit.conversationId, db')

def commitTurn (db : ChatDb) (commit : TurnCommit) (now : Timestamp) :
    Except StorageError ConversationDetail × ChatDb :=
  commitPgTurn db { commit with interrupted := false, finishReason := none } now

def commitInterruptedTurn (db : ChatDb) (commit : TurnCommit) (now : Timestamp) :
    Except StorageError ConversationDetail × ChatDb :=
  commitPgTurn db { commit with interrupted := true, finishReason := some "user_interrupted" } now

/-! ## The other writes -/

def createConversation (db : ChatDb) (tenantId userId : String) (title : Option String)
    (id : String) (now : Timestamp) : Except StorageError ChatDb := do
  bindText [tenantId, userId, id, title.getD "New chat"]
  if db.conversations.any fun row => row.key = (tenantId, id) then
    .error (.internal
      "error returned from database: duplicate key value violates unique constraint \"chat_conversation_pkey\"")
  else
    .ok { db with conversations := db.conversations ++
      [⟨tenantId, userId, id, title.getD "New chat", 1, now, none⟩] }

/-- `UPDATE chat_conversation … WHERE` visible and the title is as required. -/
def updateConversation (db : ChatDb) (tenantId userId conversationId : String)
    (applies : ConversationRow → Bool) (change : ConversationRow → ConversationRow) : ChatDb :=
  { db with conversations := db.conversations.map fun row =>
      if row.visibleTo tenantId userId conversationId && applies row then change row else row }

def renameConversation (db : ChatDb) (tenantId userId conversationId title : String)
    (now : Timestamp) : Except StorageError ChatDb := do
  bindText [tenantId, userId, conversationId, title]
  return updateConversation db tenantId userId conversationId (fun _ => true)
    fun row => { row with title := title, updatedAt := now }

def renameConversationIfDefault (db : ChatDb) (tenantId userId conversationId title : String)
    (now : Timestamp) : Except StorageError ChatDb := do
  bindText [tenantId, userId, conversationId, title]
  return updateConversation db tenantId userId conversationId (fun row => row.title = "New chat")
    fun row => { row with title := title, updatedAt := now }

def deleteConversation (db : ChatDb) (tenantId userId conversationId : String) (now : Timestamp) :
    Except StorageError ChatDb := do
  bindText [tenantId, userId, conversationId]
  return updateConversation db tenantId userId conversationId (fun _ => true)
    fun row => { row with deletedAt := some now, updatedAt := now }

def failedRow (tenantId userId conversationId turnId error : String) (now : Timestamp) :
    TurnRow where
  tenantId := tenantId
  turnId := turnId
  userId := userId
  conversationId := conversationId
  userMessageId := none
  assistantMessageId := none
  parentMessageId := none
  status := .failed
  error := some error
  updatedAt := now

def updateFailed (held row : TurnRow) : TurnRow :=
  { held with status := .failed, error := row.error, updatedAt := row.updatedAt }

def recordTurnFailed (db : ChatDb) (tenantId userId conversationId turnId error : String)
    (now : Timestamp) : Except StorageError ChatDb := do
  let _ ← visibleConversation db tenantId userId conversationId
  bindText [turnId, error]
  let row := failedRow tenantId userId conversationId turnId error now
  return { db with turns := upsert TurnRow.key updateFailed db.turns row }

/-! ## What a commit does -/

/-- A sequence that succeeds: both of its parts did. -/
theorem bind_eq_ok {A B : Type} {first : Except StorageError A}
    {next : A → Except StorageError B} {result : B} :
    (first >>= next) = .ok result ↔ ∃ value, first = .ok value ∧ next value = .ok result := by
  cases first with
  | error error => simp [bind, Except.bind]
  | ok value => simp [bind, Except.bind]

theorem bindText_eq_ok {texts : List String} :
    bindText texts = .ok () ↔ ∀ text ∈ texts, Document.textStorable text = true := by
  unfold bindText
  split
  · rename_i taken
    exact iff_of_true rfl (List.all_eq_true.mp taken)
  · rename_i refused
    refine iff_of_false nofun fun taken => refused ?_
    exact List.all_eq_true.mpr taken

theorem bindCitations_eq_ok {citations : List CitationEntry} :
    bindCitations citations = .ok () ↔
      ∀ text ∈ citations.flatMap CitationEntry.texts, Document.textStorable text = true := by
  unfold bindCitations
  split
  · rename_i taken
    exact iff_of_true rfl (List.all_eq_true.mp taken)
  · rename_i refused
    refine iff_of_false nofun fun taken => refused ?_
    exact List.all_eq_true.mpr taken

/-- The insert of the row is not refused for a string. -/
structure Storable (row : MessageRow) : Prop where
  texts : bindText row.texts = .ok ()
  citations : bindCitations row.citations = .ok ()

theorem storable_iff {row : MessageRow} : Storable row ↔
    (∀ text ∈ row.texts, Document.textStorable text = true) ∧
      ∀ text ∈ row.citations.flatMap CitationEntry.texts, Document.textStorable text = true := by
  rw [← bindText_eq_ok, ← bindCitations_eq_ok]
  exact ⟨fun storable => ⟨storable.texts, storable.citations⟩, fun bound => ⟨bound.1, bound.2⟩⟩

theorem visible_of_ok {db : ChatDb} {tenantId userId conversationId : String}
    {row : ConversationRow} (found : visibleConversation db tenantId userId conversationId = .ok row) :
    row ∈ db.conversations ∧ row.visibleTo tenantId userId conversationId = true := by
  obtain ⟨-, -, found⟩ := bind_eq_ok.mp found
  split at found
  · rename_i held here
    cases found
    have met := List.find?_some here
    exact ⟨List.mem_of_find?_eq_some here, met⟩
  · cases found

theorem insertMessage_ok {update : MessageRow → MessageRow → MessageRow}
    {messages stored : List MessageRow} {row : MessageRow}
    (inserted : insertMessage update messages row = .ok stored) :
    stored = upsert MessageRow.key update messages row ∧ (stored.map MessageRow.slot).Nodup := by
  obtain ⟨-, -, inserted⟩ := bind_eq_ok.mp inserted
  obtain ⟨-, -, inserted⟩ := bind_eq_ok.mp inserted
  simp only at inserted
  split at inserted
  · rename_i distinct
    cases inserted
    exact ⟨rfl, distinct⟩
  · cases inserted

theorem storable_of_insertMessage {update : MessageRow → MessageRow → MessageRow}
    {messages stored : List MessageRow} {row : MessageRow}
    (inserted : insertMessage update messages row = .ok stored) : Storable row := by
  obtain ⟨_, texts, inserted⟩ := bind_eq_ok.mp inserted
  obtain ⟨_, citations, -⟩ := bind_eq_ok.mp inserted
  exact ⟨texts, citations⟩

theorem insertMessage_of_storable {update : MessageRow → MessageRow → MessageRow}
    {messages : List MessageRow} {row : MessageRow} (storable : Storable row)
    (distinct : ((upsert MessageRow.key update messages row).map MessageRow.slot).Nodup) :
    insertMessage update messages row = .ok (upsert MessageRow.key update messages row) := by
  unfold insertMessage
  simp only [storable.texts, storable.citations, bind, Except.bind, if_pos distinct]

/-- A commit that succeeds: the conversation is visible, the parent is found, the
messages after it are pruned, and the two new ones and the turn are upserted. -/
structure Commits (db : ChatDb) (commit : TurnCommit) (now : Timestamp) (ordinal : Int)
    (between : List MessageRow) (db' : ChatDb) : Prop where
  visible : ∃ row, visibleConversation db commit.tenantId commit.userId commit.conversationId =
    .ok row
  parent : parentOrdinal db commit = .ok ordinal
  user : insertMessage updateUser (prune db.messages commit ordinal) (userRow commit ordinal now) =
    .ok between
  assistant : insertMessage updateAssistant between (assistantRow commit ordinal now) =
    .ok db'.messages
  turns : db'.turns = upsertTurn db.turns (turnRow commit now)
  conversations : db'.conversations = touch db.conversations commit ordinal now

theorem commits_of_ok {db db' : ChatDb} {commit : TurnCommit} {now : Timestamp}
    (done : commitTransaction db commit now = .ok db') :
    ∃ ordinal between, Commits db commit now ordinal between db' := by
  obtain ⟨row, visible, done⟩ := bind_eq_ok.mp done
  obtain ⟨ordinal, parent, done⟩ := bind_eq_ok.mp done
  obtain ⟨between, user, done⟩ := bind_eq_ok.mp done
  obtain ⟨messages, assistant, done⟩ := bind_eq_ok.mp done
  cases done
  exact ⟨ordinal, between, ⟨row, visible⟩, parent, user, assistant, rfl, rfl⟩

theorem commitTransaction_of_commits {db db' : ChatDb} {commit : TurnCommit} {now : Timestamp}
    {ordinal : Int} {between : List MessageRow} (commits : Commits db commit now ordinal between db') :
    commitTransaction db commit now = .ok db' := by
  obtain ⟨⟨row, visible⟩, parent, user, assistant, turns, conversations⟩ := commits
  unfold commitTransaction
  simp only [visible, parent, user, assistant, bind, Except.bind, pure, Except.pure]
  rw [← turns, ← conversations]

/-- The row a parent names. -/
theorem parentOrdinal_ok {db : ChatDb} {commit : TurnCommit} {ordinal : Int}
    (found : parentOrdinal db commit = .ok ordinal) :
    (commit.parentMessageId = none ∧ ordinal = 0) ∨
    ∃ row ∈ db.messages, commit.parentMessageId = some row.messageId ∧ row.ordinal = ordinal ∧
      row.isIn commit.tenantId commit.userId commit.conversationId = true := by
  unfold parentOrdinal at found
  split at found
  · rename_i none_
    cases found
    exact .inl ⟨none_, rfl⟩
  · rename_i parent some_
    obtain ⟨-, -, found⟩ := bind_eq_ok.mp found
    split at found
    · rename_i row here
      cases found
      have met := List.find?_some here
      simp only [Bool.and_eq_true, decide_eq_true_eq] at met
      exact .inr ⟨row, List.mem_of_find?_eq_some here, by rw [some_, met.2], rfl, met.1⟩
    · cases found

end PgRepository

end Delphi.Chat
