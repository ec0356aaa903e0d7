/-
# Delphi.Chat.History -- one history in two repositories

`MemoryChatRepository` holds a conversation's messages as a list and truncates it
after the parent; `PgRepository` deletes by ordinal and inserts at the next two.
Run side by side on commits whose message ids are new to the tenant, they hold the
same history and give the same answers on exactly the calls whose strings Postgres
takes (`histories_agree`): the list holds a NUL as it holds any character, and the
tables refuse it (`histories_differ`).

What carries the induction is `Agree`: ordinals are dense from one on, so that a
position in the list is an ordinal, and every message's parent is the one before
it.
-/
import Delphi.Chat.Frame

namespace Delphi.Chat

open Delphi.Theory

set_option autoImplicit false

/-! ## MemoryChatRepository -/

structure StoredConversation where
  id : String
  tenantId : String
  userId : String
  title : String
  updatedAt : Timestamp
  deletedAt : Option Timestamp
  nextMessageOrdinal : Int
  messages : List MessageDto

/-- The map of conversations, by id. -/
abbrev MemoryState := String → Option StoredConversation

namespace MemoryChatRepository

def visibleTo (row : StoredConversation) (tenantId userId : String) : Bool :=
  row.deletedAt.isNone && row.tenantId = tenantId && row.userId = userId

def ensureVisible (row : StoredConversation) (tenantId userId : String) :
    Except StorageError Unit :=
  if visibleTo row tenantId userId then .ok ()
  else if row.tenantId = tenantId then .error .forbidden
  else .error .notFound

def toDetail (row : StoredConversation) : ConversationDetail :=
  ⟨row.id, row.title, row.messages, row.updatedAt⟩

def createConversation (state : MemoryState) (tenantId userId : String) (title : Option String)
    (id : String) (now : Timestamp) : MemoryState :=
  Function.update state id
    (some ⟨id, tenantId, userId, title.getD "New chat", now, none, 1, []⟩)

/-- How many messages a commit keeps. -/
def retainLen (messages : List MessageDto) : Option String → Except StorageError Nat
  | some parentId =>
      match messages.findIdx? (·.id = parentId) with
      | some position => .ok (position + 1)
      | none => .error .staleParent
  | none => .ok 0

def userMessage (commit : TurnCommit) (now : Timestamp) : MessageDto where
  id := commit.userMessageId
  role := .user
  content := commit.userText
  parentMessageId := commit.parentMessageId
  citations := []
  turnId := some commit.turnId
  interrupted := false
  finishReason := none
  createdAt := now

def assistantMessage (commit : TurnCommit) (now : Timestamp) : MessageDto where
  id := commit.assistantMessageId
  role := .assistant
  content := commit.assistantText
  parentMessageId := some commit.userMessageId
  citations := commit.citations
  turnId := some commit.turnId
  interrupted := commit.interrupted
  finishReason := commit.finishReason
  createdAt := now

def append (row : StoredConversation) (commit : TurnCommit) (retained : Nat) (now : Timestamp) :
    StoredConversation :=
  let messages := row.messages.take retained ++
    [userMessage commit now, assistantMessage commit now]
  { row with messages, updatedAt := now, nextMessageOrdinal := messages.length + 1 }

def commitTurnWithMetadata (state : MemoryState) (commit : TurnCommit) (now : Timestamp) :
    Except StorageError ConversationDetail × MemoryState :=
  match state commit.conversationId with
  | none => (.error .notFound, state)
  | some row =>
      match ensureVisible row commit.tenantId commit.userId with
      | .error error => (.error error, state)
      | .ok () =>
          match retainLen row.messages commit.parentMessageId with
          | .error error => (.error error, state)
          | .ok retained =>
              let row := append row commit retained now
              (.ok (toDetail row), Function.update state commit.conversationId (some row))

def commitTurn (state : MemoryState) (commit : TurnCommit) (now : Timestamp) :
    Except StorageError ConversationDetail × MemoryState :=
  commitTurnWithMetadata state { commit with interrupted := false, finishReason := none } now

def commitInterruptedTurn (state : MemoryState) (commit : TurnCommit) (now : Timestamp) :
    Except StorageError ConversationDetail × MemoryState :=
  commitTurnWithMetadata state
    { commit with interrupted := true, finishReason := some "user_interrupted" } now

end MemoryChatRepository

/-! ## Calls on both -/

/-- One call of `commit_turn` or `commit_interrupted_turn`, with the clocks of both sides. -/
structure TurnCall where
  interrupted : Bool
  turnId : String
  userMessageId : String
  userText : String
  parentMessageId : Option String
  assistantMessageId : String
  assistantText : String
  citations : List CitationEntry
  pgNow : Timestamp
  memoryNow : Timestamp

/-- What a call has the repository write, but for the parent. -/
def TurnCall.texts (call : TurnCall) : List String :=
  [call.turnId, call.userMessageId, call.userText, call.assistantMessageId, call.assistantText] ++
    call.citations.flatMap CitationEntry.texts

/-- The two repositories. -/
structure Pair where
  db : ChatDb
  memory : MemoryState

/-- The conversation all calls are on. -/
structure Conversation where
  tenantId : String
  userId : String
  id : String

namespace Conversation

variable (conversation : Conversation)

def commit (call : TurnCall) : TurnCommit where
  tenantId := conversation.tenantId
  userId := conversation.userId
  conversationId := conversation.id
  turnId := call.turnId
  userMessageId := call.userMessageId
  userText := call.userText
  parentMessageId := call.parentMessageId
  assistantMessageId := call.assistantMessageId
  assistantText := call.assistantText
  citations := call.citations
  interrupted := call.interrupted
  finishReason := if call.interrupted then some "user_interrupted" else none

def onPostgres (db : ChatDb) (call : TurnCall) : Except StorageError ConversationDetail × ChatDb :=
  if call.interrupted then
    PgRepository.commitInterruptedTurn db (conversation.commit call) call.pgNow
  else PgRepository.commitTurn db (conversation.commit call) call.pgNow

def onMemory (memory : MemoryState) (call : TurnCall) :
    Except StorageError ConversationDetail × MemoryState :=
  if call.interrupted then
    MemoryChatRepository.commitInterruptedTurn memory (conversation.commit call) call.memoryNow
  else MemoryChatRepository.commitTurn memory (conversation.commit call) call.memoryNow

def both (state : Pair) (call : TurnCall) : Pair :=
  ⟨(conversation.onPostgres state.db call).2, (conversation.onMemory state.memory call).2⟩

def rows (state : Pair) : List MessageRow :=
  PgRepository.messageRows state.db conversation.tenantId conversation.userId conversation.id

/-- The call's message ids are distinct, and the tenant has no message with either. -/
structure NewToTenant (db : ChatDb) (call : TurnCall) : Prop where
  distinct : call.userMessageId ≠ call.assistantMessageId
  user : ∀ row ∈ db.messages, row.tenantId = conversation.tenantId →
    row.messageId ≠ call.userMessageId
  assistant : ∀ row ∈ db.messages, row.tenantId = conversation.tenantId →
    row.messageId ≠ call.assistantMessageId

/-- The ids of every call are new when it is made. -/
def AllNew (state : Pair) : List TurnCall → Prop
  | [] => True
  | call :: rest => conversation.NewToTenant state.db call ∧
      AllNew (conversation.both state call) rest

end Conversation

/-! ## Agreement -/

/-- A message but for its `created_at`. -/
def MessageDto.history (message : MessageDto) : MessageDto := { message with createdAt := 0 }

/-- Every message's parent is the one before it; the first one's is `parent`. -/
def Chained : Option String → List MessageDto → Prop
  | _, [] => True
  | parent, message :: rest => message.parentMessageId = parent ∧ Chained (some message.id) rest

structure Agree (conversation : Conversation) (state : Pair) : Prop where
  histories : ∃ stored, state.memory conversation.id = some stored ∧
    stored.tenantId = conversation.tenantId ∧ stored.userId = conversation.userId ∧
    stored.deletedAt = none ∧
    stored.nextMessageOrdinal = (conversation.rows state).length + 1 ∧
    stored.messages.map MessageDto.history =
      (conversation.rows state).map fun row => row.toDto.history
  next : ∃ row, PgRepository.visibleConversation state.db conversation.tenantId
      conversation.userId conversation.id = .ok row ∧
    row.nextMessageOrdinal = (conversation.rows state).length + 1
  ordinals : (conversation.rows state).map MessageRow.ordinal =
    (List.range (conversation.rows state).length).map fun (i : Nat) => (i : Int) + 1
  parents : Chained none ((conversation.rows state).map MessageRow.toDto)

/-- The parent is absent, or a message of the conversation. -/
def ParentKnown (conversation : Conversation) (state : Pair) (call : TurnCall) : Prop :=
  ∀ parent, call.parentMessageId = some parent →
    ∃ row ∈ conversation.rows state, row.messageId = parent

/-- No string that reaches Postgres has a NUL: the parent of the call is looked up, and once
it is known the others are written. -/
structure Bindable (conversation : Conversation) (state : Pair) (call : TurnCall) : Prop where
  parent : ∀ parent, call.parentMessageId = some parent → Document.textStorable parent = true
  texts : ParentKnown conversation state call →
    ∀ text ∈ call.texts, Document.textStorable text = true

/-- Both commit the same history, or both refuse an unknown parent and change nothing. -/
inductive SameAnswer (conversation : Conversation) (state : Pair) (call : TurnCall) : Prop where
  | committed (detail detail' : ConversationDetail) (known : ParentKnown conversation state call)
      (pg : (conversation.onPostgres state.db call).1 = .ok detail)
      (memory : (conversation.onMemory state.memory call).1 = .ok detail')
      (same : detail.messages.map MessageDto.history = detail'.messages.map MessageDto.history)
  | stale (unknown : ¬ ParentKnown conversation state call)
      (pg : (conversation.onPostgres state.db call).1 = .error .staleParent)
      (memory : (conversation.onMemory state.memory call).1 = .error .staleParent)
      (unchanged : conversation.both state call = state)

/-! ## Both sides of a call -/

variable {conversation : Conversation} {state : Pair} {call : TurnCall}

theorem onPostgres_eq (db : ChatDb) (call : TurnCall) : conversation.onPostgres db call =
    PgRepository.commitPgTurn db (conversation.commit call) call.pgNow := by
  unfold Conversation.onPostgres
  split
  · rename_i interrupted
    simp only [PgRepository.commitInterruptedTurn, Conversation.commit, interrupted, if_true]
  · rename_i committed
    simp only [PgRepository.commitTurn, Conversation.commit, committed]
    rfl

theorem onMemory_eq (memory : MemoryState) (call : TurnCall) : conversation.onMemory memory call =
    MemoryChatRepository.commitTurnWithMetadata memory (conversation.commit call)
      call.memoryNow := by
  unfold Conversation.onMemory
  split
  · rename_i interrupted
    simp only [MemoryChatRepository.commitInterruptedTurn, Conversation.commit, interrupted, if_true]
  · rename_i committed
    simp only [MemoryChatRepository.commitTurn, Conversation.commit, committed]
    rfl

theorem newIds_of_newToTenant (new : conversation.NewToTenant state.db call) (ordinal : Int) :
    PgRepository.NewIds state.db (conversation.commit call) ordinal := by
  refine ⟨?_, ?_, new.distinct⟩
  · intro row mem key
    exact new.user row (List.mem_of_mem_filter mem) (congrArg Prod.fst key) (congrArg Prod.snd key)
  · intro row mem key
    exact new.assistant row (List.mem_of_mem_filter mem) (congrArg Prod.fst key)
      (congrArg Prod.snd key)

/-! ## Chains -/

/-- The id a message after `messages` has as its parent. -/
def chainEnd : Option String → List MessageDto → Option String
  | parent, [] => parent
  | _, message :: rest => chainEnd (some message.id) rest

theorem chained_append (parent : Option String) (messages added : List MessageDto) :
    Chained parent (messages ++ added) ↔
      Chained parent messages ∧ Chained (chainEnd parent messages) added := by
  induction messages generalizing parent with
  | nil => simp [Chained, chainEnd]
  | cons message rest ih => simp [Chained, chainEnd, ih, and_assoc]

theorem Chained.take {parent : Option String} {messages : List MessageDto}
    (chained : Chained parent messages) (count : Nat) : Chained parent (messages.take count) := by
  rw [← List.take_append_drop count messages, chained_append] at chained
  exact chained.1

/-- The messages up to one end in it. -/
theorem chainEnd_take {messages : List MessageDto} {id : String} (parent : Option String)
    (mem : ∃ message ∈ messages, message.id = id) :
    chainEnd parent (messages.take (messages.findIdx (·.id = id) + 1)) = some id := by
  induction messages generalizing parent with
  | nil =>
      obtain ⟨message, mem, -⟩ := mem
      cases mem
  | cons head rest ih =>
      by_cases here : head.id = id
      · simp [List.findIdx_cons, here, chainEnd]
      · have later : ∃ message ∈ rest, message.id = id := by
          obtain ⟨message, mem, named⟩ := mem
          rcases List.mem_cons.mp mem with rfl | mem
          · exact absurd named here
          · exact ⟨message, mem, named⟩
        simp [List.findIdx_cons, here, chainEnd, ih _ later]

/-! ## The parent on both sides -/

theorem bindText_parent (bindable : Bindable conversation state call) {parent : String}
    (given : call.parentMessageId = some parent) : PgRepository.bindText [parent] = .ok () := by
  rw [PgRepository.bindText_eq_ok]
  intro text mem
  rw [List.mem_singleton.mp mem]
  exact bindable.parent parent given

theorem parentOrdinal_of_known (bindable : Bindable conversation state call)
    (known : ParentKnown conversation state call) :
    ∃ ordinal, PgRepository.parentOrdinal state.db (conversation.commit call) = .ok ordinal := by
  cases given : call.parentMessageId with
  | none => exact ⟨0, by simp [PgRepository.parentOrdinal, Conversation.commit, given]⟩
  | some parent =>
      obtain ⟨row, mem, named⟩ := known parent given
      obtain ⟨mem, own⟩ := PgRepository.mem_messageRows.mp mem
      have found : (state.db.messages.find? fun row => row.isIn conversation.tenantId
          conversation.userId conversation.id && row.messageId = parent).isSome := by
        rw [List.find?_isSome]
        exact ⟨row, mem, by simp [own, named]⟩
      obtain ⟨held, found⟩ := Option.isSome_iff_exists.mp found
      refine ⟨held.ordinal, ?_⟩
      simp only [PgRepository.parentOrdinal, Conversation.commit, given,
        bindText_parent bindable given, bind, Except.bind, found]

theorem parentOrdinal_of_unknown (bindable : Bindable conversation state call)
    (unknown : ¬ ParentKnown conversation state call) :
    PgRepository.parentOrdinal state.db (conversation.commit call) = .error .staleParent := by
  cases found : PgRepository.parentOrdinal state.db (conversation.commit call) with
  | error error =>
      unfold PgRepository.parentOrdinal at found
      split at found
      · cases found
      · rename_i parent given
        rw [bindText_parent bindable given] at found
        simp only [bind, Except.bind] at found
        split at found
        · cases found
        · cases found
          rfl
  | ok ordinal =>
      refine absurd ?_ unknown
      intro parent given
      rcases PgRepository.parentOrdinal_ok found with ⟨none_, -⟩ | ⟨row, mem, named, -, own⟩
      · rw [Conversation.commit, given] at none_
        cases none_
      · rw [Conversation.commit, given, Option.some.injEq] at named
        exact ⟨row, PgRepository.mem_messageRows.mpr ⟨mem, own⟩, named.symm⟩

/-- The rows a commit keeps. -/
def Conversation.retained (conversation : Conversation) (state : Pair) (call : TurnCall) :
    List MessageRow :=
  PgRepository.upTo (conversation.rows state) call.parentMessageId

/-- With dense ordinals the parent's is the number of rows kept. -/
theorem length_retained (sound : PgRepository.Sound state.db) (agree : Agree conversation state)
    {ordinal : Int}
    (parent : PgRepository.parentOrdinal state.db (conversation.commit call) = .ok ordinal) :
    ((conversation.retained state call).length : Int) = ordinal := by
  unfold Conversation.retained
  rcases PgRepository.parentOrdinal_ok parent with ⟨none_, rfl⟩ | ⟨row, mem, named, rfl, own⟩
  · have none_ : call.parentMessageId = none := none_
    simp [none_, PgRepository.upTo]
  · have named : call.parentMessageId = some row.messageId := named
    have own : row.isIn conversation.tenantId conversation.userId conversation.id = true := own
    have mem : row ∈ conversation.rows state := PgRepository.mem_messageRows.mpr ⟨mem, own⟩
    have inside : (conversation.rows state).findIdx (·.messageId = row.messageId) <
        (conversation.rows state).length :=
      List.findIdx_lt_length_of_exists ⟨row, mem, by simp⟩
    rw [named, PgRepository.upTo, List.length_take, Nat.min_eq_left inside]
    have at_ : (conversation.rows state)[(conversation.rows state).findIdx
        (·.messageId = row.messageId)] = row := by
      have same := @List.findIdx_getElem _ (fun other : MessageRow => other.messageId = row.messageId)
        _ inside
      obtain ⟨heldMem, heldOwn⟩ := PgRepository.mem_messageRows.mp (List.getElem_mem inside)
      refine sound.messages.unique heldMem (PgRepository.mem_messageRows.mp mem).1 ?_
      simp only [MessageRow.isIn, Bool.and_eq_true, decide_eq_true_eq] at heldOwn own same
      simp only [MessageRow.key, heldOwn.1.1, own.1.1, same]
    have dense := congrArg (·[(conversation.rows state).findIdx
      (·.messageId = row.messageId)]?) agree.ordinals
    simp only [List.getElem?_map, List.getElem?_range inside, List.getElem?_eq_getElem inside,
      Option.map_some, Option.some.injEq, at_] at dense
    rw [dense]
    rfl

theorem ids_of_histories {messages : List MessageDto} {rows : List MessageRow}
    (same : messages.map MessageDto.history = rows.map fun row => row.toDto.history) :
    messages.map MessageDto.id = rows.map MessageRow.messageId := by
  have := congrArg (List.map MessageDto.id) same
  rw [List.map_map, List.map_map] at this
  exact this

theorem findIdx?_of_histories {messages : List MessageDto} {rows : List MessageRow}
    (same : messages.map MessageDto.history = rows.map fun row => row.toDto.history) (id : String) :
    messages.findIdx? (·.id = id) = rows.findIdx? (·.messageId = id) := by
  have onIds : ∀ p : String → Bool, messages.findIdx? (p ∘ MessageDto.id) =
      rows.findIdx? (p ∘ MessageRow.messageId) := by
    intro p
    rw [← List.findIdx?_map, ← List.findIdx?_map, ids_of_histories same]
  exact onIds fun other => other = id

/-- The list is truncated to what the rows kept show. -/
theorem retainLen_of_known {messages : List MessageDto}
    (same : messages.map MessageDto.history =
      (conversation.rows state).map fun row => row.toDto.history)
    (known : ParentKnown conversation state call) :
    ∃ count, MemoryChatRepository.retainLen messages call.parentMessageId = .ok count ∧
      (messages.take count).map MessageDto.history =
        (conversation.retained state call).map fun row => row.toDto.history := by
  unfold Conversation.retained
  cases given : call.parentMessageId with
  | none => exact ⟨0, rfl, rfl⟩
  | some parent =>
      obtain ⟨row, mem, named⟩ := known parent given
      have found : messages.findIdx? (·.id = parent) =
          some ((conversation.rows state).findIdx (·.messageId = parent)) := by
        rw [findIdx?_of_histories same]
        exact List.findIdx?_eq_some_of_exists ⟨row, mem, by simpa using named⟩
      refine ⟨(conversation.rows state).findIdx (·.messageId = parent) + 1, ?_, ?_⟩
      · simp only [MemoryChatRepository.retainLen, found]
      · rw [PgRepository.upTo, List.map_take, same, List.map_take]

theorem retainLen_of_unknown {messages : List MessageDto}
    (same : messages.map MessageDto.history =
      (conversation.rows state).map fun row => row.toDto.history)
    (unknown : ¬ ParentKnown conversation state call) :
    MemoryChatRepository.retainLen messages call.parentMessageId = .error .staleParent := by
  cases given : call.parentMessageId with
  | none =>
      refine absurd ?_ unknown
      intro parent some_
      rw [given] at some_
      cases some_
  | some parent =>
      have missing : messages.findIdx? (·.id = parent) = none := by
        rw [findIdx?_of_histories same, List.findIdx?_eq_none_iff]
        intro row mem
        by_contra named
        refine unknown ?_
        intro other given'
        rw [given, Option.some.injEq] at given'
        subst given'
        exact ⟨row, mem, by simpa using named⟩
      simp only [MemoryChatRepository.retainLen, missing]

theorem chainEnd_retained (known : ParentKnown conversation state call) :
    chainEnd none ((conversation.retained state call).map MessageRow.toDto) =
      call.parentMessageId := by
  unfold Conversation.retained
  cases given : call.parentMessageId with
  | none => rfl
  | some parent =>
      obtain ⟨row, mem, named⟩ := known parent given
      rw [PgRepository.upTo, List.map_take]
      have index : (conversation.rows state).findIdx (·.messageId = parent) =
          ((conversation.rows state).map MessageRow.toDto).findIdx (·.id = parent) := by
        rw [List.findIdx_map]
        rfl
      rw [index]
      exact chainEnd_take none ⟨row.toDto, List.mem_map_of_mem mem, named⟩

/-! ## One call -/

theorem commitTurnWithMetadata_of {memory : MemoryState} {stored : StoredConversation}
    {commit : TurnCommit} (found : memory commit.conversationId = some stored)
    (tenant : stored.tenantId = commit.tenantId) (user : stored.userId = commit.userId)
    (live : stored.deletedAt = none) (now : Timestamp) :
    MemoryChatRepository.commitTurnWithMetadata memory commit now =
      match MemoryChatRepository.retainLen stored.messages commit.parentMessageId with
      | .error error => (.error error, memory)
      | .ok retained =>
          (.ok (MemoryChatRepository.toDetail
            (MemoryChatRepository.append stored commit retained now)),
          Function.update memory commit.conversationId
            (some (MemoryChatRepository.append stored commit retained now))) := by
  have visible : MemoryChatRepository.ensureVisible stored commit.tenantId commit.userId =
      .ok () := by
    simp [MemoryChatRepository.ensureVisible, MemoryChatRepository.visibleTo, tenant, user, live]
  simp only [MemoryChatRepository.commitTurnWithMetadata, found, visible]

theorem both_of_unknown (agree : Agree conversation state)
    (bindable : Bindable conversation state call)
    (unknown : ¬ ParentKnown conversation state call) : SameAnswer conversation state call := by
  obtain ⟨stored, found, tenant, user, live, -, same⟩ := agree.histories
  obtain ⟨row, visible, -⟩ := agree.next
  have pg : conversation.onPostgres state.db call = (.error .staleParent, state.db) := by
    rw [onPostgres_eq, PgRepository.commitPgTurn, PgRepository.commitTransaction,
      parentOrdinal_of_unknown bindable unknown]
    simp [show PgRepository.visibleConversation state.db (conversation.commit call).tenantId
      (conversation.commit call).userId (conversation.commit call).conversationId = .ok row
      from visible, bind, Except.bind]
  have memory : conversation.onMemory state.memory call = (.error .staleParent, state.memory) := by
    rw [onMemory_eq, commitTurnWithMetadata_of found tenant user live]
    simp only [show (conversation.commit call).parentMessageId = call.parentMessageId from rfl,
      retainLen_of_unknown same unknown]
  refine .stale unknown (by rw [pg]) (by rw [memory]) ?_
  simp [Conversation.both, pg, memory]

/-- The rows a commit leaves, as the frame has them. -/
theorem rows_both (sound : PgRepository.Sound state.db) {db' : ChatDb} {ordinal : Int}
    {between : List MessageRow}
    (commits : PgRepository.Commits state.db (conversation.commit call) call.pgNow ordinal between
      db') (new : conversation.NewToTenant state.db call) :
    PgRepository.messageRows db' conversation.tenantId conversation.userId conversation.id =
      conversation.retained state call ++
        [PgRepository.userRow (conversation.commit call) ordinal call.pgNow,
          PgRepository.assistantRow (conversation.commit call) ordinal call.pgNow] := by
  have after := PgRepository.messageRows_commit commits (newIds_of_newToTenant new ordinal)
  rw [← sound.upTo_eq commits.parent] at after
  exact after

theorem ordinals_append {kept : List MessageRow} {ordinal : Int} (length : (kept.length : Int) = ordinal)
    (dense : kept.map MessageRow.ordinal =
      (List.range kept.length).map fun (i : Nat) => (i : Int) + 1)
    {user assistant : MessageRow} (first : user.ordinal = ordinal + 1)
    (second : assistant.ordinal = ordinal + 2) :
    (kept ++ [user, assistant]).map MessageRow.ordinal =
      (List.range (kept ++ [user, assistant]).length).map fun (i : Nat) => (i : Int) + 1 := by
  rw [List.length_append, List.length_cons, List.length_cons, List.length_nil, List.range_succ,
    List.range_succ, List.map_append, List.map_append, List.map_append, dense]
  simp [first, second, ← length, Int.add_assoc]

theorem dense_retained (agree : Agree conversation state) :
    (conversation.retained state call).map MessageRow.ordinal =
      (List.range (conversation.retained state call).length).map fun (i : Nat) => (i : Int) + 1 := by
  unfold Conversation.retained
  cases call.parentMessageId with
  | none => rfl
  | some parent =>
      rw [PgRepository.upTo, List.map_take, agree.ordinals, ← List.map_take, List.take_range,
        List.length_take]

theorem chained_retained (agree : Agree conversation state) :
    Chained none ((conversation.retained state call).map MessageRow.toDto) := by
  unfold Conversation.retained
  cases call.parentMessageId with
  | none => trivial
  | some parent =>
      rw [PgRepository.upTo, List.map_take]
      exact agree.parents.take _

/-- The conversation's own ids were bound when it was found. -/
theorem bindText_ids (agree : Agree conversation state) :
    ∀ text ∈ [conversation.tenantId, conversation.userId, conversation.id],
      Document.textStorable text = true := by
  obtain ⟨row, visible, -⟩ := agree.next
  obtain ⟨_, bound, -⟩ := PgRepository.bind_eq_ok.mp visible
  exact PgRepository.bindText_eq_ok.mp bound

theorem storable_finishReason (conversation : Conversation) (call : TurnCall) :
    ∀ text ∈ (conversation.commit call).finishReason.toList, Document.textStorable text = true := by
  unfold Conversation.commit
  cases call.interrupted
  · simp
  · simp only [if_true, Option.toList, List.forall_mem_singleton]
    decide

/-- The two inserts bind the conversation's ids, the parent and the call's own strings. -/
theorem storable_rows_iff
    (ids : ∀ text ∈ [conversation.tenantId, conversation.userId, conversation.id],
      Document.textStorable text = true)
    (parent : ∀ parent, call.parentMessageId = some parent → Document.textStorable parent = true)
    (ordinal : Int) :
    PgRepository.Storable (PgRepository.userRow (conversation.commit call) ordinal call.pgNow) ∧
      PgRepository.Storable
        (PgRepository.assistantRow (conversation.commit call) ordinal call.pgNow) ↔
    ∀ text ∈ call.texts, Document.textStorable text = true := by
  have finish := storable_finishReason conversation call
  have parent : ∀ text ∈ call.parentMessageId.toList, Document.textStorable text = true := by
    simpa using parent
  rw [PgRepository.storable_iff, PgRepository.storable_iff]
  simp only [MessageRow.texts, PgRepository.userRow, PgRepository.assistantRow, TurnCall.texts,
    Conversation.commit, List.forall_mem_append, List.forall_mem_cons, List.flatMap_nil,
    Option.toList_some, List.not_mem_nil, false_imp_iff, implies_true, and_true] at *
  tauto

/-- A commit that Postgres takes binds no string with a NUL. -/
theorem texts_of_commits {db' : ChatDb} {ordinal : Int} {between : List MessageRow}
    (agree : Agree conversation state)
    (parent : ∀ parent, call.parentMessageId = some parent → Document.textStorable parent = true)
    (commits : PgRepository.Commits state.db (conversation.commit call) call.pgNow ordinal between
      db') : ∀ text ∈ call.texts, Document.textStorable text = true :=
  (storable_rows_iff (bindText_ids agree) parent ordinal).mp
    ⟨PgRepository.storable_of_insertMessage commits.user,
      PgRepository.storable_of_insertMessage commits.assistant⟩

theorem both_of_known (sound : PgRepository.Sound state.db) (agree : Agree conversation state)
    (new : conversation.NewToTenant state.db call) (bindable : Bindable conversation state call)
    (known : ParentKnown conversation state call) :
    SameAnswer conversation state call ∧ Agree conversation (conversation.both state call) := by
  obtain ⟨stored, found, tenant, user, live, -, same⟩ := agree.histories
  obtain ⟨row, visible, -⟩ := agree.next
  obtain ⟨ordinal, parent⟩ := parentOrdinal_of_known bindable known
  obtain ⟨user', assistant'⟩ := (storable_rows_iff (bindText_ids agree) bindable.parent
    ordinal).mpr (bindable.texts known)
  obtain ⟨between, commits⟩ := @PgRepository.commits_of_newIds _ (conversation.commit call) _
    ordinal sound row visible parent (newIds_of_newToTenant new ordinal) user' assistant'
  obtain ⟨detail, pg, listed⟩ := PgRepository.commitPgTurn_of_commits commits
  obtain ⟨count, kept, shown⟩ := retainLen_of_known same known
  have memory := @commitTurnWithMetadata_of _ _ (conversation.commit call) found tenant user live
    call.memoryNow
  simp only [show (conversation.commit call).parentMessageId = call.parentMessageId from rfl,
    kept] at memory
  rw [← onPostgres_eq] at pg
  rw [← onMemory_eq] at memory
  have length := length_retained sound agree parent
  have after : conversation.rows (conversation.both state call) =
      conversation.retained state call ++
        [PgRepository.userRow (conversation.commit call) ordinal call.pgNow,
          PgRepository.assistantRow (conversation.commit call) ordinal call.pgNow] := by
    rw [Conversation.rows, Conversation.both, pg]
    exact rows_both sound commits new
  have messages : (MemoryChatRepository.append stored (conversation.commit call) count
        call.memoryNow).messages.map MessageDto.history =
      (conversation.rows (conversation.both state call)).map fun row => row.toDto.history := by
    rw [after, MemoryChatRepository.append, List.map_append, shown, List.map_append]
    rfl
  have total : ((conversation.rows (conversation.both state call)).length : Int) = ordinal + 2 := by
    rw [after, List.length_append, ← length]
    rfl
  have counted := congrArg List.length messages
  rw [List.length_map, List.length_map] at counted
  refine ⟨.committed detail _ known (by rw [pg]) (by rw [memory]) ?_, ?_, ?_, ?_, ?_⟩
  · rw [MemoryChatRepository.toDetail, messages, listed, List.map_map, Conversation.rows,
      Conversation.both, pg]
    rfl
  · refine ⟨MemoryChatRepository.append stored (conversation.commit call) count call.memoryNow, ?_,
      tenant, user, live, ?_, messages⟩
    · rw [Conversation.both, memory]
      exact Function.update_self ..
    · rw [← counted]
      rfl
  · have touched := @PgRepository.visible_touch _ _ (conversation.commit call) _ _ _ visible
      commits.conversations
    refine ⟨{ row with updatedAt := call.pgNow, nextMessageOrdinal := ordinal + 2 + 1 }, ?_, ?_⟩
    · rw [Conversation.both, pg]
      exact touched
    · rw [total]
  · rw [after]
    exact ordinals_append length (dense_retained agree) rfl rfl
  · rw [after, List.map_append, chained_append]
    refine ⟨chained_retained agree, ?_⟩
    rw [chainEnd_retained known]
    exact ⟨rfl, rfl, trivial⟩

theorem both_agree (sound : PgRepository.Sound state.db) (agree : Agree conversation state)
    (new : conversation.NewToTenant state.db call) (bindable : Bindable conversation state call) :
    SameAnswer conversation state call ∧ Agree conversation (conversation.both state call) := by
  by_cases known : ParentKnown conversation state call
  · exact both_of_known sound agree new bindable known
  · have answer := both_of_unknown agree bindable known
    refine ⟨answer, ?_⟩
    cases answer with
    | committed _ _ known' => exact absurd known' known
    | stale _ _ _ unchanged =>
        rw [unchanged]
        exact agree

/-- A parent with a NUL is refused by the lookup. -/
theorem storable_parent (agree : Agree conversation state)
    (answer : (∃ detail, (conversation.onPostgres state.db call).1 = .ok detail) ∨
      (conversation.onPostgres state.db call).1 = .error .staleParent) :
    ∀ parent, call.parentMessageId = some parent → Document.textStorable parent = true := by
  intro parent given
  obtain ⟨row, visible, -⟩ := agree.next
  by_contra refused
  have unbound : PgRepository.bindText [parent] = .error (.internal
      "error returned from database: invalid byte sequence for encoding \"UTF8\": 0x00") := by
    simp [PgRepository.bindText, refused]
  have transaction : PgRepository.commitTransaction state.db (conversation.commit call) call.pgNow =
      .error (.internal
        "error returned from database: invalid byte sequence for encoding \"UTF8\": 0x00") := by
    unfold PgRepository.commitTransaction PgRepository.parentOrdinal
    simp only [show PgRepository.visibleConversation state.db (conversation.commit call).tenantId
      (conversation.commit call).userId (conversation.commit call).conversationId = .ok row
      from visible, show (conversation.commit call).parentMessageId = some parent from given,
      unbound, bind, Except.bind]
  rw [onPostgres_eq, PgRepository.commitPgTurn, transaction] at answer
  simp at answer

/-- Postgres answers as the list does only where it takes every string it is to bind. -/
theorem bindable_of_sameAnswer (agree : Agree conversation state)
    (answer : SameAnswer conversation state call) : Bindable conversation state call := by
  cases answer with
  | committed detail detail' known pg memory same =>
      have parent := storable_parent agree (.inl ⟨detail, pg⟩)
      rw [onPostgres_eq] at pg
      obtain ⟨ordinal, between, commits⟩ := PgRepository.commits_of_commitPgTurn
        (Prod.ext pg rfl : PgRepository.commitPgTurn state.db (conversation.commit call)
          call.pgNow = (.ok detail, _))
      exact ⟨parent, fun _ => texts_of_commits agree parent commits⟩
  | stale unknown pg memory unchanged =>
      exact ⟨storable_parent agree (.inr pg), fun known => absurd known unknown⟩

theorem sound_both (sound : PgRepository.Sound state.db) (call : TurnCall) :
    PgRepository.Sound (conversation.both state call).db := by
  rw [Conversation.both, onPostgres_eq]
  exact sound.commitPgTurn _ _

/-! ## Runs -/

namespace Conversation

variable (conversation : Conversation)

/-- Every call is answered alike and leaves the same history on both sides. -/
def Alike (state : Pair) : List TurnCall → Prop
  | [] => True
  | call :: rest => SameAnswer conversation state call ∧
      Agree conversation (conversation.both state call) ∧ Alike (conversation.both state call) rest

def AllBindable (state : Pair) : List TurnCall → Prop
  | [] => True
  | call :: rest => Bindable conversation state call ∧
      AllBindable (conversation.both state call) rest

end Conversation

theorem alike_iff {calls : List TurnCall} (sound : PgRepository.Sound state.db)
    (agree : Agree conversation state) (new : conversation.AllNew state calls) :
    conversation.Alike state calls ↔ conversation.AllBindable state calls := by
  induction calls generalizing state with
  | nil => exact Iff.rfl
  | cons call rest ih =>
      constructor
      · rintro ⟨answer, agree', alike⟩
        exact ⟨bindable_of_sameAnswer agree answer,
          (ih (sound_both sound call) agree' new.2).mp alike⟩
      · rintro ⟨bindable, rest'⟩
        obtain ⟨answer, agree'⟩ := both_agree sound agree new.1 bindable
        exact ⟨answer, agree', (ih (sound_both sound call) agree' new.2).mpr rest'⟩

/-- A conversation just created, on both sides. -/
structure Created (conversation : Conversation) (start : Pair) : Prop where
  pg : ∃ db title now, PgRepository.Reachable db ∧
    PgRepository.createConversation db conversation.tenantId conversation.userId title
      conversation.id now = .ok start.db
  memory : ∃ memory title now, start.memory =
    MemoryChatRepository.createConversation memory conversation.tenantId conversation.userId title
      conversation.id now

/-- A new conversation has no messages: whoever has one has a conversation. -/
theorem rows_created {db db' : ChatDb} {title : Option String} {now : Timestamp}
    (sound : PgRepository.Sound db)
    (created : PgRepository.createConversation db conversation.tenantId conversation.userId title
      conversation.id now = .ok db') :
    PgRepository.messageRows db' conversation.tenantId conversation.userId conversation.id = [] ∧
      PgRepository.visibleConversation db' conversation.tenantId conversation.userId
        conversation.id = .ok ⟨conversation.tenantId, conversation.userId, conversation.id,
          title.getD "New chat", 1, now, none⟩ := by
  obtain ⟨_, bound, created⟩ := PgRepository.bind_eq_ok.mp created
  split at created
  · cases created
  · rename_i absent
    cases created
    have missing : ∀ row ∈ db.conversations, row.key ≠ (conversation.tenantId, conversation.id) := by
      simpa using absent
    refine ⟨?_, ?_⟩
    · rw [List.eq_nil_iff_forall_not_mem]
      intro row mem
      obtain ⟨mem, own⟩ := PgRepository.mem_messageRows.mp mem
      obtain ⟨held, heldMem, owner⟩ := List.mem_map.mp (sound.owned row mem)
      rw [(PgRepository.isIn_iff ..).mp own] at owner
      simp only [ConversationRow.owner, Prod.mk.injEq] at owner
      exact missing held heldMem (by rw [ConversationRow.key, owner.1, owner.2.1])
    · have none_ : (db.conversations.find? fun row => row.visibleTo conversation.tenantId
          conversation.userId conversation.id) = none := by
        rw [List.find?_eq_none]
        intro row mem visible
        obtain ⟨owner, -⟩ := (PgRepository.visibleTo_iff ..).mp visible
        simp only [ConversationRow.owner, Prod.mk.injEq] at owner
        exact missing row mem (by rw [ConversationRow.key, owner.1, owner.2.1])
      have ids : PgRepository.bindText [conversation.tenantId, conversation.userId,
          conversation.id] = .ok () := by
        rw [PgRepository.bindText_eq_ok] at bound ⊢
        exact fun text mem => bound text (List.mem_append_left [_] mem)
      refine PgRepository.bind_eq_ok.mpr ⟨_, ids, ?_⟩
      rw [List.find?_append, none_]
      simp [ConversationRow.visibleTo]

theorem Created.agree {start : Pair} (created : Created conversation start) :
    PgRepository.Sound start.db ∧ Agree conversation start := by
  obtain ⟨db, title, now, reachable, pg⟩ := created.pg
  obtain ⟨memory, title', now', stored⟩ := created.memory
  obtain ⟨empty, visible⟩ := rows_created reachable.sound pg
  have empty : conversation.rows start = [] := empty
  refine ⟨reachable.sound.createConversation pg, ?_, ⟨_, visible, ?_⟩, ?_, ?_⟩
  · refine ⟨_, by rw [stored]; exact Function.update_self .., rfl, rfl, rfl, ?_, ?_⟩
    · simp [empty]
    · simp [empty]
  · simp [empty]
  · simp [empty]
  · simp [empty, Chained]

/-- On every sequence of commits to a conversation, with message ids new to the tenant, the
two repositories answer every call alike and hold the same history after it exactly when no
string Postgres is to bind has a NUL. -/
theorem histories_agree {start : Pair} (created : Created conversation start)
    (calls : List TurnCall) (new : conversation.AllNew start calls) :
    Agree conversation start ∧
      (conversation.Alike start calls ↔ conversation.AllBindable start calls) := by
  obtain ⟨sound, agree⟩ := created.agree
  exact ⟨agree, alike_iff sound agree new⟩

def someConversation : Conversation := ⟨"t", "alice", "c1"⟩

def firstCall : TurnCall := ⟨false, "t1", "m1", "hello", none, "m2", "hi", [], 1, 1⟩

def branchingCall : TurnCall := ⟨true, "t2", "m3", "more", some "m1", "m4", "so", [], 2, 2⟩

/-- A NUL in what the user wrote. -/
def nulCall : TurnCall := ⟨false, "t1", "m1", "a\x00b", none, "m2", "hi", [], 1, 1⟩

def someStart : Pair where
  db := PgRepository.perform ⟨[], [], []⟩ 0 (.createConversation "t" "alice" none "c1")
  memory := MemoryChatRepository.createConversation (fun _ => none) "t" "alice" none "c1" 0

theorem created_someStart : Created someConversation someStart :=
  ⟨⟨⟨[], [], []⟩, none, 0, .empty, rfl⟩, ⟨_, none, 0, rfl⟩⟩

theorem histories_agree_branching :
    someConversation.Alike someStart [firstCall, branchingCall] := by
  refine (histories_agree created_someStart [firstCall, branchingCall]
    ⟨⟨by decide, by decide, by decide⟩, ⟨by decide, ?_, ?_⟩, trivial⟩).2.mpr
    ⟨⟨nofun, fun _ => by decide⟩, ⟨?_, fun _ => by decide⟩, trivial⟩
  · decide
  · decide
  · intro parent given
    cases given
    decide

/-- The list takes the turn, and Postgres fails it. -/
theorem histories_differ : Created someConversation someStart ∧
    someConversation.AllNew someStart [nulCall] ∧
    (someConversation.onPostgres someStart.db nulCall).1 = .error (.internal
      "error returned from database: invalid byte sequence for encoding \"UTF8\": 0x00") ∧
    (∃ detail, (someConversation.onMemory someStart.memory nulCall).1 = .ok detail) ∧
    ¬ Agree someConversation (someConversation.both someStart nulCall) := by
  refine ⟨created_someStart, ⟨⟨by decide, by decide, by decide⟩, trivial⟩, rfl, ⟨_, rfl⟩, ?_⟩
  intro agree
  obtain ⟨stored, held, -, -, -, -, same⟩ := agree.histories
  cases held
  have empty : someConversation.rows (someConversation.both someStart nulCall) = [] := by
    rw [Conversation.rows, PgRepository.messageRows,
      show (someConversation.both someStart nulCall).db.messages = [] from rfl, List.filter_nil,
      List.mergeSort_nil]
  rw [empty] at same
  cases same

end Delphi.Chat
