/-
# Delphi.Chat.Repository -- what every database the repository reaches satisfies

The writes of `PgRepository`, one after another, from the empty tables.  The
tables stay keyed, a slot holds one message, ordinals start at one, and a message
belongs to the owner of its conversation (`Sound`).

A commit whose two message ids are new to the tenant appends: it keeps the rows up
to the parent and puts its two after them (`messageRows_commit`), and it fails only
for want of its parent or for a NUL in a string of it (`commits_of_newIds`).
-/
import Delphi.Chat.Storage

namespace Delphi.Chat

open Delphi.Theory

set_option autoImplicit false

namespace PgRepository

/-! ## Operations -/

inductive Operation where
  | createConversation (tenantId userId : String) (title : Option String) (id : String)
  | renameConversation (tenantId userId conversationId title : String)
  | renameConversationIfDefault (tenantId userId conversationId title : String)
  | deleteConversation (tenantId userId conversationId : String)
  | commitTurn (commit : TurnCommit)
  | commitInterruptedTurn (commit : TurnCommit)
  | recordTurnFailed (tenantId userId conversationId turnId error : String)

def orUnchanged (db : ChatDb) : Except StorageError ChatDb → ChatDb
  | .ok db' => db'
  | .error _ => db

/-- A failed transaction leaves the tables as they were. -/
def perform (db : ChatDb) (now : Timestamp) : Operation → ChatDb
  | .createConversation tenantId userId title id =>
      orUnchanged db (createConversation db tenantId userId title id now)
  | .renameConversation tenantId userId conversationId title =>
      orUnchanged db (renameConversation db tenantId userId conversationId title now)
  | .renameConversationIfDefault tenantId userId conversationId title =>
      orUnchanged db (renameConversationIfDefault db tenantId userId conversationId title now)
  | .deleteConversation tenantId userId conversationId =>
      orUnchanged db (deleteConversation db tenantId userId conversationId now)
  | .commitTurn commit => (commitTurn db commit now).2
  | .commitInterruptedTurn commit => (commitInterruptedTurn db commit now).2
  | .recordTurnFailed tenantId userId conversationId turnId error =>
      orUnchanged db (recordTurnFailed db tenantId userId conversationId turnId error now)

inductive Reachable : ChatDb → Prop where
  | empty : Reachable ⟨[], [], []⟩
  | next {db : ChatDb} (now : Timestamp) (operation : Operation) (before : Reachable db) :
      Reachable (perform db now operation)

/-! ## Sound tables -/

structure Sound (db : ChatDb) : Prop where
  conversations : Keyed ConversationRow.key db.conversations
  messages : Keyed MessageRow.key db.messages
  turns : Keyed TurnRow.key db.turns
  slots : (db.messages.map MessageRow.slot).Nodup
  owned : ∀ row ∈ db.messages, row.owner ∈ db.conversations.map ConversationRow.owner
  positive : ∀ row ∈ db.messages, 0 < row.ordinal

theorem map_key_of_owner {before after : List ConversationRow}
    (same : after.map ConversationRow.owner = before.map ConversationRow.owner) :
    after.map ConversationRow.key = before.map ConversationRow.key := by
  have keys : ∀ rows : List ConversationRow, rows.map ConversationRow.key =
      (rows.map ConversationRow.owner).map fun owner => (owner.1, owner.2.1) := by
    intro rows
    rw [List.map_map]
    rfl
  rw [keys, keys, same]

/-- Conversations whose owners stay as they are. -/
theorem Sound.of_conversations {db : ChatDb} (sound : Sound db) {conversations : List ConversationRow}
    (same : conversations.map ConversationRow.owner = db.conversations.map ConversationRow.owner) :
    Sound { db with conversations } where
  conversations := by
    unfold Keyed
    rw [map_key_of_owner same]
    exact sound.conversations
  messages := sound.messages
  turns := sound.turns
  slots := sound.slots
  owned row mem := by
    show row.owner ∈ conversations.map ConversationRow.owner
    rw [same]
    exact sound.owned row mem
  positive := sound.positive

theorem map_owner_updateConversation (db : ChatDb) (tenantId userId conversationId : String)
    (applies : ConversationRow → Bool) {change : ConversationRow → ConversationRow}
    (keeps : ∀ row, (change row).owner = row.owner) :
    (updateConversation db tenantId userId conversationId applies change).conversations.map
      ConversationRow.owner = db.conversations.map ConversationRow.owner := by
  unfold updateConversation
  rw [List.map_map]
  refine List.map_congr_left fun row _ => ?_
  simp only [Function.comp]
  split
  · exact keeps row
  · rfl

/-- A rename or a delete: strings bound, then an update of the conversation's row. -/
theorem Sound.updateConversation {db db' : ChatDb} (sound : Sound db) {texts : List String}
    {tenantId userId conversationId : String} {applies : ConversationRow → Bool}
    {change : ConversationRow → ConversationRow} (keeps : ∀ row, (change row).owner = row.owner)
    (updated : (do bindText texts
                   return updateConversation db tenantId userId conversationId applies change) =
      Except.ok db') : Sound db' := by
  obtain ⟨-, -, updated⟩ := bind_eq_ok.mp updated
  cases updated
  exact sound.of_conversations
    (map_owner_updateConversation db tenantId userId conversationId applies keeps)

theorem Sound.createConversation {db db' : ChatDb} (sound : Sound db) {tenantId userId id : String}
    {title : Option String} {now : Timestamp}
    (created : createConversation db tenantId userId title id now = .ok db') : Sound db' := by
  obtain ⟨-, -, created⟩ := bind_eq_ok.mp created
  split at created
  · cases created
  · rename_i absent
    cases created
    refine ⟨?_, sound.messages, sound.turns, sound.slots, ?_, sound.positive⟩
    · unfold Keyed
      rw [List.map_append, List.nodup_append]
      refine ⟨sound.conversations, List.nodup_singleton _, ?_⟩
      rintro key mem key' single rfl
      obtain ⟨row, rowMem, rfl⟩ := List.mem_map.mp mem
      refine absent (List.any_eq_true.mpr ⟨row, rowMem, ?_⟩)
      rw [List.map_singleton, List.mem_singleton] at single
      rw [single]
      simp [ConversationRow.key]
    · intro row mem
      rw [List.map_append]
      exact List.mem_append_left _ (sound.owned row mem)

theorem updateFailed_key (held row : TurnRow) (same : held.key = row.key) :
    (updateFailed held row).key = row.key := same

theorem Sound.recordTurnFailed {db db' : ChatDb} (sound : Sound db)
    {tenantId userId conversationId turnId error : String} {now : Timestamp}
    (recorded : recordTurnFailed db tenantId userId conversationId turnId error now = .ok db') :
    Sound db' := by
  obtain ⟨-, -, recorded⟩ := bind_eq_ok.mp recorded
  obtain ⟨-, -, recorded⟩ := bind_eq_ok.mp recorded
  cases recorded
  refine ⟨sound.conversations, sound.messages, ?_, sound.slots, sound.owned, sound.positive⟩
  exact sound.turns.upsert updateFailed_key _

/-! ## A commit keeps the tables sound -/

theorem map_owner_touch (conversations : List ConversationRow) (commit : TurnCommit) (ordinal : Int)
    (now : Timestamp) :
    (touch conversations commit ordinal now).map ConversationRow.owner =
      conversations.map ConversationRow.owner := by
  unfold touch
  rw [List.map_map]
  refine List.map_congr_left fun row _ => ?_
  simp only [Function.comp]
  split <;> rfl

/-- An upsert of a message moves it to the new slot of its own conversation. -/
structure Moves (update : MessageRow → MessageRow → MessageRow) : Prop where
  key (held row : MessageRow) : (update held row).key = held.key
  owner (held row : MessageRow) : (update held row).owner = held.owner
  ordinal (held row : MessageRow) : (update held row).ordinal = row.ordinal

theorem moves_updateUser : Moves updateUser := ⟨fun _ _ => rfl, fun _ _ => rfl, fun _ _ => rfl⟩

theorem moves_updateAssistant : Moves updateAssistant :=
  ⟨fun _ _ => rfl, fun _ _ => rfl, fun _ _ => rfl⟩

/-- What a message table keeps through an upsert: rows owned as `owners` says, ordinals
from one on. -/
structure Rows (owners : List (String × String × String)) (messages : List MessageRow) : Prop where
  keyed : Keyed MessageRow.key messages
  owned : ∀ row ∈ messages, row.owner ∈ owners
  positive : ∀ row ∈ messages, 0 < row.ordinal

theorem Rows.insertMessage {owners : List (String × String × String)}
    {messages stored : List MessageRow} {update : MessageRow → MessageRow → MessageRow}
    {row : MessageRow} (rows : Rows owners messages)
    (moves : Moves update)
    (inserted : insertMessage update messages row = .ok stored)
    (owned : row.owner ∈ owners) (positive : 0 < row.ordinal) : Rows owners stored := by
  obtain ⟨rfl, -⟩ := insertMessage_ok inserted
  refine ⟨rows.keyed.upsert (fun held row same => (moves.key held row).trans same) row, ?_, ?_⟩
  · intro other mem
    rcases of_mem_upsert mem with old | ⟨held, heldMem, -, rfl⟩ | rfl
    · exact rows.owned other old
    · rw [moves.owner held row]
      exact rows.owned held heldMem
    · exact owned
  · intro other mem
    rcases of_mem_upsert mem with old | ⟨held, heldMem, -, rfl⟩ | rfl
    · exact rows.positive other old
    · rw [moves.ordinal held row]
      exact positive
    · exact positive

theorem visibleTo_iff (row : ConversationRow) (tenantId userId conversationId : String) :
    row.visibleTo tenantId userId conversationId = true ↔
      row.owner = (tenantId, conversationId, userId) ∧ row.deletedAt = none := by
  simp only [ConversationRow.visibleTo, ConversationRow.owner, Bool.and_eq_true,
    decide_eq_true_eq, Option.isNone_iff_eq_none, Prod.mk.injEq]
  tauto

theorem isIn_iff (row : MessageRow) (tenantId userId conversationId : String) :
    row.isIn tenantId userId conversationId = true ↔
      row.owner = (tenantId, conversationId, userId) := by
  simp only [MessageRow.isIn, MessageRow.owner, Bool.and_eq_true, decide_eq_true_eq,
    Prod.mk.injEq]
  tauto

theorem owner_of_visible {db : ChatDb} {tenantId userId conversationId : String}
    {row : ConversationRow} (found : visibleConversation db tenantId userId conversationId = .ok row) :
    (tenantId, conversationId, userId) ∈ db.conversations.map ConversationRow.owner := by
  obtain ⟨mem, visible⟩ := visible_of_ok found
  exact List.mem_map.mpr ⟨row, mem, ((visibleTo_iff _ _ _ _).mp visible).1⟩

theorem Sound.nonneg_parentOrdinal {db : ChatDb} (sound : Sound db) {commit : TurnCommit} {ordinal : Int}
    (found : parentOrdinal db commit = .ok ordinal) : 0 ≤ ordinal := by
  rcases parentOrdinal_ok found with ⟨-, rfl⟩ | ⟨row, mem, -, rfl, -⟩
  · exact le_rfl
  · exact (sound.positive row mem).le

theorem Sound.commits {db db' : ChatDb} (sound : Sound db) {commit : TurnCommit} {now : Timestamp}
    {ordinal : Int} {between : List MessageRow} (commits : Commits db commit now ordinal between db') :
    Sound db' := by
  obtain ⟨row, visible⟩ := commits.visible
  have owner := owner_of_visible visible
  have positive := sound.nonneg_parentOrdinal commits.parent
  have owners : db'.conversations.map ConversationRow.owner =
      db.conversations.map ConversationRow.owner := by
    rw [commits.conversations, map_owner_touch]
  have pruned : Rows (db.conversations.map ConversationRow.owner)
      (prune db.messages commit ordinal) :=
    ⟨sound.messages.filter _, fun row mem => sound.owned row (List.mem_of_mem_filter mem),
      fun row mem => sound.positive row (List.mem_of_mem_filter mem)⟩
  have first := pruned.insertMessage moves_updateUser commits.user owner
    (show (0 : Int) < ordinal + 1 by omega)
  have second := first.insertMessage moves_updateAssistant commits.assistant owner
    (show (0 : Int) < ordinal + 2 by omega)
  refine ⟨?_, second.keyed, ?_, (insertMessage_ok commits.assistant).2, ?_, second.positive⟩
  · unfold Keyed
    rw [map_key_of_owner owners]
    exact sound.conversations
  · rw [commits.turns]
    exact sound.turns.upsert (fun held row _ => rfl) _
  · rw [owners]
    exact second.owned

theorem Sound.commitPgTurn {db : ChatDb} (sound : Sound db) (commit : TurnCommit) (now : Timestamp) :
    Sound (commitPgTurn db commit now).2 := by
  unfold PgRepository.commitPgTurn
  cases done : commitTransaction db commit now with
  | error error => exact sound
  | ok db' =>
      obtain ⟨ordinal, between, commits⟩ := commits_of_ok done
      exact sound.commits commits

theorem Sound.orUnchanged {db : ChatDb} (sound : Sound db) (result : Except StorageError ChatDb)
    (kept : ∀ db', result = .ok db' → Sound db') : Sound (orUnchanged db result) := by
  cases result with
  | error error => exact sound
  | ok db' => exact kept db' rfl

theorem Sound.perform {db : ChatDb} (sound : Sound db) (now : Timestamp) (operation : Operation) :
    Sound (perform db now operation) := by
  cases operation with
  | createConversation tenantId userId title id =>
      exact sound.orUnchanged _ fun db' created => sound.createConversation created
  | renameConversation tenantId userId conversationId title =>
      exact sound.orUnchanged _ fun db' renamed =>
        sound.updateConversation (fun row => by rfl) renamed
  | renameConversationIfDefault tenantId userId conversationId title =>
      exact sound.orUnchanged _ fun db' renamed =>
        sound.updateConversation (fun row => by rfl) renamed
  | deleteConversation tenantId userId conversationId =>
      exact sound.orUnchanged _ fun db' deleted =>
        sound.updateConversation (fun row => by rfl) deleted
  | commitTurn commit => exact sound.commitPgTurn _ now
  | commitInterruptedTurn commit => exact sound.commitPgTurn _ now
  | recordTurnFailed tenantId userId conversationId turnId error =>
      exact sound.orUnchanged _ fun db' recorded => sound.recordTurnFailed recorded

theorem Reachable.sound {db : ChatDb} (reachable : Reachable db) : Sound db := by
  induction reachable with
  | empty =>
      exact ⟨List.nodup_nil, List.nodup_nil, List.nodup_nil, List.nodup_nil, nofun, nofun⟩
  | next now operation _ sound => exact sound.perform now operation

/-! ## The rows of a conversation -/

theorem pairwise_byOrdinal (rows : List MessageRow) :
    (rows.mergeSort byOrdinal).Pairwise fun row other => byOrdinal row other = true := by
  refine List.pairwise_mergeSort ?_ ?_ rows
  · intro first second third before after
    simp only [byOrdinal, decide_eq_true_eq] at *
    omega
  · intro first second
    simp only [byOrdinal, Bool.or_eq_true, decide_eq_true_eq]
    omega

/-- No two rows have one ordinal. -/
def Apart (rows : List MessageRow) : Prop :=
  ∀ row ∈ rows, ∀ other ∈ rows, row.ordinal = other.ordinal → row = other

theorem mergeSort_byOrdinal {rows sorted : List MessageRow} (apart : Apart rows)
    (perm : sorted.Perm rows) (pairwise : sorted.Pairwise fun row other => byOrdinal row other) :
    rows.mergeSort byOrdinal = sorted := by
  refine List.Perm.eq_of_pairwise ?_ (pairwise_byOrdinal rows) pairwise
    ((List.mergeSort_perm rows byOrdinal).trans perm.symm)
  intro row other mem mem' below above
  refine apart row (List.mem_mergeSort.mp mem) other (perm.mem_iff.mp mem') ?_
  simp only [byOrdinal, decide_eq_true_eq] at below above
  omega

variable {db db' : ChatDb} {tenantId userId conversationId : String} {commit : TurnCommit}
  {now : Timestamp} {ordinal : Int} {between : List MessageRow}

theorem mem_messageRows {row : MessageRow} : row ∈ messageRows db tenantId userId conversationId ↔
    row ∈ db.messages ∧ row.isIn tenantId userId conversationId = true := by
  rw [messageRows, List.mem_mergeSort, List.mem_filter]

/-- Slots that are apart have ordinals apart in one conversation. -/
theorem apart_of_slots {messages : List MessageRow} (slots : (messages.map MessageRow.slot).Nodup) :
    Apart (messages.filter fun row => row.isIn tenantId userId conversationId) := by
  intro row mem other mem' same
  obtain ⟨rowMem, rowIn⟩ := List.mem_filter.mp mem
  obtain ⟨otherMem, otherIn⟩ := List.mem_filter.mp mem'
  refine List.inj_on_of_nodup_map slots rowMem otherMem ?_
  simp only [MessageRow.isIn, Bool.and_eq_true, decide_eq_true_eq] at rowIn otherIn
  simp only [MessageRow.slot, rowIn.1.1, rowIn.2, otherIn.1.1, otherIn.2, same]

/-- In a sound table all messages of a conversation are its owner's. -/
theorem Sound.isIn_of_conversation (sound : Sound db) {row : MessageRow} (mem : row ∈ db.messages)
    (owner : (tenantId, conversationId, userId) ∈ db.conversations.map ConversationRow.owner)
    (tenant : row.tenantId = tenantId) (conversation : row.conversationId = conversationId) :
    row.isIn tenantId userId conversationId = true := by
  obtain ⟨own, ownMem, ownOwner⟩ := List.mem_map.mp owner
  obtain ⟨held, heldMem, heldOwner⟩ := List.mem_map.mp (sound.owned row mem)
  have same : own = held := by
    refine sound.conversations.unique ownMem heldMem ?_
    simp only [ConversationRow.owner, MessageRow.owner, Prod.mk.injEq] at ownOwner heldOwner
    simp only [ConversationRow.key, ownOwner.1, ownOwner.2.1, heldOwner.1, heldOwner.2.1, tenant,
      conversation]
  rw [isIn_iff, ← heldOwner, ← same, ownOwner]

theorem filter_prune (messages : List MessageRow) (commit : TurnCommit) (ordinal : Int) :
    ((prune messages commit ordinal).filter fun row =>
      row.isIn commit.tenantId commit.userId commit.conversationId) =
    (messages.filter fun row => row.isIn commit.tenantId commit.userId commit.conversationId).filter
      fun row => row.ordinal ≤ ordinal := by
  rw [prune, List.filter_filter, List.filter_filter]
  refine List.filter_congr fun row _ => ?_
  cases row.isIn commit.tenantId commit.userId commit.conversationId
  · simp
  · rw [Bool.eq_iff_iff]
    simp

/-- No row that the prune leaves has the id. -/
def Fresh (db : ChatDb) (commit : TurnCommit) (ordinal : Int) (id : String) : Prop :=
  ∀ row ∈ prune db.messages commit ordinal, row.key ≠ (commit.tenantId, id)

/-- The ids a commit brings are new to the rows it leaves. -/
structure NewIds (db : ChatDb) (commit : TurnCommit) (ordinal : Int) : Prop where
  user : Fresh db commit ordinal commit.userMessageId
  assistant : Fresh db commit ordinal commit.assistantMessageId
  distinct : commit.userMessageId ≠ commit.assistantMessageId

theorem upsert_user (new : NewIds db commit ordinal) :
    upsert MessageRow.key updateUser (prune db.messages commit ordinal) (userRow commit ordinal now) =
      prune db.messages commit ordinal ++ [userRow commit ordinal now] :=
  upsert_of_absent new.user

theorem upsert_assistant (new : NewIds db commit ordinal) :
    upsert MessageRow.key updateAssistant
        (prune db.messages commit ordinal ++ [userRow commit ordinal now])
        (assistantRow commit ordinal now) =
      prune db.messages commit ordinal ++
        [userRow commit ordinal now, assistantRow commit ordinal now] := by
  rw [upsert_of_absent, List.append_assoc]
  · rfl
  · intro held mem
    rcases List.mem_append.mp mem with old | own
    · exact new.assistant held old
    · rw [List.mem_singleton.mp own]
      intro same
      exact new.distinct (congrArg Prod.snd same)

theorem messages_of_newIds (commits : Commits db commit now ordinal between db')
    (new : NewIds db commit ordinal) :
    db'.messages = prune db.messages commit ordinal ++
      [userRow commit ordinal now, assistantRow commit ordinal now] := by
  have user := (insertMessage_ok commits.user).1
  rw [upsert_user new] at user
  have assistant := (insertMessage_ok commits.assistant).1
  rw [user, upsert_assistant new] at assistant
  exact assistant

/-- The rows of the conversation after the commit: those up to the parent, and the two new ones. -/
theorem messageRows_commit (commits : Commits db commit now ordinal between db')
    (new : NewIds db commit ordinal) :
    messageRows db' commit.tenantId commit.userId commit.conversationId =
      ((messageRows db commit.tenantId commit.userId commit.conversationId).filter
        fun row => row.ordinal ≤ ordinal) ++
      [userRow commit ordinal now, assistantRow commit ordinal now] := by
  have slots := (insertMessage_ok commits.assistant).2
  have apart : Apart (db'.messages.filter fun row =>
      row.isIn commit.tenantId commit.userId commit.conversationId) := apart_of_slots slots
  refine mergeSort_byOrdinal apart ?_ ?_
  · rw [messages_of_newIds commits new, List.filter_append, filter_prune]
    refine List.Perm.append ((List.mergeSort_perm _ _).filter _) ?_
    simp [userRow, assistantRow, MessageRow.isIn]
  · rw [List.pairwise_append]
    refine ⟨(pairwise_byOrdinal _).filter _, ?_, ?_⟩
    · simp [byOrdinal, userRow, assistantRow]
    · intro row mem other mem'
      have below := (List.mem_filter.mp mem).2
      simp only [decide_eq_true_eq] at below
      simp only [List.mem_cons, List.not_mem_nil, or_false] at mem'
      refine decide_eq_true ?_
      rcases mem' with rfl | rfl
      · simp only [userRow]
        omega
      · simp only [assistantRow]
        omega

/-- The slots of a commit's messages are free once the prune has run. -/
theorem slots_commit (sound : Sound db)
    (owner : (commit.tenantId, commit.conversationId, commit.userId) ∈
      db.conversations.map ConversationRow.owner) :
    ((prune db.messages commit ordinal ++
      [userRow commit ordinal now, assistantRow commit ordinal now]).map MessageRow.slot).Nodup := by
  rw [List.map_append, List.nodup_append]
  refine ⟨sound.slots.sublist (List.filter_sublist.map _), ?_, ?_⟩
  · simp [MessageRow.slot, userRow, assistantRow]
  · rintro slot mem slot' mem' rfl
    obtain ⟨row, rowMem, rfl⟩ := List.mem_map.mp mem
    obtain ⟨heldMem, kept⟩ := List.mem_filter.mp rowMem
    have taken : row.tenantId = commit.tenantId ∧ row.conversationId = commit.conversationId ∧
        ordinal < row.ordinal := by
      simp only [List.map_cons, List.map_nil, List.mem_cons, List.not_mem_nil, or_false,
        MessageRow.slot, userRow, assistantRow, Prod.mk.injEq] at mem'
      rcases mem' with ⟨tenant, conversation, at_⟩ | ⟨tenant, conversation, at_⟩
      · exact ⟨tenant, conversation, by omega⟩
      · exact ⟨tenant, conversation, by omega⟩
    have own := sound.isIn_of_conversation heldMem owner taken.1 taken.2.1
    simp [own, taken.2.2] at kept

/-- With new ids a commit fails only for want of its conversation or its parent, or for a NUL
in a string it binds. -/
theorem commits_of_newIds (sound : Sound db) {row : ConversationRow}
    (visible : visibleConversation db commit.tenantId commit.userId commit.conversationId = .ok row)
    (parent : parentOrdinal db commit = .ok ordinal) (new : NewIds db commit ordinal)
    (user : Storable (userRow commit ordinal now))
    (assistant : Storable (assistantRow commit ordinal now)) :
    ∃ between, Commits db commit now ordinal between ⟨touch db.conversations commit ordinal now,
      prune db.messages commit ordinal ++
        [userRow commit ordinal now, assistantRow commit ordinal now],
      upsertTurn db.turns (turnRow commit now)⟩ := by
  have slots := @slots_commit db commit now ordinal sound (owner_of_visible visible)
  refine ⟨prune db.messages commit ordinal ++ [userRow commit ordinal now], ⟨row, visible⟩, parent,
    ?_, ?_, rfl, rfl⟩
  · rw [← upsert_user new]
    refine insertMessage_of_storable user ?_
    rw [upsert_user new]
    refine slots.sublist (List.Sublist.map _ ?_)
    exact (List.Sublist.refl _).append (by simp)
  · rw [← upsert_assistant new]
    refine insertMessage_of_storable assistant ?_
    rw [upsert_assistant new]
    exact slots

end PgRepository

end Delphi.Chat
