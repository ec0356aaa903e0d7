/-
# Delphi.Chat.TailCheck -- whether a commit takes other turns' messages away

Requests, deliveries of the commands they published, and maintenance ticks, in any
number of conversations, over the database and the lock bucket.  A request checks
that its parent is the tail of the conversation and only then acquires the lock; the
commit, in another service and much later, prunes whatever follows the parent.

A tail check is good for as long as no other turn commits in the conversation
(`ConversationWorld.Sound.bounded`).  When every commit still has a good check, and
brings message ids that are no other message's (`Uncontested`), the messages of a turn
stay until the turn itself commits again (`committed_messages_stay`).  The lock does
not see to that: two requests may both check before the first acquires
(`committed_messages_pruned`).
-/
import Delphi.Chat.Finality
import Delphi.Chat.Repository

namespace Delphi.Chat

open Delphi.Theory

set_option autoImplicit false

/-! ## The world of the conversations -/

/-- A tail check that was passed, and how many commits there were before it. -/
structure TailCheck where
  tenantId : String
  userId : String
  conversationId : String
  parentMessageId : Option String
  since : Nat
deriving DecidableEq

structure ConversationWorld where
  locks : LockStore
  db : ChatDb
  /-- The commands on the stream. -/
  published : List TurnRequested
  /-- The tail checks passed. -/
  checks : List TailCheck
  /-- The commits whose transaction has committed, in that order. -/
  commits : List TurnCommit

namespace PgRepository

/-- The operations that are about a conversation and not its messages. -/
def Operation.manages : Operation → Bool
  | .createConversation _ _ _ _ | .renameConversation _ _ _ _ | .renameConversationIfDefault _ _ _ _
  | .deleteConversation _ _ _ => true
  | .commitTurn _ | .commitInterruptedTurn _ | .recordTurnFailed _ _ _ _ _ => false

end PgRepository

namespace ConversationWorld

inductive Checking (w : ConversationWorld) (tenantId userId conversationId : String)
    (parentMessageId : Option String) : Except StorageError Unit → ConversationWorld → Prop where
  | passed
      (tail : PgRepository.assertParentTail w.db tenantId userId conversationId parentMessageId =
        .ok ()) :
      Checking w tenantId userId conversationId parentMessageId (.ok ())
        { w with checks := w.checks ++
            [⟨tenantId, userId, conversationId, parentMessageId, w.commits.length⟩] }
  | refused (error : StorageError) :
      Checking w tenantId userId conversationId parentMessageId (.error error) w

/-- A commit: its transaction commits, whatever is then reported, or is refused. -/
inductive Committing (w : ConversationWorld) (commit : TurnCommit) :
    Except StorageError ConversationDetail → ConversationWorld → Prop where
  | applied {now : Timestamp} {db' : ChatDb} {answer : Except StorageError ConversationDetail}
      (done : PgRepository.commitTransaction w.db commit now = .ok db')
      (reported : answer = PgRepository.getConversation db' commit.tenantId commit.userId
        commit.conversationId ∨ ∃ error, answer = .error error) :
      Committing w commit answer { w with db := db', commits := w.commits ++ [commit] }
  | refused (error : StorageError) : Committing w commit (.error error) w

inductive Recording (w : ConversationWorld) (tenantId userId conversationId turnId error : String) :
    Except StorageError Unit → ConversationWorld → Prop where
  | applied {now : Timestamp} {db' : ChatDb} (answer : Except StorageError Unit)
      (done : PgRepository.recordTurnFailed w.db tenantId userId conversationId turnId error now =
        .ok db') :
      Recording w tenantId userId conversationId turnId error answer { w with db := db' }
  | refused (refusal : StorageError) :
      Recording w tenantId userId conversationId turnId error (.error refusal) w

inductive Publishing (w : ConversationWorld) (command : TurnRequested) :
    Except ChatBusError Unit → ConversationWorld → Prop where
  | published (answer : Except ChatBusError Unit) :
      Publishing w command answer { w with published := w.published ++ [command] }
  | refused (error : ChatBusError) : Publishing w command (.error error) w

def serves (w : ConversationWorld) : (op : ChatCall) → op.Ans → ConversationWorld → Prop
  | .assertParentTail tenantId userId conversationId parentMessageId, answer, w' =>
      Checking w tenantId userId conversationId parentMessageId answer w'
  | .getConversation tenantId userId conversationId, answer, w' =>
      w' = w ∧ (answer = PgRepository.getConversation w.db tenantId userId conversationId ∨
        ∃ error, answer = .error error)
  | .commitTurn commit, answer, w' => Committing w commit answer w'
  | .recordTurnFailed tenantId userId conversationId turnId error, answer, w' =>
      Recording w tenantId userId conversationId turnId error answer w'
  | .publishTurnRequested command, answer, w' => Publishing w command answer w'
  | op, answer, w' => ∃ locks, w.locks.serves op answer locks ∧ w' = { w with locks }

/-- Leases and records expire; conversations are made, renamed and deleted. -/
inductive Elsewhere (w : ConversationWorld) : ConversationWorld → Prop where
  | disturbed {locks : LockStore} (disturbed : w.locks.Disturbed locks) : Elsewhere w { w with locks }
  | managed (now : Timestamp) {operation : PgRepository.Operation}
      (manages : operation.manages = true) :
      Elsewhere w { w with db := PgRepository.perform w.db now operation }

/-- Any request; deliveries and ticks of the commands on the stream. -/
def Admits (w : ConversationWorld) : ChatJob → Prop
  | .enqueue _ | .stop _ _ => True
  | .turn delivery => delivery.command ∈ w.published
  | .tick _ command => command ∈ w.published

instance (w : ConversationWorld) : (job : ChatJob) → Decidable (w.Admits job)
  | .enqueue _ | .stop _ _ => isTrue trivial
  | .turn delivery => inferInstanceAs (Decidable (delivery.command ∈ w.published))
  | .tick _ command => inferInstanceAs (Decidable (command ∈ w.published))

def system (isUlid : String → Bool) (ttl : Timestamp) :
    System ChatPorts ConversationWorld ChatJob ChatResult where
  main := ChatJob.main isUlid ttl
  admits := Admits
  serves _ op w answer w' := w.serves op answer w'
  environment := Elsewhere

end ConversationWorld

abbrev ConversationRun := Config ChatPorts ConversationWorld ChatJob ChatResult

def ConversationRun.start (clock : Timestamp) (db : ChatDb) : ConversationRun :=
  ⟨⟨⟨.empty, clock⟩, db, [], [], []⟩, []⟩

/-! ## The condition -/

namespace TailCheck

/-- The check a commit relies on. -/
def covers (check : TailCheck) (commit : TurnCommit) : Prop :=
  check.tenantId = commit.tenantId ∧ check.userId = commit.userId ∧
  check.conversationId = commit.conversationId ∧ check.parentMessageId = commit.parentMessageId

instance (check : TailCheck) (commit : TurnCommit) : Decidable (check.covers commit) :=
  inferInstanceAs (Decidable (_ ∧ _))

/-- The turns committed in the checked conversation since. -/
def turnsSince (check : TailCheck) (commits : List TurnCommit) : List String :=
  ((commits.drop check.since).filter fun commit =>
    commit.tenantId = check.tenantId ∧ commit.conversationId = check.conversationId).map
      TurnCommit.turnId

end TailCheck

/-- Its parent was the conversation's tail, and no other turn has committed there since; its
message ids are those of no message of another turn or conversation. -/
structure Uncontested (w : ConversationWorld) (commit : TurnCommit) : Prop where
  checked : ∃ check ∈ w.checks, check.covers commit ∧
    ∀ turnId ∈ check.turnsSince w.commits, turnId = commit.turnId
  ids : ∀ row ∈ w.db.messages,
    row.key = (commit.tenantId, commit.userMessageId) ∨
      row.key = (commit.tenantId, commit.assistantMessageId) →
    row.turnId = some commit.turnId ∧ row.conversationId = commit.conversationId

instance (w : ConversationWorld) (commit : TurnCommit) : Decidable (Uncontested w commit) :=
  decidable_of_iff (_ ∧ _) ⟨fun both => ⟨both.1, both.2⟩, fun both => ⟨both.checked, both.ids⟩⟩

/-- Every commit that commits is uncontested. -/
def CommitsUncontested (c : ConversationRun) (l : Label ChatPorts ChatJob) (c' : ConversationRun) :
    Prop :=
  ∀ n commit answer, l = .call n (.commitTurn commit) answer →
    c'.shared.commits ≠ c.shared.commits → Uncontested c.shared commit

/-- A turn among all: its tenant, its conversation and its id. -/
def MessageRow.turn (row : MessageRow) : String × String × Option String :=
  (row.tenantId, row.conversationId, row.turnId)

def TurnCommit.turn (commit : TurnCommit) : String × String × Option String :=
  (commit.tenantId, commit.conversationId, some commit.turnId)

/-- The step is a commit of the turn. -/
def CommitsTurn (turn : String × String × Option String) (l : Label ChatPorts ChatJob) : Prop :=
  ∃ n commit answer, l = .call n (.commitTurn commit) answer ∧ turn = commit.turn

/-! ## The rows of a commit -/

namespace PgRepository

variable {db db' : ChatDb} {commit : TurnCommit} {now : Timestamp} {ordinal : Int}
  {between : List MessageRow} {row : MessageRow}

/-- The row is one of the two a commit writes. -/
def Brought (db : ChatDb) (commit : TurnCommit) (ordinal : Int) (row : MessageRow) : Prop :=
  row.turnId = some commit.turnId ∧ ordinal < row.ordinal ∧
  (row.owner = (commit.tenantId, commit.conversationId, commit.userId) ∨
    ∃ held ∈ db.messages, held.owner = row.owner ∧
      (held.key = (commit.tenantId, commit.userMessageId) ∨
        held.key = (commit.tenantId, commit.assistantMessageId)))

theorem mem_of_mem_prune (mem : row ∈ prune db.messages commit ordinal) : row ∈ db.messages :=
  List.mem_of_mem_filter mem

theorem le_of_mem_prune (mem : row ∈ prune db.messages commit ordinal)
    (own : row.isIn commit.tenantId commit.userId commit.conversationId = true) :
    row.ordinal ≤ ordinal := by
  have kept := (List.mem_filter.mp mem).2
  simpa [own] using kept

/-- A row after a commit was there and is not pruned, or is one that the commit wrote. -/
theorem Commits.mem_or_brought (commits : Commits db commit now ordinal between db')
    (mem : row ∈ db'.messages) :
    row ∈ prune db.messages commit ordinal ∨ Brought db commit ordinal row := by
  have user : ∀ {row}, row ∈ between →
      row ∈ prune db.messages commit ordinal ∨ Brought db commit ordinal row := by
    intro row mem
    rw [(insertMessage_ok commits.user).1] at mem
    rcases of_mem_upsert mem with old | ⟨held, there, same, rfl⟩ | rfl
    · exact .inl old
    · refine .inr ⟨rfl, ?_, .inr ⟨held, mem_of_mem_prune there, rfl, .inl same⟩⟩
      show ordinal < ordinal + 1
      omega
    · refine .inr ⟨rfl, ?_, .inl rfl⟩
      show ordinal < ordinal + 1
      omega
  rw [(insertMessage_ok commits.assistant).1] at mem
  rcases of_mem_upsert mem with old | ⟨held, there, same, rfl⟩ | rfl
  · exact user old
  · have later : ordinal < ordinal + 2 := by omega
    rcases user there with old | ⟨-, -, owned⟩
    · exact .inr ⟨rfl, later, .inr ⟨held, mem_of_mem_prune old, rfl, .inr same⟩⟩
    · exact .inr ⟨rfl, later, owned⟩
  · refine .inr ⟨rfl, ?_, .inl rfl⟩
    show ordinal < ordinal + 2
    omega

/-- A row that is not pruned and has neither id stays. -/
theorem Commits.mem_of_kept (commits : Commits db commit now ordinal between db')
    (mem : row ∈ prune db.messages commit ordinal)
    (user : row.key ≠ (commit.tenantId, commit.userMessageId))
    (assistant : row.key ≠ (commit.tenantId, commit.assistantMessageId)) : row ∈ db'.messages := by
  have first : row ∈ between := by
    rw [(insertMessage_ok commits.user).1]
    exact (mem_upsert_of_ne (fun held new => (moves_updateUser.key held new).trans) user).mpr mem
  rw [(insertMessage_ok commits.assistant).1]
  exact (mem_upsert_of_ne (fun held new => (moves_updateAssistant.key held new).trans)
    assistant).mpr first

theorem assertParentTail_ok {tenantId userId conversationId : String}
    {parentMessageId : Option String}
    (passed : assertParentTail db tenantId userId conversationId parentMessageId = .ok ()) :
    (tail db tenantId userId conversationId).map (·.messageId) = parentMessageId := by
  unfold assertParentTail at passed
  cases visible : visibleConversation db tenantId userId conversationId with
  | error error => simp [visible, bind, Except.bind] at passed
  | ok held =>
      simp only [visible, bind, Except.bind] at passed
      split at passed
      · assumption
      · cases passed

/-- The tail is the last of the conversation's rows. -/
theorem tail_eq_some {tenantId userId conversationId : String} {last : MessageRow}
    (found : tail db tenantId userId conversationId = some last) :
    last ∈ messageRows db tenantId userId conversationId ∧
      ∀ row ∈ messageRows db tenantId userId conversationId, row.ordinal ≤ last.ordinal := by
  obtain ⟨before, split⟩ := List.getLast?_eq_some_iff.mp found
  have sorted : (messageRows db tenantId userId conversationId).Pairwise
      fun row other => byOrdinal row other = true := pairwise_byOrdinal _
  rw [split] at sorted ⊢
  refine ⟨List.mem_append_right _ (List.mem_singleton_self _), fun row inside => ?_⟩
  rcases List.mem_append.mp inside with earlier | same
  · simpa [byOrdinal] using
      (List.pairwise_append.mp sorted).2.2 row earlier last (List.mem_singleton_self _)
  · rw [List.mem_singleton.mp same]

/-- Whatever passes the tail check, every row of the conversation is at or before. -/
theorem le_of_assertParentTail (sound : Sound db) {tenantId userId conversationId : String}
    {parentMessageId : Option String}
    (passed : assertParentTail db tenantId userId conversationId parentMessageId = .ok ())
    (mem : row ∈ db.messages) (own : row.isIn tenantId userId conversationId = true) :
    parentMessageId ≠ none ∧ ∀ parent ∈ db.messages,
      parent.isIn tenantId userId conversationId = true →
      parentMessageId = some parent.messageId → row.ordinal ≤ parent.ordinal := by
  have inside : row ∈ messageRows db tenantId userId conversationId := mem_messageRows.mpr ⟨mem, own⟩
  have named := assertParentTail_ok passed
  cases found : tail db tenantId userId conversationId with
  | none =>
      rw [tail, List.getLast?_eq_none_iff] at found
      rw [found] at inside
      cases inside
  | some last =>
      obtain ⟨lastInside, least⟩ := tail_eq_some found
      obtain ⟨lastMem, lastOwn⟩ := mem_messageRows.mp lastInside
      rw [found, Option.map_some] at named
      refine ⟨named ▸ Option.some_ne_none _, fun parent there parentOwn name => ?_⟩
      have same : parent = last := by
        refine sound.messages.unique there lastMem ?_
        have ids : last.messageId = parent.messageId := Option.some.inj (named.trans name)
        simp only [MessageRow.isIn, Bool.and_eq_true, decide_eq_true_eq] at parentOwn lastOwn
        rw [MessageRow.key, MessageRow.key, parentOwn.1.1, lastOwn.1.1, ids]
      rw [same]
      exact least row inside

theorem messages_recordTurnFailed {tenantId userId conversationId turnId error : String}
    (recorded : recordTurnFailed db tenantId userId conversationId turnId error now = .ok db') :
    db'.messages = db.messages := by
  obtain ⟨-, -, recorded⟩ := bind_eq_ok.mp recorded
  obtain ⟨-, -, recorded⟩ := bind_eq_ok.mp recorded
  cases recorded
  rfl

theorem messages_createConversation {tenantId userId id : String} {title : Option String}
    (created : createConversation db tenantId userId title id now = .ok db') :
    db'.messages = db.messages := by
  obtain ⟨-, -, created⟩ := bind_eq_ok.mp created
  split at created
  · cases created
  · cases created
    rfl

theorem messages_updateConversation {texts : List String} {tenantId userId conversationId : String}
    {applies : ConversationRow → Bool} {change : ConversationRow → ConversationRow}
    (updated : (do
      bindText texts
      return updateConversation db tenantId userId conversationId applies change) = .ok db') :
    db'.messages = db.messages := by
  obtain ⟨-, -, updated⟩ := bind_eq_ok.mp updated
  cases updated
  rfl

theorem messages_orUnchanged {result : Except StorageError ChatDb}
    (kept : ∀ db', result = .ok db' → db'.messages = db.messages) :
    (orUnchanged db result).messages = db.messages := by
  cases result with
  | error error => rfl
  | ok db' => exact kept db' rfl

theorem messages_perform {operation : Operation} (manages : operation.manages = true) :
    (perform db now operation).messages = db.messages := by
  cases operation with
  | createConversation => exact messages_orUnchanged fun _ => messages_createConversation
  | renameConversation => exact messages_orUnchanged fun _ => messages_updateConversation
  | renameConversationIfDefault => exact messages_orUnchanged fun _ => messages_updateConversation
  | deleteConversation => exact messages_orUnchanged fun _ => messages_updateConversation
  | commitTurn | commitInterruptedTurn | recordTurnFailed => cases manages

end PgRepository

/-! ## Runs -/

namespace TailCheck

variable {check : TailCheck} {commits : List TurnCommit} {commit : TurnCommit} {turnId : String}

theorem turnsSince_snoc (since : check.since ≤ commits.length)
    (mem : turnId ∈ check.turnsSince commits) : turnId ∈ check.turnsSince (commits ++ [commit]) := by
  unfold turnsSince at mem ⊢
  rw [List.drop_append_of_le_length since, List.filter_append, List.map_append]
  exact List.mem_append_left _ mem

theorem turnsSince_snoc_self (since : check.since ≤ commits.length)
    (tenant : commit.tenantId = check.tenantId)
    (conversation : commit.conversationId = check.conversationId) :
    commit.turnId ∈ check.turnsSince (commits ++ [commit]) := by
  unfold turnsSince
  rw [List.drop_append_of_le_length since, List.filter_append, List.map_append]
  exact List.mem_append_right _ (by simp [tenant, conversation])

end TailCheck

namespace ConversationWorld

variable {w w' : ConversationWorld} {check : TailCheck} {commit : TurnCommit} {now : Timestamp}
  {ordinal : Int} {between : List MessageRow} {db' : ChatDb} {row : MessageRow} {op : ChatCall}
  {answer : op.Ans}

/-- Every row of the conversation that no later commit brought is at or before the parent. -/
def Good (w : ConversationWorld) (check : TailCheck) : Prop :=
  ∀ row ∈ w.db.messages, row.isIn check.tenantId check.userId check.conversationId = true →
    (∀ turnId ∈ check.turnsSince w.commits, row.turnId ≠ some turnId) →
    check.parentMessageId ≠ none ∧ ∀ parent ∈ w.db.messages,
      parent.isIn check.tenantId check.userId check.conversationId = true →
      check.parentMessageId = some parent.messageId → row.ordinal ≤ parent.ordinal

structure Sound (w : ConversationWorld) : Prop where
  db : PgRepository.Sound w.db
  since : ∀ check ∈ w.checks, check.since ≤ w.commits.length
  bounded : ∀ check ∈ w.checks, w.Good check

/-- What an uncontested commit brings, it brings to its own conversation. -/
theorem isIn_of_brought (met : Uncontested w commit)
    (brought : PgRepository.Brought w.db commit ordinal row) :
    row.tenantId = commit.tenantId ∧ row.conversationId = commit.conversationId := by
  obtain ⟨-, -, owned | ⟨held, mem, owned, key⟩⟩ := brought
  · exact ⟨congrArg Prod.fst owned, congrArg (fun owner => owner.2.1) owned⟩
  · have tenant : held.tenantId = commit.tenantId := by
      rcases key with key | key <;> exact congrArg Prod.fst key
    have conversation := (met.ids held mem key).2
    exact ⟨(congrArg Prod.fst owned).symm.trans tenant,
      (congrArg (fun owner => owner.2.1) owned).symm.trans conversation⟩

theorem isIn_fields {tenantId userId conversationId : String}
    (own : row.isIn tenantId userId conversationId = true) :
    row.tenantId = tenantId ∧ row.conversationId = conversationId := by
  simp only [MessageRow.isIn, Bool.and_eq_true, decide_eq_true_eq] at own
  exact ⟨own.1.1, own.2⟩

/-- A check stays good through a commit: what the commit leaves was there, and what it brings
is of its own turn and after everything it leaves. -/
theorem Good.commits (good : w.Good check) (sound : PgRepository.Sound w.db)
    (since : check.since ≤ w.commits.length)
    (commits : PgRepository.Commits w.db commit now ordinal between db')
    (met : Uncontested w commit) :
    Good { w with db := db', commits := w.commits ++ [commit] } check := by
  intro row mem own apart
  obtain ⟨tenant, conversation⟩ := isIn_fields own
  rcases commits.mem_or_brought mem with old | brought
  · obtain ⟨named, least⟩ := good row (PgRepository.mem_of_mem_prune old) own
      fun turnId since_ => apart turnId (TailCheck.turnsSince_snoc since since_)
    refine ⟨named, fun parent there parentOwn name => ?_⟩
    rcases commits.mem_or_brought there with parentOld | parentBrought
    · exact least parent (PgRepository.mem_of_mem_prune parentOld) parentOwn name
    · obtain ⟨parentTenant, parentConversation⟩ := isIn_fields parentOwn
      obtain ⟨sameTenant, sameConversation⟩ := isIn_of_brought met parentBrought
      obtain ⟨visibleRow, visible⟩ := commits.visible
      have inside := sound.isIn_of_conversation (PgRepository.mem_of_mem_prune old)
        (PgRepository.owner_of_visible visible)
        (tenant.trans (parentTenant.symm.trans sameTenant))
        (conversation.trans (parentConversation.symm.trans sameConversation))
      exact (PgRepository.le_of_mem_prune old inside).trans parentBrought.2.1.le
  · obtain ⟨sameTenant, sameConversation⟩ := isIn_of_brought met brought
    exact absurd brought.1 (apart _ (TailCheck.turnsSince_snoc_self since
      (sameTenant.symm.trans tenant) (sameConversation.symm.trans conversation)))

theorem Good.of_same (good : w.Good check) (messages : w'.db.messages = w.db.messages)
    (commits : w'.commits = w.commits) : w'.Good check := by
  unfold Good
  rw [messages, commits]
  exact good

/-- Nothing happens to the messages. -/
theorem Sound.of_same (sound : w.Sound) (db : PgRepository.Sound w'.db)
    (messages : w'.db.messages = w.db.messages) (checks : w'.checks = w.checks)
    (commits : w'.commits = w.commits) : w'.Sound where
  db := db
  since check mem := by
    rw [commits]
    exact sound.since check (checks ▸ mem)
  bounded check mem := (sound.bounded check (checks ▸ mem)).of_same messages commits

/-- A check that has just been passed is good. -/
theorem Sound.passed (sound : w.Sound) {tenantId userId conversationId : String}
    {parentMessageId : Option String}
    (tail : PgRepository.assertParentTail w.db tenantId userId conversationId parentMessageId =
      .ok ()) :
    Sound { w with checks := w.checks ++
      [⟨tenantId, userId, conversationId, parentMessageId, w.commits.length⟩] } := by
  refine ⟨sound.db, fun check mem => ?_, fun check mem => ?_⟩
  · rcases List.mem_append.mp mem with old | new
    · exact sound.since check old
    · rw [List.mem_singleton.mp new]
  · rcases List.mem_append.mp mem with old | new
    · exact sound.bounded check old
    · rw [List.mem_singleton.mp new]
      exact fun row there own _ => PgRepository.le_of_assertParentTail sound.db tail there own

theorem Sound.served (sound : w.Sound) (served : w.serves op answer w')
    (met : ∀ commit, op = .commitTurn commit → w'.commits ≠ w.commits → Uncontested w commit) :
    w'.Sound := by
  cases op with
  | assertParentTail tenantId userId conversationId parentMessageId =>
      cases served with
      | passed tail => exact sound.passed tail
      | refused error => exact sound
  | getConversation => exact served.1 ▸ sound
  | commitTurn commit =>
      cases served with
      | refused error => exact sound
      | applied done reported =>
          obtain ⟨ordinal, between, commits⟩ := PgRepository.commits_of_ok done
          have uncontested := met commit rfl (by simp)
          refine ⟨sound.db.commits commits, fun check mem => ?_, fun check mem => ?_⟩
          · rw [List.length_append]
            exact (sound.since check mem).trans (Nat.le_add_right _ _)
          · exact (sound.bounded check mem).commits sound.db (sound.since check mem) commits
              uncontested
  | recordTurnFailed =>
      cases served with
      | applied answer done =>
          exact sound.of_same (sound.db.recordTurnFailed done)
            (PgRepository.messages_recordTurnFailed done) rfl rfl
      | refused error => exact sound
  | publishTurnRequested command =>
      cases served with
      | published => exact sound.of_same sound.db rfl rfl rfl
      | refused error => exact sound
  | _ =>
      obtain ⟨locks, -, rfl⟩ := served
      exact sound.of_same sound.db rfl rfl rfl

theorem messages_elsewhere (acted : Elsewhere w w') : w'.db.messages = w.db.messages := by
  cases acted with
  | disturbed => rfl
  | managed now manages => exact PgRepository.messages_perform manages

theorem Sound.elsewhere (sound : w.Sound) (acted : Elsewhere w w') : w'.Sound := by
  have messages := messages_elsewhere acted
  cases acted with
  | disturbed => exact sound.of_same sound.db messages rfl rfl
  | managed now manages => exact sound.of_same (sound.db.perform now _) messages rfl rfl

/-- An uncontested commit leaves the rows of other turns alone. -/
theorem Sound.row_stays (sound : w.Sound)
    (commits : PgRepository.Commits w.db commit now ordinal between db')
    (met : Uncontested w commit) (mem : row ∈ w.db.messages) (other : row.turn ≠ commit.turn) :
    row ∈ db'.messages := by
  have named : row.key = (commit.tenantId, commit.userMessageId) ∨
      row.key = (commit.tenantId, commit.assistantMessageId) → row.turn = commit.turn := by
    intro key
    obtain ⟨turn, conversation⟩ := met.ids row mem key
    have tenant : row.tenantId = commit.tenantId := by
      rcases key with key | key <;> exact congrArg Prod.fst key
    rw [MessageRow.turn, TurnCommit.turn, tenant, conversation, turn]
  refine commits.mem_of_kept ?_ (fun key => other (named (.inl key)))
    fun key => other (named (.inr key))
  refine List.mem_filter.mpr ⟨mem, ?_⟩
  rw [Bool.not_eq_true', Bool.and_eq_false_imp]
  intro own
  obtain ⟨check, checked, ⟨tenant, user, conversation, parent⟩, alone⟩ := met.checked
  have inside : row.isIn check.tenantId check.userId check.conversationId = true := by
    rw [tenant, user, conversation]
    exact own
  have elsewhere : row.turnId ≠ some commit.turnId := by
    intro same
    simp only [MessageRow.isIn, Bool.and_eq_true, decide_eq_true_eq] at own
    exact other (by rw [MessageRow.turn, TurnCommit.turn, own.1.1, own.2, same])
  obtain ⟨named, least⟩ := sound.bounded check checked row mem inside fun turnId since same =>
    elsewhere (same.trans (congrArg some (alone turnId since)))
  rcases PgRepository.parentOrdinal_ok commits.parent with ⟨none_, -⟩ | ⟨held, there, name, rfl, heldOwn⟩
  · exact absurd (parent.trans none_) named
  · have below := least held there (by rw [tenant, user, conversation]; exact heldOwn)
      (parent.trans name)
    simpa using below

theorem Sound.kept (sound : w.Sound) (served : w.serves op answer w')
    (met : ∀ commit, op = .commitTurn commit → w'.commits ≠ w.commits → Uncontested w commit)
    (other : ∀ commit, op = .commitTurn commit → row.turn ≠ commit.turn)
    (mem : row ∈ w.db.messages) : row ∈ w'.db.messages := by
  cases op with
  | assertParentTail => cases served <;> exact mem
  | getConversation => exact served.1 ▸ mem
  | commitTurn commit =>
      cases served with
      | refused error => exact mem
      | applied done reported =>
          obtain ⟨ordinal, between, commits⟩ := PgRepository.commits_of_ok done
          exact sound.row_stays commits (met commit rfl (by simp)) mem (other commit rfl)
  | recordTurnFailed =>
      cases served with
      | applied answer done =>
          show row ∈ ChatDb.messages _
          rw [PgRepository.messages_recordTurnFailed done]
          exact mem
      | refused error => exact mem
  | publishTurnRequested => cases served <;> exact mem
  | _ =>
      obtain ⟨locks, -, rfl⟩ := served
      exact mem

end ConversationWorld

namespace ConversationRun

variable {isUlid : String → Bool} {ttl : Timestamp} {c c' : ConversationRun}
  {l : Label ChatPorts ChatJob}

theorem sound_of_step (sound : c.shared.Sound)
    (step : (ConversationWorld.system isUlid ttl).Step c l c') (met : CommitsUncontested c l c') :
    c'.shared.Sound := by
  cases step with
  | spawn admitted => exact sound
  | environment acted => exact sound.elsewhere acted
  | @call n t op next answer w' found stands served =>
      refine sound.served served fun commit same changed => ?_
      subst same
      exact met n commit answer rfl changed

theorem kept_of_step (sound : c.shared.Sound)
    (step : (ConversationWorld.system isUlid ttl).Step c l c') (met : CommitsUncontested c l c')
    {row : MessageRow} (other : ¬ CommitsTurn row.turn l) (mem : row ∈ c.shared.db.messages) :
    row ∈ c'.shared.db.messages := by
  cases step with
  | spawn admitted => exact mem
  | environment acted =>
      rw [ConversationWorld.messages_elsewhere acted]
      exact mem
  | @call n t op next answer w' found stands served =>
      refine sound.kept served (fun commit same changed => ?_) (fun commit same turn => ?_) mem
      · subst same
        exact met n commit answer rfl changed
      · subst same
        exact other ⟨n, commit, answer, rfl, turn⟩

end ConversationRun

/-- In every run whose commits are uncontested, a message that is there stays as it is for as
long as its own turn does not commit again. -/
theorem committed_messages_stay {isUlid : String → Bool} {ttl clock : Timestamp} {db : ChatDb}
    (reachable : PgRepository.Reachable db) {c c' : ConversationRun}
    (reached : (ConversationWorld.system isUlid ttl).Reaches CommitsUncontested
      (ConversationRun.start clock db) c)
    {row : MessageRow} (mem : row ∈ c.shared.db.messages)
    (stretch : (ConversationWorld.system isUlid ttl).Reaches
      (fun before l after => CommitsUncontested before l after ∧ ¬ CommitsTurn row.turn l) c c') :
    row ∈ c'.shared.db.messages := by
  have start : c.shared.Sound := by
    refine reached.invariant (J := fun now => now.shared.Sound)
      ⟨reachable.sound, nofun, nofun⟩ ?_
    intro before l after _ sound step met
    exact ConversationRun.sound_of_step sound step met
  suffices both : c'.shared.Sound ∧ row ∈ c'.shared.db.messages from both.2
  refine stretch.invariant (J := fun now => now.shared.Sound ∧ row ∈ now.shared.db.messages)
    ⟨start, mem⟩ ?_
  rintro before l after - ⟨sound, there⟩ step ⟨met, other⟩
  exact ⟨ConversationRun.sound_of_step sound step met,
    ConversationRun.kept_of_step sound step met other there⟩

/-! ## Two turns of one conversation -/

namespace ConversationRun.Sample

open ChatRun.Sample (request isUlid)

def system : System ChatPorts ConversationWorld ChatJob ChatResult :=
  ConversationWorld.system isUlid 900

def db : ChatDb :=
  PgRepository.perform ⟨[], [], []⟩ 0 (.createConversation "t" "alice" (some "Notes") "c1")

theorem reachable_db : PgRepository.Reachable db := .next 0 _ .empty

/-- The parent is the one row of the conversation that comes after all others. -/
def isTail (db : ChatDb) (tenantId userId conversationId : String) : Option String → Bool
  | none => db.messages.all fun row => !row.isIn tenantId userId conversationId
  | some id => db.messages.any fun row =>
      row.isIn tenantId userId conversationId && row.messageId = id &&
      db.messages.all fun other =>
        !other.isIn tenantId userId conversationId || other = row || other.ordinal < row.ordinal

theorem tail_of_isTail {db : ChatDb} {tenantId userId conversationId : String}
    {parentMessageId : Option String}
    (last : isTail db tenantId userId conversationId parentMessageId = true) :
    (PgRepository.tail db tenantId userId conversationId).map (·.messageId) = parentMessageId := by
  cases found : PgRepository.tail db tenantId userId conversationId with
  | none =>
      rw [PgRepository.tail, List.getLast?_eq_none_iff] at found
      cases parentMessageId with
      | none => rfl
      | some id =>
          simp only [isTail, List.any_eq_true, Bool.and_eq_true] at last
          obtain ⟨row, mem, ⟨own, -⟩, -⟩ := last
          have inside := PgRepository.mem_messageRows.mpr ⟨mem, own⟩
          rw [found] at inside
          cases inside
  | some final =>
      obtain ⟨inside, least⟩ := PgRepository.tail_eq_some found
      obtain ⟨there, finalOwn⟩ := PgRepository.mem_messageRows.mp inside
      cases parentMessageId with
      | none =>
          have away := List.all_eq_true.mp last final there
          simp [finalOwn] at away
      | some id =>
          simp only [isTail, List.any_eq_true, Bool.and_eq_true, decide_eq_true_eq] at last
          obtain ⟨row, mem, ⟨own, rfl⟩, after⟩ := last
          have atMost := least row (PgRepository.mem_messageRows.mpr ⟨mem, own⟩)
          have below := List.all_eq_true.mp after final there
          simp only [finalOwn, Bool.not_true, Bool.false_or, Bool.or_eq_true,
            decide_eq_true_eq] at below
          rcases below with same | less
          · rw [same]
            rfl
          · omega

def checks (w : ConversationWorld) (tenantId userId conversationId : String)
    (parentMessageId : Option String) : Except StorageError Unit × ConversationWorld :=
  match PgRepository.visibleConversation w.db tenantId userId conversationId,
    isTail w.db tenantId userId conversationId parentMessageId with
  | .ok _, true => (.ok (), { w with checks := w.checks ++
      [⟨tenantId, userId, conversationId, parentMessageId, w.commits.length⟩] })
  | _, _ => (.error .staleParent, w)

theorem checking_checks (w : ConversationWorld) (tenantId userId conversationId : String)
    (parentMessageId : Option String) :
    ConversationWorld.Checking w tenantId userId conversationId parentMessageId
      (checks w tenantId userId conversationId parentMessageId).1
      (checks w tenantId userId conversationId parentMessageId).2 := by
  unfold checks
  split
  · rename_i row visible last
    refine .passed ?_
    unfold PgRepository.assertParentTail
    simp [visible, bind, Except.bind, tail_of_isTail last]
  · exact .refused _

def commits (w : ConversationWorld) (commit : TurnCommit) :
    Except StorageError ConversationDetail × ConversationWorld :=
  match PgRepository.commitTransaction w.db commit w.locks.clock with
  | .error error => (.error error, w)
  | .ok db' =>
      (PgRepository.getConversation db' commit.tenantId commit.userId commit.conversationId,
        { w with db := db', commits := w.commits ++ [commit] })

theorem committing_commits (w : ConversationWorld) (commit : TurnCommit) :
    ConversationWorld.Committing w commit (commits w commit).1 (commits w commit).2 := by
  unfold commits
  split
  · exact .refused _
  · rename_i db' done
    exact .applied done (.inl rfl)

/-- The answers of a day without faults; each turn has its own assistant message. -/
def answer (w : ConversationWorld) : (op : ChatCall) → op.Ans
  | .assertParentTail tenantId userId conversationId parentMessageId =>
      (checks w tenantId userId conversationId parentMessageId).1
  | .getConversation tenantId userId conversationId =>
      PgRepository.getConversation w.db tenantId userId conversationId
  | .commitTurn commit => (commits w commit).1
  | .recordTurnFailed _ _ _ _ _ => .error .notFound
  | .publishTurnRequested _ => .ok ()
  | .ulid => if w.commits.isEmpty then "01HX0000000000000000000011" else "01HX0000000000000000000012"
  | op => ChatRun.Sample.answer .streamEnd w.locks op

def after (w : ConversationWorld) : ChatCall → ConversationWorld
  | .assertParentTail tenantId userId conversationId parentMessageId =>
      (checks w tenantId userId conversationId parentMessageId).2
  | .commitTurn commit => (commits w commit).2
  | .publishTurnRequested command => { w with published := w.published ++ [command] }
  | op => { w with locks := w.locks.after op }

theorem serves_answer (w : ConversationWorld) (op : ChatCall) :
    w.serves op (answer w op) (after w op) := by
  cases op with
  | assertParentTail tenantId userId conversationId parentMessageId =>
      exact checking_checks w tenantId userId conversationId parentMessageId
  | getConversation tenantId userId conversationId => exact ⟨rfl, .inl rfl⟩
  | commitTurn commit => exact committing_commits w commit
  | recordTurnFailed => exact .refused _
  | publishTurnRequested command => exact .published _
  | ulid => exact ⟨w.locks, rfl, rfl⟩
  | _ => exact ⟨_, ChatRun.Sample.serves_answer .streamEnd w.locks _, rfl⟩

def served : system.Reply where
  answer op w := answer w op
  after op w := after w op
  lawful _ op w := serves_answer w op

/-- Another request, by the same user in the same conversation. -/
def second (parentMessageId : Option String) : Api.TurnRequest :=
  { request with
    turnId := "01HX0000000000000000000004"
    userMessageId := "01HX0000000000000000000003"
    parentMessageId }

def deliver (c : ConversationRun) (job : ChatJob) : ConversationRun :=
  ⟨c.shared, c.tasks ++ [system.started job]⟩

def delivery (request : Api.TurnRequest) : ChatJob := .turn ⟨request.command, "w1", 8⟩

def nextCommit (c : ConversationRun) (n : Nat) : Option TurnCommit :=
  match c.tasks[n]?.bind fun t => t.rest.issues with
  | some (.commitTurn commit) => some commit
  | _ => none

theorem nextCommit_eq {c : ConversationRun} {n : Nat} {t : Task ChatPorts ChatJob ChatResult}
    {commit : TurnCommit} {next : (ChatCall.commitTurn commit).Ans → Program ChatPorts ChatResult}
    (found : c.tasks[n]? = some t) (stands : t.rest = .call (.commitTurn commit) next) :
    nextCommit c n = some commit := by
  unfold nextCommit
  rw [found, Option.bind_some, stands]
  rfl

/-- The next call is no contested commit. -/
def uncontested (c : ConversationRun) (n : Nat) : Bool :=
  (nextCommit c n).all fun commit => decide (Uncontested c.shared commit)

/-- The next call is no commit of the turn. -/
def spares (turn : String × String × Option String) (c : ConversationRun) (n : Nat) : Bool :=
  (nextCommit c n).all fun commit => decide (turn ≠ commit.turn)

variable {turn : String × String × Option String} {c c' : ConversationRun} {n : Nat}
  {t : Task ChatPorts ChatJob ChatResult} {op : ChatCall}
  {next : op.Ans → Program ChatPorts ChatResult} {a : op.Ans}

theorem uncontested_sound (found : c.tasks[n]? = some t) (stands : t.rest = .call op next)
    (passed : uncontested c n = true) : CommitsUncontested c (.call n op a) c' := by
  rintro _ commit _ ⟨⟩ -
  simpa [uncontested, nextCommit_eq found stands] using passed

theorem spares_sound (found : c.tasks[n]? = some t) (stands : t.rest = .call op next)
    (passed : spares turn c n = true) : ¬ CommitsTurn turn (.call n op a) := by
  rintro ⟨_, commit, _, ⟨⟩, same⟩
  rw [spares, nextCommit_eq found stands] at passed
  exact of_decide_eq_true passed same

/-- Start a job and answer a schedule of calls that pass a check of the condition. -/
theorem reaches_job {c₀ : ConversationRun}
    {meets : ConversationRun → Label ChatPorts ChatJob → ConversationRun → Prop}
    {check : ConversationRun → Nat → Bool} (spawns : ∀ c job c', meets c (.spawn job) c')
    (sound : ∀ c n t op next, c.tasks[n]? = some t → t.rest = .call op next → check c n = true →
      meets c (.call n op (served.answer op c.shared)) (served.reply c n))
    (reached : system.Reaches meets c₀ c) (job : ChatJob) (admitted : c.shared.Admits job)
    (schedule : List Nat) (passes : served.passes check (deliver c job) schedule = true) :
    system.Reaches meets c₀ (schedule.foldl served.reply (deliver c job)) :=
  (reached.spawned job admitted (spawns _ _ _)).checked served sound schedule passes

theorem uncontested_job {c₀ : ConversationRun} (reached : system.Reaches CommitsUncontested c₀ c)
    (job : ChatJob) (admitted : c.shared.Admits job) (schedule : List Nat)
    (passes : served.passes uncontested (deliver c job) schedule = true) :
    system.Reaches CommitsUncontested c₀ (schedule.foldl served.reply (deliver c job)) :=
  reaches_job (fun _ _ _ _ _ _ label => nomatch label) (fun _ _ _ _ _ => uncontested_sound) reached
    job admitted schedule passes

def first : String × String × Option String := ("t", "c1", some request.turnId)

/-- The second turn follows the first one's answer. -/
def following : Api.TurnRequest := second (some "01HX0000000000000000000011")

/-- The first turn, from its request to the release of its lock. -/
def firstTurn : ConversationRun :=
  (List.replicate 27 1).foldl served.reply (deliver ((List.replicate 6 0).foldl served.reply
    (deliver (start 0 db) (.enqueue request))) (delivery request))

theorem reaches_firstTurn : system.Reaches CommitsUncontested (start 0 db) firstTurn := by
  have requested := uncontested_job (.refl (start 0 db)) (.enqueue request) trivial
    (List.replicate 6 0) (by decide +kernel)
  exact uncontested_job requested (delivery request) (by decide +kernel) (List.replicate 27 1)
    (by decide +kernel)

/-- The second one after it, up to its commit. -/
def secondTurn : ConversationRun :=
  (List.replicate 17 3).foldl served.reply (deliver ((List.replicate 6 2).foldl served.reply
    (deliver firstTurn (.enqueue following))) (delivery following))

/-- The next call is no contested commit, and no commit of the first turn. -/
def follows (c : ConversationRun) (n : Nat) : Bool := uncontested c n && spares first c n

theorem follows_job {c₀ : ConversationRun}
    (reached : system.Reaches (fun before l after => CommitsUncontested before l after ∧
      ¬ CommitsTurn first l) c₀ c)
    (job : ChatJob) (admitted : c.shared.Admits job) (schedule : List Nat)
    (passes : served.passes follows (deliver c job) schedule = true) :
    system.Reaches (fun before l after => CommitsUncontested before l after ∧
      ¬ CommitsTurn first l) c₀ (schedule.foldl served.reply (deliver c job)) := by
  refine reaches_job (fun _ _ _ => ?_) ?_ reached job admitted schedule passes
  · exact ⟨(fun _ _ _ label => nomatch label), fun ⟨_, _, _, label, _⟩ => nomatch label⟩
  · intro c n t op next found stands passed
    obtain ⟨uncontested, spared⟩ := Bool.and_eq_true_iff.mp passed
    exact ⟨uncontested_sound found stands uncontested, spares_sound found stands spared⟩

theorem reaches_secondTurn :
    system.Reaches (fun before l after => CommitsUncontested before l after ∧
      ¬ CommitsTurn first l) firstTurn secondTurn := by
  have requested := follows_job (.refl firstTurn) (.enqueue following) trivial
    (List.replicate 6 2) (by decide +kernel)
  exact follows_job requested (delivery following) (by decide +kernel) (List.replicate 17 3)
    (by decide +kernel)

/-- Both requests are checked before the first turn is published. -/
def bothChecked : ConversationRun :=
  (0 :: 1 :: List.replicate 5 0).foldl served.reply
    (deliver (deliver (start 0 db) (.enqueue request)) (.enqueue (second none)))

/-- The first turn then runs to the release of its lock. -/
def released : ConversationRun :=
  (List.replicate 27 2).foldl served.reply (deliver bothChecked (delivery request))

theorem reaches_released : system.Reaches System.anyStep (start 0 db) released := by
  have checked : system.Reaches System.anyStep (start 0 db) bothChecked :=
    (((System.Reaches.refl (start 0 db)).spawned (.enqueue request) trivial trivial).spawned
      (.enqueue (second none)) trivial trivial).replies served (0 :: 1 :: List.replicate 5 0)
  have published : bothChecked.shared.Admits (delivery request) := by decide +kernel
  exact (checked.spawned (delivery request) published trivial).replies served (List.replicate 27 2)

/-- The second request acquires the lock, and its turn runs to the commit. -/
def acquired : ConversationRun := (List.replicate 5 1).foldl served.reply released

def overtaken : ConversationRun :=
  (List.replicate 17 3).foldl served.reply (deliver acquired (delivery (second none)))

theorem reaches_overtaken :
    system.Reaches (fun _ l _ => ¬ CommitsTurn first l) released overtaken := by
  have taken : system.Reaches (fun _ l _ => ¬ CommitsTurn first l) released acquired :=
    (System.Reaches.refl released).checked served (fun _ _ _ _ _ => spares_sound)
      (List.replicate 5 1) (by decide +kernel)
  exact reaches_job (fun _ _ _ ⟨_, _, _, label, _⟩ => nomatch label)
    (fun _ _ _ _ _ => spares_sound) taken (delivery (second none)) (by decide +kernel)
    (List.replicate 17 3) (by decide +kernel)

end ConversationRun.Sample

open ConversationRun ConversationRun.Sample in
/-- A second turn, checked and committed after the first, keeps the first one's messages. -/
theorem committed_messages_followed :
    system.Reaches CommitsUncontested (start 0 db) firstTurn ∧
      firstTurn.shared.db.messages.length = 2 ∧ secondTurn.shared.db.messages.length = 4 ∧
      ∀ row ∈ firstTurn.shared.db.messages, row ∈ secondTurn.shared.db.messages := by
  have own : ∀ row ∈ firstTurn.shared.db.messages, row.turn = first := by decide +kernel
  refine ⟨reaches_firstTurn, by decide +kernel, by decide +kernel, fun row mem => ?_⟩
  refine committed_messages_stay reachable_db reaches_firstTurn mem ?_
  rw [own row mem]
  exact reaches_secondTurn

open ConversationRun ConversationRun.Sample in
/-- Two requests find the conversation empty.  The first turn is committed and its lock
released; then the second acquires the lock, and its commit takes the first turn away. -/
theorem committed_messages_pruned :
    ∃ c c' : ConversationRun, system.Reaches System.anyStep (start 0 db) c ∧
      system.Reaches (fun _ l _ => ¬ CommitsTurn first l) c c' ∧
      ∃ row ∈ c.shared.db.messages, row.turn = first ∧ row ∉ c'.shared.db.messages :=
  ⟨released, overtaken, reaches_released, reaches_overtaken, by decide +kernel⟩

end Delphi.Chat
