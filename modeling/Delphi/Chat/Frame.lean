/-
# Delphi.Chat.Frame -- what a commit leaves alone

A commit is to touch one conversation of one user: the rows up to the parent stay,
the two new messages follow them, and nothing of anyone else changes (`Frame`).

The upserts go by `(tenant_id, message_id)` and `(tenant_id, turn_id)`, and the
user message's id and the turn's come from the client.  An id that a surviving
message of the tenant has, or a turn that another user has, makes the commit
rewrite that row and not write its own.  `Unused` excludes just that, and
`commit_frame_iff` says that it is exactly the condition.
-/
import Delphi.Chat.Repository

namespace Delphi.Chat

open Delphi.Theory

set_option autoImplicit false

namespace PgRepository

variable {db db' : ChatDb} {commit : TurnCommit} {now : Timestamp} {ordinal : Int}
  {between : List MessageRow}

/-! ## Success -/

theorem visible_touch {row : ConversationRow}
    (visible : visibleConversation db commit.tenantId commit.userId commit.conversationId = .ok row)
    (same : db'.conversations = touch db.conversations commit ordinal now) :
    visibleConversation db' commit.tenantId commit.userId commit.conversationId =
      .ok { row with updatedAt := now, nextMessageOrdinal := ordinal + 2 + 1 } := by
  obtain ⟨_, bound, found⟩ := bind_eq_ok.mp visible
  refine bind_eq_ok.mpr ⟨_, bound, ?_⟩
  split at found
  · rename_i held first
    cases found
    have seen : row.visibleTo commit.tenantId commit.userId commit.conversationId = true :=
      List.find?_some (p := fun row : ConversationRow => row.visibleTo commit.tenantId commit.userId
        commit.conversationId) first
    have kept : (db.conversations.find? ((fun row => row.visibleTo commit.tenantId commit.userId
        commit.conversationId) ∘ fun row =>
          if row.visibleTo commit.tenantId commit.userId commit.conversationId then
            { row with updatedAt := now, nextMessageOrdinal := ordinal + 2 + 1 }
          else row)) = some row := by
      rw [← first]
      congr 1
      funext other
      simp only [Function.comp]
      split
      · rename_i otherSeen
        rw [otherSeen]
        exact otherSeen
      · rfl
    rw [same, touch, List.find?_map, kept]
    simp only [Option.map_some, seen, if_true]
  · cases found

/-- A transaction that commits is followed by a read that succeeds. -/
theorem commitPgTurn_of_commits (commits : Commits db commit now ordinal between db') :
    ∃ detail, commitPgTurn db commit now = (.ok detail, db') ∧
      detail.messages = (messageRows db' commit.tenantId commit.userId
        commit.conversationId).map MessageRow.toDto := by
  obtain ⟨row, visible⟩ := commits.visible
  have after := visible_touch visible commits.conversations
  obtain ⟨owner, -⟩ := (visibleTo_iff _ _ _ _).mp (visible_of_ok visible).2
  simp only [ConversationRow.owner, Prod.mk.injEq] at owner
  refine ⟨⟨row.conversationId, row.title,
    (messageRows db' row.tenantId row.userId row.conversationId).map MessageRow.toDto, now⟩, ?_, ?_⟩
  · rw [commitPgTurn, commitTransaction_of_commits commits]
    simp only [getConversation, after, bind, Except.bind, pure, Except.pure]
  · simp only [owner.1, owner.2.1, owner.2.2]

theorem commits_of_commitPgTurn {detail : ConversationDetail}
    (done : commitPgTurn db commit now = (.ok detail, db')) :
    ∃ ordinal between, Commits db commit now ordinal between db' := by
  unfold commitPgTurn at done
  cases transaction : commitTransaction db commit now with
  | error error => simp [transaction] at done
  | ok after =>
      simp only [transaction, Prod.mk.injEq] at done
      rw [← done.2]
      exact commits_of_ok transaction

/-! ## Frame -/

/-- The messages up to and including the parent. -/
def upTo (rows : List MessageRow) : Option String → List MessageRow
  | none => []
  | some parentMessageId => rows.take (rows.findIdx (·.messageId = parentMessageId) + 1)

/-- What a commit is to change, and nothing more. -/
structure Frame (db db' : ChatDb) (commit : TurnCommit) (now : Timestamp) : Prop where
  others :
    (db'.messages.filter fun row =>
      !row.isIn commit.tenantId commit.userId commit.conversationId) =
    db.messages.filter fun row => !row.isIn commit.tenantId commit.userId commit.conversationId
  turns :
    (db'.turns.filter fun row => !row.belongsTo commit.tenantId commit.userId) =
    db.turns.filter fun row => !row.belongsTo commit.tenantId commit.userId
  conversation : ∃ ordinal,
    messageRows db' commit.tenantId commit.userId commit.conversationId =
      upTo (messageRows db commit.tenantId commit.userId commit.conversationId)
        commit.parentMessageId ++
      [userRow commit ordinal now, assistantRow commit ordinal now]

/-- No message that stays, and no other user's turn, has an id the commit brings. -/
structure Unused (db : ChatDb) (commit : TurnCommit) : Prop where
  messages : ∀ ordinal, parentOrdinal db commit = .ok ordinal → NewIds db commit ordinal
  turn : ∀ row ∈ db.turns, row.key = (commit.tenantId, commit.turnId) → row.userId = commit.userId

/-! ## The retained rows -/

theorem take_findIdx_succ {rows : List MessageRow} {p : MessageRow → Bool} {row : MessageRow}
    (pairwise : rows.Pairwise fun row other => row.ordinal < other.ordinal) (mem : row ∈ rows)
    (found : p row = true) (only : ∀ other ∈ rows, p other = true → other = row) :
    rows.take (rows.findIdx p + 1) = rows.filter fun other => other.ordinal ≤ row.ordinal := by
  induction rows with
  | nil => cases mem
  | cons head rest ih =>
      obtain ⟨above, pairwise⟩ := List.pairwise_cons.mp pairwise
      by_cases here : p head = true
      · obtain rfl := only head List.mem_cons_self here
        have none_ : (rest.filter fun other => other.ordinal ≤ head.ordinal) = [] := by
          rw [List.filter_eq_nil_iff]
          intro other otherMem
          have := above other otherMem
          simp only [decide_eq_true_eq]
          omega
        simp [List.findIdx_cons, here, none_]
      · have later : row ∈ rest := by
          rcases List.mem_cons.mp mem with rfl | later
          · exact absurd found here
          · exact later
        have below := above row later
        rw [List.findIdx_cons, cond_eq_ite, if_neg here, List.take_succ_cons,
          ih pairwise later fun other otherMem => only other (List.mem_cons_of_mem _ otherMem),
          List.filter_cons_of_pos]
        simp only [decide_eq_true_eq]
        omega

theorem Sound.pairwise_messageRows (sound : Sound db) (tenantId userId conversationId : String) :
    (messageRows db tenantId userId conversationId).Pairwise
      fun row other => row.ordinal < other.ordinal := by
  have distinct : (messageRows db tenantId userId conversationId).Nodup := by
    refine (List.mergeSort_perm _ _).nodup_iff.mpr ?_
    exact (List.Nodup.of_map _ sound.messages).filter _
  refine List.Pairwise.imp_of_mem ?_ ((pairwise_byOrdinal _).and distinct)
  intro row other mem mem' ⟨below, ne⟩
  have apart := @apart_of_slots tenantId userId conversationId db.messages sound.slots
  have differ : row.ordinal ≠ other.ordinal := fun same =>
    ne (apart row (List.mem_mergeSort.mp mem) other (List.mem_mergeSort.mp mem') same)
  simp only [byOrdinal, decide_eq_true_eq] at below
  omega

/-- The rows a commit keeps are those up to its parent. -/
theorem Sound.upTo_eq (sound : Sound db) (parent : parentOrdinal db commit = .ok ordinal) :
    upTo (messageRows db commit.tenantId commit.userId commit.conversationId)
      commit.parentMessageId =
    (messageRows db commit.tenantId commit.userId commit.conversationId).filter
      fun row => row.ordinal ≤ ordinal := by
  rcases parentOrdinal_ok parent with ⟨first, rfl⟩ | ⟨row, mem, named, rfl, own⟩
  · rw [first, upTo, eq_comm, List.filter_eq_nil_iff]
    intro row mem
    have := sound.positive row (mem_messageRows.mp mem).1
    simp only [decide_eq_true_eq]
    omega
  · rw [named, upTo]
    refine take_findIdx_succ (sound.pairwise_messageRows _ _ _)
      (mem_messageRows.mpr ⟨mem, own⟩) (by simp) ?_
    intro other otherMem same
    obtain ⟨otherMem, otherOwn⟩ := mem_messageRows.mp otherMem
    refine sound.messages.unique otherMem mem ?_
    simp only [MessageRow.isIn, Bool.and_eq_true, decide_eq_true_eq] at own otherOwn same
    simp only [MessageRow.key, own.1.1, otherOwn.1.1, same]

/-! ## Without a collision -/

theorem filter_others (messages : List MessageRow) (commit : TurnCommit) (ordinal : Int)
    (now : Timestamp) :
    ((prune messages commit ordinal ++
        [userRow commit ordinal now, assistantRow commit ordinal now]).filter fun row =>
      !row.isIn commit.tenantId commit.userId commit.conversationId) =
    messages.filter fun row => !row.isIn commit.tenantId commit.userId commit.conversationId := by
  rw [List.filter_append, prune, List.filter_filter]
  have own : ([userRow commit ordinal now, assistantRow commit ordinal now].filter fun row =>
      !row.isIn commit.tenantId commit.userId commit.conversationId) = [] := by
    simp [userRow, assistantRow, MessageRow.isIn]
  rw [own, List.append_nil]
  refine List.filter_congr fun row _ => ?_
  cases row.isIn commit.tenantId commit.userId commit.conversationId
  · simp
  · simp

theorem filter_upsertTurn {turns : List TurnRow}
    (own : ∀ row ∈ turns, row.key = (commit.tenantId, commit.turnId) → row.userId = commit.userId) :
    ((upsertTurn turns (turnRow commit now)).filter fun row =>
      !row.belongsTo commit.tenantId commit.userId) =
    turns.filter fun row => !row.belongsTo commit.tenantId commit.userId := by
  have mine : (turnRow commit now).belongsTo commit.tenantId commit.userId = true := by
    simp [TurnRow.belongsTo, turnRow]
  refine filter_upsert (by simp [mine]) ?_
  intro held mem hit
  have tenant : held.tenantId = commit.tenantId := congrArg Prod.fst hit
  refine ⟨?_, by simp [mine]⟩
  simp [TurnRow.belongsTo, tenant, own held mem hit]

theorem frame_of_unused (sound : Sound db) (commits : Commits db commit now ordinal between db')
    (unused : Unused db commit) : Frame db db' commit now := by
  have new := unused.messages ordinal commits.parent
  refine ⟨?_, ?_, ordinal, ?_⟩
  · rw [messages_of_newIds commits new, filter_others]
  · rw [commits.turns, filter_upsertTurn unused.turn]
  · rw [messageRows_commit commits new, sound.upTo_eq commits.parent]

/-! ## With one -/

/-- A message the frame puts after the retained rows has an id that no row had. -/
theorem Frame.fresh (frame : Frame db db' commit now) (sound : Sound db) (after : Sound db')
    (parent : parentOrdinal db commit = .ok ordinal) {added : List MessageRow} {new : MessageRow}
    (conversation : messageRows db' commit.tenantId commit.userId commit.conversationId =
      upTo (messageRows db commit.tenantId commit.userId commit.conversationId)
        commit.parentMessageId ++ added)
    (mem : new ∈ added) {id : String} (key : new.key = (commit.tenantId, id)) :
    Fresh db commit ordinal id := by
  intro row rowMem same
  obtain ⟨rowMem, kept⟩ := List.mem_filter.mp rowMem
  have newMem : new ∈ messageRows db' commit.tenantId commit.userId commit.conversationId := by
    rw [conversation]
    exact List.mem_append_right _ mem
  obtain ⟨newMem, newIn⟩ := mem_messageRows.mp newMem
  by_cases own : row.isIn commit.tenantId commit.userId commit.conversationId = true
  · have before : row ∈ upTo (messageRows db commit.tenantId commit.userId commit.conversationId)
        commit.parentMessageId := by
      rw [sound.upTo_eq parent, List.mem_filter, mem_messageRows]
      refine ⟨⟨rowMem, own⟩, ?_⟩
      simpa [own] using kept
    have distinct := (after.pairwise_messageRows commit.tenantId commit.userId
      commit.conversationId)
    rw [conversation, List.pairwise_append] at distinct
    have here : row ∈ messageRows db' commit.tenantId commit.userId commit.conversationId := by
      rw [conversation]
      exact List.mem_append_left _ before
    have equal : row = new :=
      after.messages.unique (mem_messageRows.mp here).1 newMem (same.trans key.symm)
    have := distinct.2.2 row before new mem
    rw [equal] at this
    omega
  · have here : row ∈ db'.messages.filter fun row =>
        !row.isIn commit.tenantId commit.userId commit.conversationId := by
      rw [frame.others]
      exact List.mem_filter.mpr ⟨rowMem, by simpa using own⟩
    have equal : row = new :=
      after.messages.unique (List.mem_of_mem_filter here) newMem (same.trans key.symm)
    exact own (equal ▸ newIn)

theorem Frame.unused (frame : Frame db db' commit now) (sound : Sound db)
    (commits : Commits db commit now ordinal between db') : Unused db commit := by
  have after := sound.commits commits
  obtain ⟨placed, conversation⟩ := frame.conversation
  refine ⟨?_, ?_⟩
  · intro found parent
    refine ⟨frame.fresh sound after parent conversation List.mem_cons_self rfl,
      frame.fresh sound after parent conversation (List.mem_cons_of_mem _ List.mem_cons_self) rfl,
      ?_⟩
    intro same
    have mems : ∀ row ∈ [userRow commit placed now, assistantRow commit placed now],
        row ∈ db'.messages := by
      intro row mem
      have here : row ∈ messageRows db' commit.tenantId commit.userId commit.conversationId := by
        rw [conversation]
        exact List.mem_append_right _ mem
      exact (mem_messageRows.mp here).1
    have equal := after.messages.unique (mems _ List.mem_cons_self)
      (mems _ (List.mem_cons_of_mem _ List.mem_cons_self))
      (show (commit.tenantId, commit.userMessageId) = (commit.tenantId, commit.assistantMessageId)
        from congrArg _ same)
    exact absurd (congrArg MessageRow.role equal) (by simp [userRow, assistantRow])
  · intro row mem key
    by_contra other
    have here : row ∈ db'.turns.filter fun row =>
        !row.belongsTo commit.tenantId commit.userId := by
      rw [frame.turns]
      exact List.mem_filter.mpr ⟨mem, by simp [TurnRow.belongsTo, other]⟩
    have stored := List.mem_of_mem_filter here
    rw [commits.turns, upsertTurn, mem_upsert_self key] at stored
    rcases stored with ⟨_, _, _, rfl⟩ | ⟨absent, -⟩
    · exact other rfl
    · exact absent row mem key

/-- A successful commit touches only its own conversation exactly when no surviving
message of the tenant, and no other user's turn, has an id it brings. -/
theorem commit_frame_iff {detail : ConversationDetail} (reachable : Reachable db)
    (done : commitPgTurn db commit now = (.ok detail, db')) :
    Frame db db' commit now ↔ Unused db commit := by
  obtain ⟨ordinal, between, commits⟩ := commits_of_commitPgTurn done
  exact ⟨fun frame => frame.unused reachable.sound commits,
    frame_of_unused reachable.sound commits⟩

def alicesTurn : TurnCommit :=
  ⟨"t", "alice", "c1", "t1", "m1", "hello", none, "m2", "hi", [], false, none⟩

/-- A conversation of `alice` with one turn, and an empty one of `bob`. -/
def twoUsers : List (Timestamp × Operation) :=
  [(0, .createConversation "t" "alice" none "c1"),
    (1, .createConversation "t" "bob" none "c2"),
    (2, .commitTurn alicesTurn)]

def performAll (db : ChatDb) : List (Timestamp × Operation) → ChatDb
  | [] => db
  | (now, operation) :: rest => performAll (perform db now operation) rest

theorem Reachable.performAll (reachable : Reachable db) (operations : List (Timestamp × Operation)) :
    Reachable (performAll db operations) := by
  induction operations generalizing db with
  | nil => exact reachable
  | cons operation rest ih => exact ih (reachable.next operation.1 operation.2)

def bobsTurn (userMessageId : String) : TurnCommit :=
  ⟨"t", "bob", "c2", "t2", userMessageId, "mine", none, "m4", "ok", [], false, none⟩

/-- `bob` names the message of `alice`, which then says what `bob` wrote. -/
theorem commit_rewrites_another_users_message :
    ∃ db db' commit now detail, Reachable db ∧
      commitPgTurn db commit now = (.ok detail, db') ∧ ¬ Frame db db' commit now := by
  have reachable := Reachable.empty.performAll twoUsers
  have transaction : ∃ db', commitTransaction (performAll ⟨[], [], []⟩ twoUsers) (bobsTurn "m1") 3 =
      .ok db' := ⟨_, rfl⟩
  obtain ⟨db', transaction⟩ := transaction
  obtain ⟨ordinal, between, commits⟩ := commits_of_ok transaction
  obtain ⟨detail, done, -⟩ := commitPgTurn_of_commits commits
  refine ⟨_, db', bobsTurn "m1", 3, detail, reachable, done, fun frame => ?_⟩
  have new := (frame.unused reachable.sound commits).messages 0 rfl
  refine new.user (userRow alicesTurn 0 2) ?_ rfl
  decide

/-- With an id of its own the same commit is framed. -/
theorem commit_frame_fresh_id :
    ∃ db', (∃ detail, commitPgTurn (performAll ⟨[], [], []⟩ twoUsers) (bobsTurn "m3") 3 =
      (.ok detail, db')) ∧ Frame (performAll ⟨[], [], []⟩ twoUsers) db' (bobsTurn "m3") 3 := by
  have reachable := Reachable.empty.performAll twoUsers
  have transaction : ∃ db', commitTransaction (performAll ⟨[], [], []⟩ twoUsers) (bobsTurn "m3") 3 =
      .ok db' := ⟨_, rfl⟩
  obtain ⟨db', transaction⟩ := transaction
  obtain ⟨ordinal, between, commits⟩ := commits_of_ok transaction
  obtain ⟨detail, done, -⟩ := commitPgTurn_of_commits commits
  refine ⟨db', ⟨detail, done⟩, (commit_frame_iff reachable done).mpr ⟨?_, ?_⟩⟩
  · intro ordinal parent
    cases parent
    exact ⟨by unfold Fresh; decide, by unfold Fresh; decide, by decide⟩
  · decide

end PgRepository

end Delphi.Chat
