/-
# Delphi.Chat.SocketHook -- the message list of the chat view

`applyEvent` of `useChatSocket`: a handler writes four refs at once and queues
updaters of the message list, which React runs later, in order.  Two updaters
carry everything they need (`user_message`, `citations`); the others read refs
when they run, and the statements after them in their own handler have often
overwritten those by then.

Running each updater at once is the reference (`shownAtOnce`).  A schedule that
runs every updater while the refs it reads still say what they said when it was
queued shows the same list; so does one that runs a text update late, as long as
another update replaces what it wrote (`timely`).

Poles: `cleared_message_stays` (the updaters run after their handlers, and the
message of a cleared turn is still there).
-/
import Delphi.Theory.Deferred
import Delphi.Chat.Bus

namespace Delphi.Chat.SocketHook

open Delphi.Theory

set_option autoImplicit false

/-! ## Messages -/

/-- A message of the view, without its `created_at`; absent and null are one. -/
structure ViewMessage where
  id : String
  role : MessageRole
  content : String
  parentMessageId : Option String
  citations : List CitationEntry
  turnId : Option String
  interrupted : Option Bool
  finishReason : Option String
deriving DecidableEq

def liveId : String := "assistant-live"

/-- Replace the first message of this id, or add the message at the end. -/
def upsert (messages : List ViewMessage) (message : ViewMessage) : List ViewMessage :=
  match messages.findIdx? fun other => other.id = message.id with
  | none => messages ++ [message]
  | some index => messages.set index message

def overlay (content : String) (citations : List CitationEntry) (turnId : Option String) :
    ViewMessage :=
  ⟨liveId, .assistant, content, none, citations, turnId, some false, none⟩

def upsertAssistantOverlay (messages : List ViewMessage) (content : String)
    (citations : List CitationEntry) (turnId : Option String) : List ViewMessage :=
  upsert messages (overlay content citations turnId)

def interruptedAssistant (assistantMessageId content : String) (citations : List CitationEntry)
    (turnId : Option String) : ViewMessage :=
  ⟨assistantMessageId, .assistant, content, none, citations, turnId, some true,
    some "user_interrupted"⟩

def upsertInterruptedAssistant (messages : List ViewMessage) (assistantMessageId content : String)
    (citations : List CitationEntry) (turnId : Option String) : List ViewMessage :=
  upsert (messages.filter fun message => message.id ≠ liveId)
    (interruptedAssistant assistantMessageId content citations turnId)

/-! ## Refs, updaters and handlers -/

structure Refs where
  inFlightUserId : Option String
  inFlightTurnId : Option String
  overlayText : String
  liveCitations : List CitationEntry
deriving DecidableEq

/-- An updater, with what its closure captures of the event. -/
inductive Updater where
  | userMessage (id : String) (turnId : Option String) (content : String)
  | citations (citations : List CitationEntry)
  | textDelta
  | finish (assistantMessageId : String)
  | interrupted (assistantMessageId content : String)
  | clear
deriving DecidableEq

def citing (citations : List CitationEntry) (message : ViewMessage) : ViewMessage :=
  if message.id = liveId then { message with citations := citations } else message

def finishing (assistantMessageId : String) (citations : List CitationEntry)
    (message : ViewMessage) : ViewMessage :=
  if message.id = liveId then { message with id := assistantMessageId, citations := citations }
  else message

/-- What an updater makes of the list, with the refs it sees. -/
def update : Updater → Refs → List ViewMessage → List ViewMessage
  | .userMessage id turnId content, _, current =>
      (current.filter fun message => message.id ≠ id ∧ message.id ≠ liveId) ++
        [⟨id, .user, content, none, [], turnId, none, none⟩]
  | .citations citations, _, current => current.map (citing citations)
  | .textDelta, refs, current =>
      upsertAssistantOverlay current refs.overlayText refs.liveCitations refs.inFlightTurnId
  | .finish assistantMessageId, refs, current =>
      current.map (finishing assistantMessageId refs.liveCitations)
  | .interrupted assistantMessageId content, refs, current =>
      upsertInterruptedAssistant current assistantMessageId content refs.liveCitations
        refs.inFlightTurnId
  | .clear, refs, current =>
      current.filter fun message => message.id ≠ liveId ∧ some message.id ≠ refs.inFlightUserId

/-- `applyEvent`, statement by statement; the other events leave refs and list alone. -/
def applyEvent : ChatEvent → List (Stmt Refs Updater)
  | .userMessage id turnId content =>
      [.assign fun refs => { refs with inFlightUserId := some id },
        .assign fun refs => { refs with inFlightTurnId := turnId },
        .assign fun refs => { refs with overlayText := "" },
        .assign fun refs => { refs with liveCitations := [] },
        .defer (.userMessage id turnId content)]
  | .citations citations =>
      [.assign fun refs => { refs with liveCitations := citations }, .defer (.citations citations)]
  | .textDelta delta =>
      [.assign fun refs => { refs with overlayText := refs.overlayText ++ delta },
        .defer .textDelta]
  | .finish assistantMessageId _ =>
      [.defer (.finish assistantMessageId),
        .assign fun refs => { refs with overlayText := "" },
        .assign fun refs => { refs with inFlightUserId := none },
        .assign fun refs => { refs with inFlightTurnId := none }]
  | .interrupted assistantMessageId content =>
      [.defer (.interrupted assistantMessageId content),
        .assign fun refs => { refs with overlayText := "" },
        .assign fun refs => { refs with inFlightUserId := none },
        .assign fun refs => { refs with inFlightTurnId := none },
        .assign fun refs => { refs with liveCitations := [] }]
  | .clear _ =>
      [.defer .clear,
        .assign fun refs => { refs with overlayText := "" },
        .assign fun refs => { refs with inFlightUserId := none },
        .assign fun refs => { refs with inFlightTurnId := none },
        .assign fun refs => { refs with liveCitations := [] }]
  | .turnStarted _ | .error _ | .titleUpdated _ => []

/-- The statements of a sequence of events. -/
def handlers (events : List ChatEvent) : List (Stmt Refs Updater) := events.flatMap applyEvent

/-- The list when every updater runs at once. -/
def shownAtOnce (refs : Refs) (messages : List ViewMessage) (events : List ChatEvent) :
    List ViewMessage :=
  (atOnce update (handlers events) refs messages).2

/-- The refs once the events are handled. -/
def refsAfter (refs : Refs) (messages : List ViewMessage) (events : List ChatEvent) : Refs :=
  (atOnce update (handlers events) refs messages).1

abbrev View := Deferred Refs (List ViewMessage) Updater

/-- The hook before the events. -/
def start (refs : Refs) (messages : List ViewMessage) (events : List ChatEvent) : View :=
  ⟨handlers events, refs, messages, []⟩

/-! ## Timely updaters -/

/-- The next updater, citations aside, replaces or removes the live entry. -/
def overtaken : List Updater → Bool
  | [] => false
  | .citations _ :: rest => overtaken rest
  | .finish _ :: _ => false
  | _ :: _ => true

/-- The updater about to run reads what it would have read when it was queued, or what it
reads differently makes no difference. -/
def timelyUpdate (queued refs : Refs) (messages : List ViewMessage) (following : List Updater) :
    Updater → Bool
  | .userMessage _ _ _ | .citations _ => true
  | .textDelta =>
      overtaken following ||
      (refs.overlayText = queued.overlayText && refs.inFlightTurnId = queued.inFlightTurnId &&
        (refs.liveCitations = queued.liveCitations || !following.isEmpty))
  | .finish _ =>
      refs.liveCitations = queued.liveCitations || messages.all fun message => message.id ≠ liveId
  | .interrupted _ _ =>
      refs.liveCitations = queued.liveCitations && refs.inFlightTurnId = queued.inFlightTurnId
  | .clear =>
      messages.all fun message => message.id = liveId ||
        (some message.id = refs.inFlightUserId) = (some message.id = queued.inFlightUserId)

def timely (c : View) : Bool :=
  match c.queue with
  | [] => true
  | (updater, queued) :: _ =>
      timelyUpdate queued c.refs c.view (c.following.map Prod.fst) updater

/-! ## The live entry -/

theorem upsert_cons (first : ViewMessage) (rest : List ViewMessage) (message : ViewMessage) :
    upsert (first :: rest) message =
      if first.id = message.id then message :: rest else first :: upsert rest message := by
  unfold upsert
  rw [List.findIdx?_cons]
  by_cases same : first.id = message.id
  · simp [same]
  · simp only [same, decide_false, Bool.false_eq_true, if_false]
    cases rest.findIdx? fun other => other.id = message.id <;> rfl

/-- Replacing an entry twice leaves the second. -/
theorem upsert_upsert (messages : List ViewMessage) {first second : ViewMessage}
    (same : first.id = second.id) :
    upsert (upsert messages first) second = upsert messages second := by
  induction messages with
  | nil =>
      show upsert [first] second = [second]
      rw [upsert_cons, if_pos same]
  | cons message rest ih =>
      rw [upsert_cons, upsert_cons message rest second]
      by_cases own : message.id = second.id
      · rw [if_pos (own.trans same.symm), if_pos own, upsert_cons, if_pos same]
      · rw [if_neg fun other => own (other.trans same), if_neg own, upsert_cons, if_neg own, ih]

/-- Where entries of this id are dropped anyway, it does not matter which one was there. -/
theorem filter_upsert (messages : List ViewMessage) (message : ViewMessage)
    {keep : ViewMessage → Bool} (drops : ∀ other : ViewMessage, other.id = message.id →
      keep other = false) : (upsert messages message).filter keep = messages.filter keep := by
  induction messages with
  | nil => simp [upsert, drops message rfl]
  | cons other rest ih =>
      rw [upsert_cons]
      by_cases same : other.id = message.id
      · simp [if_pos same, drops message rfl, drops other same]
      · simp [if_neg same, List.filter_cons, ih]

/-- Entries a map makes equal may be exchanged below it. -/
theorem map_upsert_congr (messages : List ViewMessage) {first second : ViewMessage}
    (same : first.id = second.id) {f : ViewMessage → ViewMessage} (equal : f first = f second) :
    (upsert messages first).map f = (upsert messages second).map f := by
  induction messages with
  | nil => simp [upsert, equal]
  | cons message rest ih =>
      rw [upsert_cons, upsert_cons, same]
      split
      · simp [equal]
      · simp [ih]

/-- A map that keeps ids replaces below as above. -/
theorem map_upsert (messages : List ViewMessage) (message : ViewMessage)
    {f : ViewMessage → ViewMessage} (keeps : ∀ other, (f other).id = other.id) :
    (upsert messages message).map f = upsert (messages.map f) (f message) := by
  induction messages with
  | nil => rfl
  | cons other rest ih =>
      rw [upsert_cons, List.map_cons, upsert_cons, keeps, keeps]
      split
      · rfl
      · rw [List.map_cons, ih]

theorem citing_id (citations : List CitationEntry) (message : ViewMessage) :
    (citing citations message).id = message.id := by
  unfold citing
  split <;> rfl

/-! ## What a stale updater does -/

/-- Updaters that drop every live entry make nothing of which one was there. -/
theorem update_drops {updater : Updater} (refs : Refs) (messages : List ViewMessage)
    {first second : ViewMessage} (isLive : first.id = liveId) (isLive' : second.id = liveId)
    (replaces : overtaken [updater] = true) :
    update updater refs (upsert messages first) = update updater refs (upsert messages second) := by
  have drop : ∀ keep : ViewMessage → Bool,
      (∀ other : ViewMessage, other.id = liveId → keep other = false) →
      (upsert messages first).filter keep = (upsert messages second).filter keep := by
    intro keep drops
    rw [filter_upsert messages first fun other same => drops other (same.trans isLive),
      filter_upsert messages second fun other same => drops other (same.trans isLive')]
  cases updater with
  | userMessage id turnId content =>
      simp only [update]
      rw [drop]
      intro other live
      simp [live]
  | citations citations => cases replaces
  | textDelta =>
      simp only [update, upsertAssistantOverlay]
      rw [upsert_upsert messages isLive, upsert_upsert messages isLive']
  | finish assistantMessageId => cases replaces
  | interrupted assistantMessageId content =>
      simp only [update, upsertInterruptedAssistant]
      rw [drop]
      intro other live
      simp [live]
  | clear =>
      apply drop
      intro other live
      simp [live]

/-- A live entry about to be replaced may hold anything. -/
theorem applyAll_overtaken {updates : List (Updater × Refs)}
    (replaces : overtaken (updates.map Prod.fst) = true) (messages : List ViewMessage)
    {first second : ViewMessage} (isLive : first.id = liveId) (isLive' : second.id = liveId) :
    applyAll update updates (upsert messages first) =
      applyAll update updates (upsert messages second) := by
  induction updates generalizing messages first second with
  | nil => cases replaces
  | cons entry rest ih =>
      obtain ⟨updater, refs⟩ := entry
      rw [applyAll_cons, applyAll_cons]
      cases updater with
      | citations citations =>
          have kept := citing_id citations
          show applyAll update rest ((upsert messages first).map (citing citations)) =
            applyAll update rest ((upsert messages second).map (citing citations))
          rw [map_upsert messages first kept, map_upsert messages second kept]
          exact ih replaces _ ((kept first).trans isLive) ((kept second).trans isLive')
      | finish assistantMessageId => cases replaces
      | _ => exact congrArg _ (update_drops refs messages isLive isLive' rfl)

/-- The next updater settles the citations of the live entry. -/
theorem update_settles (updater : Updater) (refs : Refs) (messages : List ViewMessage)
    (content : String) (turnId : Option String) (citations citations' : List CitationEntry) :
    update updater refs (upsert messages (overlay content citations turnId)) =
      update updater refs (upsert messages (overlay content citations' turnId)) := by
  cases updater with
  | citations settled =>
      apply map_upsert_congr messages
      · rfl
      · simp [citing, overlay]
  | finish assistantMessageId =>
      apply map_upsert_congr messages
      · rfl
      · simp [finishing, overlay]
  | _ => exact update_drops refs messages rfl rfl rfl

theorem applyAll_settled {updates : List (Updater × Refs)} (followed : updates ≠ [])
    (messages : List ViewMessage) (content : String) (turnId : Option String)
    (citations citations' : List CitationEntry) :
    applyAll update updates (upsert messages (overlay content citations turnId)) =
      applyAll update updates (upsert messages (overlay content citations' turnId)) := by
  cases updates with
  | nil => exact absurd rfl followed
  | cons entry rest =>
      rw [applyAll_cons, applyAll_cons]
      exact congrArg _ (update_settles entry.1 entry.2 messages content turnId citations citations')

/-! ## Timely schedules -/

/-- A timely updater is harmless. -/
theorem applyAll_timely {updater : Updater} {queued refs : Refs} {messages : List ViewMessage}
    {following : List (Updater × Refs)}
    (inTime : timelyUpdate queued refs messages (following.map Prod.fst) updater = true) :
    applyAll update following (update updater refs messages) =
      applyAll update following (update updater queued messages) := by
  cases updater with
  | userMessage id turnId content => rfl
  | citations citations => rfl
  | textDelta =>
      simp only [timelyUpdate, Bool.or_eq_true, Bool.and_eq_true, decide_eq_true_eq] at inTime
      rcases inTime with replaced | ⟨⟨text, turn⟩, citations⟩
      · exact applyAll_overtaken replaced messages rfl rfl
      · simp only [update, upsertAssistantOverlay, text, turn]
        rcases citations with same | followed
        · rw [same]
        · apply applyAll_settled
          rintro rfl
          cases followed
  | finish assistantMessageId =>
      simp only [timelyUpdate, Bool.or_eq_true, decide_eq_true_eq] at inTime
      apply congrArg
      rcases inTime with same | noneLive
      · simp only [update, same]
      · apply List.map_congr_left
        intro message mem
        have other : message.id ≠ liveId := of_decide_eq_true (List.all_eq_true.mp noneLive _ mem)
        simp only [finishing, if_neg other]
  | interrupted assistantMessageId content =>
      simp only [timelyUpdate, Bool.and_eq_true, decide_eq_true_eq] at inTime
      simp only [update, inTime.1, inTime.2]
  | clear =>
      apply congrArg
      apply List.filter_congr
      intro message mem
      have either := List.all_eq_true.mp inTime message mem
      simp only [Bool.or_eq_true, decide_eq_true_eq, eq_iff_iff] at either
      rcases either with live | same
      · simp [live]
      · simp [same]

theorem harmless_of_timely (c : View) (inTime : timely c = true) : c.Harmless update := by
  intro updater queued atHead
  unfold timely at inTime
  cases queue : c.queue with
  | nil =>
      rw [queue] at atHead
      cases atHead
  | cons entry rest =>
      rw [queue] at atHead inTime
      obtain rfl := Option.some.inj atHead
      exact applyAll_timely inTime

/-- An updater that runs before anything else is written is timely. -/
theorem timely_of_fresh {c : View} (fresh : c.queue.head?.map Prod.snd = some c.refs) :
    timely c = true := by
  unfold timely
  cases queue : c.queue with
  | nil => rfl
  | cons entry rest =>
      rw [queue] at fresh
      obtain ⟨updater, queued⟩ := entry
      obtain rfl : queued = c.refs := Option.some.inj fresh
      cases updater <;> simp [timelyUpdate]

/-! ## The last event -/

theorem atOnce_concat (refs : Refs) (messages : List ViewMessage) (front : List ChatEvent)
    (last : ChatEvent) :
    shownAtOnce refs messages (front ++ [last]) =
      (atOnce update (applyEvent last) (refsAfter refs messages front)
        (shownAtOnce refs messages front)).2 := by
  unfold shownAtOnce refsAfter handlers
  rw [List.flatMap_append, List.flatMap_singleton, atOnce_append]

theorem mem_upsert (messages : List ViewMessage) (message : ViewMessage) :
    message ∈ upsert messages message := by
  induction messages with
  | nil => exact List.mem_singleton.mpr rfl
  | cons other rest ih =>
      rw [upsert_cons]
      split
      · exact List.mem_cons_self
      · exact List.mem_cons_of_mem _ ih

/-- A schedule whose updaters all run in time ends with the list of running each at once: after
a `clear` without the in-flight message and the live entry, after an `interrupted` with a
message that has the live citations and the turn id. -/
theorem shown_of_timely_schedule {refs : Refs} {messages : List ViewMessage}
    {events : List ChatEvent} {moves : List Move} {final : View}
    (played : (start refs messages events).play update moves = some final) (done : final.Done)
    (inTime : (start refs messages events).Throughout update (fun c => timely c = true) moves) :
    final.view = shownAtOnce refs messages events ∧
    (∀ front reason, events = front ++ [.clear reason] → ∀ message ∈ final.view,
      message.id ≠ liveId ∧ some message.id ≠ (refsAfter refs messages front).inFlightUserId) ∧
    ∀ front assistantMessageId content,
      events = front ++ [.interrupted assistantMessageId content] →
      interruptedAssistant assistantMessageId content
        (refsAfter refs messages front).liveCitations
        (refsAfter refs messages front).inFlightTurnId ∈ final.view := by
  have shown : final.view = shownAtOnce refs messages events :=
    Deferred.view_of_play played (inTime.imp harmless_of_timely) done
  refine ⟨shown, ?_, ?_⟩
  · rintro front reason rfl message mem
    rw [shown, atOnce_concat] at mem
    exact of_decide_eq_true (List.mem_filter.mp mem).2
  · rintro front assistantMessageId content rfl
    rw [shown, atOnce_concat]
    exact mem_upsert _ _

/-- The hook as it is first rendered. -/
def idle : Refs := ⟨none, none, "", []⟩

/-- A turn that is cancelled after its first words. -/
def cancelledTurn : List ChatEvent :=
  [.userMessage "m1" (some "t1") "hello", .textDelta "a", .textDelta "b", .clear .cancelled]

/-- The text updates run together; the `clear` runs as it is queued. -/
def batched : List Move :=
  List.replicate 5 .statement ++ [.update] ++ List.replicate 4 .statement ++ [.update, .update] ++
    [.statement, .update] ++ List.replicate 4 .statement

/-- Every updater runs as it is queued. -/
def eager : List Move :=
  [List.replicate 5 .statement, [.update], List.replicate 2 .statement, [.update],
    List.replicate 2 .statement, [.update], [.statement, .update],
    List.replicate 4 .statement].flatten

theorem shown_of_timely_schedule_batched :
    (∃ final, (start idle [] cancelledTurn).play update eager = some final ∧
      final.view = shownAtOnce idle [] cancelledTurn) ∧
    ∃ final, (start idle [] cancelledTurn).play update batched = some final ∧
      final.view = shownAtOnce idle [] cancelledTurn ∧
      ∀ message ∈ final.view, message.id ≠ liveId ∧ some message.id ≠ some "m1" := by
  have fresh : (start idle [] cancelledTurn).Throughout update
      (fun c => c.queue.head?.map Prod.snd = some c.refs) eager := by
    decide +kernel
  have inTime : (start idle [] cancelledTurn).Throughout update (fun c => timely c = true)
      batched := by
    decide +kernel
  have atOnce : ∃ final, (start idle [] cancelledTurn).play update eager = some final ∧
      final.Done := ⟨_, rfl, rfl, rfl⟩
  have ends : ∃ final, (start idle [] cancelledTurn).play update batched = some final ∧
      final.Done := ⟨_, rfl, rfl, rfl⟩
  obtain ⟨first, playedFirst, doneFirst⟩ := atOnce
  obtain ⟨final, played, done⟩ := ends
  obtain ⟨shown, cleared, -⟩ := shown_of_timely_schedule played done inTime
  refine ⟨⟨first, playedFirst, ?_⟩, final, played, shown,
    cleared (cancelledTurn.take 3) .cancelled rfl⟩
  exact (shown_of_timely_schedule playedFirst doneFirst (fresh.imp fun _ => timely_of_fresh)).1

/-- Every updater as React runs it when it renders after the handler. -/
def renderedAfterEach : List Move :=
  List.replicate 5 .statement ++ [.update] ++ List.replicate 2 .statement ++ [.update] ++
    List.replicate 2 .statement ++ [.update] ++ List.replicate 5 .statement ++ [.update]

/-- By the time the `clear` runs its handler has forgotten which message was in flight. -/
theorem cleared_message_stays :
    ∃ final, (start idle [] cancelledTurn).play update renderedAfterEach = some final ∧
      final.Done ∧ shownAtOnce idle [] cancelledTurn = [] ∧
      final.view = [⟨"m1", .user, "hello", none, [], some "t1", none, none⟩] ∧
      final.view ≠ shownAtOnce idle [] cancelledTurn := by
  have ends : ∃ final, (start idle [] cancelledTurn).play update renderedAfterEach = some final ∧
      final.Done ∧ final.view = [⟨"m1", .user, "hello", none, [], some "t1", none, none⟩] :=
    ⟨_, rfl, ⟨rfl, rfl⟩, rfl⟩
  have empty : shownAtOnce idle [] cancelledTurn = [] := by decide +kernel
  obtain ⟨final, played, done, view⟩ := ends
  refine ⟨final, played, done, empty, view, ?_⟩
  rw [view, empty]
  exact List.cons_ne_nil _ _

end Delphi.Chat.SocketHook
