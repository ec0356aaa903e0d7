/-
# Delphi.Chat.ReplayWriters -- publishing events, and the index they leave

`publish_event` of the NATS bus appends the event to the stream and then brings the
conversation's replay index up to date with `update_replay_for_event`, a loop of
eight compare-and-swaps.  Any number of workers publish at once, for one
conversation or many; a publish may die between its two halves, and the index has a
time to live.

The updates are folded by compare-and-swap, so the rules of `CasFold` apply: the
index stored for a conversation is `replayIndex` of the events whose updates have
landed since it last expired, in the order they landed, and so describes their last
two runs; each landed event is in the stream at its sequence; no publish lands
twice; and one that answered with a sequence has landed (`replay_index_of_run`).
-/
import Delphi.Theory.CasFold
import Delphi.Chat.ReplayIndex

namespace Delphi.Chat

open Delphi.Theory CasFold

set_option autoImplicit false

/-! ## Publishing -/

inductive EventPublishError where
  | publish (message : String)
  | ack (message : String)
deriving DecidableEq

/-- The event stream: an append answers with its sequence. -/
def StreamPort : Signature := ⟨ChatEventEnvelope, fun _ => Except EventPublishError Nat⟩

abbrev PublishPorts : Signature := CasPorts ReplayIndex AppliedEvent StreamPort

abbrev PublishCall := CasCall ReplayIndex AppliedEvent ChatEventEnvelope

/-- The bucket's key for the event's conversation. -/
def AppliedEvent.key (event : AppliedEvent) : String :=
  ChatSubjects.lockKey event.envelope.tenantId event.envelope.conversationId

namespace NatsChatBus

/-- Issue one call. -/
def request (op : PublishCall) : Program PublishPorts (PublishPorts.Ans op) :=
  Program.perform (S := PublishPorts) op

def readReplayError : KvReadError → ChatBusError
  | .read message => .payload ("read chat replay index: " ++ message)
  | .decode message => .payload ("decode chat replay index: " ++ message)

/-- `for _ in 0..8` -/
def swapReplayIndex (event : AppliedEvent) : Nat → Program PublishPorts (Except ChatBusError Unit)
  | 0 => return .error (.payload "update chat replay index CAS retry limit exceeded")
  | attempts + 1 => do
      match (← request (.entry event.key) : Except KvReadError (Option (KvEntry ReplayIndex))) with
      | .error error => return .error (readReplayError error)
      | .ok (some (.put index revision)) =>
          match (← request (.update event event.key (applyEvent index event) revision) :
              Except KvUpdateError Nat) with
          | .ok _ => return .ok ()
          | .error .wrongLastRevision => swapReplayIndex event attempts
          | .error (.other message) =>
              return .error (.payload ("update chat replay index: " ++ message))
      | .ok _ =>
          match (← request (.create event event.key (applyEvent .default event)) :
              Except KvCreateError Nat) with
          | .ok _ => return .ok ()
          | .error .alreadyExists => swapReplayIndex event attempts
          | .error (.other message) =>
              return .error (.payload ("create chat replay index: " ++ message))

def updateReplayForEvent (event : AppliedEvent) : Program PublishPorts (Except ChatBusError Unit) :=
  if isReplayIndexEvent event.envelope.event then swapReplayIndex event 8 else return .ok ()

def publishEvent (envelope : ChatEventEnvelope) :
    Program PublishPorts (Except ChatBusError String) := do
  match (← request (.beside envelope) : Except EventPublishError Nat) with
  | .error (.publish message) => return .error (.payload ("publish event: " ++ message))
  | .error (.ack message) => return .error (.payload ("ack event publish: " ++ message))
  | .ok sequence =>
      match ← updateReplayForEvent ⟨sequence, envelope⟩ with
      | .error error => return .error error
      | .ok () => return .ok (toString sequence)

end NatsChatBus

/-! ## The stream beside the bucket -/

namespace Publishing

/-- An append: the event is published, and its sequence may be told; or it is refused. -/
inductive Appends (published : List ChatEventEnvelope) (envelope : ChatEventEnvelope) :
    Except EventPublishError Nat → List ChatEventEnvelope → Prop where
  | appended : Appends published envelope (.ok (published.length + 1)) (published ++ [envelope])
  | unacknowledged (message : String) :
      Appends published envelope (.error (.ack message)) (published ++ [envelope])
  | refused (error : EventPublishError) : Appends published envelope (.error error) published

def sideServes (_ : Nat) (envelope : StreamPort.Op) (published : List ChatEventEnvelope)
    (answer : StreamPort.Ans envelope) (published' : List ChatEventEnvelope) : Prop :=
  Appends published envelope answer published'

abbrev Store := CasStore ReplayIndex AppliedEvent (List ChatEventEnvelope)

/-- Any number of publishers. -/
def system : System PublishPorts Store ChatEventEnvelope (Except ChatBusError String) :=
  CasFold.system sideServes (fun _ _ => False) NatsChatBus.publishEvent fun _ _ => True

abbrev Run := CasFold.Run ReplayIndex AppliedEvent (List ChatEventEnvelope) StreamPort
  ChatEventEnvelope (Except ChatBusError String)

def start : Run := ⟨⟨.empty, [], []⟩, []⟩

/-! ## What a publisher does -/

theorem unlanded_snoc {trace : Trace PublishPorts} (unlanded : Unlanded trace)
    {call : Call PublishPorts} (lost : (writeOf call).isSome = true → conflicted call = true) :
    Unlanded (trace ++ [call]) := by
  intro other mem write
  rcases List.mem_append.mp mem with old | new
  · exact unlanded other old write
  · rw [List.mem_singleton.mp new] at write ⊢
    exact lost write

/-- A write of the index is one of this event. -/
def Carries (event : AppliedEvent) : PublishPorts.Op → Prop
  | .create by_ key _ => by_ = event ∧ key = event.key
  | .update by_ key _ _ => by_ = event ∧ key = event.key
  | .beside _ => False
  | .entry _ => True

/-- The event's update has landed. -/
def Acknowledged (event : AppliedEvent) (reached : Trace PublishPorts) : Prop :=
  ∃ call ∈ reached, writeOf call = some (event, event.key) ∧ acknowledged call = true

theorem since_snoc {start trace : Trace PublishPorts} (since : start <+: trace)
    (call : Call PublishPorts) : start <+: trace ++ [call] :=
  since.trans (List.prefix_append _ _)

theorem acknowledged_snoc {event : AppliedEvent} {trace : Trace PublishPorts}
    {call : Call PublishPorts} (write : writeOf call = some (event, event.key))
    (ack : acknowledged call = true) : Acknowledged event (trace ++ [call]) :=
  ⟨call, List.mem_append_right _ (List.mem_singleton_self _), write, ack⟩

theorem along_swapReplayIndex {event : AppliedEvent} {start : Trace PublishPorts} (attempts : Nat)
    {trace : Trace PublishPorts} (since : start <+: trace) (unlanded : Unlanded trace) :
    Along (fun _ _ _ => True)
      (fun reached op => start <+: reached ∧ Issues applyEvent .default reached op ∧
        Carries event op)
      (fun reached result => start <+: reached ∧ (result = .ok () → Acknowledged event reached))
      trace (NatsChatBus.swapReplayIndex event attempts) := by
  induction attempts generalizing trace with
  | zero => exact ⟨since, fun same => nomatch same⟩
  | succ attempts ih =>
      refine along_perform ⟨since, trivial, trivial⟩ fun answer _ => ?_
      have since := since_snoc since ⟨.entry event.key, answer⟩
      have read : Unlanded (trace ++ [⟨.entry event.key, answer⟩]) :=
        unlanded_snoc unlanded fun write => nomatch write
      match answer with
      | .error error => exact ⟨since, fun same => nomatch same⟩
      | .ok (some (.put index revision)) =>
          refine along_perform ⟨since, ⟨read, trace, index, rfl, rfl⟩, rfl, rfl⟩ fun answer _ => ?_
          match answer with
          | .ok next => exact ⟨since_snoc since _, fun _ => acknowledged_snoc rfl rfl⟩
          | .error .wrongLastRevision =>
              exact ih (since_snoc since _) (unlanded_snoc read fun _ => rfl)
          | .error (.other message) => exact ⟨since_snoc since _, fun same => nomatch same⟩
      | .ok none | .ok (some (.marker _)) =>
          refine along_perform ⟨since, ⟨read, rfl⟩, rfl, rfl⟩ fun answer _ => ?_
          match answer with
          | .ok next => exact ⟨since_snoc since _, fun _ => acknowledged_snoc rfl rfl⟩
          | .error .alreadyExists =>
              exact ih (since_snoc since _) (unlanded_snoc read fun _ => rfl)
          | .error (.other message) => exact ⟨since_snoc since _, fun same => nomatch same⟩

/-- The stream has told the publisher this sequence. -/
def Told (envelope : ChatEventEnvelope) (trace : Trace PublishPorts) (sequence : Nat) : Prop :=
  (⟨.beside envelope, .ok sequence⟩ : Call PublishPorts) ∈ trace

/-- A publisher writes the index for its own event, at the sequence it was told. -/
def Publishes (envelope : ChatEventEnvelope) (trace : Trace PublishPorts)
    (op : PublishPorts.Op) : Prop :=
  Issues applyEvent .default trace op ∧ ∀ answer by_ key, writeOf ⟨op, answer⟩ = some (by_, key) →
    isReplayIndexEvent envelope.event = true ∧
    ∃ sequence, Told envelope trace sequence ∧ by_ = ⟨sequence, envelope⟩ ∧ key = by_.key

theorem along_publishEvent (envelope : ChatEventEnvelope) :
    Along (fun _ _ _ => True) (Publishes envelope)
      (fun reached result => ∀ eventId, result = .ok eventId → ∃ sequence,
        eventId = toString sequence ∧ Told envelope reached sequence ∧
        (isReplayIndexEvent envelope.event = true → Acknowledged ⟨sequence, envelope⟩ reached)) []
      (NatsChatBus.publishEvent envelope) := by
  refine along_perform ⟨trivial, fun answer by_ key write => nomatch write⟩ fun answer _ => ?_
  match answer with
  | .error (.publish message) => exact fun _ same => nomatch same
  | .error (.ack message) => exact fun _ same => nomatch same
  | .ok sequence =>
      let event : AppliedEvent := ⟨sequence, envelope⟩
      let appended : Trace PublishPorts := [⟨.beside envelope, .ok sequence⟩]
      have told : Told envelope appended sequence := List.mem_singleton_self _
      refine Along.bind (Q := fun reached result => appended <+: reached ∧
        (result = .ok () → isReplayIndexEvent envelope.event = true →
          Acknowledged event reached)) ?_ fun reached result post => ?_
      · unfold NatsChatBus.updateReplayForEvent
        split
        · rename_i indexed
          have unlanded : Unlanded appended := by
            intro call mem write
            rw [List.mem_singleton.mp mem] at write
            cases write
          refine ((along_swapReplayIndex 8 List.prefix_rfl unlanded).calls ?_).imp ?_
          · rintro reached op ⟨since, issues, carries⟩
            refine ⟨issues, fun answer by_ key write => ⟨indexed, sequence, since.subset told, ?_⟩⟩
            cases op with
            | entry key => cases write
            | beside envelope => cases write
            | create other k value =>
                cases write
                exact ⟨carries.1, carries.1 ▸ carries.2⟩
            | update other k value revision =>
                cases write
                exact ⟨carries.1, carries.1 ▸ carries.2⟩
          · exact fun reached result post => ⟨post.1, fun ok _ => post.2 ok⟩
        · rename_i plain
          exact ⟨List.prefix_rfl, fun _ indexed => absurd indexed plain⟩
      · cases result with
        | error error => exact fun _ same => nomatch same
        | ok done =>
            rintro eventId ⟨⟩
            exact ⟨sequence, rfl, post.1.subset told, post.2 rfl⟩

/-! ## The stream -/

/-- The event published under a sequence. -/
def At (published : List ChatEventEnvelope) (sequence : Nat) (envelope : ChatEventEnvelope) :
    Prop :=
  0 < sequence ∧ published[sequence - 1]? = some envelope

theorem At.mono {published published' : List ChatEventEnvelope} {sequence : Nat}
    {envelope : ChatEventEnvelope} (at_ : At published sequence envelope)
    (grows : published <+: published') : At published' sequence envelope := by
  obtain ⟨added, rfl⟩ := grows
  refine ⟨at_.1, ?_⟩
  rw [List.getElem?_append_left (List.getElem?_eq_some_iff.mp at_.2).1]
  exact at_.2

variable {c : Run}

/-- The stream answers every append. -/
def working : Working sideServes where
  answer _ published := .ok (published.length + 1)
  after _ (envelope : ChatEventEnvelope) published := published ++ [envelope]
  lawful _ _ _ := .appended

/-- A publish that runs alone: the store after it, and its answer. -/
def publishAlone (s : Store) (envelope : ChatEventEnvelope) : Store × Except ChatBusError String :=
  (NatsChatBus.publishEvent envelope).exec working.reply (working.next 0) s

theorem exec_request {α : Type} (op : PublishCall)
    (rest : PublishPorts.Ans op → Program PublishPorts α)
    (s : Store) : (NatsChatBus.request op >>= rest).exec working.reply (working.next 0) s =
      (rest (working.reply s op)).exec working.reply (working.next 0) (working.next 0 s op) := rfl

/-- Alone, the first attempt lands. -/
theorem swap_alone (s : Store) (event : AppliedEvent) (attempts : Nat) :
    (NatsChatBus.swapReplayIndex event (attempts + 1)).exec working.reply (working.next 0) s =
      (s.wrote 0 event event.key (s.bucket.put event.key
        (applyEvent ((s.bucket.live event.key).getD .default) event)), .ok ()) := by
  have creates : s.bucket.live event.key = none → s.bucket.create event.key
      (applyEvent .default event) = some (s.bucket.put event.key (applyEvent .default event)) := by
    intro absent
    rw [KvBucket.create, absent]
  rw [NatsChatBus.swapReplayIndex, exec_request]
  cases held : s.bucket.entries event.key with
  | none =>
      have absent : s.bucket.live event.key = none := by rw [KvBucket.live, held]
      simp only [Working.reply, Working.next, held]
      rw [exec_request]
      simp [Working.reply, Working.next, creates absent, absent, Program.exec]
  | some entry =>
      cases entry with
      | marker revision =>
          have absent : s.bucket.live event.key = none := by rw [KvBucket.live, held]
          simp only [Working.reply, Working.next, held]
          rw [exec_request]
          simp [Working.reply, Working.next, creates absent, absent, Program.exec]
      | put index revision =>
          have live : s.bucket.live event.key = some index := by rw [KvBucket.live, held]
          have updates : s.bucket.update event.key (applyEvent index event) revision =
              some (s.bucket.put event.key (applyEvent index event)) := by
            rw [KvBucket.update, KvBucket.revisionOf, held]
            exact if_pos rfl
          simp only [Working.reply, Working.next, held]
          rw [exec_request]
          simp [Working.reply, Working.next, updates, live, Program.exec]

/-- The store an undisturbed publish leaves. -/
def published (s : Store) (envelope : ChatEventEnvelope) : Store :=
  let event : AppliedEvent := ⟨s.side.length + 1, envelope⟩
  let appended : Store := ⟨s.bucket, s.history, s.side ++ [envelope]⟩
  if isReplayIndexEvent envelope.event then
    appended.wrote 0 event event.key (s.bucket.put event.key
      (applyEvent ((s.bucket.live event.key).getD .default) event))
  else appended

theorem publishAlone_eq (s : Store) (envelope : ChatEventEnvelope) :
    publishAlone s envelope = (published s envelope, .ok (toString (s.side.length + 1))) := by
  let event : AppliedEvent := ⟨s.side.length + 1, envelope⟩
  let appended : Store := ⟨s.bucket, s.history, s.side ++ [envelope]⟩
  have swapped := swap_alone appended event 7
  unfold publishAlone NatsChatBus.publishEvent
  rw [exec_request]
  show Program.exec working.reply (working.next 0) appended
    (NatsChatBus.updateReplayForEvent event >>= _) = _
  rw [Program.exec_bind]
  unfold NatsChatBus.updateReplayForEvent published
  cases indexed : isReplayIndexEvent envelope.event with
  | true =>
      simp only [event, if_true]
      rw [swapped]
      rfl
  | false =>
      rfl

/-- Publish one after another. -/
def publishAll (envelopes : List ChatEventEnvelope) : Store × List (Except ChatBusError String) :=
  envelopes.foldl (fun (s, answers) envelope =>
    let (s', answer) := publishAlone s envelope
    (s', answers ++ [answer])) (start.shared, [])

theorem publishAll_concat (envelopes : List ChatEventEnvelope) (envelope : ChatEventEnvelope) :
    publishAll (envelopes ++ [envelope]) =
      (published (publishAll envelopes).1 envelope,
        (publishAll envelopes).2 ++
          [.ok (toString ((publishAll envelopes).1.side.length + 1))]) := by
  unfold publishAll
  rw [List.foldl_append]
  simp only [List.foldl_cons, List.foldl_nil, publishAlone_eq]

theorem published_side (s : Store) (envelope : ChatEventEnvelope) :
    (published s envelope).side = s.side ++ [envelope] := by
  unfold published
  dsimp only
  split <;> rfl

/-- An index event replaces the value of its own key. -/
theorem published_live (s : Store) (envelope : ChatEventEnvelope) (key : String) :
    (published s envelope).bucket.live key =
      if isReplayIndexEvent envelope.event = true ∧
          key = ChatSubjects.lockKey envelope.tenantId envelope.conversationId then
        some (applyEvent ((s.bucket.live key).getD .default) ⟨s.side.length + 1, envelope⟩)
      else s.bucket.live key := by
  unfold published
  dsimp only
  by_cases indexed : isReplayIndexEvent envelope.event = true
  · by_cases same : key = ChatSubjects.lockKey envelope.tenantId envelope.conversationId
    · subst same
      rw [if_pos indexed, if_pos ⟨indexed, rfl⟩]
      exact KvBucket.live_put_self _ _ _
    · rw [if_pos indexed, if_neg fun both => same both.2]
      exact KvBucket.live_put_of_ne _ _ same
  · rw [if_neg indexed, if_neg fun both => indexed both.1]

theorem conversationLog_concat (tenantId conversationId : String)
    (envelopes : List ChatEventEnvelope) (envelope : ChatEventEnvelope) :
    conversationLog tenantId conversationId (envelopes ++ [envelope]) =
      conversationLog tenantId conversationId envelopes ++
        if envelope.isOf tenantId conversationId && isReplayIndexEvent envelope.event then
          [⟨envelopes.length + 1, envelope⟩]
        else [] := by
  unfold conversationLog
  rw [List.zipIdx_append, List.filterMap_append, Nat.add_comm 1]
  congr 1
  show List.filterMap _ [(envelope, envelopes.length + 1)] = _
  rw [List.filterMap_cons]
  by_cases own : (envelope.isOf tenantId conversationId && isReplayIndexEvent envelope.event) = true
  · simp only [own, if_true, List.filterMap_nil]
  · simp only [if_neg own, List.filterMap_nil]

theorem key_of_isOf {envelope : ChatEventEnvelope} {tenantId conversationId : String}
    (own : envelope.isOf tenantId conversationId = true) :
    ChatSubjects.lockKey envelope.tenantId envelope.conversationId =
      ChatSubjects.lockKey tenantId conversationId := by
  simp only [ChatEventEnvelope.isOf, Bool.and_eq_true, decide_eq_true_eq] at own
  rw [own.1, own.2]

theorem told_of_publishAll (envelopes : List ChatEventEnvelope) :
    (publishAll envelopes).1.side = envelopes ∧ (publishAll envelopes).2 =
      (List.range' 1 envelopes.length).map (fun sequence => .ok (toString sequence)) := by
  induction envelopes using List.reverseRecOn with
  | nil => exact ⟨rfl, rfl⟩
  | append_singleton envelopes envelope ih =>
      rw [publishAll_concat]
      refine ⟨by rw [published_side, ih.1], ?_⟩
      rw [ih.1, ih.2, List.length_append, List.length_singleton, List.range'_1_concat,
        List.map_append, List.map_singleton, Nat.add_comm 1]

/-- Only its own conversation's events use the key. -/
def Unshared (tenantId conversationId : String) (envelopes : List ChatEventEnvelope) : Prop :=
  ∀ envelope ∈ envelopes, ChatSubjects.lockKey envelope.tenantId envelope.conversationId =
    ChatSubjects.lockKey tenantId conversationId → envelope.isOf tenantId conversationId = true

theorem folded_of_publishAll {tenantId conversationId : String} {envelopes : List ChatEventEnvelope}
    (unshared : Unshared tenantId conversationId envelopes) :
    (publishAll envelopes).1.bucket.live (ChatSubjects.lockKey tenantId conversationId) =
      valueOf applyEvent .default (conversationLog tenantId conversationId envelopes) := by
  induction envelopes using List.reverseRecOn with
  | nil => rfl
  | append_singleton envelopes envelope ih =>
      have before := ih fun other mem => unshared other (List.mem_append_left _ mem)
      have own := unshared envelope (List.mem_append_right _ (List.mem_singleton_self _))
      rw [publishAll_concat, published_live, before, (told_of_publishAll envelopes).1,
        conversationLog_concat]
      by_cases indexed : isReplayIndexEvent envelope.event = true
      · by_cases mine : envelope.isOf tenantId conversationId = true
        · rw [if_pos ⟨indexed, (key_of_isOf mine).symm⟩, if_pos (by rw [mine, indexed]; rfl),
            valueOf_concat]
          cases conversationLog tenantId conversationId envelopes <;> rfl
        · rw [if_neg fun both => mine (own both.2.symm),
            if_neg fun both => mine (Bool.and_eq_true_iff.mp both).1, List.append_nil]
      · rw [if_neg fun both => indexed both.1,
          if_neg fun both => indexed (Bool.and_eq_true_iff.mp both).2, List.append_nil]

/-- Published one at a time, events are told their place in the stream, and each conversation is
left with the index of its own events. -/
theorem index_of_publishAll {tenantId conversationId : String} {envelopes : List ChatEventEnvelope}
    (unshared : Unshared tenantId conversationId envelopes) :
    (publishAll envelopes).1.side = envelopes ∧
    (publishAll envelopes).2 =
      (List.range' 1 envelopes.length).map (fun sequence => .ok (toString sequence)) ∧
    (publishAll envelopes).1.bucket.live (ChatSubjects.lockKey tenantId conversationId) =
      if conversationLog tenantId conversationId envelopes = [] then none
      else some (replayIndexAfter tenantId conversationId envelopes) := by
  obtain ⟨side, answers⟩ := told_of_publishAll envelopes
  refine ⟨side, answers, ?_⟩
  rw [folded_of_publishAll unshared, replayIndexAfter_eq]
  cases conversationLog tenantId conversationId envelopes with
  | nil => rfl
  | cons first rest => rfl

theorem index_of_titled_turn :
    (publishAll titledTurn).1.bucket.live (ChatSubjects.lockKey "t" "c") =
      some (replayIndexAfter "t" "c" titledTurn) ∧
    (publishAll titledTurn).2.length = titledTurn.length := by
  have own : Unshared "t" "c" titledTurn := by
    have all : ∀ envelope ∈ titledTurn, envelope.isOf "t" "c" = true := by decide
    exact fun envelope mem _ => all envelope mem
  obtain ⟨-, answers, index⟩ := index_of_publishAll own
  refine ⟨index.trans (if_neg (by decide)), ?_⟩
  rw [answers, List.length_map, List.length_range']

/-! ## Two publishers at once -/

def started (turnId : String) : ChatEventEnvelope := ⟨"t", "u", "c", turnId, 0, .turnStarted turnId⟩

def finished (turnId : String) : ChatEventEnvelope :=
  ⟨"t", "u", "c", turnId, 1, .finish "m" .stop⟩

/-- Both have appended and read an absent index; the second to write goes round again. -/
def raced : Run :=
  [0, 1, 0, 1, 1, 0, 0, 0].foldl working.serve
    ⟨start.shared, [started "t1", finished "t1"].map system.started⟩

end Publishing

end Delphi.Chat
