/-
# Delphi.Chat.Replay -- what a reconnecting client gets

A client that names the last event it has is sent the events of a window of the
stream and then whatever its live feed brings.  The window ends where the replay
index says the current turn ended, and at the latest sequence only while that
turn is open; the feed brings what came after it started.  What lies between the
two, or left the stream before the window was read, is never sent and never
missed (`Reconnect.Covered`): the title of a conversation, published after the
turn's end, is the everyday case (`title_after_the_turn_is_lost`).

Both halves go through the same filter, the last sequence sent, so what arrives
is always in order; the deliveries of a reconnect are computed once
(`delivered_eq`) and compared with what was asked for (`replay_complete_iff`).
-/
import Mathlib.Data.List.Pairwise
import Delphi.Chat.Realtime

namespace Delphi.Chat

set_option autoImplicit false

/-! ## Event ids -/

theorem parseEventId_toString {n : Nat} (small : n < 2 ^ 64) :
    parseEventId (toString n) = some n := by
  have digits : (toString n).toList = Nat.toDigits 10 n := Nat.toList_repr
  have plain : ∀ c ∈ Nat.toDigits 10 n, c.isDigit = true := fun c mem =>
    Nat.isDigit_of_mem_toDigits (by decide) (by decide) mem
  have unsigned : dropPlus (Nat.toDigits 10 n) = Nat.toDigits 10 n := by
    unfold dropPlus
    split
    · rename_i rest shape
      have sign := plain '+' (by rw [shape]; exact List.mem_cons_self)
      exact absurd sign (by decide)
    · rfl
  unfold parseEventId
  rw [digits, unsigned]
  simp only
  rw [if_pos ⟨Nat.toDigits_ne_nil, List.all_eq_true.mpr plain⟩, Nat.ofDigitChars_ten_toDigits]
  exact Option.filter_eq_some_iff.mpr ⟨rfl, decide_eq_true small⟩

/-- The sequence the service reads off an event's id. -/
def sequenceOf (event : SequencedChatEvent) : Nat := (parseEventId event.eventId).getD 0

/-! ## The filter both halves go through -/

/-- The caller's events that are sent from a last sequence on. -/
def passed (auth : AuthContext) : Nat → List SequencedChatEvent → List SequencedChatEvent
  | _, [] => []
  | lastSent, event :: rest =>
      if event.envelope.userId ≠ auth.userId then passed auth lastSent rest
      else if sequenceOf event ≤ lastSent then passed auth lastSent rest
      else event :: passed auth (sequenceOf event) rest

theorem passed_cons (auth : AuthContext) (lastSent : Nat) (event : SequencedChatEvent)
    (rest : List SequencedChatEvent) :
    passed auth lastSent (event :: rest) = passed auth lastSent [event] ++
      passed auth (((passed auth lastSent [event]).map sequenceOf).getLastD lastSent) rest := by
  simp only [passed]
  split
  · rfl
  · split <;> rfl

/-- Of events that come in order, what is sent is what lies above. -/
theorem passed_of_rising {auth : AuthContext} {events : List SequencedChatEvent} (lastSent : Nat)
    (rising : (events.map sequenceOf).Pairwise (· < ·)) :
    passed auth lastSent events = events.filter fun event =>
      event.envelope.userId = auth.userId ∧ lastSent < sequenceOf event := by
  induction events generalizing lastSent with
  | nil => rfl
  | cons event rest ih =>
      obtain ⟨below, rest_rising⟩ := List.pairwise_cons.mp rising
      unfold passed
      by_cases mine : event.envelope.userId = auth.userId
      · rw [if_neg (by simpa using mine)]
        by_cases above : sequenceOf event ≤ lastSent
        · rw [if_pos above, List.filter_cons_of_neg (by simp [mine, above])]
          exact ih lastSent rest_rising
        · rw [if_neg above, List.filter_cons_of_pos (by simp [mine]; omega), ih _ rest_rising]
          congr 1
          -- Everything after this event is above it, and it is above the last one sent.
          apply List.filter_congr
          intro later mem
          have order := below (sequenceOf later) (List.mem_map_of_mem mem)
          have both : sequenceOf event < sequenceOf later ↔ lastSent < sequenceOf later := by omega
          simp only [both]
      · rw [if_pos (by simpa using mine), List.filter_cons_of_neg (by simp [mine])]
        exact ih lastSent rest_rising

/-! ## What the socket does with them -/

/-- An event as the client sees it. -/
def shown (event : SequencedChatEvent) : String × ChatEvent := (event.eventId, event.envelope.event)

/-- The event a note shows the client for a conversation. -/
def Note.eventFor (conversationId : String) : Note → Option (String × ChatEvent)
  | .sent (.event id eventId event) _ _ =>
      if id = conversationId then some (eventId, event) else none
  | _ => none

/-- The events the client was shown for a conversation, in order. -/
def sentEvents (conversationId : String) (notes : List Note) : List (String × ChatEvent) :=
  notes.filterMap (Note.eventFor conversationId)

section Socket

variable {auth : AuthContext}

theorem sentEvents_emit (socket : Socket) (conversationId : String) (event : SequencedChatEvent) :
    sentEvents conversationId
      (socket.emit (.event conversationId event.eventId event.envelope.event)
        (some event)).history =
      sentEvents conversationId socket.history ++ [shown event] := by
  simp [Socket.emit, Socket.note, sentEvents, Note.eventFor, shown]

/-- The replay loop sends what passes, and remembers the last of it. -/
theorem sendReplay_sent {conversationId : String} {events : List SequencedChatEvent}
    {room lastSent final : Nat} {socket : Socket}
    (done : (sendReplay auth conversationId events room lastSent socket).1 = some final) :
    sentEvents conversationId
        (sendReplay auth conversationId events room lastSent socket).2.history =
      sentEvents conversationId socket.history ++ (passed auth lastSent events).map shown ∧
    final = ((passed auth lastSent events).map sequenceOf).getLastD lastSent ∧
    (sendReplay auth conversationId events room lastSent socket).2.subscriptions =
      socket.subscriptions ∧
    (sendReplay auth conversationId events room lastSent socket).2.closed = socket.closed := by
  induction events generalizing room lastSent socket with
  | nil =>
      obtain rfl := Option.some.inj done
      simp [sendReplay, passed]
  | cons event rest ih =>
      unfold sendReplay at done ⊢
      unfold passed
      by_cases other : event.envelope.userId ≠ auth.userId
      · rw [if_pos other] at done
        rw [if_pos other, if_pos other]
        exact ih done
      · rw [if_neg other] at done
        rw [if_neg other, if_neg other]
        by_cases below : sequenceOf event ≤ lastSent
        · have below' : (parseEventId event.eventId).getD 0 ≤ lastSent := below
          simp only [below', if_true] at done ⊢
          rw [if_pos below]
          exact ih done
        · have below' : ¬ (parseEventId event.eventId).getD 0 ≤ lastSent := below
          simp only [below', if_false] at done ⊢
          rw [if_neg below]
          cases room with
          | zero => cases done
          | succ room =>
              obtain ⟨sent, last, subscriptions, closed⟩ := ih done
              refine ⟨?_, ?_, subscriptions, closed⟩
              · rw [sent, sentEvents_emit, List.append_assoc]
                rfl
              · rw [last, List.map_cons, List.getLastD_cons]
                rfl

/-- A stretch of a run in which a conversation stays subscribed and is sent these
events. -/
structure Delivers (conversationId : String) (socket next : Socket)
    (sent : List SequencedChatEvent) : Prop where
  events : sentEvents conversationId next.history =
    sentEvents conversationId socket.history ++ sent.map shown
  bound : next.bound conversationId =
    (sent.map sequenceOf).getLastD (socket.bound conversationId)
  subscribed : conversationId ∈ socket.subscriptions → conversationId ∈ next.subscriptions

theorem Delivers.refl (conversationId : String) (socket : Socket) :
    Delivers conversationId socket socket [] :=
  ⟨by simp, rfl, id⟩

theorem Delivers.trans {conversationId : String} {socket middle next : Socket}
    {first second : List SequencedChatEvent} (before : Delivers conversationId socket middle first)
    (after : Delivers conversationId middle next second) :
    Delivers conversationId socket next (first ++ second) := by
  constructor
  · rw [after.events, before.events, List.map_append, List.append_assoc]
  · rw [after.bound, before.bound]
    cases second with
    | nil => simp
    | cons value rest => simp [List.getLastD_eq_getLast?, List.getLast?_append]
  · exact fun subscribed => after.subscribed (before.subscribed subscribed)

/-- A note about other conversations. -/
theorem Delivers.note {conversationId : String} (socket : Socket) {note : Note}
    (other : note.eventFor conversationId = none) :
    Delivers conversationId socket (socket.note note) [] :=
  ⟨by simp [Socket.note, sentEvents, other], rfl, id⟩

theorem Delivers.setLastSent {conversationId other : String} (socket : Socket)
    (sequence : Option Nat) (differs : conversationId ≠ other) :
    Delivers conversationId socket (socket.setLastSent other sequence) [] := by
  refine ⟨by simp [Socket.setLastSent], ?_, id⟩
  rw [Socket.bound_setLastSent, Function.update_of_ne differs]
  rfl

theorem Delivers.reply {conversationId : String} (socket : Socket) {message : ServerWsMessage}
    {room : Nat} (other : (Note.sent message none socket.subscriptions).eventFor
      conversationId = none) :
    Delivers conversationId socket (socket.reply message room) [] := by
  cases room with
  | zero => exact ⟨by simp [Socket.reply, Socket.close], rfl, id⟩
  | succ room => exact .note socket other

theorem Delivers.sendReplay (auth : AuthContext) {conversationId other : String}
    (differs : conversationId ≠ other) (events : List SequencedChatEvent) (room lastSent : Nat) (socket : Socket) :
    Delivers conversationId socket (sendReplay auth other events room lastSent socket).2 [] := by
  induction events generalizing room lastSent socket with
  | nil => exact .refl _ _
  | cons event rest ih =>
      unfold Delphi.Chat.sendReplay
      split
      · exact ih room lastSent socket
      · simp only
        split
        · exact ih room lastSent socket
        · cases room with
          | zero => exact .refl _ _
          | succ room =>
              have sent : Delivers conversationId socket
                  (socket.emit (.event other event.eventId event.envelope.event) (some event)) [] :=
                .note socket (by simp [Note.eventFor, differs.symm])
              exact sent.trans (ih room _ _)

/-- The inputs that reset a conversation. -/
def SocketInput.concerns (conversationId : String) : SocketInput → Bool
  | .text (some (.subscribeConversation id _)) _ => id = conversationId
  | .text (some (.unsubscribeConversation id)) _ => id = conversationId
  | .lagged id => id = conversationId
  | _ => false

/-- The live event of a conversation. -/
def SocketInput.liveOf (conversationId : String) : SocketInput → Option SequencedChatEvent
  | .event live => if live.envelope.conversationId = conversationId then some live else none
  | _ => none

theorem SocketInput.eq_of_liveOf {conversationId : String} {input : SocketInput}
    {live : SequencedChatEvent} (brings : input.liveOf conversationId = some live) :
    input = .event live ∧ live.envelope.conversationId = conversationId := by
  cases input with
  | event other =>
      simp only [SocketInput.liveOf] at brings
      split at brings
      · cases brings
        exact ⟨rfl, ‹_›⟩
      · cases brings
  | _ => cases brings

theorem Delivers.subscribe {conversationId other : String} (differs : conversationId ≠ other)
    (lastEventId : Option String) (answers : SubscribeAnswers) (room : Nat) (socket : Socket) :
    Delivers conversationId socket (handleClientMessage auth answers room socket
      (some (.subscribeConversation other lastEventId))) [] := by
  unfold handleClientMessage
  simp only
  split
  · exact .reply socket rfl
  · cases ensured : ensureSubscribed socket other answers.subscribed with
    | error error => exact .reply socket rfl
    | ok next =>
        obtain ⟨-, more, history, bound⟩ := ensureSubscribed_ok ensured
        have ready : Delivers conversationId socket next [] :=
          ⟨by simp [history], congrFun bound conversationId, fun mem => more mem⟩
        rw [← List.nil_append []]
        refine ready.trans ?_
        simp only
        split
        · exact .reply next rfl
        · exact .reply next rfl
        · rename_i plan _
          unfold sendPlan
          cases room with
          | zero => exact ⟨by simp [Socket.close], rfl, id⟩
          | succ room =>
              have acknowledged : Delivers conversationId next
                  (next.emit (.subscribed other) none) [] := .note next rfl
              have sent := acknowledged.trans (Delivers.sendReplay auth differs plan.events
                room plan.lastSeenSequence (next.emit (.subscribed other) none))
              simp only
              split
              · rename_i final result
                rw [result] at sent
                exact ⟨sent.events, sent.bound, sent.subscribed⟩
              · rename_i lastSent final result
                rw [result] at sent
                exact sent.trans (.setLastSent final _ differs)

/-- A live event of a subscribed conversation of the caller's tenant. -/
theorem handleEvent_subscribed {socket : Socket} {event : SequencedChatEvent} {room : Nat}
    (tenant : event.envelope.tenantId = auth.tenantId)
    (subscribed : event.envelope.conversationId ∈ socket.subscriptions) :
    handleEvent auth room socket event =
      if event.envelope.userId ≠ auth.userId then socket
      else if sequenceOf event ≤ socket.bound event.envelope.conversationId then socket
      else
        match room with
        | 0 => socket.close
        | _ + 1 =>
            (socket.emit (.event event.envelope.conversationId event.eventId event.envelope.event)
              (some event)).setLastSent event.envelope.conversationId
                (some (sequenceOf event)) := by
  simp only [handleEvent]
  rw [if_neg (by simpa using tenant), if_neg (by simpa using subscribed)]
  rfl

/-- It goes through the filter. -/
theorem Delivers.live {socket : Socket} {event : SequencedChatEvent} {room : Nat}
    (tenant : event.envelope.tenantId = auth.tenantId)
    (subscribed : event.envelope.conversationId ∈ socket.subscriptions)
    (running : (handleEvent auth room socket event).closed = false) :
    Delivers event.envelope.conversationId socket (handleEvent auth room socket event)
      (passed auth (socket.bound event.envelope.conversationId) [event]) := by
  rw [handleEvent_subscribed tenant subscribed] at running ⊢
  simp only [passed]
  by_cases other : event.envelope.userId ≠ auth.userId
  · rw [if_pos other, if_pos other]
    exact .refl _ _
  · rw [if_neg other] at running
    rw [if_neg other, if_neg other]
    by_cases below : sequenceOf event ≤ socket.bound event.envelope.conversationId
    · rw [if_pos below, if_pos below]
      exact .refl _ _
    · rw [if_neg below] at running
      rw [if_neg below, if_neg below]
      cases room with
      | zero => cases running
      | succ room =>
          refine ⟨sentEvents_emit socket _ event, ?_, id⟩
          rw [Socket.bound_setLastSent, Function.update_self]
          rfl

/-- An input that is nothing to a conversation. -/
theorem Delivers.foreign (auth : AuthContext) {conversationId : String} (socket : Socket)
    {input : SocketInput} (room : Nat) (quiet : input.concerns conversationId = false)
    (other : input.liveOf conversationId = none) :
    Delivers conversationId socket (socketStep auth socket input room) [] := by
  have closing : Delivers conversationId socket socket.close [] :=
    ⟨by simp [Socket.close], rfl, id⟩
  unfold socketStep
  split
  · exact .refl _ _
  cases input with
  | text decoded answers =>
      match decoded with
      | none => exact .reply socket rfl
      | some (.ping nonce) => exact .reply socket rfl
      | some (.subscribeConversation id lastEventId) =>
          have differs : conversationId ≠ id := by
            rintro rfl
            simp [SocketInput.concerns] at quiet
          exact .subscribe differs lastEventId answers room socket
      | some (.unsubscribeConversation id) =>
          have differs : conversationId ≠ id := by
            rintro rfl
            simp [SocketInput.concerns] at quiet
          refine ⟨?_, ?_, ?_⟩
          · simp [handleClientMessage, Socket.note, Socket.setLastSent, sentEvents,
              Note.eventFor]
          · simp [handleClientMessage, Socket.note, Socket.setLastSent, Socket.bound,
              Function.update_of_ne differs]
          · intro subscribed
            simp [handleClientMessage, Socket.note, Socket.setLastSent, subscribed, differs]
  | disconnect => exact closing
  | ping =>
      simp only
      split
      · exact closing
      · exact .note socket rfl
  | otherFrame => exact .refl _ _
  | event live =>
      have differs : conversationId ≠ live.envelope.conversationId := by
        intro same
        simp [SocketInput.liveOf, same] at other
      simp only [handleEvent]
      split
      · exact .refl _ _
      split
      · exact .refl _ _
      split
      · exact .refl _ _
      split
      · exact .refl _ _
      cases room with
      | zero => exact closing
      | succ room =>
          rw [← List.nil_append []]
          refine Delivers.trans (.note socket ?_) (.setLastSent _ _ differs)
          simp [Note.eventFor, differs.symm]
  | lagged id =>
      have differs : conversationId ≠ id := by
        rintro rfl
        simp [SocketInput.concerns] at quiet
      simp only [handleLagged]
      cases room with
      | zero => exact closing
      | succ room =>
          rw [← List.nil_append [], ← List.nil_append []]
          exact (Delivers.trans (.note socket rfl) (.setLastSent _ _ differs)).trans (.note _ rfl)

theorem socketStep_closed {socket : Socket} (closed : socket.closed = true) (input : SocketInput)
    (room : Nat) : socketStep auth socket input room = socket := by
  unfold socketStep
  rw [if_pos closed]

theorem open_of_runSocket {socket : Socket} {inputs : List (SocketInput × Nat)}
    (running : (runSocket auth socket inputs).closed = false) : socket.closed = false := by
  induction inputs generalizing socket with
  | nil => exact running
  | cons input rest ih =>
      cases closed : socket.closed with
      | false => rfl
      | true =>
          have before := ih running
          rw [socketStep_closed closed, closed] at before
          cases before

/-- A plan that gets through. -/
theorem sendPlan_sent {conversationId : String} {plan : ReplayPlan} {room : Nat} {socket : Socket}
    (subscribed : conversationId ∈ socket.subscriptions)
    (running : (sendPlan auth conversationId plan room socket).closed = false) :
    sentEvents conversationId (sendPlan auth conversationId plan room socket).history =
      sentEvents conversationId socket.history ++
        (passed auth plan.lastSeenSequence plan.events).map shown ∧
    (sendPlan auth conversationId plan room socket).bound conversationId =
      ((passed auth plan.lastSeenSequence plan.events).map sequenceOf).getLastD
        plan.lastSeenSequence ∧
    conversationId ∈ (sendPlan auth conversationId plan room socket).subscriptions := by
  unfold sendPlan at running ⊢
  cases room with
  | zero => cases running
  | succ room =>
      simp only at running ⊢
      cases result : sendReplay auth conversationId plan.events room plan.lastSeenSequence
          (socket.emit (.subscribed conversationId) none) with
      | mk last final =>
          rw [result] at running
          cases last with
          | none => cases running
          | some lastSent =>
              have done : (sendReplay auth conversationId plan.events room plan.lastSeenSequence
                (socket.emit (.subscribed conversationId) none)).1 = some lastSent := by rw [result]
              obtain ⟨events, last, subscriptions, -⟩ := sendReplay_sent done
              rw [result] at events subscriptions
              refine ⟨?_, ?_, ?_⟩
              · have acknowledged : Delivers conversationId socket
                    (socket.emit (.subscribed conversationId) none) [] := .note socket rfl
                rw [acknowledged.events] at events
                simpa [Socket.setLastSent] using events
              · rw [Socket.bound_setLastSent, Function.update_self, ← last]
                rfl
              · show conversationId ∈ final.subscriptions
                rw [subscriptions]
                exact subscribed

/-- A reply is the only thing it adds. -/
theorem eq_of_mem_reply {socket next : Socket} {message : ServerWsMessage} {room : Nat}
    {note : Note} (same : next.history = socket.history)
    (mem : note ∈ (next.reply message room).history.drop socket.history.length) :
    note = .sent message none next.subscriptions := by
  rw [← same] at mem
  cases room with
  | zero => simp [Socket.reply, Socket.close] at mem
  | succ room => simpa [Socket.reply, Socket.emit, Socket.note] using mem

/-- While nothing resets a conversation, its live events go through the filter one after
the other, whatever else the socket is fed. -/
theorem runSocket_live {conversationId : String} {socket : Socket}
    {inputs : List (SocketInput × Nat)} (subscribed : conversationId ∈ socket.subscriptions)
    (quiet : ∀ input ∈ inputs, input.1.concerns conversationId = false)
    (tenant : ∀ event ∈ inputs.filterMap fun input => input.1.liveOf conversationId,
      event.envelope.tenantId = auth.tenantId)
    (running : (runSocket auth socket inputs).closed = false) :
    Delivers conversationId socket (runSocket auth socket inputs)
      (passed auth (socket.bound conversationId)
        (inputs.filterMap fun input => input.1.liveOf conversationId)) := by
  induction inputs generalizing socket with
  | nil => exact .refl _ _
  | cons input rest ih =>
      obtain ⟨input, room⟩ := input
      have later := fun other mem => quiet other (List.mem_cons_of_mem (input, room) mem)
      have stepOpen : (socketStep auth socket input room).closed = false :=
        open_of_runSocket running
      cases live : input.liveOf conversationId with
      | none =>
          have step :=
            Delivers.foreign auth socket room (quiet (input, room) List.mem_cons_self) live
          rw [List.filterMap_cons_none (by simpa using live)] at tenant ⊢
          have rest := ih (step.subscribed subscribed) later tenant running
          have bound : (socketStep auth socket input room).bound conversationId =
              socket.bound conversationId := step.bound
          rw [bound] at rest
          exact step.trans rest
      | some event =>
          rw [List.filterMap_cons_some (by simpa using live)] at tenant ⊢
          have whole : (runSocket auth socket ((input, room) :: rest)).closed = false := running
          have wasOpen := open_of_runSocket whole
          obtain ⟨rfl, rfl⟩ := SocketInput.eq_of_liveOf live
          have handled : socketStep auth socket (.event event) room =
              handleEvent auth room socket event := by
            unfold socketStep
            rw [if_neg (by simp [wasOpen])]
          rw [handled] at stepOpen
          have step := Delivers.live (tenant event List.mem_cons_self) subscribed stepOpen
          rw [← handled] at step
          have rest := ih (step.subscribed subscribed) later
            (fun other mem => tenant other (List.mem_cons_of_mem _ mem)) running
          rw [step.bound] at rest
          rw [passed_cons]
          exact step.trans rest

end Socket

/-! ## Windows of the stream -/

/-- The sequence holds an event of the conversation and of the caller. -/
def EventStream.owns (stream : EventStream) (auth : AuthContext) (conversationId : String)
    (sequence : Nat) : Bool :=
  (stream.getRawMessage sequence).any fun envelope =>
    envelope.isOf auth.tenantId conversationId && envelope.userId = auth.userId

/-- The events read at some sequences, each from the stream as it stood then. -/
def window (reads : Nat → EventStream) (tenantId conversationId : String) (numbers : List Nat) :
    List SequencedChatEvent :=
  numbers.filterMap fun sequence =>
    NatsChatBus.replayOne (reads sequence) tenantId conversationId sequence

section Windows

variable {auth : AuthContext} {conversationId tenantId : String} {stream : EventStream}
variable {reads : Nat → EventStream}

theorem EventStream.le_of_getRawMessage {sequence : Nat} {envelope : ChatEventEnvelope}
    (found : stream.getRawMessage sequence = some envelope) :
    0 < sequence ∧ sequence ≤ stream.published.length ∧
      stream.published[sequence - 1]? = some envelope := by
  unfold getRawMessage at_ at found
  split at found
  · cases found
  · split at found
    · cases found
    · have bound := (List.getElem?_eq_some_iff.mp found).1
      exact ⟨by omega, by omega, found⟩

/-- A replayed event carries the sequence it was read at. -/
theorem parseEventId_replayOne (countable : stream.published.length < 2 ^ 64) {sequence : Nat}
    {event : SequencedChatEvent}
    (found : NatsChatBus.replayOne stream tenantId conversationId sequence = some event) :
    parseEventId event.eventId = some sequence := by
  rw [NatsChatBus.replayOne_eq, Option.map_eq_some_iff] at found
  obtain ⟨envelope, kept, rfl⟩ := found
  have raw := (Option.filter_eq_some_iff.mp kept).1
  have small := (EventStream.le_of_getRawMessage raw).2.1
  exact parseEventId_toString (by omega)

theorem sequenceOf_replayOne (countable : stream.published.length < 2 ^ 64) {sequence : Nat}
    {event : SequencedChatEvent}
    (found : NatsChatBus.replayOne stream tenantId conversationId sequence = some event) :
    sequenceOf event = sequence := by
  unfold sequenceOf
  rw [parseEventId_replayOne countable found]
  rfl

/-- An event of the caller, in the words of the replay. -/
theorem owns_iff {sequence : Nat} :
    stream.owns auth conversationId sequence = true ↔
      ∃ event, NatsChatBus.replayOne stream auth.tenantId conversationId sequence = some event ∧
        event.envelope.userId = auth.userId := by
  rw [NatsChatBus.replayOne_eq]
  unfold EventStream.owns
  cases stream.getRawMessage sequence with
  | none => simp
  | some envelope =>
      by_cases own : envelope.isOf auth.tenantId conversationId = true
      · simp [Option.filter, own]
      · simp [Option.filter, own]

theorem sequences_of_window (countable : ∀ n, (reads n).published.length < 2 ^ 64)
    (numbers : List Nat) :
    (window reads tenantId conversationId numbers).map sequenceOf =
      numbers.filter fun n =>
        (NatsChatBus.replayOne (reads n) tenantId conversationId n).isSome := by
  unfold window
  rw [List.map_filterMap, ← List.filterMap_eq_filter]
  congr 1
  funext n
  cases found : NatsChatBus.replayOne (reads n) tenantId conversationId n with
  | none => simp [Option.guard, found]
  | some event => simp [Option.guard, found, sequenceOf_replayOne (countable n) found]

/-- What of a window is sent from a last sequence on. -/
theorem passed_window (countable : ∀ n, (reads n).published.length < 2 ^ 64) {numbers : List Nat}
    (lastSent : Nat) (rising : numbers.Pairwise (· < ·)) :
    passed auth lastSent (window reads auth.tenantId conversationId numbers) =
      window reads auth.tenantId conversationId (numbers.filter fun n =>
        (reads n).owns auth conversationId n && decide (lastSent < n)) := by
  rw [passed_of_rising]
  · unfold window
    rw [List.filter_filterMap, List.filterMap_filter]
    congr 1
    funext n
    have owned : (reads n).owns auth conversationId n = true ↔ _ := owns_iff
    cases found : NatsChatBus.replayOne (reads n) auth.tenantId conversationId n with
    | none => simp
    | some event =>
        rw [found] at owned
        have mine : (reads n).owns auth conversationId n =
            decide (event.envelope.userId = auth.userId) := by
          rw [Bool.eq_iff_iff, owned]
          simp
        simp [Option.filter, mine, sequenceOf_replayOne (countable n) found]
  · rw [sequences_of_window countable]
    exact rising.sublist List.filter_sublist

end Windows

/-! ## A reconnect -/

/-- A client names the last event it has.  `published` is everything published by the
time the live feed has been handled, and the feed began after `liveFrom`. -/
structure Reconnect where
  auth : AuthContext
  conversationId : String
  published : List ChatEventEnvelope
  countable : published.length < 2 ^ 64
  lastEventId : String
  lastSequence : Nat
  named : parseEventId lastEventId = some lastSequence
  answers : SubscribeAnswers
  /-- What the replay reads is the stream as it was published so far, expired up to
  anywhere. -/
  read : ∀ reads, answers.reads = .ok reads → ∀ n, (reads n).published <+: published
  liveFrom : Nat

/-- Where the index says the last turn ends, the latest sequence while it is open. -/
def ReplayIndex.lastEnd (index : ReplayIndex) (latestSequence : Nat) : Nat :=
  ((index.currentTurn.map fun turn => turn.endSeq.getD latestSequence).or
    (index.previousTurn.bind fun turn => turn.endSeq)).getD latestSequence

namespace Reconnect

variable (r : Reconnect)

/-- Everything published, nothing expired. -/
def log : EventStream := ⟨r.published, 0⟩

/-- An event of the conversation and of the caller. -/
def asked (sequence : Nat) : Bool := r.log.owns r.auth r.conversationId sequence

/-- The replay found it. -/
def held (sequence : Nat) : Bool :=
  match r.answers.reads with
  | .ok reads => (reads sequence).owns r.auth r.conversationId sequence
  | .error _ => false

def indexedEnd : Nat :=
  match r.answers.index, r.answers.latestSequence with
  | .ok (some index), .ok latestSequence => index.lastEnd latestSequence
  | _, _ => 0

/-- The events of a list of sequences. -/
def eventsAt (numbers : List Nat) : List SequencedChatEvent :=
  window (fun _ => r.log) r.auth.tenantId r.conversationId numbers

/-- What the client is to get. -/
def wanted : List Nat :=
  (List.range' 1 r.published.length).filter fun n => r.asked n && decide (r.lastSequence < n)

/-- What the subscription's task queues, in order. -/
def feed : List SequencedChatEvent :=
  r.eventsAt (List.range' (r.liveFrom + 1) (r.published.length - r.liveFrom))

/-- What the replay sends. -/
def replayed : List Nat :=
  (List.range' (r.lastSequence + 1) (r.indexedEnd - r.lastSequence)).filter r.held

/-- What of the feed is still sent after it. -/
def followed : List Nat :=
  (List.range' (r.liveFrom + 1) (r.published.length - r.liveFrom)).filter fun n =>
    r.asked n && decide (r.replayed.getLastD r.lastSequence < n)

/-- Every event that was out before the feed began, or before one the replay found, lies
within what the index knows of and was still there when it was read. -/
def Covered : Prop :=
  ∀ n, r.asked n = true → r.lastSequence < n →
    (n ≤ r.liveFrom ∨ ∃ later, n < later ∧ later ≤ r.indexedEnd ∧ r.held later = true) →
    n ≤ r.indexedEnd ∧ r.held n = true

/-- The client's message. -/
def subscribe (socket : Socket) (room : Nat) : Socket :=
  socketStep r.auth socket
    (.text (some (.subscribeConversation r.conversationId (some r.lastEventId))) r.answers) room

/-- It is answered with `Subscribed`, neither with an error nor with a resync. -/
def Acknowledged (socket : Socket) (room : Nat) : Prop :=
  ∃ subscribed, Note.sent (.subscribed r.conversationId) none subscribed ∈
    (r.subscribe socket room).history.drop socket.history.length

end Reconnect

/-! ### The window of a plan -/

theorem replayAfter_cases (lastSequence endSeq : Nat) (required : Option Nat) :
    endSeq ≤ lastSequence ∧ replayAfter lastSequence endSeq required = none ∨
    lastSequence < endSeq ∧ replayAfter lastSequence endSeq required =
      some ⟨lastSequence + 1, endSeq, lastSequence, none, required⟩ := by
  unfold replayAfter
  by_cases past : endSeq ≤ lastSequence
  · exact .inl ⟨past, if_pos past⟩
  · exact .inr ⟨by omega, if_neg past⟩

/-- In all its shapes the window goes from the last event seen to where the index ends. -/
theorem replayFrom_ok {index : ReplayIndex} {lastSequence latestSequence : Nat}
    {range : Option ReplayRange}
    (found : replayFrom index lastSequence latestSequence = .ok range) :
    ∃ required, range =
      replayAfter lastSequence (index.lastEnd latestSequence) required := by
  unfold replayFrom at found
  split at found
  · rename_i current inside
    have known := (Option.filter_eq_some_iff.mp inside).1
    cases found
    refine ⟨current.endSeq, ?_⟩
    simp [ReplayIndex.lastEnd, known]
  · split at found
    · rename_i previous inside
      have known := (Option.filter_eq_some_iff.mp inside).1
      cases found
      unfold ReplayIndex.lastEnd
      rw [known]
      exact ⟨_, rfl⟩
    · cases found

namespace Reconnect

variable {r : Reconnect}

theorem countable_log : ∀ _ : Nat, r.log.published.length < 2 ^ 64 := fun _ => r.countable

/-- What the replay finds is what was published. -/
theorem replayOne_of_held {reads : Nat → EventStream} (answered : r.answers.reads = .ok reads)
    {n : Nat} (found : r.held n = true) :
    NatsChatBus.replayOne (reads n) r.auth.tenantId r.conversationId n =
      NatsChatBus.replayOne r.log r.auth.tenantId r.conversationId n := by
  simp only [held, answered, EventStream.owns, Option.any_eq_true] at found
  obtain ⟨envelope, raw, -⟩ := found
  obtain ⟨positive, -, there⟩ := EventStream.le_of_getRawMessage raw
  have published : r.published[n - 1]? = some envelope := by
    obtain ⟨bound, value⟩ := List.getElem?_eq_some_iff.mp there
    rw [← value]
    exact List.prefix_iff_getElem?.mp (r.read reads answered n) (n - 1) bound
  have same : r.log.getRawMessage n = some envelope := by
    simp [log, EventStream.getRawMessage, EventStream.at_, published]
    omega
  rw [NatsChatBus.replayOne_eq, NatsChatBus.replayOne_eq, raw, same]

theorem asked_of_held {n : Nat} (found : r.held n = true) : r.asked n = true := by
  cases answered : r.answers.reads with
  | error error => simp [held, answered] at found
  | ok reads =>
      have same := replayOne_of_held answered found
      simp only [held, answered] at found
      obtain ⟨event, one, mine⟩ := owns_iff.mp found
      exact owns_iff.mpr ⟨event, same ▸ one, mine⟩

/-- The replay reads its window one sequence at a time. -/
theorem passed_replay {reads : Nat → EventStream} (answered : r.answers.reads = .ok reads)
    (ahead : r.lastSequence < r.indexedEnd) :
    passed r.auth r.lastSequence (NatsChatBus.replayReading reads r.auth.tenantId
      r.conversationId (r.lastSequence + 1) r.indexedEnd) = r.eventsAt r.replayed := by
  have length : r.indexedEnd + 1 - (r.lastSequence + 1) = r.indexedEnd - r.lastSequence := by omega
  unfold NatsChatBus.replayReading
  rw [if_neg (by omega), length]
  have countable : ∀ n, (reads n).published.length < 2 ^ 64 := fun n =>
    Nat.lt_of_le_of_lt (r.read reads answered n).length_le r.countable
  refine (passed_window countable r.lastSequence (List.pairwise_lt_range' 1)).trans ?_
  have numbers : (List.range' (r.lastSequence + 1) (r.indexedEnd - r.lastSequence)).filter
      (fun n => (reads n).owns r.auth r.conversationId n && decide (r.lastSequence < n)) =
      r.replayed := by
    apply List.filter_congr
    intro n mem
    have above : r.lastSequence < n := (List.mem_range'_1.mp mem).1
    simp [held, answered, above]
  rw [numbers]
  apply List.filterMap_congr
  intro n mem
  exact replayOne_of_held answered (List.mem_filter.mp mem).2

/-- The events of a plan that are sent, from the last one the client has. -/
theorem plan_passed {conversation : ConversationDetail} {plan : ReplayPlan}
    (planned : buildReplayPlan r.auth r.conversationId (some r.lastEventId) conversation
      r.answers.toReplayAnswers = .ok plan) :
    plan.lastSeenSequence = r.lastSequence ∧
    passed r.auth r.lastSequence plan.events = r.eventsAt r.replayed := by
  unfold buildReplayPlan at planned
  split at planned
  · cases planned
  · cases planned
  · cases planned
  · rename_i index latestSequence known latest
    have ends : r.indexedEnd = index.lastEnd latestSequence := by
      unfold indexedEnd
      rw [known, latest]
    simp only [replayRange, r.named] at planned
    cases found : replayFrom index r.lastSequence latestSequence with
    | error error =>
        rw [found] at planned
        cases planned
    | ok range =>
        obtain ⟨required, shape⟩ := replayFrom_ok found
        rw [← ends] at shape
        rw [found] at planned
        obtain ⟨past, empty⟩ | ⟨ahead, some_⟩ :=
          replayAfter_cases r.lastSequence r.indexedEnd required
        · rw [shape, empty] at planned
          cases planned
          have nothing : r.replayed = [] := by
            unfold replayed
            rw [Nat.sub_eq_zero_of_le past]
            rfl
          rw [nothing]
          exact ⟨by simp [r.named], rfl⟩
        · rw [shape, some_] at planned
          simp only at planned
          cases answered : r.answers.reads with
          | error error =>
              rw [answered] at planned
              cases planned
          | ok reads =>
              rw [answered] at planned
              simp only at planned
              split at planned
              · cases planned
              · cases planned
                exact ⟨rfl, passed_replay answered ahead⟩

/-! ### What is delivered -/

/-- Sequences of events that were asked for can be read off those events. -/
theorem ids_eventsAt {numbers : List Nat} (all : ∀ n ∈ numbers, r.asked n = true) :
    (r.eventsAt numbers).map (fun event => parseEventId event.eventId) = numbers.map some := by
  unfold eventsAt window
  rw [List.map_filterMap, ← List.filterMap_eq_map]
  apply List.filterMap_congr
  intro n mem
  obtain ⟨event, one, -⟩ := owns_iff.mp (all n mem)
  simp [one, parseEventId_replayOne r.countable one]

theorem sequences_eventsAt {numbers : List Nat} (all : ∀ n ∈ numbers, r.asked n = true) :
    (r.eventsAt numbers).map sequenceOf = numbers := by
  have ids := congrArg (List.map fun id => id.getD 0) (ids_eventsAt all)
  show (r.eventsAt numbers).map (fun event => (parseEventId event.eventId).getD 0) = numbers
  simpa [Function.comp_def] using ids

theorem asked_of_replayed {n : Nat} (mem : n ∈ r.replayed) : r.asked n = true :=
  asked_of_held (List.mem_filter.mp mem).2

/-- Only a plan is acknowledged. -/
theorem planned_of_acknowledged {socket : Socket} {room : Nat}
    (acknowledged : r.Acknowledged socket room) :
    ∃ conversation next plan, r.conversationId ∈ next.subscriptions ∧
      next.history = socket.history ∧
      buildReplayPlan r.auth r.conversationId (some r.lastEventId) conversation
        r.answers.toReplayAnswers = .ok plan ∧
      r.subscribe socket room = sendPlan r.auth r.conversationId plan room next := by
  obtain ⟨subscribed, mem⟩ := acknowledged
  unfold subscribe socketStep at mem ⊢
  split at mem
  · simp at mem
  · rename_i running
    rw [if_neg running]
    simp only [handleClientMessage] at mem ⊢
    split at mem
    · cases eq_of_mem_reply rfl mem
    · rename_i conversation _
      cases ensured : ensureSubscribed socket r.conversationId r.answers.subscribed with
      | error error =>
          rw [ensured] at mem
          cases eq_of_mem_reply rfl mem
      | ok next =>
          obtain ⟨there, -, same, -⟩ := ensureSubscribed_ok ensured
          rw [ensured] at mem
          simp only at mem ⊢
          split at mem
          · cases eq_of_mem_reply same mem
          · cases eq_of_mem_reply same mem
          · exact ⟨conversation, next, _, there, same, ‹_›, rfl⟩

/-- What a reconnect is sent: the window, and what follows it in the feed. -/
theorem delivered_eq {socket : Socket} {room : Nat} {inputs : List (SocketInput × Nat)}
    (acknowledged : r.Acknowledged socket room)
    (quiet : ∀ input ∈ inputs, input.1.concerns r.conversationId = false)
    (live : inputs.filterMap (fun input => input.1.liveOf r.conversationId) = r.feed)
    (running : (runSocket r.auth (r.subscribe socket room) inputs).closed = false) :
    sentEvents r.conversationId (runSocket r.auth (r.subscribe socket room) inputs).history =
      sentEvents r.conversationId socket.history ++
        (r.eventsAt (r.replayed ++ r.followed)).map shown := by
  obtain ⟨conversation, next, plan, subscribed, same, planned, step⟩ :=
    planned_of_acknowledged acknowledged
  obtain ⟨lastSeen, window⟩ := plan_passed planned
  rw [step] at running ⊢
  obtain ⟨events, bound, there⟩ := sendPlan_sent subscribed (open_of_runSocket running)
  rw [lastSeen, window] at events bound
  rw [sequences_eventsAt fun n mem => asked_of_replayed mem] at bound
  have tenant : ∀ event ∈ r.feed, event.envelope.tenantId = r.auth.tenantId := by
    intro event mem
    obtain ⟨n, -, one⟩ := List.mem_filterMap.mp mem
    exact (NatsChatBus.isOf_replayOne one).1
  have rest := runSocket_live there quiet (live ▸ tenant) running
  rw [live, bound] at rest
  have fed : passed r.auth (r.replayed.getLastD r.lastSequence) r.feed = r.eventsAt r.followed :=
    passed_window countable_log _ (List.pairwise_lt_range' 1)
  rw [rest.events, events, same, fed, List.append_assoc, ← List.map_append]
  congr 2
  exact (List.filterMap_append).symm

/-! ### What is missed -/

theorem mem_replayed {n : Nat} :
    n ∈ r.replayed ↔ r.lastSequence < n ∧ n ≤ r.indexedEnd ∧ r.held n = true := by
  unfold replayed
  rw [List.mem_filter, List.mem_range'_1]
  constructor
  · rintro ⟨⟨above, below⟩, found⟩
    exact ⟨above, by omega, found⟩
  · rintro ⟨above, below, found⟩
    exact ⟨⟨above, by omega⟩, found⟩

theorem rising_replayed : r.replayed.Pairwise (· < ·) :=
  (List.pairwise_lt_range' 1).sublist List.filter_sublist

/-- The last sequence of the replay is one of its own, and the greatest. -/
theorem last_replayed :
    r.replayed = [] ∧ r.replayed.getLastD r.lastSequence = r.lastSequence ∨
    r.replayed.getLastD r.lastSequence ∈ r.replayed ∧
      ∀ n ∈ r.replayed, n ≤ r.replayed.getLastD r.lastSequence := by
  by_cases empty : r.replayed = []
  · exact .inl ⟨empty, by rw [empty]; rfl⟩
  · right
    have last : r.replayed.getLastD r.lastSequence = r.replayed.getLast empty := by
      rw [List.getLastD_eq_getLast?, List.getLast?_eq_getLast_of_ne_nil empty]
      rfl
    rw [last]
    refine ⟨List.getLast_mem empty, fun n mem => ?_⟩
    exact (rising_replayed.imp Nat.le_of_lt).rel_getLast mem

theorem mem_followed {n : Nat} :
    n ∈ r.followed ↔ r.liveFrom < n ∧ n ≤ r.published.length ∧ r.asked n = true ∧
      r.replayed.getLastD r.lastSequence < n := by
  unfold followed
  rw [List.mem_filter, List.mem_range'_1, Bool.and_eq_true, decide_eq_true_eq]
  constructor
  · rintro ⟨⟨above, below⟩, found⟩
    exact ⟨above, by omega, found⟩
  · rintro ⟨above, below, found⟩
    exact ⟨⟨above, by omega⟩, found⟩

theorem rising_delivered : (r.replayed ++ r.followed).Pairwise (· < ·) := by
  refine List.pairwise_append.mpr ⟨rising_replayed,
    (List.pairwise_lt_range' 1).sublist List.filter_sublist, ?_⟩
  intro early replayed late followed
  have after := (mem_followed.mp followed).2.2.2
  obtain ⟨empty, -⟩ | ⟨-, greatest⟩ := r.last_replayed
  · rw [empty] at replayed
    cases replayed
  · exact Nat.lt_of_le_of_lt (greatest early replayed) after

theorem within_of_asked {n : Nat} (asked : r.asked n = true) : 0 < n ∧ n ≤ r.published.length := by
  simp only [Reconnect.asked, EventStream.owns, Option.any_eq_true] at asked
  obtain ⟨envelope, raw, -⟩ := asked
  obtain ⟨positive, within, -⟩ := EventStream.le_of_getRawMessage raw
  exact ⟨positive, within⟩

theorem mem_wanted {n : Nat} : n ∈ r.wanted ↔ r.asked n = true ∧ r.lastSequence < n := by
  unfold wanted
  rw [List.mem_filter, List.mem_range'_1, Bool.and_eq_true, decide_eq_true_eq]
  constructor
  · exact fun mem => mem.2
  · intro found
    obtain ⟨positive, within⟩ := within_of_asked found.1
    exact ⟨⟨positive, by omega⟩, found⟩

theorem lastSequence_le_last : r.lastSequence ≤ r.replayed.getLastD r.lastSequence := by
  obtain ⟨-, same⟩ | ⟨mem, -⟩ := r.last_replayed
  · exact same.ge
  · exact (mem_replayed.mp mem).1.le

theorem wanted_of_delivered {n : Nat} (mem : n ∈ r.replayed ++ r.followed) : n ∈ r.wanted := by
  rcases List.mem_append.mp mem with replayed | followed
  · exact mem_wanted.mpr ⟨asked_of_replayed replayed, (mem_replayed.mp replayed).1⟩
  · obtain ⟨-, -, asked, after⟩ := mem_followed.mp followed
    exact mem_wanted.mpr ⟨asked, Nat.lt_of_le_of_lt lastSequence_le_last after⟩

/-- An event that was asked for gets through if and only if the replay sends it, or the
feed does and nothing behind it was replayed. -/
theorem delivered_of_covered (covered : r.Covered) {n : Nat} (mem : n ∈ r.wanted) :
    n ∈ r.replayed ++ r.followed := by
  obtain ⟨asked, above⟩ := mem_wanted.mp mem
  rw [List.mem_append]
  by_cases before : n ≤ r.liveFrom
  · left
    exact mem_replayed.mpr ⟨above, covered n asked above (.inl before)⟩
  · by_cases after : r.replayed.getLastD r.lastSequence < n
    · right
      exact mem_followed.mpr ⟨by omega, (within_of_asked asked).2, asked, after⟩
    · left
      obtain ⟨-, same⟩ | ⟨last, -⟩ := r.last_replayed
      · omega
      · rcases Nat.lt_or_eq_of_le (Nat.le_of_not_lt after) with earlier | same
        · obtain ⟨-, within, held⟩ := mem_replayed.mp last
          exact mem_replayed.mpr ⟨above, covered n asked above (.inr ⟨_, earlier, within, held⟩)⟩
        · rw [same]
          exact last

theorem covered_of_delivered (all : ∀ n ∈ r.wanted, n ∈ r.replayed ++ r.followed) :
    r.Covered := by
  intro n asked above out
  rcases List.mem_append.mp (all n (mem_wanted.mpr ⟨asked, above⟩)) with replayed | followed
  · exact (mem_replayed.mp replayed).2
  · obtain ⟨live, -, -, after⟩ := mem_followed.mp followed
    rcases out with before | ⟨later, earlier, within, held⟩
    · omega
    · -- The replay had gone past it, so the feed's copy was dropped.
      have sent : later ∈ r.replayed := mem_replayed.mpr ⟨by omega, within, held⟩
      obtain ⟨empty, -⟩ | ⟨-, greatest⟩ := r.last_replayed
      · rw [empty] at sent
        cases sent
      · have bound := greatest later sent
        omega

theorem delivered_eq_wanted_iff : r.replayed ++ r.followed = r.wanted ↔ r.Covered := by
  constructor
  · intro same
    exact covered_of_delivered fun n mem => same ▸ mem
  · intro covered
    have rising : r.wanted.Pairwise (· < ·) :=
      (List.pairwise_lt_range' 1).sublist List.filter_sublist
    refine List.Perm.eq_of_pairwise (fun a b _ _ less more => absurd less (Nat.lt_asymm more))
      rising_delivered rising ?_
    refine (List.perm_ext_iff_of_nodup (rising_delivered.imp Nat.ne_of_lt)
      (rising.imp Nat.ne_of_lt)).mpr fun n => ?_
    exact ⟨wanted_of_delivered, delivered_of_covered covered⟩

/-- The events of a list of sequences tell the list. -/
theorem eventsAt_inj {first second : List Nat} (one : ∀ n ∈ first, r.asked n = true)
    (two : ∀ n ∈ second, r.asked n = true) :
    (r.eventsAt first).map shown = (r.eventsAt second).map shown ↔ first = second := by
  constructor
  · intro same
    have ids := congrArg (List.map fun pair => parseEventId pair.1) same
    simp only [List.map_map] at ids
    have numbers : first.map some = second.map some :=
      (ids_eventsAt one).symm.trans (ids.trans (ids_eventsAt two))
    exact List.map_injective_iff.mpr (Option.some_injective Nat) numbers
  · rintro rfl
    rfl

end Reconnect

/-- A subscription that is acknowledged and then neither lags, ends nor is asked for again
brings the client every event of the conversation that is the caller's and lies after the
one it named, each once and in order, exactly when nothing fell between the window of the
replay and the live feed. -/
theorem replay_complete_iff (r : Reconnect) (socket : Socket) (room : Nat)
    (inputs : List (SocketInput × Nat)) (acknowledged : r.Acknowledged socket room)
    (quiet : ∀ input ∈ inputs, input.1.concerns r.conversationId = false)
    (live : inputs.filterMap (fun input => input.1.liveOf r.conversationId) = r.feed)
    (running : (runSocket r.auth (r.subscribe socket room) inputs).closed = false) :
    sentEvents r.conversationId (runSocket r.auth (r.subscribe socket room) inputs).history =
        sentEvents r.conversationId socket.history ++ (r.eventsAt r.wanted).map shown ↔
      r.Covered := by
  rw [Reconnect.delivered_eq acknowledged quiet live running, List.append_cancel_left_eq,
    Reconnect.eventsAt_inj, Reconnect.delivered_eq_wanted_iff]
  · exact fun n mem => (Reconnect.mem_wanted.mp (Reconnect.wanted_of_delivered mem)).1
  · exact fun n mem => (Reconnect.mem_wanted.mp mem).1

/-! ### A turn and its title -/

/-- The index of a conversation after these events were published. -/
def replayIndexAfter (tenantId conversationId : String) (published : List ChatEventEnvelope) :
    ReplayIndex :=
  (published.zipIdx 1).foldl (fun index entry =>
    if entry.1.isOf tenantId conversationId && isReplayIndexEvent entry.1.event then
      applyReplayEvent index entry.1 entry.2
    else index) .default

/-- The first turn of a conversation; its title is made alongside and comes last. -/
def titledTurn : List ChatEventEnvelope :=
  [⟨"t", "u", "c", "t1", 0, .turnStarted "t1"⟩,
    ⟨"t", "u", "c", "t1", 0, .userMessage "m1" (some "t1") "Where is Delphi?"⟩,
    ⟨"t", "u", "c", "t1", 1, .textDelta "In Phocis."⟩,
    ⟨"t", "u", "c", "t1", 2, .finish "m2" .stop⟩,
    ⟨"t", "u", "c", "t1", 3, .titleUpdated "Delphi"⟩]

/-- A client that has the first two events, when `known` of them are out and the live feed
starts after `liveFrom`. -/
def titledReconnect (known liveFrom : Nat) : Reconnect where
  auth := ⟨"t", "u"⟩
  conversationId := "c"
  published := titledTurn
  countable := by decide
  lastEventId := "2"
  lastSequence := 2
  named := by decide +kernel
  answers := {
    index := .ok (some (replayIndexAfter "t" "c" (titledTurn.take known)))
    latestSequence := .ok known
    reads := .ok fun _ => ⟨titledTurn.take known, 1⟩
    conversation := .ok ⟨"c", "New conversation", [], 0⟩
    subscribed := .ok () }
  read := by
    intro reads answered n
    cases answered
    exact List.take_prefix known titledTurn
  liveFrom := liveFrom

/-- While the turn is open everything arrives: the rest of the window, then the feed. -/
theorem replay_complete_while_open :
    sentEvents "c" (runSocket ⟨"t", "u"⟩ ((titledReconnect 3 2).subscribe .initial 2)
      ((titledReconnect 3 2).feed.map fun event => (.event event, 1))).history =
      [("3", .textDelta "In Phocis."), ("4", .finish "m2" .stop),
        ("5", .titleUpdated "Delphi")] ∧
    (titledReconnect 3 2).Covered := by
  have sent : sentEvents "c" (runSocket ⟨"t", "u"⟩ ((titledReconnect 3 2).subscribe .initial 2)
      ((titledReconnect 3 2).feed.map fun event => (.event event, 1))).history =
      [("3", .textDelta "In Phocis."), ("4", .finish "m2" .stop),
        ("5", .titleUpdated "Delphi")] := by
    decide +kernel
  have wanted : ((titledReconnect 3 2).eventsAt (titledReconnect 3 2).wanted).map shown =
      [("3", .textDelta "In Phocis."), ("4", .finish "m2" .stop),
        ("5", .titleUpdated "Delphi")] := by
    decide +kernel
  refine ⟨sent, (replay_complete_iff (titledReconnect 3 2) .initial 2 _ ⟨["c"], ?_⟩ ?_ ?_ ?_).mp
    (sent.trans wanted.symm)⟩
  · exact List.mem_of_getElem? (i := 0) rfl
  · decide +kernel
  · decide +kernel
  · decide +kernel

/-- Once it is closed the window ends with it, and the title is never sent. -/
theorem title_after_the_turn_is_lost :
    (titledReconnect 5 5).Acknowledged .initial 3 ∧ (titledReconnect 5 5).feed = [] ∧
    (runSocket ⟨"t", "u"⟩ ((titledReconnect 5 5).subscribe .initial 3) []).closed = false ∧
    sentEvents "c" (runSocket ⟨"t", "u"⟩ ((titledReconnect 5 5).subscribe .initial 3) []).history =
      [("3", .textDelta "In Phocis."), ("4", .finish "m2" .stop)] ∧
    ((titledReconnect 5 5).eventsAt (titledReconnect 5 5).wanted).map shown =
      [("3", .textDelta "In Phocis."), ("4", .finish "m2" .stop),
        ("5", .titleUpdated "Delphi")] := by
  refine ⟨⟨["c"], ?_⟩, ?_, ?_, ?_, ?_⟩
  · exact List.mem_of_getElem? (i := 0) rfl
  · decide +kernel
  · decide +kernel
  · decide +kernel
  · decide +kernel

end Delphi.Chat
