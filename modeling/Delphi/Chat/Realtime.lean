/-
# Delphi.Chat.Realtime -- one websocket of the realtime service

`run_socket`, `handle_client_message` and the replay planning of
`realtime-service/src/main.rs`.  A socket holds its subscriptions and, for each
conversation, the last sequence it sent; it takes one input at a time, a client
message or what a subscription task queued for it.

What was sent is kept with the event it came from and the subscriptions of that
moment (`Note`), next to the moments that reset a conversation.  Whatever the
inputs and whatever the outbound queue has room for, every event sent is one of
the caller's, in a conversation subscribed then, and between two resets the
sequences go up (`socket_delivery_safe`).
-/
import Mathlib.Algebra.Group.Nat.Defs
import Mathlib.Data.List.Induction
import Mathlib.Logic.Function.Basic
import Delphi.Chat.EventStream

namespace Delphi.Chat

set_option autoImplicit false

structure AuthContext where
  tenantId : String
  userId : String

inductive ClientWsMessage where
  | subscribeConversation (conversationId : String) (lastEventId : Option String)
  | unsubscribeConversation (conversationId : String)
  | ping (nonce : Option String)

inductive ServerWsMessage where
  | subscribed (conversationId : String)
  | event (conversationId eventId : String) (event : ChatEvent)
  | resyncRequired (conversationId : String)
  | error (code message : String)
  | pong (nonce : Option String)
deriving DecidableEq

def dropPlus : List Char → List Char
  | '+' :: rest => rest
  | chars => chars

/-- `str::parse::<u64>`: an optional plus sign, then digits that fit. -/
def parseEventId (value : String) : Option Nat :=
  let digits := dropPlus value.toList
  if digits ≠ [] ∧ digits.all Char.isDigit then
    (some (Nat.ofDigitChars 10 digits 0)).filter (· < 2 ^ 64)
  else none

/-! ## Planning a replay -/

structure ReplayPlan where
  events : List SequencedChatEvent
  lastSeenSequence : Nat

structure ReplayRange where
  startSeq : Nat
  endSeq : Nat
  lastSeenSequence : Nat
  requiredStartSeq : Option Nat
  requiredEndSeq : Option Nat

inductive ReplayDecisionError where
  | resyncRequired
  | internal (message : String)

def turnContainsSequence (turn : ReplayTurn) (sequence latestSequence : Nat) : Bool :=
  turn.startSeq ≤ sequence && sequence ≤ turn.endSeq.getD latestSequence

def conversationHasTurn (conversation : ConversationDetail) (turnId : String) : Bool :=
  conversation.messages.any fun message => message.turnId = some turnId

/-- Without an id to start from: the current turn, while it is open and not stored. -/
def replayCurrentTurn (index : ReplayIndex) (conversation : ConversationDetail)
    (latestSequence : Nat) : Option ReplayRange :=
  match index.currentTurn with
  | none => none
  | some current =>
      if current.endSeq.isSome || conversationHasTurn conversation current.turnId then none
      else some ⟨current.startSeq, current.endSeq.getD latestSequence, 0, some current.startSeq,
        current.endSeq⟩

/-- From the event after the last one seen to the end of a turn. -/
def replayAfter (lastSequence endSeq : Nat) (requiredEndSeq : Option Nat) : Option ReplayRange :=
  if endSeq ≤ lastSequence then none
  else some ⟨lastSequence + 1, endSeq, lastSequence, none, requiredEndSeq⟩

/-- The last event seen lies in the current turn, or in the previous one. -/
def replayFrom (index : ReplayIndex) (lastSequence latestSequence : Nat) :
    Except ReplayDecisionError (Option ReplayRange) :=
  match index.currentTurn.filter fun turn =>
      turnContainsSequence turn lastSequence latestSequence with
  | some current =>
      .ok (replayAfter lastSequence (current.endSeq.getD latestSequence) current.endSeq)
  | none =>
      match index.previousTurn.filter fun turn =>
          turnContainsSequence turn lastSequence latestSequence with
      | some previous =>
          let endSeq := ((index.currentTurn.map fun turn => turn.endSeq.getD latestSequence).or
            previous.endSeq).getD latestSequence
          .ok (replayAfter lastSequence endSeq
            (match index.currentTurn with
            | some current => current.endSeq
            | none => previous.endSeq))
      | none => .error .resyncRequired

def replayRange (index : ReplayIndex) (lastEventId : Option String)
    (conversation : ConversationDetail) (latestSequence : Nat) :
    Except ReplayDecisionError (Option ReplayRange) :=
  match lastEventId with
  | none => .ok (replayCurrentTurn index conversation latestSequence)
  | some lastEventId =>
      match parseEventId lastEventId with
      | none => .error .resyncRequired
      | some lastSequence => replayFrom index lastSequence latestSequence

def firstSequence (events : List SequencedChatEvent) : Option Nat :=
  events.head?.bind fun event => parseEventId event.eventId

def lastSequenceOf (events : List SequencedChatEvent) : Option Nat :=
  events.getLast?.bind fun event => parseEventId event.eventId

def replayIsIncomplete (events : List SequencedChatEvent) (range : ReplayRange) : Bool :=
  (range.requiredStartSeq.isSome && events.isEmpty) ||
  (range.requiredStartSeq.any fun required => firstSequence events ≠ some required) ||
  (range.requiredEndSeq.any fun required => lastSequenceOf events ≠ some required)

/-- What the bus answers while a replay is planned. -/
structure ReplayAnswers where
  index : Except ChatBusError (Option ReplayIndex)
  latestSequence : Except ChatBusError Nat
  /-- The stream as each sequence of the window is read, or why it could not be opened. -/
  reads : Except ChatBusError (Nat → EventStream)

def buildReplayPlan (auth : AuthContext) (conversationId : String) (lastEventId : Option String)
    (conversation : ConversationDetail) (answers : ReplayAnswers) :
    Except ReplayDecisionError ReplayPlan :=
  match answers.index, answers.latestSequence with
  | .error error, _ => .error (.internal error.display)
  | .ok _, .error error => .error (.internal error.display)
  | .ok none, .ok _ =>
      if lastEventId.isSome then .error .resyncRequired else .ok ⟨[], 0⟩
  | .ok (some index), .ok latestSequence =>
      match replayRange index lastEventId conversation latestSequence with
      | .error error => .error error
      | .ok none => .ok ⟨[], (lastEventId.bind parseEventId).getD 0⟩
      | .ok (some range) =>
          match answers.reads with
          | .error error => .error (.internal error.display)
          | .ok reads =>
              let events := NatsChatBus.replayReading reads auth.tenantId conversationId
                range.startSeq range.endSeq
              if replayIsIncomplete events range then .error .resyncRequired
              else .ok ⟨events, range.lastSeenSequence⟩

/-! ## The socket -/

/-- One thing that happened on a socket. -/
inductive Note where
  /-- A message, the event it carries, and the conversations subscribed then. -/
  | sent (message : ServerWsMessage) (source : Option SequencedChatEvent)
      (subscribed : List String)
  /-- A pong frame of the protocol itself. -/
  | pong
  | unsubscribed (conversationId : String)
  | lagged (conversationId : String)

structure Socket where
  subscriptions : List String
  lastSentSequences : String → Option Nat
  history : List Note
  closed : Bool

namespace Socket

def initial : Socket := ⟨[], fun _ => none, [], false⟩

def note (socket : Socket) (note : Note) : Socket :=
  { socket with history := socket.history ++ [note] }

def emit (socket : Socket) (message : ServerWsMessage) (source : Option SequencedChatEvent) :
    Socket :=
  socket.note (.sent message source socket.subscriptions)

def close (socket : Socket) : Socket := { socket with closed := true }

def setLastSent (socket : Socket) (conversationId : String) (sequence : Option Nat) : Socket :=
  { socket with
    lastSentSequences := Function.update socket.lastSentSequences conversationId sequence }

/-- `try_send` of a message that carries no event: without room the socket closes. -/
def reply (socket : Socket) (message : ServerWsMessage) : Nat → Socket
  | 0 => socket.close
  | _ + 1 => socket.emit message none

end Socket

/-- The replay loop, with the last sequence sent or nothing when the queue is full. -/
def sendReplay (auth : AuthContext) (conversationId : String) :
    List SequencedChatEvent → Nat → Nat → Socket → Option Nat × Socket
  | [], _, lastSent, socket => (some lastSent, socket)
  | event :: rest, room, lastSent, socket =>
      if event.envelope.userId ≠ auth.userId then
        sendReplay auth conversationId rest room lastSent socket
      else
        let sequence := (parseEventId event.eventId).getD 0
        if sequence ≤ lastSent then sendReplay auth conversationId rest room lastSent socket
        else
          match room with
          | 0 => (none, socket)
          | room + 1 =>
              sendReplay auth conversationId rest room sequence
                (socket.emit (.event conversationId event.eventId event.envelope.event)
                  (some event))

/-- What the services answer while a client subscribes. -/
structure SubscribeAnswers extends ReplayAnswers where
  conversation : Except StorageError ConversationDetail
  subscribed : Except ChatBusError Unit

/-- `subscribe_socket_to_conversation`, unless the socket is subscribed already. -/
def ensureSubscribed (socket : Socket) (conversationId : String)
    (subscribed : Except ChatBusError Unit) : Except ChatBusError Socket :=
  if conversationId ∈ socket.subscriptions then .ok socket
  else
    match subscribed with
    | .error error => .error error
    | .ok () => .ok { socket with subscriptions := conversationId :: socket.subscriptions }

/-- Answer with the plan: the acknowledgement, then its events. -/
def sendPlan (auth : AuthContext) (conversationId : String) (plan : ReplayPlan) (room : Nat)
    (socket : Socket) : Socket :=
  match room with
  | 0 => socket.close
  | room + 1 =>
      match sendReplay auth conversationId plan.events room plan.lastSeenSequence
        (socket.emit (.subscribed conversationId) none) with
      | (none, socket) => socket.close
      | (some lastSent, socket) => socket.setLastSent conversationId (some lastSent)

def handleClientMessage (auth : AuthContext) (answers : SubscribeAnswers) (room : Nat)
    (socket : Socket) : Option ClientWsMessage → Socket
  | some (.subscribeConversation conversationId lastEventId) =>
      match answers.conversation with
      | .error _ => socket.reply (.error "not_found" "conversation not found") room
      | .ok conversation =>
          match ensureSubscribed socket conversationId answers.subscribed with
          | .error _ =>
              socket.reply (.error "subscribe_failed" "failed to subscribe to conversation events")
                room
          | .ok socket =>
              match buildReplayPlan auth conversationId lastEventId conversation
                answers.toReplayAnswers with
              | .error .resyncRequired => socket.reply (.resyncRequired conversationId) room
              | .error (.internal _) =>
                  socket.reply (.error "replay_failed" "failed to prepare websocket replay") room
              | .ok plan => sendPlan auth conversationId plan room socket
  | some (.unsubscribeConversation conversationId) =>
      -- Aborting a subscription's task does not take back what it already queued.
      (({ socket with
        subscriptions := socket.subscriptions.filter (· ≠ conversationId) }).setLastSent
          conversationId none).note (.unsubscribed conversationId)
  | some (.ping nonce) => socket.reply (.pong nonce) room
  | none => socket.reply (.error "invalid_message" "invalid websocket message") room

/-- What the loop of a socket may take up next. -/
inductive SocketInput where
  | text (decoded : Option ClientWsMessage) (answers : SubscribeAnswers)
  /-- A close frame, the end of the stream, or a receive error. -/
  | disconnect
  | ping
  | otherFrame
  | event (event : SequencedChatEvent)
  | lagged (conversationId : String)

/-- An event a subscription task queued. -/
def handleEvent (auth : AuthContext) (room : Nat) (socket : Socket) (event : SequencedChatEvent) :
    Socket :=
  let conversationId := event.envelope.conversationId
  if event.envelope.tenantId ≠ auth.tenantId then socket
  else if conversationId ∉ socket.subscriptions then socket
  else if event.envelope.userId ≠ auth.userId then socket
  else
    let sequence := (parseEventId event.eventId).getD 0
    if sequence ≤ (socket.lastSentSequences conversationId).getD 0 then socket
    else
      match room with
      | 0 => socket.close
      | _ + 1 =>
          (socket.emit (.event conversationId event.eventId event.envelope.event)
            (some event)).setLastSent conversationId (some sequence)

def handleLagged (room : Nat) (socket : Socket) (conversationId : String) : Socket :=
  match room with
  | 0 => socket.close
  | _ + 1 =>
      ((socket.emit (.resyncRequired conversationId) none).setLastSent conversationId none).note
        (.lagged conversationId)

/-- One turn of the loop; `room` is how many messages the outbound queue takes while
this input is handled. -/
def socketStep (auth : AuthContext) (socket : Socket) (input : SocketInput) (room : Nat) : Socket :=
  if socket.closed then socket
  else
    match input with
    | .text decoded answers => handleClientMessage auth answers room socket decoded
    | .disconnect => socket.close
    | .ping => if room = 0 then socket.close else socket.note .pong
    | .otherFrame => socket
    | .event event => handleEvent auth room socket event
    | .lagged conversationId => handleLagged room socket conversationId

def runSocket (auth : AuthContext) : Socket → List (SocketInput × Nat) → Socket
  | socket, [] => socket
  | socket, (input, room) :: rest => runSocket auth (socketStep auth socket input room) rest

/-! ## What a history shows -/

namespace Note

/-- A moment from which a conversation's deliveries start over. -/
def resets (conversationId : String) : Note → Bool
  | .sent (.subscribed id) _ _ => id = conversationId
  | .unsubscribed id => id = conversationId
  | .lagged id => id = conversationId
  | _ => false

/-- The sequence of an event sent for a conversation. -/
def sequenceFor (conversationId : String) : Note → Option Nat
  | .sent (.event id eventId _) _ _ =>
      if id = conversationId then some ((parseEventId eventId).getD 0) else none
  | _ => none

/-- An event sent is one of the caller's, of a conversation subscribed then. -/
def Proper (auth : AuthContext) : Note → Prop
  | .sent (.event conversationId eventId event) source subscribed =>
      ∃ carried, source = some carried ∧ eventId = carried.eventId ∧
        event = carried.envelope.event ∧ carried.envelope.tenantId = auth.tenantId ∧
        carried.envelope.userId = auth.userId ∧
        carried.envelope.conversationId = conversationId ∧ conversationId ∈ subscribed
  | _ => True

end Note

/-- The sequences sent for a conversation, in order. -/
def sentSequences (conversationId : String) (notes : List Note) : List Nat :=
  notes.filterMap (Note.sequenceFor conversationId)

/-- The sequences sent since the last reset. -/
def recent (conversationId : String) (notes : List Note) : List Nat :=
  notes.foldl (fun sent note =>
    if note.resets conversationId then [] else sent ++ (note.sequenceFor conversationId).toList) []

theorem recent_snoc (conversationId : String) (notes : List Note) (note : Note) :
    recent conversationId (notes ++ [note]) =
      if note.resets conversationId then []
      else recent conversationId notes ++ (note.sequenceFor conversationId).toList := by
  simp [recent, List.foldl_append]

/-- Without a reset in between, what was sent before and after stands together. -/
theorem recent_append {conversationId : String} (before : List Note) {middle : List Note}
    (quiet : ∀ note ∈ middle, note.resets conversationId = false) :
    recent conversationId (before ++ middle) =
      recent conversationId before ++ sentSequences conversationId middle := by
  induction middle using List.reverseRecOn with
  | nil => simp [sentSequences]
  | append_singleton middle note ih =>
      have still := ih fun other mem => quiet other (List.mem_append_left _ mem)
      rw [← List.append_assoc, recent_snoc, quiet note (by simp), still]
      cases given : note.sequenceFor conversationId <;> simp [sentSequences, given]

/-- A history whose deliveries are proper and go up, each conversation's below its
bound. -/
structure Safe (auth : AuthContext) (history : List Note) (bound : String → Nat) : Prop where
  proper : ∀ note ∈ history, note.Proper auth
  rising : ∀ conversationId front, front <+: history →
    (recent conversationId front).Pairwise (· < ·)
  bounded : ∀ conversationId, ∀ sequence ∈ recent conversationId history,
    sequence ≤ bound conversationId

namespace Safe

variable {auth : AuthContext} {history : List Note} {bound : String → Nat}

theorem initial : Safe auth [] bound := by
  refine ⟨by simp, ?_, by simp [recent]⟩
  intro conversationId front within
  rw [List.prefix_nil.mp within]
  exact List.Pairwise.nil

/-- One note more: what it adds to each conversation is above the bound so far. -/
theorem snoc {note : Note} {bound' : String → Nat} (safe : Safe auth history bound)
    (proper : note.Proper auth)
    (added : ∀ conversationId, note.resets conversationId = true ∨
      bound conversationId ≤ bound' conversationId ∧
        ∀ sequence ∈ note.sequenceFor conversationId,
          bound conversationId < sequence ∧ sequence ≤ bound' conversationId) :
    Safe auth (history ++ [note]) bound' := by
  constructor
  · intro other mem
    rcases List.mem_append.mp mem with old | new
    · exact safe.proper other old
    · rw [List.mem_singleton.mp new]
      exact proper
  · intro conversationId front within
    rcases List.prefix_concat_iff.mp within with whole | old
    · rw [whole, recent_snoc]
      rcases added conversationId with reset | ⟨-, above⟩
      · rw [reset, if_pos rfl]
        exact List.Pairwise.nil
      · split
        · exact List.Pairwise.nil
        · cases given : note.sequenceFor conversationId with
          | none => simpa using safe.rising conversationId history List.prefix_rfl
          | some sequence =>
              refine List.pairwise_append.mpr
                ⟨safe.rising conversationId history List.prefix_rfl, by simp, ?_⟩
              intro earlier mem later new
              obtain rfl : later = sequence := by simpa using new
              exact lt_of_le_of_lt (safe.bounded conversationId earlier mem) (above _ given).1
    · exact safe.rising conversationId front old
  · intro conversationId sequence mem
    rw [recent_snoc] at mem
    split at mem
    · cases mem
    · rename_i quiet
      rcases added conversationId with reset | ⟨kept, above⟩
      · exact absurd reset quiet
      · rcases List.mem_append.mp mem with old | new
        · exact le_trans (safe.bounded conversationId sequence old) kept
        · exact (above sequence (by simpa using new)).2

/-- A note that carries no event and resets nothing. -/
theorem quiet (note : Note) (safe : Safe auth history bound) (proper : note.Proper auth)
    (plain : ∀ conversationId, note.sequenceFor conversationId = none) :
    Safe auth (history ++ [note]) bound := by
  apply safe.snoc proper
  intro conversationId
  refine .inr ⟨le_rfl, ?_⟩
  simp [plain conversationId]

/-- A reset of one conversation frees its bound. -/
theorem reset (note : Note) (conversationId : String) (sequence : Nat)
    (safe : Safe auth history bound) (proper : note.Proper auth)
    (plain : ∀ id, note.sequenceFor id = none) (resets : note.resets conversationId = true) :
    Safe auth (history ++ [note]) (Function.update bound conversationId sequence) := by
  apply safe.snoc proper
  intro id
  by_cases same : id = conversationId
  · exact .inl (same ▸ resets)
  · refine .inr ⟨?_, by simp [plain id]⟩
    rw [Function.update_of_ne same]

/-- An event above the bound. -/
theorem event {conversationId eventId : String} {event : ChatEvent}
    {source : Option SequencedChatEvent} {subscribed : List String} {sequence : Nat}
    (safe : Safe auth history bound)
    (proper : (Note.sent (.event conversationId eventId event) source subscribed).Proper auth)
    (number : (parseEventId eventId).getD 0 = sequence)
    (above : bound conversationId < sequence) :
    Safe auth (history ++ [.sent (.event conversationId eventId event) source subscribed])
      (Function.update bound conversationId sequence) := by
  apply safe.snoc proper
  intro id
  by_cases same : id = conversationId
  · subst same
    refine .inr ⟨?_, ?_⟩
    · rw [Function.update_self]
      exact above.le
    · intro given mem
      have value : (parseEventId eventId).getD 0 = given := by
        simpa [Note.sequenceFor] using mem
      rw [Function.update_self, ← value, number]
      exact ⟨above, le_rfl⟩
  · refine .inr ⟨?_, ?_⟩
    · rw [Function.update_of_ne same]
    · simp [Note.sequenceFor, Ne.symm same]

/-- Between two resets, the sequences sent go up. -/
theorem segment (safe : Safe auth history bound) {conversationId : String}
    {before middle after : List Note} (shape : history = before ++ middle ++ after)
    (quiet : ∀ note ∈ middle, note.resets conversationId = false) :
    (sentSequences conversationId middle).Pairwise (· < ·) := by
  have front := safe.rising conversationId (before ++ middle)
    (shape ▸ List.prefix_append _ _)
  rw [recent_append before quiet] at front
  exact (List.pairwise_append.mp front).2.1

end Safe

/-! ## Every step is safe -/

/-- The last sequences sent, as bounds. -/
def Socket.bound (socket : Socket) (conversationId : String) : Nat :=
  (socket.lastSentSequences conversationId).getD 0

/-- A socket whose history is safe, below its last-sent sequences while it is open. -/
def SafeSocket (auth : AuthContext) (socket : Socket) : Prop :=
  ∃ bound, Safe auth socket.history bound ∧ (socket.closed = false → bound = socket.bound)

theorem Socket.bound_setLastSent (socket : Socket) (conversationId : String)
    (sequence : Option Nat) :
    (socket.setLastSent conversationId sequence).bound =
      Function.update socket.bound conversationId (sequence.getD 0) := by
  funext id
  by_cases same : id = conversationId
  · subst same
    simp [Socket.bound, Socket.setLastSent]
  · simp [Socket.bound, Socket.setLastSent, Function.update_of_ne same]

section Steps

variable {auth : AuthContext} {socket : Socket}

theorem SafeSocket.of_safe (safe : Safe auth socket.history socket.bound) :
    SafeSocket auth socket :=
  ⟨socket.bound, safe, fun _ => rfl⟩

theorem SafeSocket.closed {bound : String → Nat} (safe : Safe auth socket.history bound) :
    SafeSocket auth socket.close :=
  ⟨bound, safe, fun still => by cases still⟩

theorem safe_reply {message : ServerWsMessage} (room : Nat)
    (safe : Safe auth socket.history socket.bound)
    (plain : ∀ id, (Note.sent message none socket.subscriptions).sequenceFor id = none)
    (proper : (Note.sent message none socket.subscriptions).Proper auth) :
    SafeSocket auth (socket.reply message room) := by
  cases room with
  | zero => exact .closed safe
  | succ room => exact ⟨socket.bound, safe.quiet _ proper plain, fun _ => rfl⟩

theorem mem_replayReading {reads : Nat → EventStream} {tenantId conversationId : String}
    {startSeq endSeq : Nat} {event : SequencedChatEvent}
    (mem : event ∈ NatsChatBus.replayReading reads tenantId conversationId startSeq endSeq) :
    event.envelope.tenantId = tenantId ∧ event.envelope.conversationId = conversationId := by
  unfold NatsChatBus.replayReading at mem
  split at mem
  · cases mem
  · obtain ⟨sequence, -, one⟩ := List.mem_filterMap.mp mem
    exact NatsChatBus.isOf_replayOne one

/-- A plan holds events of its conversation only. -/
theorem mem_buildReplayPlan {conversationId : String} {lastEventId : Option String}
    {conversation : ConversationDetail} {answers : ReplayAnswers} {plan : ReplayPlan}
    {event : SequencedChatEvent}
    (planned : buildReplayPlan auth conversationId lastEventId conversation answers = .ok plan)
    (mem : event ∈ plan.events) :
    event.envelope.tenantId = auth.tenantId ∧ event.envelope.conversationId = conversationId := by
  unfold buildReplayPlan at planned
  split at planned
  · cases planned
  · cases planned
  · split at planned
    · cases planned
    · cases planned
      cases mem
  · split at planned
    · cases planned
    · cases planned
      cases mem
    · split at planned
      · cases planned
      · simp only at planned
        split at planned
        · cases planned
        · cases planned
          exact mem_replayReading mem

/-- The replay loop, from a bound that is the last sequence sent so far.  It leaves
everything of the socket but its history. -/
theorem safe_sendReplay {conversationId : String} {bound : String → Nat}
    {events : List SequencedChatEvent}
    (own : ∀ event ∈ events, event.envelope.tenantId = auth.tenantId ∧
      event.envelope.conversationId = conversationId)
    (room lastSent : Nat) (socket : Socket) (subscribed : conversationId ∈ socket.subscriptions)
    (safe : Safe auth socket.history (Function.update bound conversationId lastSent)) :
    ∃ reached, Safe auth (sendReplay auth conversationId events room lastSent socket).2.history
        (Function.update bound conversationId reached) ∧
      (∀ final, (sendReplay auth conversationId events room lastSent socket).1 = some final →
        final = reached) ∧
      (sendReplay auth conversationId events room lastSent socket).2.lastSentSequences =
        socket.lastSentSequences ∧
      (sendReplay auth conversationId events room lastSent socket).2.closed = socket.closed := by
  induction events generalizing room lastSent socket with
  | nil => exact ⟨lastSent, safe, fun _ same => (Option.some.inj same).symm, rfl, rfl⟩
  | cons event rest ih =>
      have others := fun other mem => own other (List.mem_cons_of_mem event mem)
      unfold sendReplay
      split
      · exact ih others room lastSent socket subscribed safe
      · rename_i mine
        simp only
        split
        · exact ih others room lastSent socket subscribed safe
        · rename_i above
          cases room with
          | zero => exact ⟨lastSent, safe, by simp, rfl, rfl⟩
          | succ room =>
              obtain ⟨tenant, conversation⟩ := own event List.mem_cons_self
              have carried : (Note.sent (.event conversationId event.eventId event.envelope.event)
                  (some event) socket.subscriptions).Proper auth :=
                ⟨event, rfl, rfl, rfl, tenant, by simpa using mine, conversation, subscribed⟩
              have sent := safe.event carried rfl
                (by rw [Function.update_self]; exact Nat.lt_of_not_le above)
              rw [Function.update_idem] at sent
              exact ih others room _
                (socket.emit (.event conversationId event.eventId event.envelope.event)
                  (some event))
                subscribed sent

theorem safe_sendPlan {conversationId : String} {plan : ReplayPlan} (room : Nat)
    (own : ∀ event ∈ plan.events, event.envelope.tenantId = auth.tenantId ∧
      event.envelope.conversationId = conversationId)
    (subscribed : conversationId ∈ socket.subscriptions)
    (safe : Safe auth socket.history socket.bound) :
    SafeSocket auth (sendPlan auth conversationId plan room socket) := by
  unfold sendPlan
  cases room with
  | zero => exact .closed safe
  | succ room =>
      have acknowledged := safe.reset (.sent (.subscribed conversationId) none socket.subscriptions)
        conversationId plan.lastSeenSequence trivial (fun _ => rfl) (by simp [Note.resets])
      obtain ⟨reached, after, final, kept, open_⟩ := safe_sendReplay own room plan.lastSeenSequence
        (socket.emit (.subscribed conversationId) none) subscribed acknowledged
      simp only
      split
      · rename_i next result
        rw [result] at after
        exact .closed after
      · rename_i lastSent next result
        rw [result] at after final kept
        obtain rfl := final lastSent rfl
        apply SafeSocket.of_safe
        have same : next.bound = socket.bound := by
          funext id
          show (next.lastSentSequences id).getD 0 = (socket.lastSentSequences id).getD 0
          rw [kept]
          rfl
        rw [Socket.bound_setLastSent, same]
        exact after

theorem ensureSubscribed_ok {conversationId : String} {next : Socket}
    {answer : Except ChatBusError Unit}
    (ensured : ensureSubscribed socket conversationId answer = .ok next) :
    conversationId ∈ next.subscriptions ∧ socket.subscriptions ⊆ next.subscriptions ∧
      next.history = socket.history ∧ next.bound = socket.bound := by
  unfold ensureSubscribed at ensured
  split at ensured
  · cases ensured
    exact ⟨‹_›, fun _ mem => mem, rfl, rfl⟩
  · split at ensured
    · cases ensured
    · cases ensured
      exact ⟨List.mem_cons_self, List.subset_cons_self _ _, rfl, rfl⟩

theorem safe_handleClientMessage (answers : SubscribeAnswers) (room : Nat)
    (message : Option ClientWsMessage) (safe : Safe auth socket.history socket.bound) :
    SafeSocket auth (handleClientMessage auth answers room socket message) := by
  match message with
  | none => exact safe_reply room safe (fun _ => rfl) trivial
  | some (.ping nonce) => exact safe_reply room safe (fun _ => rfl) trivial
  | some (.unsubscribeConversation conversationId) =>
      apply SafeSocket.of_safe
      have dropped := safe.reset (.unsubscribed conversationId) conversationId 0 trivial
        (fun _ => rfl) (by simp [Note.resets])
      have same := Socket.bound_setLastSent { socket with
        subscriptions := socket.subscriptions.filter (· ≠ conversationId) } conversationId none
      show Safe auth (socket.history ++ [.unsubscribed conversationId]) _
      exact same.symm ▸ dropped
  | some (.subscribeConversation conversationId lastEventId) =>
      unfold handleClientMessage
      simp only
      split
      · exact safe_reply room safe (fun _ => rfl) trivial
      · rename_i conversation _
        cases ensured : ensureSubscribed socket conversationId answers.subscribed with
        | error error => exact safe_reply room safe (fun _ => rfl) trivial
        | ok next =>
            obtain ⟨subscribed, -, history, bound⟩ := ensureSubscribed_ok ensured
            have kept : Safe auth next.history next.bound := by
              rw [history, bound]
              exact safe
            simp only
            split
            · exact safe_reply room kept (fun _ => rfl) trivial
            · exact safe_reply room kept (fun _ => rfl) trivial
            · rename_i plan planned
              exact safe_sendPlan room (fun event mem => mem_buildReplayPlan planned mem) subscribed
                kept

theorem safe_handleEvent (room : Nat) (event : SequencedChatEvent)
    (safe : Safe auth socket.history socket.bound) :
    SafeSocket auth (handleEvent auth room socket event) := by
  unfold handleEvent
  simp only
  split
  · exact .of_safe safe
  · rename_i tenant
    split
    · exact .of_safe safe
    · rename_i subscribed
      split
      · exact .of_safe safe
      · rename_i user
        split
        · exact .of_safe safe
        · rename_i above
          cases room with
          | zero => exact .closed safe
          | succ room =>
              apply SafeSocket.of_safe
              rw [Socket.bound_setLastSent]
              refine safe.event ⟨event, rfl, rfl, rfl, ?_, ?_, rfl, ?_⟩ rfl ?_
              · simpa using tenant
              · simpa using user
              · simpa using subscribed
              · exact Nat.lt_of_not_le above

theorem safe_handleLagged (room : Nat) (conversationId : String)
    (safe : Safe auth socket.history socket.bound) :
    SafeSocket auth (handleLagged room socket conversationId) := by
  unfold handleLagged
  cases room with
  | zero => exact .closed safe
  | succ room =>
      have asked := safe.quiet (.sent (.resyncRequired conversationId) none socket.subscriptions)
        trivial (fun _ => rfl)
      have dropped := asked.reset (.lagged conversationId) conversationId 0 trivial
        (fun _ => rfl) (by simp [Note.resets])
      have same := Socket.bound_setLastSent
        (socket.emit (.resyncRequired conversationId) none) conversationId none
      apply SafeSocket.of_safe
      exact same.symm ▸ dropped

/-- One turn of the loop. -/
theorem safe_socketStep (input : SocketInput) (room : Nat) (safe : SafeSocket auth socket) :
    SafeSocket auth (socketStep auth socket input room) := by
  unfold socketStep
  split
  · exact safe
  · rename_i running
    obtain ⟨bound, history, still⟩ := safe
    rw [still (by simpa using running)] at history
    cases input with
    | text decoded answers => exact safe_handleClientMessage answers room decoded history
    | disconnect => exact .closed history
    | ping =>
        simp only
        split
        · exact .closed history
        · exact .of_safe (history.quiet _ trivial fun _ => rfl)
    | otherFrame => exact .of_safe history
    | event event => exact safe_handleEvent room event history
    | lagged conversationId => exact safe_handleLagged room conversationId history

theorem safe_runSocket (inputs : List (SocketInput × Nat)) (safe : SafeSocket auth socket) :
    SafeSocket auth (runSocket auth socket inputs) := by
  induction inputs generalizing socket with
  | nil => exact safe
  | cons input rest ih => exact ih (safe_socketStep input.1 input.2 safe)

end Steps

/-- Whatever a socket is fed and whatever its queue has room for: every event it sends is
one of the caller's, of a conversation subscribed at that moment, and between two resets
of a conversation the sequences it sends go up. -/
theorem socket_delivery_safe (auth : AuthContext) (inputs : List (SocketInput × Nat)) :
    (∀ note ∈ (runSocket auth .initial inputs).history, note.Proper auth) ∧
    ∀ conversationId before middle after,
      (runSocket auth .initial inputs).history = before ++ middle ++ after →
      (∀ note ∈ middle, note.resets conversationId = false) →
      (sentSequences conversationId middle).Pairwise (· < ·) := by
  have start : SafeSocket auth .initial := .of_safe Safe.initial
  obtain ⟨bound, safe, -⟩ := safe_runSocket inputs start
  exact ⟨safe.proper, fun conversationId before middle after shape quiet =>
    safe.segment shape quiet⟩

/-- A subscription, a foreign event, a repeated one, and one sent again after a lag. -/
def laggedInputs : List (SocketInput × Nat) :=
  let event (eventId userId : String) : SocketInput × Nat :=
    (.event ⟨eventId, ⟨"t", userId, "c", "t1", 0, .textDelta "d"⟩⟩, 1)
  [(.text (some (.subscribeConversation "c" none)) {
      index := .ok none
      latestSequence := .ok 0
      reads := .ok fun _ => ⟨[], 0⟩
      conversation := .ok ⟨"c", "New conversation", [], 0⟩
      subscribed := .ok () }, 1),
    event "1" "u", event "1" "u", event "2" "v", event "3" "u", (.lagged "c", 1), event "3" "u"]

theorem delivery_around_a_lag :
    sentSequences "c" (runSocket ⟨"t", "u"⟩ .initial laggedInputs).history = [1, 3, 3] ∧
    ∀ note ∈ (runSocket ⟨"t", "u"⟩ .initial laggedInputs).history, note.Proper ⟨"t", "u"⟩ :=
  ⟨by decide +kernel, (socket_delivery_safe ⟨"t", "u"⟩ laggedInputs).1⟩

end Delphi.Chat
