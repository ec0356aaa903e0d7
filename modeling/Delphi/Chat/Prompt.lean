/-
# Delphi.Chat.Prompt -- from a stored conversation to the model's prompt

`split_history` of the LLM client, over the list `llm_messages` builds: the last
message must be the user's and becomes the prompt, what precedes it the history.
The loop holds every user message back until it has seen the next message, so
each of its branches has to let the held one go first (`flush`).

The message type of the agent library is a parameter; all that is asked of it is
that a message's role and text can be read back.
-/
import Delphi.Chat.Turns

namespace Delphi.Chat

set_option autoImplicit false

/-- The constructors of the agent library's `Message` that `split_history` calls. -/
structure AgentMessages (Message : Type) where
  user : String → Message
  system : String → Message
  assistant : String → Message

namespace AgentMessages

variable {Message : Type} (agent : AgentMessages Message)

def build (message : LlmMessage) : Message :=
  match message.role with
  | .system => agent.system message.content
  | .user => agent.user message.content
  | .assistant => agent.assistant message.content

/-- `if let Some(previous) = last_user.take() { history.push(Message::user(previous)) }` -/
def flush (history : List Message) : Option String → List Message
  | some previous => history ++ [agent.user previous]
  | none => history

def splitStep : List Message × Option String → LlmMessage → List Message × Option String
  | (history, lastUser), message =>
      match message.role with
      | .system => (agent.flush history lastUser ++ [agent.system message.content], none)
      | .user => (agent.flush history lastUser, some message.content)
      | .assistant => (agent.flush history lastUser ++ [agent.assistant message.content], none)

def splitHistory (messages : List LlmMessage) : Except String (String × List Message) :=
  match messages.foldl agent.splitStep ([], none) with
  | (history, some prompt) => .ok (prompt, history)
  | (_, none) => .error "chat request had no trailing user message"

/-! ## The loop -/

/-- What the loop has pushed and what it still holds, in the order it was read. -/
def seen (state : List Message × Option String) : List Message := agent.flush state.1 state.2

/-- The user message a list ends in. -/
def trailingUser (messages : List LlmMessage) : Option String :=
  match messages.getLast? with
  | some ⟨.user, content⟩ => some content
  | _ => none

theorem seen_splitStep (state : List Message × Option String) (message : LlmMessage) :
    agent.seen (agent.splitStep state message) = agent.seen state ++ [agent.build message] := by
  obtain ⟨history, lastUser⟩ := state
  obtain ⟨role, content⟩ := message
  cases role <;> rfl

theorem seen_foldl (messages : List LlmMessage) (state : List Message × Option String) :
    agent.seen (messages.foldl agent.splitStep state)
      = agent.seen state ++ messages.map agent.build := by
  induction messages generalizing state with
  | nil => simp
  | cons message rest ih =>
      rw [List.foldl_cons, ih, seen_splitStep]
      simp

theorem held_splitStep (state : List Message × Option String) (message : LlmMessage) :
    (agent.splitStep state message).2 = trailingUser [message] := by
  obtain ⟨history, lastUser⟩ := state
  obtain ⟨role, content⟩ := message
  cases role <;> rfl

/-- The loop ends holding the last message exactly when that is the user's. -/
theorem held_foldl (messages : List LlmMessage) :
    (messages.foldl agent.splitStep ([], none)).2 = trailingUser messages := by
  induction messages using List.reverseRecOn with
  | nil => rfl
  | append_singleton front last _ =>
      rw [List.foldl_append, List.foldl_cons, List.foldl_nil, held_splitStep]
      simp [trailingUser]

theorem trailingUser_eq_some {messages : List LlmMessage} {content : String} :
    trailingUser messages = some content ↔ messages.getLast? = some ⟨.user, content⟩ := by
  unfold trailingUser
  split
  case h_1 text last => simp [last]
  case h_2 other =>
      constructor
      · intro absent
        cases absent
      · intro last
        exact absurd last (other content)

/-! ## Splitting -/

theorem splitHistory_eq_ok {messages : List LlmMessage} {prompt : String}
    {history : List Message} :
    agent.splitHistory messages = .ok (prompt, history) ↔
      messages.foldl agent.splitStep ([], none) = (history, some prompt) := by
  unfold splitHistory
  split
  case h_1 pushed held folded =>
      rw [folded]
      constructor
      · rintro ⟨⟩
        rfl
      · rintro ⟨⟩
        rfl
  case h_2 pushed folded =>
      rw [folded]
      constructor
      · rintro ⟨⟩
      · rintro ⟨⟩

theorem splitHistory_succeeds_iff (messages : List LlmMessage) :
    (∃ prompt history, agent.splitHistory messages = .ok (prompt, history)) ↔
      ∃ content, messages.getLast? = some ⟨.user, content⟩ := by
  simp only [splitHistory_eq_ok, ← trailingUser_eq_some, ← held_foldl agent messages]
  constructor
  · rintro ⟨prompt, history, folded⟩
    exact ⟨prompt, by rw [folded]⟩
  · rintro ⟨content, held⟩
    exact ⟨content, (messages.foldl agent.splitStep ([], none)).1, Prod.ext rfl held⟩

/-- History and prompt are the input, message for message. -/
theorem splitHistory_build {messages : List LlmMessage} {prompt : String}
    {history : List Message} (split : agent.splitHistory messages = .ok (prompt, history)) :
    history ++ [agent.user prompt] = messages.map agent.build := by
  have folded := (agent.splitHistory_eq_ok).mp split
  have complete := agent.seen_foldl messages ([], none)
  rw [folded] at complete
  simpa [seen, flush] using complete

end AgentMessages

/-! ## The worker's list -/

open ChatWorker

def toLlm (message : MessageDto) : LlmMessage := ⟨message.role, message.content⟩

/-- The note a history ends in: one if its last message was interrupted. -/
def tailNote (history : List MessageDto) : List LlmMessage :=
  match history.getLast? with
  | some last => if last.interrupted then [⟨.system, interruptedNote⟩] else []
  | none => []

theorem getLast?_llmMessages (history : List MessageDto) (userText : String) :
    (llmMessages history userText).getLast? = some ⟨.user, userText⟩ :=
  List.getLast?_concat

/-- With unique ids the id comparison of the loop finds the last message and no other. -/
theorem llmMessages_eq (history : List MessageDto) (userText : String)
    (unique : (history.map fun message => message.id).Nodup) :
    llmMessages history userText
      = history.map toLlm ++ tailNote history ++ [⟨.user, userText⟩] := by
  cases history using List.reverseRecOn with
  | nil => rfl
  | append_singleton front last =>
      have earlier : ∀ message ∈ front, message.id ≠ last.id := by
        intro message inFront same
        rw [List.map_append, List.nodup_append] at unique
        exact unique.2.2 _ (List.mem_map_of_mem inFront) _ (by simp) same
      have plain : (front.flatMap fun message => toLlm message ::
          if some message.id = some last.id ∧ message.interrupted
          then [⟨.system, interruptedNote⟩] else []) = front.map toLlm := by
        rw [← List.flatMap_singleton' (front.map toLlm), List.flatMap_map]
        apply List.flatMap_congr
        intro message inFront
        rw [if_neg fun tail => earlier message inFront (Option.some.inj tail.1)]
      unfold llmMessages
      simp only [List.getLast?_concat, Option.map_some, List.flatMap_append]
      show (front.flatMap fun message => toLlm message :: _) ++ _ ++ _ = _
      rw [plain]
      by_cases interrupted : last.interrupted <;>
        simp [tailNote, interrupted, toLlm]

/-! ## Prompt construction -/

section

variable {Message : Type} (agent : AgentMessages Message) (readBack : Message → LlmMessage)

/-- Splitting loses and reorders nothing: a list splits if and only if it ends in a user
message, and then it is the history, read back, followed by the prompt.  The worker's list
always splits, at the user's text; with unique ids it splits into the stored messages and
the note of an interrupted tail. -/
theorem splitHistory_keeps_order
    (readsBack : ∀ message, readBack (agent.build message) = message) :
    (∀ messages,
      ((∃ prompt history, agent.splitHistory messages = .ok (prompt, history)) ↔
        ∃ content, messages.getLast? = some ⟨.user, content⟩) ∧
      ∀ prompt history, agent.splitHistory messages = .ok (prompt, history) →
        history.map readBack ++ [⟨.user, prompt⟩] = messages) ∧
    ∀ (history : List MessageDto) (userText : String),
      ∃ asked, agent.splitHistory (llmMessages history userText) = .ok (userText, asked) ∧
        ((history.map fun message => message.id).Nodup →
          asked.map readBack = history.map toLlm ++ tailNote history) := by
  have keepsAll : ∀ messages prompt history, agent.splitHistory messages = .ok (prompt, history) →
      history.map readBack ++ [⟨.user, prompt⟩] = messages := by
    intro messages prompt history split
    have built := congrArg (List.map readBack) (agent.splitHistory_build split)
    have same : readBack ∘ agent.build = id := funext readsBack
    have last : readBack (agent.user prompt) = ⟨.user, prompt⟩ := readsBack ⟨.user, prompt⟩
    rw [List.map_append, List.map_singleton, last, List.map_map, same, List.map_id] at built
    exact built
  refine ⟨fun messages => ⟨agent.splitHistory_succeeds_iff messages, keepsAll messages⟩, ?_⟩
  intro history userText
  obtain ⟨prompt, asked, split⟩ :=
    (agent.splitHistory_succeeds_iff (llmMessages history userText)).mpr
      ⟨userText, getLast?_llmMessages history userText⟩
  have whole := keepsAll _ prompt asked split
  have last := congrArg List.getLast? whole
  rw [List.getLast?_concat, getLast?_llmMessages] at last
  obtain rfl : prompt = userText := by simpa using last
  refine ⟨asked, split, fun unique => ?_⟩
  rw [llmMessages_eq history prompt unique] at whole
  exact List.append_cancel_right whole

/-- The library's messages as tagged texts. -/
def taggedMessages : AgentMessages LlmMessage where
  user content := ⟨.user, content⟩
  system content := ⟨.system, content⟩
  assistant content := ⟨.assistant, content⟩

def interruptedHistory : List MessageDto :=
  [⟨"m1", .user, "hello", none, [], some "t1", false, none, 0⟩,
   ⟨"m2", .assistant, "h", some "m1", [], some "t1", true, some "user_stopped", 1⟩]

theorem splitHistory_keeps_order_interrupted :
    ∃ asked,
      taggedMessages.splitHistory (llmMessages interruptedHistory "go on") = .ok ("go on", asked) ∧
      asked.map id = [⟨.user, "hello"⟩, ⟨.assistant, "h"⟩, ⟨.system, interruptedNote⟩] := by
  have readsBack : ∀ message, id (taggedMessages.build message) = message := by
    rintro ⟨role, content⟩
    cases role <;> rfl
  obtain ⟨asked, split, order⟩ :=
    (splitHistory_keeps_order taggedMessages id readsBack).2 interruptedHistory "go on"
  exact ⟨asked, split, order (by decide)⟩

end

end Delphi.Chat
