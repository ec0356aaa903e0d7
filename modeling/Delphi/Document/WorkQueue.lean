/-
# Delphi.Document.WorkQueue -- from the work stream to an answer

`work_queue.rs` and `handle_work_item`: the consumer hands an upload command out up
to `max_deliver` times, each delivery runs `finish`, and what it returned decides
how the message is settled.  Messages may be delivered while earlier deliveries
still run, deliveries may reach nobody, handlers may stop anywhere, and a settlement
may be lost.

The rules, over every run of the deliveries beside everything else that writes
(`work_of_run`):

* a message that a handler settled has been answered: some delivery of it accepted
  the upload, and the document's log names it, or rejected it, and the bytes are
  reclaimed or the record already said so;
* a handler asks for redelivery only while there is another delivery to come;
* when the handler of a message's last delivery ends, the upload has been answered.
-/
import Delphi.Theory.Wrapped
import Delphi.Document.Effects

namespace Delphi.Document

open Delphi.Theory
open UploadFinisher (finish)

set_option autoImplicit false

/-! ## Receiving and settling -/

/-- One delivery of a message of the work stream. -/
structure WorkItem where
  message : Nat
  command : UploadCompleted
  numDelivered : Nat
  isFinalDelivery : Bool

inductive AckKind where
  | ack
  | nak
  | term
deriving DecidableEq

inductive Receipt where
  | terminated
  | handed (item : WorkItem)

/-- A message the loop in `run` has received, given what its metadata say of its deliveries and
what its payload decodes to. -/
def WorkQueueConsumer.receive (maxDeliver message : Nat) (delivered : Option Int)
    (payload : Option UploadCompleted) : Receipt :=
  match delivered with
  | none => .terminated
  | some delivered =>
      let numDelivered := (max delivered 0).toNat
      match payload with
      | none => .terminated
      | some command => .handed ⟨message, command, numDelivered, maxDeliver ≤ numDelivered⟩

/-- A failed settlement is only logged. -/
abbrev SettlePort : Signature := ⟨Nat × AckKind, fun _ => Except String Unit⟩

namespace WorkItem

def tell (item : WorkItem) (kind : AckKind) : Program SettlePort Unit := do
  let _ ← Program.perform (S := SettlePort) (item.message, kind)
  return ()

def ack (item : WorkItem) : Program SettlePort Unit := item.tell .ack

def nak (item : WorkItem) : Program SettlePort Unit := item.tell .nak

def term (item : WorkItem) : Program SettlePort Unit := item.tell .term

def delivery (item : WorkItem) : Delivery := ⟨item.command, item.isFinalDelivery⟩

end WorkItem

/-- What `handle_work_item` does with the outcome. -/
def settleOutcome (item : WorkItem) : FinishOutcome → Program SettlePort Unit
  | .accepted _ _ _ => item.ack
  | .rejected _ => if item.isFinalDelivery then item.term else item.ack
  | .retry _ => item.nak

/-! ## The work stream -/

/-- What took a message out of the stream. -/
inductive Closed where
  | unread
  | settled
deriving DecidableEq

structure WorkMessage where
  payload : Option UploadCompleted
  delivered : Nat
  closed : Option Closed
  /-- The last delivery has reached no handler. -/
  missed : Bool

structure WorkStream where
  messages : List WorkMessage
  handed : List WorkItem

namespace WorkStream

def empty : WorkStream := ⟨[], []⟩

def close (s : WorkStream) (n : Nat) (cause : Closed) : WorkStream :=
  { s with messages := s.messages.modify n fun message =>
      { message with closed := message.closed <|> some cause } }

/-- The message is counted as delivered once more. -/
def deliver (s : WorkStream) (n : Nat) (missed : Bool) : WorkStream :=
  { s with messages := s.messages.modify n fun message =>
      { message with delivered := message.delivered + 1, missed := missed } }

/-- What a delivery becomes at the consumer. -/
inductive Arrives (maxDeliver : Nat) (s : WorkStream) (n : Nat) (message : WorkMessage) :
    WorkStream → Prop where
  | handed {item : WorkItem} (received : WorkQueueConsumer.receive maxDeliver n
        (some (message.delivered + 1 : Nat)) message.payload = .handed item) :
      Arrives maxDeliver s n message
        { s.deliver n false with handed := s.handed ++ [item] }
  | terminated {delivered : Option Int}
      (received : WorkQueueConsumer.receive maxDeliver n delivered message.payload = .terminated) :
      Arrives maxDeliver s n message ((s.deliver n true).close n .unread)
  | mislaid : Arrives maxDeliver s n message (s.deliver n true)

/-- What happens to the stream by itself: an upload is published, or a message that is still in
the stream and has deliveries left is delivered. -/
inductive Moves (maxDeliver : Nat) (publishes : UploadCompleted → Prop) (s : WorkStream) :
    WorkStream → Prop where
  | published (payload : Option UploadCompleted)
      (known : ∀ command, payload = some command → publishes command) :
      Moves maxDeliver publishes s { s with messages := s.messages ++ [⟨payload, 0, none, false⟩] }
  | delivered {s' : WorkStream} (n : Nat) (message : WorkMessage)
      (found : s.messages[n]? = some message) (stays : message.closed = none)
      (left : message.delivered < maxDeliver) (arrives : Arrives maxDeliver s n message s') :
      Moves maxDeliver publishes s s'

/-- A settlement: an `ack` or a `term` that gets through takes the message out. -/
inductive Settles (s : WorkStream) (n : Nat) (kind : AckKind) : WorkStream → Prop where
  | closed (final : kind ≠ .nak) : Settles s n kind (s.close n .settled)
  | stays : Settles s n kind s

end WorkStream

/-! ## The worker -/

/-- Every handler runs `finish` for an item it was handed, and settles the outcome. -/
def worker (site : Site) (maxDeliver : Nat) :
    Wrapping Ports SettlePort World WorkStream Delivery WorkItem FinishOutcome Unit where
  inner := site.system
  input := WorkItem.delivery
  settle := settleOutcome
  admits s item := item ∈ s.handed
  serves op s _ s' := s.Settles op.1 op.2 s'
  environment := WorkStream.Moves maxDeliver site.publishes

abbrev WorkRun := Wrapping.Run Ports SettlePort World WorkStream WorkItem Unit

namespace WorkStream

/-! ## The stream over a run -/

@[simp] theorem close_handed (s : WorkStream) (n : Nat) (cause : Closed) :
    (s.close n cause).handed = s.handed := rfl

@[simp] theorem deliver_handed (s : WorkStream) (n : Nat) (missed : Bool) :
    (s.deliver n missed).handed = s.handed := rfl

/-- A message after a close was there before, but for what closed it. -/
theorem of_close {s : WorkStream} {n m : Nat} {cause : Closed} {message : WorkMessage}
    (found : (s.close n cause).messages[m]? = some message) :
    ∃ before, s.messages[m]? = some before ∧ message.payload = before.payload ∧
      message.delivered = before.delivered ∧ message.missed = before.missed ∧
      message.closed = if n = m then before.closed <|> some cause else before.closed := by
  simp only [close, List.getElem?_modify] at found
  cases old : s.messages[m]? with
  | none =>
      rw [old] at found
      cases found
  | some before =>
      rw [old] at found
      obtain rfl := Option.some.inj found
      refine ⟨before, rfl, ?_⟩
      by_cases same : n = m
      · simp [same]
      · simp [same]

theorem close_found {s : WorkStream} (n : Nat) {m : Nat} (cause : Closed) {before : WorkMessage}
    (found : s.messages[m]? = some before) :
    ∃ message, (s.close n cause).messages[m]? = some message ∧ message.payload = before.payload ∧
      message.delivered = before.delivered := by
  refine ⟨_, by simp only [close, List.getElem?_modify, found]; rfl, ?_⟩
  by_cases same : n = m
  · simp [same]
  · simp [same]

/-- A message after a delivery was there before, counted once less if it is the one delivered. -/
theorem of_deliver {s : WorkStream} {n m : Nat} {missed : Bool} {message : WorkMessage}
    (found : (s.deliver n missed).messages[m]? = some message) :
    ∃ before, s.messages[m]? = some before ∧ message.payload = before.payload ∧
      message.closed = before.closed ∧
      if n = m then message.delivered = before.delivered + 1 ∧ message.missed = missed
      else message.delivered = before.delivered ∧ message.missed = before.missed := by
  simp only [deliver, List.getElem?_modify] at found
  cases old : s.messages[m]? with
  | none =>
      rw [old] at found
      cases found
  | some before =>
      rw [old] at found
      obtain rfl := Option.some.inj found
      refine ⟨before, rfl, ?_⟩
      by_cases same : n = m
      · simp [same]
      · simp [same]

theorem deliver_found {s : WorkStream} (n : Nat) {m : Nat} (missed : Bool) {before : WorkMessage}
    (found : s.messages[m]? = some before) :
    ∃ message, (s.deliver n missed).messages[m]? = some message ∧
      message.payload = before.payload ∧ before.delivered ≤ message.delivered := by
  refine ⟨_, by simp only [deliver, List.getElem?_modify, found]; rfl, ?_⟩
  by_cases same : n = m
  · simp [same]
  · simp [same]

/-- Messages keep their payloads and are never delivered less often. -/
def Later (s s' : WorkStream) : Prop :=
  ∀ (n : Nat) (message : WorkMessage), s.messages[n]? = some message →
    ∃ message', s'.messages[n]? = some message' ∧ message'.payload = message.payload ∧
      message.delivered ≤ message'.delivered

theorem later_close (s : WorkStream) (n : Nat) (cause : Closed) : s.Later (s.close n cause) := by
  intro m message found
  obtain ⟨message', found', payload, delivered⟩ := close_found n cause found
  exact ⟨message', found', payload, Nat.le_of_eq delivered.symm⟩

theorem later_deliver (s : WorkStream) (n : Nat) (missed : Bool) : s.Later (s.deliver n missed) :=
  fun _ _ found => deliver_found n missed found

/-- An item is a delivery of a message of the stream. -/
structure IsDelivery (maxDeliver : Nat) (s : WorkStream) (item : WorkItem) : Prop where
  message : ∃ message, s.messages[item.message]? = some message ∧
    message.payload = some item.command ∧ item.numDelivered ≤ message.delivered
  final : item.isFinalDelivery = decide (maxDeliver ≤ item.numDelivered)

theorem IsDelivery.later {maxDeliver : Nat} {s s' : WorkStream} {item : WorkItem}
    (delivery : s.IsDelivery maxDeliver item) (later : s.Later s') :
    s'.IsDelivery maxDeliver item := by
  obtain ⟨message, found, payload, delivered⟩ := delivery.message
  obtain ⟨message', found', payload', delivered'⟩ := later _ _ found
  exact ⟨⟨message', found', payload'.trans payload, Nat.le_trans delivered delivered'⟩,
    delivery.final⟩

/-- What is so of every message and every item handed out. -/
structure Consistent (maxDeliver : Nat) (publishes : UploadCompleted → Prop) (s : WorkStream) :
    Prop where
  bounded : ∀ (n : Nat) message, s.messages[n]? = some message → message.delivered ≤ maxDeliver
  published : ∀ (n : Nat) message command, s.messages[n]? = some message →
    message.payload = some command → publishes command
  handed : ∀ item ∈ s.handed, s.IsDelivery maxDeliver item
  last : ∀ (n : Nat) message, s.messages[n]? = some message → message.missed = false →
    0 < message.delivered → ∃ item ∈ s.handed, item.message = n ∧
      item.numDelivered = message.delivered

variable {maxDeliver : Nat} {publishes : UploadCompleted → Prop} {s s' : WorkStream}

theorem Consistent.close (consistent : s.Consistent maxDeliver publishes) (n : Nat)
    (cause : Closed) :
    (s.close n cause).Consistent maxDeliver publishes := by
  refine ⟨fun m message found => ?_, fun m message command found payload => ?_,
    fun item mem => (consistent.handed item mem).later (later_close s n cause),
    fun m message found missed delivered => ?_⟩
  all_goals obtain ⟨before, found', payload', delivered', missed', -⟩ := of_close found
  · exact delivered' ▸ consistent.bounded m before found'
  · exact consistent.published m before command found' (payload' ▸ payload)
  · rw [delivered'] at delivered ⊢
    exact consistent.last m before found' (missed' ▸ missed) delivered

theorem receive_handed {message delivered : Nat} {payload : Option UploadCompleted}
    {item : WorkItem}
    (received : WorkQueueConsumer.receive maxDeliver message (some (delivered : Int)) payload =
      .handed item) :
    payload = some item.command ∧ item.message = message ∧ item.numDelivered = delivered ∧
      item.isFinalDelivery = decide (maxDeliver ≤ item.numDelivered) := by
  unfold WorkQueueConsumer.receive at received
  cases payload with
  | none => cases received
  | some command =>
      cases received
      have counted : (max (delivered : Int) 0).toNat = delivered := by omega
      exact ⟨rfl, rfl, counted, rfl⟩

/-- Counting a delivery keeps what is so of every message; what is so of the last delivery is
for the delivery to show. -/
theorem Consistent.counted (consistent : s.Consistent maxDeliver publishes) {n : Nat}
    {missed : Bool} {message : WorkMessage} (found : s.messages[n]? = some message)
    (left : message.delivered < maxDeliver) {handed : List WorkItem}
    (items : ∀ item ∈ handed, (s.deliver n missed).IsDelivery maxDeliver item)
    (kept : ∀ item ∈ s.handed, item ∈ handed)
    (reached : missed = false → ∃ item ∈ handed, item.message = n ∧
      item.numDelivered = message.delivered + 1) :
    Consistent maxDeliver publishes { s.deliver n missed with handed := handed } := by
  refine ⟨fun m later found' => ?_, fun m later command found' payload => ?_,
    fun item mem => ⟨(items item mem).message, (items item mem).final⟩,
    fun m later found' reaches delivered => ?_⟩
  all_goals obtain ⟨before, old, payload', -, counted⟩ := of_deliver found'
  · by_cases same : n = m
    · subst same
      obtain rfl := Option.some.inj (found.symm.trans old)
      rw [if_pos rfl] at counted
      omega
    · rw [if_neg same] at counted
      exact counted.1 ▸ consistent.bounded m before old
  · exact consistent.published m before command old (payload' ▸ payload)
  · by_cases same : n = m
    · subst same
      obtain rfl := Option.some.inj (found.symm.trans old)
      rw [if_pos rfl] at counted
      rw [counted.1]
      exact reached (counted.2 ▸ reaches)
    · rw [if_neg same] at counted
      rw [counted.1] at delivered ⊢
      obtain ⟨item, mem, known⟩ := consistent.last m before old (counted.2 ▸ reaches) delivered
      exact ⟨item, kept item mem, known⟩

theorem Consistent.arrives (consistent : s.Consistent maxDeliver publishes) {n : Nat}
    {message : WorkMessage} (found : s.messages[n]? = some message)
    (left : message.delivered < maxDeliver) (arrives : s.Arrives maxDeliver n message s') :
    s'.Consistent maxDeliver publishes := by
  have before : ∀ missed, ∀ item ∈ s.handed, (s.deliver n missed).IsDelivery maxDeliver item :=
    fun missed item mem => (consistent.handed item mem).later (later_deliver s n missed)
  have missing := consistent.counted found left (before true) (fun _ mem => mem)
    (fun same => nomatch same)
  cases arrives with
  | mislaid => exact missing
  | terminated received => exact missing.close n .unread
  | @handed item received =>
      obtain ⟨payload, rfl, number, final⟩ := receive_handed received
      refine consistent.counted found left (fun other mem => ?_)
        (fun other mem => List.mem_append_left _ mem)
        fun _ => ⟨item, List.mem_append_right _ (List.mem_singleton_self _), rfl, number⟩
      rcases List.mem_append.mp mem with old | new
      · exact before false other old
      · obtain rfl := List.mem_singleton.mp new
        obtain ⟨later, found', payload', -⟩ := deliver_found other.message false found
        refine ⟨⟨later, found', payload'.trans payload, ?_⟩, final⟩
        obtain ⟨again, old, -, -, counted⟩ := of_deliver found'
        obtain rfl := Option.some.inj (found.symm.trans old)
        rw [if_pos rfl] at counted
        exact Nat.le_of_eq (number.trans counted.1.symm)

theorem Consistent.moves (consistent : s.Consistent maxDeliver publishes)
    (moves : s.Moves maxDeliver publishes s') : s'.Consistent maxDeliver publishes := by
  cases moves with
  | delivered n message found stays left arrives => exact consistent.arrives found left arrives
  | published payload known =>
      have later : s.Later { s with messages := s.messages ++ [⟨payload, 0, none, false⟩] } := by
        intro n message found
        refine ⟨message, ?_, rfl, Nat.le_refl _⟩
        rw [List.getElem?_append_left (List.getElem?_eq_some_iff.mp found).1]
        exact found
      -- A message afterwards is an old one, or the new one, which has not been delivered.
      have either : ∀ (n : Nat) message,
          (s.messages ++ [⟨payload, 0, none, false⟩])[n]? = some message →
          s.messages[n]? = some message ∨ message = ⟨payload, 0, none, false⟩ := by
        intro n message found
        rcases Nat.lt_or_ge n s.messages.length with old | new
        · rw [List.getElem?_append_left old] at found
          exact .inl found
        · rw [List.getElem?_append_right new] at found
          exact .inr (List.mem_singleton.mp (List.mem_of_getElem? found))
      refine ⟨fun n message found => ?_, fun n message command found same => ?_,
        fun item mem => (consistent.handed item mem).later later,
        fun n message found missed delivered => ?_⟩
      all_goals rcases either n message found with old | rfl
      · exact consistent.bounded n message old
      · exact Nat.zero_le _
      · exact consistent.published n message command old same
      · exact known command same
      · exact consistent.last n message old missed delivered
      · exact absurd delivered (Nat.lt_irrefl 0)

theorem Consistent.settles (consistent : s.Consistent maxDeliver publishes) {n : Nat}
    {kind : AckKind} (settles : s.Settles n kind s') : s'.Consistent maxDeliver publishes := by
  cases settles with
  | closed final => exact consistent.close n .settled
  | stays => exact consistent

theorem consistent_empty : Consistent maxDeliver publishes .empty := by
  refine ⟨?_, ?_, ?_, ?_⟩
  · exact fun _ _ found => nomatch found
  · exact fun _ _ _ found => nomatch found
  · exact fun _ mem => nomatch mem
  · exact fun _ _ found => nomatch found

end WorkStream

/-! ## The run -/

section Run

variable {site : Site} {maxDeliver : Nat} {c : WorkRun}

/-- A handler has told the stream it is done with a message. -/
def ToldDone (c : WorkRun) (n : Nat) : Prop :=
  ∃ t ∈ c.tasks, ∃ kind answer, kind ≠ .nak ∧
    (⟨(n, kind), answer⟩ : Call SettlePort) ∈ secondOf t.trace

/-- The stream and the handlers, in every run. -/
structure WorkKept (site : Site) (maxDeliver : Nat) (c : WorkRun) : Prop where
  stream : c.shared.2.Consistent maxDeliver site.publishes
  inputs : ∀ t ∈ c.tasks, t.input ∈ c.shared.2.handed
  settled : ∀ (n : Nat) message, c.shared.2.messages[n]? = some message →
    message.closed = some .settled → ToldDone c n

theorem ToldDone.step {c' : WorkRun} {l : Label (Signature.beside Ports SettlePort) WorkItem}
    {n : Nat} (told : ToldDone c n) (step : (worker site maxDeliver).system.Step c l c') :
    ToldDone c' n := by
  obtain ⟨t, mem, kind, answer, final, call⟩ := told
  obtain ⟨t', mem', -, added, longer⟩ := step.task_extends mem
  refine ⟨t', mem', kind, answer, final, ?_⟩
  rw [← longer, secondOf, List.filterMap_append]
  exact List.mem_append_left _ call

/-- A move of the stream takes nothing back that was handed out, and no message out as settled. -/
theorem WorkStream.Moves.keeps {publishes : UploadCompleted → Prop} {s s' : WorkStream}
    (moves : s.Moves maxDeliver publishes s') : (∀ item ∈ s.handed, item ∈ s'.handed) ∧
      ∀ (n : Nat) message, s'.messages[n]? = some message → message.closed = some .settled →
        ∃ before, s.messages[n]? = some before ∧ before.closed = some .settled := by
  have counted : ∀ (m : Nat) (missed : Bool) (n : Nat) message,
      (s.deliver m missed).messages[n]? = some message → message.closed = some .settled →
      ∃ before, s.messages[n]? = some before ∧ before.closed = some .settled := by
    intro m missed n message found closed
    obtain ⟨before, old, -, same, -⟩ := WorkStream.of_deliver found
    exact ⟨before, old, same ▸ closed⟩
  cases moves with
  | published payload known =>
      refine ⟨fun _ mem => mem, fun n message found closed => ?_⟩
      rcases Nat.lt_or_ge n s.messages.length with old | new
      · rw [List.getElem?_append_left old] at found
        exact ⟨message, found, closed⟩
      · rw [List.getElem?_append_right new] at found
        obtain rfl := List.mem_singleton.mp (List.mem_of_getElem? found)
        cases closed
  | delivered m message found stays left arrives =>
      cases arrives with
      | handed received => exact ⟨fun _ mem => List.mem_append_left _ mem, counted m false⟩
      | mislaid => exact ⟨fun _ mem => mem, counted m true⟩
      | terminated received =>
          refine ⟨fun _ mem => mem, fun n message found closed => ?_⟩
          obtain ⟨between, found', -, -, -, same⟩ := of_close found
          refine counted m true n between found' ?_
          by_cases here : m = n
          · rw [if_pos here, closed] at same
            cases earlier : between.closed with
            | none =>
                rw [earlier] at same
                cases same
            | some cause =>
                rw [earlier] at same
                exact same.symm
          · rw [if_neg here] at same
            exact same ▸ closed

theorem workKept_of_reaches
    (reached : (worker site maxDeliver).system.Reaches System.anyStep ⟨(.empty, .empty), []⟩ c) :
    WorkKept site maxDeliver c := by
  refine reached.invariant (J := WorkKept site maxDeliver) ?_ fun c l c' _ kept step _ => ?_
  · exact ⟨WorkStream.consistent_empty, fun _ mem => (nomatch mem), fun _ _ found => nomatch found⟩
  have told := fun n (done : ToldDone c n) => done.step step
  cases step with
  | @spawn item admitted =>
      refine ⟨kept.stream, fun t mem => ?_, fun n message found closed =>
        told n (kept.settled n message found closed)⟩
      rcases List.mem_append.mp mem with old | new
      · exact kept.inputs t old
      · obtain rfl := List.mem_singleton.mp new
        exact admitted
  | @call n t op next answer s' found stands served =>
      have inputs : ∀ u ∈ c.tasks.set n (t.answered op answer next),
          u.input ∈ c.shared.2.handed := by
        intro u mem
        rcases System.mem_set_answered mem with old | rfl
        · exact kept.inputs u old
        · exact kept.inputs t (System.mem_of_found found)
      cases op with
      | inl op =>
          obtain ⟨-, same⟩ := served
          refine ⟨same ▸ kept.stream, same ▸ inputs, fun m message found' closed => ?_⟩
          exact told m (kept.settled m message (same ▸ found') closed)
      | inr op =>
          obtain ⟨m, kind⟩ := op
          obtain ⟨w', stream'⟩ := s'
          have settles : c.shared.2.Settles m kind stream' := served.2
          refine ⟨kept.stream.settles settles, ?_, fun k message found' closed => ?_⟩
          · cases settles <;> exact inputs
          · cases settles with
            | stays => exact told k (kept.settled k message found' closed)
            | closed final =>
                by_cases here : m = k
                · subst here
                  have bound := (List.getElem?_eq_some_iff.mp found).1
                  refine ⟨_, List.mem_set bound _, kind, answer, final, ?_⟩
                  rw [Task.answered_trace, secondOf_inr]
                  exact List.mem_append_right _ (List.mem_singleton_self _)
                · obtain ⟨before, old, -, -, -, same⟩ := WorkStream.of_close found'
                  rw [if_neg here] at same
                  exact told k (kept.settled k before old (same ▸ closed))
  | @environment s' acted =>
      rcases acted with ⟨-, same⟩ | ⟨-, moves⟩
      · refine ⟨same ▸ kept.stream, same ▸ kept.inputs, fun n message found closed => ?_⟩
        exact told n (kept.settled n message (same ▸ found) closed)
      · obtain ⟨handed, settled⟩ := moves.keeps
        refine ⟨kept.stream.moves moves, fun t mem => handed _ (kept.inputs t mem),
          fun n message found closed => ?_⟩
        obtain ⟨before, old, closed'⟩ := settled n message found closed
        exact told n (kept.settled n before old closed')

/-! ## Answers -/

/-- What an answered upload has to show for it. -/
def Shows (log : EventStoreState) (command : UploadCompleted) (trace : Trace Ports) :
    FinishOutcome → Prop
  | .accepted _ _ _ => Named log command
  | .rejected reason =>
      UploadFinisher.Replayed command reason trace ∨ UploadFinisher.Reclaimed command reason trace
  | .retry _ => False

/-- Some delivery of the message ended with an answer. -/
def Answered (site : Site) (c : WorkRun) (n : Nat) (command : UploadCompleted) : Prop :=
  ∃ t ∈ c.tasks, t.input.message = n ∧ t.input.command = command ∧ ∃ outcome,
    (finish site.digest command t.input.isFinalDelivery).Resumes (firstOf t.trace) (.ret outcome) ∧
    Shows c.shared.1.log command (firstOf t.trace) outcome

/-- A handler tells the stream about its own message, and asks for it again only on a retry. -/
theorem told_of_settle {item : WorkItem} {outcome : FinishOutcome} {trace : Trace SettlePort}
    {q : Program SettlePort Unit} (since : (settleOutcome item outcome).Resumes trace q)
    {n : Nat} {kind : AckKind} {answer : Except String Unit}
    (mem : (⟨(n, kind), answer⟩ : Call SettlePort) ∈ trace) :
    n = item.message ∧ (kind = .nak ↔ ∃ error, outcome = .retry error) := by
  have along : Along (fun _ _ _ => True)
      (fun _ (op : SettlePort.Op) => op.1 = item.message ∧
        (op.2 = .nak ↔ ∃ error, outcome = .retry error))
      (fun _ _ => True) [] (settleOutcome item outcome) := by
    cases outcome with
    | accepted documentId version superseded => exact ⟨⟨rfl, by simp⟩, fun _ _ => trivial⟩
    | retry error => exact ⟨⟨rfl, by simp⟩, fun _ _ => trivial⟩
    | rejected reason =>
        unfold settleOutcome
        dsimp only
        split
        · exact ⟨⟨rfl, by simp⟩, fun _ _ => trivial⟩
        · exact ⟨⟨rfl, by simp⟩, fun _ _ => trivial⟩
  obtain ⟨-, -, issued⟩ := along.issued since (fun _ _ _ _ _ => trivial) mem
  exact issued

/-- A handler whose `finish` has returned anything but a retry has answered. -/
theorem shows_of_returned {c₁ : DeliveryRun} {inside : Task Ports Delivery FinishOutcome}
    (reached : site.system.Reaches System.anyStep ⟨.empty, []⟩ c₁) (mem : inside ∈ c₁.tasks)
    {outcome : FinishOutcome} (done : inside.rest = .ret outcome)
    (settled : ∀ error, outcome ≠ .retry error) :
    Shows c₁.shared.log inside.input.command inside.trace outcome := by
  have holds := Site.holds reached
  have knows := holds.tasks inside mem
  cases outcome with
  | accepted documentId version superseded =>
      have returns := knows.returns UploadFinisher.along_finish done
      exact Site.named_of_reports holds.inv knows.input knows.facts returns.2
  | rejected reason =>
      have ran := knows.resumes
      rw [done] at ran
      exact (UploadFinisher.agrees_finish.returned ran).1
  | retry error => exact absurd rfl (settled error)

/-- What is known of a handler, with the run of its `finish`. -/
theorem exists_inside
    (reached : (worker site maxDeliver).system.Reaches System.anyStep ⟨(.empty, .empty), []⟩ c) :
    ∃ c₁, site.system.Reaches System.anyStep ⟨.empty, []⟩ c₁ ∧
      Wrapping.Inside (worker site maxDeliver) c c₁ := by
  refine Wrapping.inner_run (fun c earlier item handed => ?_) reached
  have kept := workKept_of_reaches earlier
  obtain ⟨message, found, payload, -⟩ := (kept.stream.handed item handed).message
  exact kept.stream.published _ message item.command found payload

section Handlers

variable {c₁ : DeliveryRun} {t : Task (Signature.beside Ports SettlePort) WorkItem Unit}
  {inside : Task Ports Delivery FinishOutcome} {outcome : FinishOutcome}

/-- What is known of the run of a handler's `finish`. -/
theorem ran_of_wraps (reached₁ : site.system.Reaches System.anyStep ⟨.empty, []⟩ c₁)
    (mem₁ : inside ∈ c₁.tasks) (wraps : (worker site maxDeliver).Wraps t inside)
    (done : inside.rest = .ret outcome) :
    (finish site.digest t.input.command t.input.isFinalDelivery).Resumes (firstOf t.trace)
      (.ret outcome) := by
  have ran := ((Site.holds reached₁).tasks inside mem₁).resumes
  rw [done, wraps.trace, wraps.input] at ran
  exact ran

/-- The last delivery is not retried. -/
theorem answers_of_final (reached₁ : site.system.Reaches System.anyStep ⟨.empty, []⟩ c₁)
    (mem₁ : inside ∈ c₁.tasks) (wraps : (worker site maxDeliver).Wraps t inside)
    (done : inside.rest = .ret outcome) (final : t.input.isFinalDelivery = true) :
    ∀ error, outcome ≠ .retry error := by
  intro error same
  have ran := ran_of_wraps reached₁ mem₁ wraps done
  have early := (UploadFinisher.agrees_finish.returned ran).2 error same
  rw [final] at early
  cases early

theorem answered_of_outcome (reached₁ : site.system.Reaches System.anyStep ⟨.empty, []⟩ c₁)
    (within : Wrapping.Inside (worker site maxDeliver) c c₁) (mem : t ∈ c.tasks)
    (mem₁ : inside ∈ c₁.tasks) (wraps : (worker site maxDeliver).Wraps t inside)
    (done : inside.rest = .ret outcome) (settled : ∀ error, outcome ≠ .retry error) :
    Answered site c t.input.message t.input.command := by
  have shows_ := shows_of_returned reached₁ mem₁ done settled
  rw [wraps.trace, within.shared, wraps.input] at shows_
  exact ⟨t, mem, rfl, rfl, outcome, ran_of_wraps reached₁ mem₁ wraps done, shows_⟩

end Handlers

/-- Whatever is delivered, lost, or stops half-way: a message that a handler has settled is
answered; a message is delivered at most `maxDeliver` times, and only a delivery before the last
asks for another; and when the handler of its last delivery ends, a message is answered. -/
theorem work_of_run
    (reached : (worker site maxDeliver).system.Reaches System.anyStep ⟨(.empty, .empty), []⟩ c) :
    (∀ (n : Nat) message, c.shared.2.messages[n]? = some message →
      message.delivered ≤ maxDeliver ∧
      (message.closed = some .settled → ∃ command, message.payload = some command ∧
        Answered site c n command) ∧
      (message.delivered = maxDeliver → 0 < maxDeliver → message.missed = false →
        ∃ item ∈ c.shared.2.handed, item.message = n ∧ item.isFinalDelivery = true)) ∧
    ∀ t ∈ c.tasks,
      (∀ answer, (⟨(t.input.message, .nak), answer⟩ : Call SettlePort) ∈ secondOf t.trace →
        t.input.numDelivered < maxDeliver) ∧
      (t.rest = .ret () → t.input.isFinalDelivery = true →
        Answered site c t.input.message t.input.command) := by
  have kept := workKept_of_reaches reached
  obtain ⟨c₁, reached₁, within⟩ := exists_inside reached
  refine ⟨fun n message found => ⟨kept.stream.bounded n message found, fun closed => ?_,
    fun delivered some_ reaches => ?_⟩, fun t mem => ?_⟩
  · obtain ⟨t, mem, kind, answer, final, call⟩ := kept.settled n message found closed
    obtain ⟨inside, mem₁, wraps⟩ := within.of_mem mem
    obtain ⟨outcome, q, done, since⟩ := wraps.settles (List.ne_nil_of_mem call)
    obtain ⟨rfl, retries⟩ := told_of_settle since call
    obtain ⟨message', found', payload, -⟩ := (kept.stream.handed _ (kept.inputs t mem)).message
    obtain rfl := Option.some.inj (found.symm.trans found')
    exact ⟨t.input.command, payload, answered_of_outcome reached₁ within mem mem₁ wraps done
      fun error same => final (retries.mpr ⟨error, same⟩)⟩
  · obtain ⟨item, mem, own, number⟩ := kept.stream.last n message found reaches (delivered ▸ some_)
    refine ⟨item, mem, own, ?_⟩
    rw [(kept.stream.handed item mem).final, number, delivered]
    exact decide_eq_true (Nat.le_refl _)
  · obtain ⟨inside, mem₁, wraps⟩ := within.of_mem mem
    refine ⟨fun answer nak => ?_, fun done final => ?_⟩
    · obtain ⟨outcome, q, done, since⟩ := wraps.settles (List.ne_nil_of_mem nak)
      obtain ⟨error, retry⟩ := (told_of_settle since nak).2.mp rfl
      have early : t.input.isFinalDelivery ≠ true := fun final =>
        answers_of_final reached₁ mem₁ wraps done final error retry
      rw [(kept.stream.handed _ (kept.inputs t mem)).final] at early
      exact Nat.lt_of_not_le fun le => early (decide_eq_true le)
    · obtain ⟨outcome, ended, -⟩ := wraps.ended done
      exact answered_of_outcome reached₁ within mem mem₁ wraps ended
        (answers_of_final reached₁ mem₁ wraps ended final)

end Run

/-! ## A delivery nobody finishes -/

namespace Sample

/-- Every settlement gets through. -/
def settle (op : Nat × AckKind) (s : WorkStream) : WorkStream :=
  if op.2 = .nak then s else s.close op.1 .settled

def working : (worker site 2).system.Reply :=
  Wrapping.replying (W := worker site 2) (truthfully 4 "3a6eb079") (fun _ _ => .ok ()) settle <| by
    intro op s
    unfold settle
    split
    · exact .stays
    · exact .closed ‹_›

def item (numDelivered : Nat) : WorkItem := ⟨0, create, numDelivered, decide (2 ≤ numDelivered)⟩

/-- The message, after both its deliveries. -/
def stream : WorkStream := ⟨[⟨some create, 2, none, false⟩], [item 1, item 2]⟩

/-- The first handler stops at once; the second has the last delivery. -/
def handling : WorkRun :=
  (List.replicate 20 1).foldl working.reply
    ⟨(⟨.empty, records⟩, stream), [item 1, item 2].map (worker site 2).system.started⟩

theorem work_of_run_handled :
    ∃ message, handling.shared.2.messages[0]? = some message ∧
      message.closed = some .settled ∧ message.delivered ≤ 2 ∧
      ∃ command, message.payload = some command ∧ Answered site handling 0 command := by
  have empty : (worker site 2).system.Reaches System.anyStep ⟨(.empty, .empty), []⟩
      ⟨(.empty, .empty), []⟩ := .refl _
  have recorded := (empty.disturbed (⟨.empty, KvBucket.put .empty (record create).ownKey
      (record create)⟩, .empty)
    (.inl ⟨World.Disturbed.preflight (record create) rfl rfl, rfl⟩) trivial).disturbed
      (⟨.empty, records⟩, .empty)
      (.inl ⟨World.Disturbed.preflight (record replace) rfl rfl, rfl⟩) trivial
  have published := recorded.disturbed (⟨.empty, records⟩, ⟨[⟨some create, 0, none, false⟩], []⟩)
    (.inr ⟨rfl, .published (some create) fun _ same => .inl (Option.some.inj same).symm⟩) trivial
  have first := published.disturbed
    (⟨.empty, records⟩, ⟨[⟨some create, 1, none, false⟩], [item 1]⟩)
    (.inr ⟨rfl, .delivered 0 _ rfl rfl (by decide) (.handed rfl)⟩) trivial
  have second := first.disturbed (⟨.empty, records⟩, stream)
    (.inr ⟨rfl, .delivered 0 _ rfl rfl (by decide) (.handed rfl)⟩) trivial
  have handed : item 1 ∈ stream.handed ∧ item 2 ∈ stream.handed := by simp [stream]
  have started := (second.spawned (item 1) handed.1 trivial).spawned (item 2) handed.2 trivial
  have reached : (worker site 2).system.Reaches System.anyStep ⟨(.empty, .empty), []⟩ handling :=
    started.replies working _
  have closed : (handling.shared.2.messages[0]?).map (fun message => message.closed) =
      some (some .settled) := by decide +kernel
  obtain ⟨message, found, settled⟩ := Option.map_eq_some_iff.mp closed
  obtain ⟨bounded, answered, -⟩ := (work_of_run reached).1 0 message found
  exact ⟨message, found, settled, bounded, answered settled⟩

end Sample

end Delphi.Document
