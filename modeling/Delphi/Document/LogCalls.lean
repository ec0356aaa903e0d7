/-
# Delphi.Document.LogCalls -- what the log answers, and what an answer tells later

`EventStoreState.serves` is the event store as its callers meet it: each call may
be answered truthfully or fail, and an append may be served in any of the ways
of `Served`.

A log only grows, so most of what an answer says stays true: the entry `last`
reported and the event an append put there are in the stream for good, and a
history that was read stays the beginning of the stream.  `known` collects these
facts; they survive every later step (`known_grows`).
-/
import Delphi.Document.Ports

namespace Delphi.Document

open Delphi.Theory

set_option autoImplicit false

namespace EventStoreState

/-- What the event store may answer to a call and what it then holds; the other
ports leave it alone. -/
def serves (spurious : Prop) (s : EventStoreState) :
    (op : PortCall) → op.Ans → EventStoreState → Prop
  | .append event expect, answer, s' => s.Served spurious event expect answer s'
  | .last tenant documentId, answer, s' =>
      s' = s ∧ (answer = .ok (s.last tenant documentId) ∨ ∃ error, answer = .error error)
  | .readStream tenant documentId, answer, s' =>
      s' = s ∧ (answer = .ok (s.readStream tenant documentId) ∨ ∃ error, answer = .error error)
  | _, _, s' => s' = s

variable {spurious : Prop} {s s' : EventStoreState}

/-- Only an append changes the log. -/
theorem serves_same {op : PortCall} {answer : op.Ans} (served : s.serves spurious op answer s')
    (other : ∀ event expect, op ≠ .append event expect) : s' = s := by
  cases op with
  | append event expect => exact absurd rfl (other event expect)
  | last tenant documentId => exact served.1
  | readStream tenant documentId => exact served.1
  | _ => exact served

theorem serves_grows {op : PortCall} {answer : op.Ans} (served : s.serves spurious op answer s') :
    s.Grows s' := by
  cases op with
  | append event expect => exact Served.grows served
  | last tenant documentId => exact served.1 ▸ Grows.refl s
  | readStream tenant documentId => exact served.1 ▸ Grows.refl s
  | _ => exact (served : s' = s) ▸ Grows.refl s

/-- An append was answered: an event of that id is in the stream, or this one. -/
def Landed (spurious : Prop) (s : EventStoreState) (event : DocumentEvent)
    (appended : Appended) : Prop :=
  (appended.duplicate = true ∧
    (spurious ∨ ∃ entry ∈ s.streams event.streamKey, entry.2.eventId = event.eventId)) ∨
  (appended.duplicate = false ∧ appended.version = event.version ∧
    ∃ seq, (seq, event) ∈ s.streams event.streamKey)

/-- What is known of an answered call from then on. -/
def known (spurious : Prop) (s : EventStoreState) : (op : PortCall) → op.Ans → Prop
  | .append event _, .ok appended => s.Landed spurious event appended
  | .last tenant documentId, .ok (some (version, seq)) =>
      ∃ event, (seq, event) ∈ s.streams (tenant, documentId) ∧ event.version = version
  | .readStream tenant documentId, .ok history => history <+: s.streams (tenant, documentId)
  | _, _ => True

theorem known_grows (grows : s.Grows s') (op : PortCall) (answer : op.Ans)
    (known : s.known spurious op answer) : s'.known spurious op answer := by
  cases op with
  | append event expect =>
      match answer, known with
      | .error error, _ => trivial
      | .ok appended, .inl ⟨duplicate, landed⟩ =>
          exact .inl ⟨duplicate, landed.imp_right fun ⟨entry, mem, same⟩ =>
            ⟨entry, grows.mem mem, same⟩⟩
      | .ok appended, .inr ⟨fresh, version, seq, mem⟩ =>
          exact .inr ⟨fresh, version, seq, grows.mem mem⟩
  | last tenant documentId =>
      match answer, known with
      | .ok (some (version, seq)), ⟨event, mem, same⟩ => exact ⟨event, grows.mem mem, same⟩
      | .ok none, _ => trivial
      | .error error, _ => trivial
  | readStream tenant documentId =>
      match answer, known with
      | .ok history, known => exact known.trans (grows (tenant, documentId))
      | .error error, _ => trivial
  | _ => trivial

theorem landed_of_served {event : DocumentEvent} {expect : Expect} {appended : Appended}
    (consistent : s.Consistent) (served : s.Served spurious event expect (.ok appended) s') :
    s'.Landed spurious event appended := by
  generalize shape : (Except.ok appended : Except EventStoreError Appended) = answer at served
  cases served with
  | answered =>
      rcases s.append_cases event expect with ⟨_, _, seen, same⟩ | same | ⟨-, same⟩
      · rw [same] at shape ⊢
        cases shape
        exact .inl ⟨rfl, .inr (consistent.remembered _ _ _ seen)⟩
      · rw [same] at shape
        cases shape
      · rw [same] at shape ⊢
        cases shape
        exact .inr ⟨rfl, rfl, _, s.push_mem event⟩
  | refused error => cases shape
  | unacknowledged error lost => cases shape
  | deduplicated sequence version allowed =>
      cases shape
      exact .inl ⟨rfl, .inl allowed⟩

theorem known_of_served {op : PortCall} {answer : op.Ans} (consistent : s.Consistent)
    (served : s.serves spurious op answer s') : s'.known spurious op answer := by
  cases op with
  | append event expect =>
      match answer, served with
      | .error error, _ => trivial
      | .ok appended, served => exact landed_of_served consistent served
  | last tenant documentId =>
      obtain ⟨rfl, answered⟩ := served
      match answer, answered with
      | .ok none, _ => trivial
      | .error error, _ => trivial
      | .ok (some (version, seq)), answered =>
          have found : s'.last tenant documentId = some (version, seq) :=
            eq_of_answered answered
          obtain ⟨front, event, shape, version⟩ := last_eq_some found
          exact ⟨event, by rw [shape]; simp, version⟩
  | readStream tenant documentId =>
      obtain ⟨rfl, answered⟩ := served
      match answer, answered with
      | .error error, _ => trivial
      | .ok history, answered =>
          obtain rfl := eq_of_answered answered
          exact List.prefix_rfl
  | _ => trivial

end EventStoreState

end Delphi.Document
