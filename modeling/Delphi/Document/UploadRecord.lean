/-
# Delphi.Document.UploadRecord -- the life of an upload record

Any number of `set_status` calls, by the API and by workers, interleaved at the
granularity of single bucket calls, over a bucket in which records are created,
expire and are purged at any time, and in which any call may fail and any
acknowledgement may be lost.

Everything said of a record is read off one relation: what a single step can do
to the bucket (`Moves`).  A step writes a record only over the one it read, under
another status, and only if that one was not terminal; the compare-and-swap is
what carries "read" to "still there" (`KvBucket.InHand`).
-/
import Delphi.Theory.Pool
import Delphi.Document.Transition

namespace Delphi.Document

open Delphi.Theory
open Transition (setStatus Answered KvExtends)

set_option autoImplicit false

abbrev UploadBucket := KvBucket UploadState

namespace UploadBucket

/-- What the bucket may answer to a compare-and-swap and what it then holds. -/
inductive Swaps (b : UploadBucket) (key : String) (state : UploadState) (revision : Nat) :
    Except UpdateError Nat → UploadBucket → Prop where
  | swapped {b' : UploadBucket} (updated : b.update key state revision = some b') :
      Swaps b key state revision (.ok b'.lastRevision) b'
  | unacknowledged {b' : UploadBucket} (updated : b.update key state revision = some b')
      (message : String) : Swaps b key state revision (.error (.other message)) b'
  | refused (error : UpdateError) : Swaps b key state revision (.error error) b

/-- The effect of a swap: nothing, or the record written. -/
theorem Swaps.effect {b b' : UploadBucket} {key : String} {state : UploadState} {revision : Nat}
    {answer : Except UpdateError Nat} (swaps : Swaps b key state revision answer b') :
    b' = b ∨ b' = b.put key state := by
  cases swaps with
  | swapped updated => exact .inr (KvBucket.update_eq_some updated).2
  | unacknowledged updated message => exact .inr (KvBucket.update_eq_some updated).2
  | refused error => exact .inl rfl

/-- What the bucket may answer to a call; the other ports leave it alone. -/
def serves (b : UploadBucket) : (op : PortCall) → op.Ans → UploadBucket → Prop
  | .kvEntry key, answer, b' => b' = b ∧ (answer = .ok (b.entries key) ∨ ∃ error, answer = .error error)
  | .kvUpdate key state revision, answer, b' => Swaps b key state revision answer b'
  | _, _, b' => b' = b

/-- Only a swap changes the bucket. -/
theorem serves_same {b b' : UploadBucket} {op : PortCall} {answer : op.Ans}
    (served : serves b op answer b') (other : ∀ key state revision, op ≠ .kvUpdate key state revision) :
    b' = b := by
  cases op with
  | kvEntry key => exact served.1
  | kvUpdate key state revision => exact absurd rfl (other key state revision)
  | _ => exact served

/-- The bucket without faults. -/
def answer (b : UploadBucket) : (op : PortCall) → op.Ans
  | .kvEntry key => .ok (b.entries key)
  | .kvUpdate key state revision =>
      match b.update key state revision with
      | some b' => .ok b'.lastRevision
      | none => .error .wrongLastRevision
  | op => op.outage "not a bucket call"

def after (b : UploadBucket) : PortCall → UploadBucket
  | .kvUpdate key state revision => (b.update key state revision).getD b
  | _ => b

theorem serves_answer (b : UploadBucket) (op : PortCall) : serves b op (answer b op) (after b op) := by
  cases op with
  | kvEntry key => exact ⟨rfl, .inl rfl⟩
  | kvUpdate key state revision =>
      simp only [serves, answer, after]
      cases updated : b.update key state revision with
      | some b' => exact .swapped updated
      | none => exact .refused _
  | _ => rfl

/-- What happens to records besides their status moving: preflight creates one
where there is none, and any may expire or be purged. -/
inductive Disturbed (b : UploadBucket) : UploadBucket → Prop where
  | created {b' : UploadBucket} (state : UploadState)
      (absent : b.create state.ownKey state = some b') : Disturbed b b'
  | expired (key : String) : Disturbed b (b.expire key)
  | purged (key : String) : Disturbed b (b.purge key)

/-- Revisions are counted, and a live record is stored under its own key. -/
structure Kept (b : UploadBucket) : Prop where
  counted : b.Counted
  owned : ∀ key state, b.live key = some state → state.ownKey = key

/-- What a read of a record leaves in hand. -/
def inHand (b : UploadBucket) : (op : PortCall) → op.Ans → Prop
  | .kvEntry key, .ok (some (.put state revision)) =>
      b.InHand key state revision ∧ state.ownKey = key
  | _, _ => True

/-- What one call can do to the bucket: nothing, or replace the status of a live
record that is not terminal. -/
inductive Moves (b : UploadBucket) : UploadBucket → Prop where
  | same : Moves b b
  | status {old : UploadState} (status : UploadStatus) (now : Timestamp)
      (found : b.live old.ownKey = some old) (open_ : old.status.isTerminal = false) :
      Moves b (b.put old.ownKey (old.withStatus status now))

/-- A swap is issued right after the read of the record it moves. -/
def Issues (trace : Trace Ports) : PortCall → Prop
  | .kvUpdate key state revision => ∃ before readKey old status now,
      trace = before ++ [⟨.kvEntry readKey, .ok (some (.put old revision))⟩] ∧
      old.status.isTerminal = false ∧ key = old.ownKey ∧ state = old.withStatus status now
  | _ => True

variable {b b' : UploadBucket}

theorem Moves.follows (moves : Moves b b') : b.Follows b' := by
  cases moves with
  | same => exact .same
  | status status now found open_ => exact .put _ _

theorem Disturbed.follows (disturbed : Disturbed b b') : b.Follows b' := by
  cases disturbed with
  | created state absent =>
      obtain ⟨-, rfl⟩ := KvBucket.create_eq_some absent
      exact .put _ _
  | expired key => exact .expire key
  | purged key => exact .purge key

theorem live_of_expired {gone key : String} {held : UploadState}
    (live : (b.expire gone).live key = some held) : b.live key = some held := by
  by_cases same : key = gone
  · subst same
    simp [KvBucket.live] at live
  · rwa [KvBucket.live, KvBucket.expire_entries_of_ne b same] at live

theorem live_of_purged {gone key : String} {held : UploadState}
    (live : (b.purge gone).live key = some held) : b.live key = some held := by
  by_cases same : key = gone
  · subst same
    simp [KvBucket.live] at live
  · rwa [KvBucket.live, KvBucket.purge_entries_of_ne b same] at live

theorem Kept.put (kept : Kept b) (state : UploadState) : Kept (b.put state.ownKey state) := by
  refine ⟨kept.counted.follows (.put _ _), fun key held live => ?_⟩
  by_cases same : key = state.ownKey
  · subst same
    rw [KvBucket.live_put_self] at live
    cases live
    rfl
  · rw [KvBucket.live_put_of_ne b state same] at live
    exact kept.owned key held live

theorem Kept.moves (kept : Kept b) (moves : Moves b b') : Kept b' := by
  cases moves with
  | same => exact kept
  | @status old status now found open_ => exact kept.put (old.withStatus status now)

theorem Kept.disturbed (kept : Kept b) (disturbed : Disturbed b b') : Kept b' := by
  have counted := kept.counted.follows disturbed.follows
  cases disturbed with
  | created state absent =>
      obtain ⟨-, rfl⟩ := KvBucket.create_eq_some absent
      exact kept.put state
  | expired gone => exact ⟨counted, fun key held live => kept.owned key held (live_of_expired live)⟩
  | purged gone => exact ⟨counted, fun key held live => kept.owned key held (live_of_purged live)⟩

theorem inHand_follows (follows : b.Follows b') (op : PortCall) (answer : op.Ans)
    (known : inHand b op answer) : inHand b' op answer := by
  cases op with
  | kvEntry key =>
      match answer, known with
      | .ok (some (.put state revision)), ⟨inHand, owned⟩ => exact ⟨inHand.follows follows, owned⟩
      | .ok (some (.marker revision)), _ => trivial
      | .ok none, _ => trivial
      | .error error, _ => trivial
  | _ => trivial

/-- The step lemma: a swap issued after its read, at a bucket where that read is
in hand, moves a live record that is not terminal or does nothing. -/
theorem moves_of_swap {trace : Trace Ports} {key : String} {state : UploadState} {revision : Nat}
    {answer : Except UpdateError Nat}
    (facts : Facts (fun _ op answer => inHand b op answer) trace)
    (issued : Issues trace (.kvUpdate key state revision))
    (swaps : Swaps b key state revision answer b') :
    Moves b b' ∧ (∀ next, answer = .ok next → b' = b.put key state) := by
  obtain ⟨before, readKey, old, status, now, rfl, open_, rfl, rfl⟩ := issued
  have known : inHand b (.kvEntry readKey) (.ok (some (.put old revision))) := (facts_snoc.mp facts).2
  obtain ⟨held, rfl⟩ := known
  have applied : ∀ {after}, b.update old.ownKey (old.withStatus status now) revision = some after →
      after = b.put old.ownKey (old.withStatus status now) ∧ Moves b after := by
    intro after updated
    obtain ⟨still, rfl⟩ := held.of_update updated
    exact ⟨rfl, .status status now (KvBucket.live_eq_some.mpr ⟨_, still⟩) open_⟩
  cases swaps with
  | swapped updated =>
      obtain ⟨rfl, moves⟩ := applied updated
      exact ⟨moves, fun _ _ => rfl⟩
  | unacknowledged updated message =>
      exact ⟨(applied updated).2, by rintro _ ⟨⟩⟩
  | refused error => exact ⟨.same, by rintro _ ⟨⟩⟩

/-- What a served call does to the bucket, and what it leaves in hand. -/
theorem moves_of_served {trace : Trace Ports} {op : PortCall} {answer : op.Ans} (kept : Kept b)
    (facts : Facts (fun _ op answer => inHand b op answer) trace) (issued : Issues trace op)
    (served : serves b op answer b') : Moves b b' ∧ inHand b' op answer := by
  cases op with
  | kvUpdate key state revision => exact ⟨(moves_of_swap facts issued served).1, trivial⟩
  | kvEntry key =>
      obtain ⟨rfl, answered⟩ := served
      refine ⟨.same, ?_⟩
      match answer, answered with
      | .ok (some (.put state revision)), answered =>
          have held : b'.entries key = some (.put state revision) :=
            eq_of_answered answered
          exact ⟨kept.counted.inHand held, kept.owned key state (KvBucket.live_eq_some.mpr ⟨_, held⟩)⟩
      | .ok (some (.marker revision)), _ => trivial
      | .ok none, _ => trivial
      | .error error, _ => trivial
  | _ => exact ⟨(served : b' = b) ▸ .same, trivial⟩

/-- What a call leaves of a live record: the same upload, and the very same
record if it was terminal. A record that is not there stays so. -/
theorem Moves.live (moves : Moves b b') (key : String) :
    (∀ first, b.live key = some first → ∃ last, b'.live key = some last ∧
      first.SameUpload last ∧ (first.status.isTerminal = true → last = first)) ∧
    (b.live key = none → b'.live key = none) := by
  cases moves with
  | same => exact ⟨fun first live => ⟨first, live, .refl first, fun _ => rfl⟩, id⟩
  | @status old status now found open_ =>
      by_cases same : key = old.ownKey
      · subst same
        constructor
        · intro first live
          obtain rfl : old = first := Option.some.inj (found.symm.trans live)
          refine ⟨_, KvBucket.live_put_self b _ _, (UploadState.SameUpload.refl old).withStatus _ _, ?_⟩
          intro terminal
          rw [open_] at terminal
          cases terminal
        · intro absent
          rw [absent] at found
          cases found
      · rw [KvBucket.live_put_of_ne b _ same]
        exact ⟨fun first live => ⟨first, live, .refl first, fun _ => rfl⟩, id⟩

/-- Whatever else happens to a record that stays there, it is left alone. -/
theorem Disturbed.live (disturbed : Disturbed b b') (key : String) {first : UploadState}
    (live : b.live key = some first) : b'.live key = none ∨ b'.live key = some first := by
  cases disturbed with
  | created state absent =>
      obtain ⟨missing, rfl⟩ := KvBucket.create_eq_some absent
      right
      rw [KvBucket.live_put_of_ne b state, live]
      rintro rfl
      rw [missing] at live
      cases live
  | expired gone =>
      cases left : (b.expire gone).live key with
      | none => exact .inl rfl
      | some held => exact .inr (live_of_expired left ▸ live)
  | purged gone =>
      cases left : (b.purge gone).live key with
      | none => exact .inl rfl
      | some held => exact .inr (live_of_purged left ▸ live)

/-! ## A property of every live status -/

/-- Every live record's status satisfies `P` at its key. -/
def Statuses (P : String → UploadStatus → Prop) (b : UploadBucket) : Prop :=
  ∀ key state, b.live key = some state → P key state.status

variable {P P' : String → UploadStatus → Prop}

theorem Statuses.imp (all : Statuses P b) (weaker : ∀ key status, P key status → P' key status) :
    Statuses P' b :=
  fun key state live => weaker key _ (all key state live)

theorem Statuses.put (all : Statuses P b) {key : String} {state : UploadState}
    (written : P key state.status) : Statuses P (b.put key state) := by
  intro other held live
  by_cases same : other = key
  · subst same
    rw [KvBucket.live_put_self] at live
    cases live
    exact written
  · rw [KvBucket.live_put_of_ne _ _ same] at live
    exact all other held live

theorem Statuses.expire (all : Statuses P b) (gone : String) : Statuses P (b.expire gone) :=
  fun key state live => all key state (live_of_expired live)

theorem Statuses.purge (all : Statuses P b) (gone : String) : Statuses P (b.purge gone) :=
  fun key state live => all key state (live_of_purged live)

end UploadBucket

/-! ## Runs of `set_status` -/

/-- One `set_status` call. -/
structure StatusCall where
  tenant : String
  user : String
  uploadId : String
  status : UploadStatus
  now : Timestamp

namespace StatusCall

abbrev Outcome := Except DocumentError Transition.Transition

def key (call : StatusCall) : String := UploadState.key call.tenant call.user call.uploadId

def main (call : StatusCall) : Program Ports Outcome :=
  setStatus call.tenant call.user call.uploadId call.status call.now

/-- Callers of `set_status` over one bucket. -/
def system : System Ports UploadBucket StatusCall Outcome where
  main := main
  admits _ _ := True
  serves _ op b answer b' := UploadBucket.serves b op answer b'
  environment := UploadBucket.Disturbed

def invariants : Invariants Ports UploadBucket StatusCall where
  inv := UploadBucket.Kept
  input _ _ := True
  fact _ b _ op answer := UploadBucket.inHand b op answer

/-- What the callers issue, and the call each answer came from. -/
theorem along_main {A : Trace Ports → (op : PortCall) → op.Ans → Prop} (call : StatusCall) :
    Along A UploadBucket.Issues (fun reached result => ∀ transition, result = .ok transition →
      Answered call.key call.status call.now reached transition) [] call.main := by
  refine Along.imp (Transition.along_setStatus [] ?_ ?_) fun reached result answered => answered.2
  · exact fun reached key _ => trivial
  · intro before old revision _ open_
    exact ⟨before, _, old, call.status, call.now, rfl, open_, rfl, rfl⟩

abbrev Run := Config Ports UploadBucket StatusCall Outcome

theorem holds {c : Run} (reached : system.Reaches System.anyStep ⟨.empty, []⟩ c) :
    invariants.Holds system c := by
  refine Invariants.holds_of_reaches (I := invariants) ?_ (fun _ _ _ _ => trivial) ?_ ?_ reached
  · exact ⟨KvBucket.counted_empty, fun key state live => by simp [KvBucket.live, KvBucket.empty] at live⟩
  · intro c n t op next answer b' holds found stands served _
    have knows := holds.tasks t (System.mem_of_found found)
    obtain ⟨moves, known⟩ := UploadBucket.moves_of_served holds.inv knows.facts
      (knows.issues (along_main t.input) stands) served
    exact ⟨⟨holds.inv.moves moves, fun _ h => h,
      fun _ _ => UploadBucket.inHand_follows moves.follows⟩, known⟩
  · intro c b' holds disturbed _
    exact ⟨holds.inv.disturbed disturbed, fun _ h => h,
      fun _ _ => UploadBucket.inHand_follows disturbed.follows⟩

/-- What a step of a run does to the bucket. -/
theorem moves_of_call {c c' : Run} {n : Nat} {op : PortCall} {answer : op.Ans}
    (reached : system.Reaches System.anyStep ⟨.empty, []⟩ c)
    (step : system.Step c (.call n op answer) c') : UploadBucket.Moves c.shared c'.shared := by
  have known := holds reached
  cases step with
  | call found stands served =>
      have knows := known.tasks _ (System.mem_of_found found)
      exact (UploadBucket.moves_of_served known.inv knows.facts
        (knows.issues (along_main _) stands) served).1

/-- What each answer says of the record right after the call it came from. -/
def Accurate (call : StatusCall) (b : UploadBucket) : Transition.Transition → Prop
  | .applied state => b.live call.key = some state ∧ state.status = call.status
  | .alreadyTerminal state => b.live call.key = some state ∧ state.status.isTerminal = true
  | .expired => b.live call.key = none

/-- A live record along a stretch of a run in which it does not expire. -/
theorem live_of_stretch {c c' : Run} {key : String} {first : UploadState}
    (reached : system.Reaches System.anyStep ⟨.empty, []⟩ c)
    (live : c.shared.live key = some first)
    (stretch : system.Reaches (fun _ _ after => after.shared.live key ≠ none) c c') :
    ∃ last, c'.shared.live key = some last ∧ first.SameUpload last ∧
      (first.status.isTerminal = true → last = first) := by
  let stays (now : Run) : Prop := system.Reaches System.anyStep ⟨.empty, []⟩ now ∧
    ∃ last, now.shared.live key = some last ∧ first.SameUpload last ∧
      (first.status.isTerminal = true → last = first)
  suffices both : stays c' from both.2
  refine stretch.invariant (J := stays) ⟨reached, first, live, .refl first, fun _ => rfl⟩ ?_
  rintro before l after - ⟨earlier, state, held, same, final⟩ step there
  refine ⟨earlier.step step trivial, ?_⟩
  cases step with
  | spawn admitted => exact ⟨state, held, same, final⟩
  | call found stands served =>
      have moves := moves_of_call earlier (.call found stands served)
      obtain ⟨last, held', same', final'⟩ := (moves.live key).1 state held
      refine ⟨last, held', same'.trans same, fun terminal => ?_⟩
      obtain rfl := final terminal
      exact final' terminal
  | environment acted =>
      rcases UploadBucket.Disturbed.live acted key held with gone | held'
      · exact absurd gone there
      · exact ⟨state, held', same, final⟩

/-- An answer that came from a served call describes the record at that moment. -/
theorem accurate_of_served {call : StatusCall} {trace : Trace Ports} {op : PortCall}
    {answer : op.Ans} {b b' : UploadBucket} {transition : Transition.Transition}
    (facts : Facts (fun _ op answer => UploadBucket.inHand b op answer) trace)
    (issued : UploadBucket.Issues trace op) (served : UploadBucket.serves b op answer b')
    (answered : Answered call.key call.status call.now (trace ++ [⟨op, answer⟩]) transition) :
    call.Accurate b' transition := by
  have entry {key : String} {held : Option (KvEntry UploadState)}
      (read : b' = b ∧ ((.ok held : Except EntryError _) = .ok (b.entries key) ∨
        ∃ error, (.ok held : Except EntryError _) = .error error)) : b'.entries key = held := by
    obtain ⟨rfl, same | ⟨error, same⟩⟩ := read
    · exact (Except.ok.inj same).symm
    · cases same
  have absent {key : String} {held : Option (KvEntry UploadState)} (read : b'.entries key = held)
      (gone : ∀ old revision, held ≠ some (.put old revision)) : b'.live key = none := by
    rcases held with _ | (⟨old, revision⟩ | revision)
    · simp [KvBucket.live, read]
    · exact absurd rfl (gone old revision)
    · simp [KvBucket.live, read]
  generalize shape : trace ++ [⟨op, answer⟩] = whole at answered
  cases answered with
  | @applied before old revision next open_ =>
      obtain ⟨rfl, last⟩ := List.append_inj' shape rfl
      cases last
      have known : UploadBucket.inHand b (.kvEntry call.key) (.ok (some (.put old revision))) :=
        (facts_snoc.mp facts).2
      obtain rfl := (UploadBucket.moves_of_swap facts issued served).2 next rfl
      rw [known.2]
      exact ⟨KvBucket.live_put_self b _ _, rfl⟩
  | @alreadyTerminal before old revision terminal =>
      obtain ⟨rfl, last⟩ := List.append_inj' shape rfl
      cases last
      exact ⟨KvBucket.live_eq_some.mpr ⟨revision, entry served⟩, terminal⟩
  | @missing before held gone =>
      obtain ⟨rfl, last⟩ := List.append_inj' shape rfl
      cases last
      exact absent (entry served) gone
  | @lost before old revision held gone =>
      obtain ⟨rfl, last⟩ := List.append_inj' shape rfl
      cases last
      have known : UploadBucket.inHand b (.kvEntry call.key) (.ok (some (.put old revision))) :=
        (facts_snoc.mp (facts_snoc.mp facts).1).2
      have missing := absent (entry served) gone
      rw [known.2] at missing
      exact missing

/-- Where a call returns, its answer describes the record at that moment. -/
theorem accurate_of_returned {c c' : Run} {n : Nat} {op : PortCall} {answer : op.Ans}
    (reached : system.Reaches System.anyStep ⟨.empty, []⟩ c)
    (step : system.Step c (.call n op answer) c') {t : Task Ports StatusCall Outcome}
    {transition : Transition.Transition} (found : c'.tasks[n]? = some t)
    (returned : t.rest = .ret (.ok transition)) : t.input.Accurate c'.shared transition := by
  have known := holds reached
  have after := (holds (reached.step step trivial)).tasks t (System.mem_of_found found)
  have answered := after.returns (along_main t.input) returned transition rfl
  cases step with
  | @call _ before _ next _ b' stood stands served =>
      obtain rfl := System.found_answered stood found
      have knows := known.tasks before (System.mem_of_found stood)
      exact accurate_of_served knows.facts (knows.issues (along_main before.input) stands) served
        answered

/-- In every run: a record that does not expire stays the record of its upload,
and once terminal it does not change at all; no call brings a record back; and
every answer describes the record at the moment of the call it came from. -/
theorem record_stateMachine {c : Run} (reached : system.Reaches System.anyStep ⟨.empty, []⟩ c)
    (key : String) :
    (∀ first c', c.shared.live key = some first →
      system.Reaches (fun _ _ after => after.shared.live key ≠ none) c c' →
      ∃ last, c'.shared.live key = some last ∧ first.SameUpload last ∧
        (first.status.isTerminal = true → last = first)) ∧
    (∀ n op answer c', system.Step c (.call n op answer) c' → c.shared.live key = none →
      c'.shared.live key = none) ∧
    (∀ n op answer c' t transition, system.Step c (.call n op answer) c' →
      c'.tasks[n]? = some t → t.rest = .ret (.ok transition) →
      t.input.Accurate c'.shared transition) := by
  refine ⟨fun first c' live stretch => live_of_stretch reached live stretch, ?_, ?_⟩
  · intro n op answer c' step absent
    exact ((moves_of_call reached step).live key).2 absent
  · intro n op answer c' t transition step found returned
    exact accurate_of_returned reached step found returned

/-- A bucket without faults. -/
def bucket : system.Reply where
  answer op b := UploadBucket.answer b op
  after op b := UploadBucket.after b op
  lawful _ op b := UploadBucket.serves_answer b op

/-- The API and a worker race for one record, and the worker's answer stands. -/
theorem record_stateMachine_of_race :
    ∃ c c' : Run, system.Reaches System.anyStep ⟨.empty, []⟩ c ∧
      system.Reaches (fun _ _ after => after.shared.live "acme/ann/u1" ≠ none) c c' ∧
      c'.shared.lastRevision = 2 ∧ ∃ record : UploadState,
        record.status = .accepted 1 false ∧ c'.shared.live "acme/ann/u1" = some record := by
  let record : UploadState := ⟨"acme", "ann", "u1", "doc", .create, "blobs/u1", "m1", "f.txt",
    "text/plain", 4, 4, 1, .uploading, 0, 0⟩
  let accepted := record.withStatus (.accepted 1 false) 5
  let created : UploadBucket := KvBucket.put .empty record.ownKey record
  let api := system.started ⟨"acme", "ann", "u1", .scanning, 4⟩
  let worker := system.started ⟨"acme", "ann", "u1", .accepted 1 false, 5⟩
  have start : system.Reaches System.anyStep ⟨.empty, []⟩ ⟨created, [api, worker]⟩ :=
    (((System.Reaches.refl _).disturbed created (UploadBucket.Disturbed.created record rfl)
      trivial).spawned api.input trivial trivial).spawned worker.input trivial trivial
  -- Both read the record; the worker swaps first, and the API's swap is lost.
  let won : Run := [0, 1, 1].foldl bucket.reply ⟨created, [api, worker]⟩
  have finished : system.Reaches System.anyStep ⟨.empty, []⟩ won := start.replies bucket [0, 1, 1]
  have lost : system.Reaches (fun _ _ after => after.shared.live "acme/ann/u1" ≠ none) won
      (bucket.reply won 0) :=
    (System.Reaches.refl won).reply bucket 0 fun _ _ _ _ _ => Option.some_ne_none accepted
  obtain ⟨last, live, -, final⟩ := (record_stateMachine finished "acme/ann/u1").1 accepted _ rfl lost
  exact ⟨won, _, finished, lost, rfl, accepted, rfl, by rw [live, final rfl]⟩

end StatusCall

end Delphi.Document
