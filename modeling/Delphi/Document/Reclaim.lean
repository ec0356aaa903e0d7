/-
# Delphi.Document.Reclaim -- when the bytes of an upload are given back

A delivery deletes its object from about ten places, and asks the log first in
two of them.  Deliveries of one command run here beside writers that may append
anything at all to any stream, with every port failing as it likes.

The bytes of a live version are kept in every run in which, from the step on that
puts the upload into the log, the object answers as it was declared and no call of
a final delivery fails, an append that lands included, and in which no other
delivery at work has met the contrary before that step (`Steady`).  Of what the
deliveries then do nothing is asked: that none reclaims is `live_blob_kept`.  None
of it is enforced: `live_blob_deleted` is a final delivery whose append became
durable behind an error.
-/
import Delphi.Document.Deliveries
import Delphi.Document.ReclaimPaths

namespace Delphi.Document

open Delphi.Theory
open UploadFinisher

set_option autoImplicit false

namespace Reclaim

/-- Deliveries of one command beside writers of any events. -/
def system (digest : String → String) (command : UploadCompleted) :
    System Ports World Delivery FinishOutcome :=
  deliveries digest (fun other => other = command) fun _ _ => True

abbrev Worker := Task Ports Delivery FinishOutcome

/-- The environment of an upload that the log names, or comes to name. -/
structure Steady (command : UploadCompleted) (c : DeliveryRun) (l : Label Ports Delivery)
    (c' : DeliveryRun) : Prop where
  /-- The object is the one declared, whichever delivery asks. -/
  intact : ∀ n op answer, l = .call n op answer → Named c'.shared.log command →
    disowns command op answer = false
  /-- No call of a final delivery fails; so an append of it that lands is acknowledged. -/
  unfailing : ∀ n t op answer, l = .call n op answer → c.tasks[n]? = some t →
    t.input.finalDelivery = true → Named c'.shared.log command → fails t.trace op answer = false
  /-- When the upload comes to be named, no other delivery at work has met the contrary. -/
  others : ¬ Named c.shared.log command → Named c'.shared.log command →
    ∀ m t, (∀ op answer, l ≠ .call m op answer) → c.tasks[m]? = some t → t.rest.returned = none →
      Clear command t.input.finalDelivery t.trace

variable {digest : String → String} {command : UploadCompleted}

/-! ## Where deliveries stand -/

/-- Nothing is asked of the state: only where each delivery stands. -/
def standing (command : UploadCompleted) : Invariants Ports World Delivery where
  inv _ := True
  input _ delivery := delivery.command = command
  fact _ _ _ _ _ := True

theorem stands_somewhere {c : DeliveryRun}
    {meets : DeliveryRun → Label Ports Delivery → DeliveryRun → Prop}
    (reached : (system digest command).Reaches meets ⟨.empty, []⟩ c) :
    (standing command).Holds (system digest command) c := by
  refine Invariants.holds_of_reaches (I := standing command) trivial
    (fun _ _ _ admitted => admitted) ?_ ?_ reached
  · intros
    exact ⟨⟨trivial, fun _ h => h, fun _ _ _ _ h => h⟩, trivial⟩
  · intros
    exact ⟨trivial, fun _ h => h, fun _ _ _ _ h => h⟩

theorem issues_of_stands {w : World} {t : Worker} {op : PortCall}
    {next : op.Ans → Program Ports FinishOutcome}
    (knows : (standing command).Knows (system digest command) w t)
    (stands : t.rest = .call op next) : Issues digest command t.trace op := by
  have same : t.input.command = command := knows.input
  rw [← same]
  exact knows.issues along_finish stands

theorem justified_of_stands {w : World} {t : Worker} {op : PortCall}
    {next : op.Ans → Program Ports FinishOutcome}
    (knows : (standing command).Knows (system digest command) w t)
    (stands : t.rest = .call op next) : Justified command t.input.finalDelivery t.trace op := by
  have same : t.input.command = command := knows.input
  rw [← same]
  exact knows.issues along_finish_justified stands

/-! ## The invariant -/

/-- Once the log names the upload, no delivery at work has met an adverse answer. -/
def Unharmed (command : UploadCompleted) (c : DeliveryRun) : Prop :=
  Named c.shared.log command → ∀ t ∈ c.tasks, t.rest.returned = none →
    Clear command t.input.finalDelivery t.trace

/-- A log that names the upload is not read without it. -/
theorem applied_of_read {w w' : World} {trace : Trace Ports} {op : PortCall} {answer : op.Ans}
    (issued : Issues digest command trace op) (served : w.serves op answer w')
    (named : Named w.log command) : unapplied command trace op answer = false := by
  cases op with
  | readStream tenant documentId =>
      obtain ⟨rfl, rfl⟩ := issued
      cases answer with
      | error error => rfl
      | ok history =>
          obtain ⟨⟨-, answered⟩, -⟩ := served
          have read : w.log.streams command.streamKey = history := eq_of_answered answered
          obtain ⟨entry, mem, names⟩ := named
          have found : (findApplied history command.uploadId).isSome = true := by
            rw [findApplied, List.find?_isSome]
            exact ⟨entry, read ▸ mem, by simpa using names⟩
          simp [unapplied, Option.isNone_eq_false_iff.mpr found]
  | _ => rfl

/-- The delivery that was answered: what it met before, and this answer. -/
theorem clear_of_answered {c : DeliveryRun} {n : Nat} {t : Worker} {op : PortCall}
    {answer : op.Ans} {next : op.Ans → Program Ports FinishOutcome} {w' : World}
    (unharmed : Unharmed command c) (found : c.tasks[n]? = some t)
    (stands : t.rest = .call op next)
    (knows : (standing command).Knows (system digest command) c.shared t)
    (served : c.shared.serves op answer w')
    (steady : Steady command c (.call n op answer) ⟨w', c.tasks.set n (t.answered op answer next)⟩)
    (named : Named w'.log command) :
    Clear command t.input.finalDelivery (t.trace ++ [⟨op, answer⟩]) := by
  have working : t.rest.returned = none := by rw [stands]; rfl
  have intact := steady.intact n op answer rfl named
  have unfailing : (t.input.finalDelivery && fails t.trace op answer) = false := by
    cases last : t.input.finalDelivery with
    | false => rfl
    | true => exact steady.unfailing n t op answer rfl found last named
  by_cases before : Named c.shared.log command
  · refine clear_snoc_iff.mpr ⟨unharmed before t (System.mem_of_found found) working, ?_⟩
    rw [adverse, intact, unfailing, applied_of_read (issues_of_stands knows stands) served before]
    rfl
  · -- The log has changed: this call is the append.
    cases op with
    | append event expect =>
        refine clear_snoc_iff.mpr ⟨(justified_of_stands knows stands).appends rfl, ?_⟩
        rw [adverse, intact, unfailing]
        rfl
    | _ => exact absurd (EventStoreState.serves_same served.1 (by simp) ▸ named) before

/-- The step lemma. -/
theorem Unharmed.step {c c' : DeliveryRun} {l : Label Ports Delivery}
    (standing : (standing command).Holds (system digest command) c)
    (unharmed : Unharmed command c) (step : (system digest command).Step c l c')
    (steady : Steady command c l c') : Unharmed command c' := by
  intro named u mem working
  -- A delivery that the step is not a call of.
  have kept : ∀ m, c.tasks[m]? = some u → (∀ op answer, l ≠ .call m op answer) →
      Clear command u.input.finalDelivery u.trace := by
    intro m found other
    by_cases before : Named c.shared.log command
    · exact unharmed before u (System.mem_of_found found) working
    · exact steady.others before named m u other found working
  cases step with
  | spawn admitted =>
      rcases List.mem_append.mp mem with earlier | new
      · obtain ⟨m, found⟩ := List.mem_iff_getElem?.mp earlier
        exact kept m found fun _ _ label => nomatch label
      · rw [List.mem_singleton.mp new]
        exact facts_nil
  | @call n t op next answer w' found stands served =>
      have knows := standing.tasks t (System.mem_of_found found)
      obtain ⟨m, here⟩ := List.mem_iff_getElem?.mp mem
      by_cases same : n = m
      · subst same
        rw [System.found_answered found here]
        exact clear_of_answered unharmed found stands knows served steady named
      · refine kept m ?_ fun op answer label => same (Label.call.inj label).1
        rwa [List.getElem?_set_ne same] at here
  | environment acted =>
      obtain ⟨m, found⟩ := List.mem_iff_getElem?.mp mem
      exact kept m found fun _ _ label => nomatch label

theorem unharmed {c : DeliveryRun}
    (reached : (system digest command).Reaches (Steady command) ⟨.empty, []⟩ c) :
    Unharmed command c := by
  refine reached.invariant (fun _ _ mem => nomatch mem) ?_
  intro before l after earlier unharmed step steady
  exact unharmed.step (stands_somewhere earlier) step steady

/-! ## Live bytes -/

/-- No delivery stands at reclaiming, or at recording a rejection. -/
def NoneReclaims (c : DeliveryRun) : Prop :=
  ∀ (n : Nat) (t : Worker) (op : PortCall) (next : op.Ans → Program Ports FinishOutcome),
    c.tasks[n]? = some t → t.rest = .call op next → op.reclaims = false

theorem Unharmed.noneReclaims {c : DeliveryRun} (unharmed : Unharmed command c)
    (standing : (standing command).Holds (system digest command) c)
    (named : Named c.shared.log command) : NoneReclaims c := by
  intro n t op next found stands
  have mem := System.mem_of_found found
  have clear := unharmed named t mem (by rw [stands]; rfl)
  cases reclaims : op.reclaims with
  | false => rfl
  | true => exact absurd clear ((justified_of_stands (standing.tasks t mem) stands).reclaims reclaims)

/-- A step while no delivery is reclaiming leaves no new rejection. -/
theorem rejected_before {c c' : DeliveryRun} {l : Label Ports Delivery}
    (standing : (standing command).Holds (system digest command) c)
    (noneReclaims : NoneReclaims c) (step : (system digest command).Step c l c') {key : String}
    {state : UploadState} {reason : String} (live : c'.shared.records.live key = some state)
    (rejected : state.status = .rejected reason) :
    ∃ before, c.shared.records.live key = some before ∧ before.status = .rejected reason := by
  have put {b : UploadBucket} {written : UploadState} {other : String}
      (open_ : written.status ≠ .rejected reason) (live : (b.put other written).live key = some state) :
      ∃ before, b.live key = some before ∧ before.status = .rejected reason := by
    by_cases same : key = other
    · subst same
      rw [KvBucket.live_put_self] at live
      cases live
      exact absurd rejected open_
    · rw [KvBucket.live_put_of_ne _ _ same] at live
      exact ⟨state, live, rejected⟩
  cases step with
  | spawn admitted => exact ⟨state, live, rejected⟩
  | @call n t op next answer w' found stands served =>
      have issued := issues_of_stands (standing.tasks t (System.mem_of_found found)) stands
      have none := noneReclaims n t op next found stands
      cases op with
      | kvUpdate _ written revision =>
          obtain ⟨before, old, status, now, trace, -, rfl, rfl, -⟩ := issued
          rcases UploadBucket.Swaps.effect served.2 with same | same
          · exact ⟨state, same ▸ live, rejected⟩
          · refine put ?_ (same ▸ live)
            rintro rejects
            obtain rfl : status = .rejected reason := rejects
            cases none
      | _ => exact ⟨state, UploadBucket.serves_same served.2 (by simp) ▸ live, rejected⟩
  | environment acted =>
      cases acted with
      | forgot key => exact ⟨state, live, rejected⟩
      | written event allowed => exact ⟨state, live, rejected⟩
      | @preflight records created starts absent =>
          obtain ⟨-, rfl⟩ := KvBucket.create_eq_some absent
          exact put (by rw [starts]; simp) live
      | marked now marked open_ => exact put (by simp) live
      | expired gone => exact ⟨state, UploadBucket.live_of_expired live, rejected⟩
      | purged gone => exact ⟨state, UploadBucket.live_of_purged live, rejected⟩

/-- In every run with a steady environment, once the log of the command's document names the
upload, no delivery aborts its multipart or deletes an object, and no record is moved to rejected. -/
theorem live_blob_kept {c : DeliveryRun}
    (reached : (system digest command).Reaches (Steady command) ⟨.empty, []⟩ c)
    (named : Named c.shared.log command) :
    (∀ n op answer c', (system digest command).Step c (.call n op answer) c' →
      op.reclaims = false) ∧
    (∀ n key answer c', ¬ (system digest command).Step c (.call n (.delete key) answer) c') ∧
    (∀ l c' key state reason, (system digest command).Step c l c' →
      c'.shared.records.live key = some state → state.status = .rejected reason →
      ∃ before, c.shared.records.live key = some before ∧ before.status = .rejected reason) := by
  have standing := stands_somewhere reached
  have noneReclaims := (unharmed reached).noneReclaims standing named
  have kept : ∀ n op answer c', (system digest command).Step c (.call n op answer) c' →
      op.reclaims = false := by
    intro n op answer c' step
    cases step with
    | call found stands served => exact noneReclaims n _ op _ found stands
  refine ⟨kept, fun n key answer c' step => ?_, fun l c' key state reason step live rejected =>
    rejected_before standing noneReclaims step live rejected⟩
  cases kept n _ answer c' step

/-! ## A redelivery, and a lost acknowledgement -/

/-- The record of the sample's create, and two of its deliveries, the second one
final. -/
def sampleStart : DeliveryRun :=
  ⟨⟨.empty, KvBucket.put .empty (Sample.record Sample.create).ownKey (Sample.record Sample.create)⟩,
    [(system Sample.digest Sample.create).started ⟨Sample.create, false⟩,
      (system Sample.digest Sample.create).started ⟨Sample.create, true⟩]⟩

theorem reaches_sampleStart {meets : DeliveryRun → Label Ports Delivery → DeliveryRun → Prop}
    (quiet : ∀ c l c', c.shared.log = .empty → c'.shared.log = .empty →
      (∀ n op answer, l ≠ .call n op answer) → meets c l c') :
    (system Sample.digest Sample.create).Reaches meets ⟨.empty, []⟩ sampleStart := by
  have empty : (system Sample.digest Sample.create).Reaches meets ⟨.empty, []⟩ ⟨.empty, []⟩ := .refl _
  exact ((empty.disturbed _ (World.Disturbed.preflight (Sample.record Sample.create) rfl rfl)
    (quiet _ _ _ rfl rfl (by simp))).spawned ⟨Sample.create, false⟩ rfl
    (quiet _ _ _ rfl rfl (by simp))).spawned ⟨Sample.create, true⟩ rfl
    (quiet _ _ _ rfl rfl (by simp))

/-- The answers of a day without faults. -/
def world : (system Sample.digest Sample.create).Reply := truthfully 4 "3a6eb079"

/-- The next answer is not adverse, and an append is met by deliveries that met no adverse answer. -/
def steady (c : DeliveryRun) (n : Nat) : Bool :=
  match c.tasks[n]? with
  | none => true
  | some t =>
      match t.rest.issues with
      | none => true
      | some op =>
          !disowns Sample.create op (world.answer op c.shared) &&
          !fails t.trace op (world.answer op c.shared) &&
          (!op.isAppend || c.tasks.all fun u => u.rest.returned.isSome ||
            decide (Clear Sample.create u.input.finalDelivery u.trace))

theorem steady_sound {c : DeliveryRun} {n : Nat} {t : Worker} {op : PortCall}
    {next : op.Ans → Program Ports FinishOutcome} (found : c.tasks[n]? = some t)
    (stands : t.rest = .call op next) (passed : steady c n = true) :
    Steady Sample.create c (.call n op (world.answer op c.shared)) (world.reply c n) := by
  have issued : t.rest.issues = some op := by rw [stands]; rfl
  simp only [steady, found, issued, Bool.and_eq_true, Bool.not_eq_true', Bool.or_eq_true,
    List.all_eq_true, decide_eq_true_eq] at passed
  obtain ⟨⟨intact, unfailing⟩, others⟩ := passed
  refine ⟨fun m op' answer label _ => ?_, fun m u op' answer label at_m _ _ => ?_,
    fun unnamed named m u _ at_m working => ?_⟩
  · obtain ⟨-, rfl, same⟩ := Label.call.inj label
    rwa [← eq_of_heq same]
  · obtain ⟨rfl, rfl, same⟩ := Label.call.inj label
    obtain rfl : t = u := Option.some.inj (found.symm.trans at_m)
    rwa [← eq_of_heq same]
  · have landed : op.isAppend = true := by
      cases op with
      | append event expect => rfl
      | _ =>
          refine absurd named ?_
          simp only [System.Reply.reply, found, stands]
          exact unnamed
    rcases others with other | clear
    · rw [landed] at other
      cases other
    · rcases clear u (System.mem_of_found at_m) with done | clear
      · rw [working] at done
        cases done
      · exact clear

/-- The create is delivered twice, the second time finally and before the first is done: it is
accepted, and both deliveries say so. -/
theorem live_blob_kept_of_redelivery :
    ∃ c, (system Sample.digest Sample.create).Reaches (Steady Sample.create) ⟨.empty, []⟩ c ∧
      Named c.shared.log Sample.create ∧
      c.tasks.map (fun t => t.rest.returned) =
        [some (.accepted "doc" 1 false), some (.accepted "doc" 1 false)] ∧
      ∀ n key answer c', ¬ (system Sample.digest Sample.create).Step c
        (.call n (.delete key) answer) c' := by
  have start : (system Sample.digest Sample.create).Reaches (Steady Sample.create) ⟨.empty, []⟩
      sampleStart := by
    refine reaches_sampleStart fun c l c' _ empty quiet => ?_
    have unnamed : ¬ Named c'.shared.log Sample.create := by
      rintro ⟨entry, mem, -⟩
      rw [empty] at mem
      cases mem
    exact ⟨fun n op answer label => absurd label (quiet n op answer),
      fun n t op answer label => absurd label (quiet n op answer),
      fun _ named => absurd named unnamed⟩
  let finished : DeliveryRun :=
    (List.replicate 5 1 ++ List.replicate 12 0 ++ List.replicate 12 1).foldl world.reply sampleStart
  have reached : (system Sample.digest Sample.create).Reaches (Steady Sample.create) ⟨.empty, []⟩
      finished :=
    start.checked world (fun _ _ _ _ _ => steady_sound) _ (by decide +kernel)
  have named : Named finished.shared.log Sample.create := by decide +kernel
  exact ⟨finished, reached, named, by decide +kernel, (live_blob_kept reached named).2.1⟩

/-- The key a call deletes. -/
def deletes : PortCall → Option String
  | .delete key => some key
  | _ => none

/-- On its final delivery the create's append becomes durable behind an error.
The delivery rejects the upload: it stands at the delete of bytes the log names,
and then records the rejection. -/
theorem live_blob_deleted :
    ∃ c, (system Sample.digest Sample.create).Reaches System.anyStep ⟨.empty, []⟩ c ∧
      Named c.shared.log Sample.create ∧
      (∃ answer c', (system Sample.digest Sample.create).Step c
        (.call 1 (.delete Sample.create.storageKey) answer) c') ∧
      ∃ c', (system Sample.digest Sample.create).Reaches System.anyStep c c' ∧
        (c.shared.records.live Sample.create.recordKey).map (fun state => state.status) =
          some .uploading ∧
        (c'.shared.records.live Sample.create.recordKey).map (fun state => state.status) =
          some (.rejected RejectReason.pipelineFailed) := by
  let losing : (system Sample.digest Sample.create).Reply := losingAppends 4 "3a6eb079"
  have start : (system Sample.digest Sample.create).Reaches System.anyStep ⟨.empty, []⟩ sampleStart :=
    reaches_sampleStart fun _ _ _ _ _ _ => trivial
  let aborted : DeliveryRun := (List.replicate 10 1).foldl losing.reply sampleStart
  have reached : (system Sample.digest Sample.create).Reaches System.anyStep ⟨.empty, []⟩ aborted :=
    start.replies losing _
  have named : Named aborted.shared.log Sample.create := by decide +kernel
  have stands : (aborted.tasks[1]?.bind fun t => t.rest.issues.bind deletes) =
      some Sample.create.storageKey := by decide +kernel
  have deleting : ∃ answer c', (system Sample.digest Sample.create).Step aborted
      (.call 1 (.delete Sample.create.storageKey) answer) c' := by
    obtain ⟨t, found, at_t⟩ := Option.bind_eq_some_iff.mp stands
    obtain ⟨op, issues, deleted⟩ := Option.bind_eq_some_iff.mp at_t
    obtain ⟨next, standing⟩ := Program.eq_call_of_issues issues
    cases op with
    | delete key =>
        cases deleted
        exact ⟨_, _, .call found standing (world.lawful 1 _ aborted.shared)⟩
    | _ => cases deleted
  exact ⟨aborted, reached, named, deleting, _,
    System.Reaches.replies (.refl aborted) world (List.replicate 4 1), by decide +kernel,
    by decide +kernel⟩

end Reclaim

end Delphi.Document
