/-
# Delphi.Document.Versions -- the version an upload lands on

An upload sent with `if_match` and the fail policy is checked against one read of
the history, and appended by a helper that reads the head again and knows
nothing of the check.  It lands on the version its author saw exactly when no
version-advancing event landed in between (`fail_policy_honoured`, and
`fail_policy_raced` for a run that slips through).
-/
import Delphi.Document.Deliveries

namespace Delphi.Document

open Delphi.Theory
open UploadFinisher

set_option autoImplicit false

namespace Site

variable {site : Site}

/-! ## The fail policy -/

/-- The command's append is let through only while no version-advancing event
has landed since the delivery read the history. -/
def Unraced (command : UploadCompleted) (c : DeliveryRun) (l : Label Ports Delivery)
    (_ : DeliveryRun) : Prop :=
  ∀ n t event expect answer history, l = .call n (.append event expect) answer →
    c.tasks[n]? = some t → t.input.command = command → c.shared.log.Lets event expect →
    (⟨.readStream command.tenantId command.documentId, .ok history⟩ : Call Ports) ∈ t.trace →
    ∀ entry ∈ c.shared.log.streams command.streamKey, lastSeq history < entry.1 →
      entry.2.advancesVersion = false

/-- The command's event landed on version `v`, and says so. -/
def LandsOn (command : UploadCompleted) (v : Nat) (stream : List Entry) : Prop :=
  ∀ front entry back, stream = front ++ entry :: back → entry.2.Names command.uploadId →
    LastAdvance front v ∧ entry.2.version = v + 1 ∧ supersededFlag entry.2 = false

theorem LandsOn.snoc {command : UploadCompleted} {v : Nat} {stream : List Entry} {added : Entry}
    (lands : LandsOn command v stream)
    (new : added.2.Names command.uploadId →
      LastAdvance stream v ∧ added.2.version = v + 1 ∧ supersededFlag added.2 = false) :
    LandsOn command v (stream ++ [added]) := by
  intro front entry back split names
  rcases List.eq_nil_or_concat back with rfl | ⟨shorter, last, rfl⟩
  · obtain ⟨rfl, same⟩ := List.append_inj' split rfl
    obtain rfl := List.singleton_inj.mp same
    exact new names
  · have longer : stream ++ [added] = (front ++ entry :: shorter) ++ [last] := by
      simpa using split
    obtain ⟨rfl, -⟩ := List.append_inj' longer rfl
    exact lands front entry shorter rfl names

theorem LandsOn.push {command : UploadCompleted} {v : Nat} {log : EventStoreState}
    {event : DocumentEvent} (lands : LandsOn command v (log.streams command.streamKey))
    (new : event.streamKey = command.streamKey → event.Names command.uploadId →
      LastAdvance (log.streams command.streamKey) v ∧ event.version = v + 1 ∧
        supersededFlag event = false) :
    LandsOn command v ((log.push event).streams command.streamKey) := by
  by_cases addressed : command.streamKey = event.streamKey
  · rw [addressed, EventStoreState.push_streams_self, ← addressed]
    exact lands.snoc (new addressed.symm)
  · rw [EventStoreState.push_streams_of_ne _ addressed]
    exact lands

/-- The version the fail policy lets through is the one asked for. -/
theorem version_of_allowed {command : UploadCompleted} {v current : Nat}
    (ifMatch : command.ifMatch = some v) (policy : command.onConflict = .fail)
    (allowed : refusesVersion command current = false) : v = current := by
  simpa [refusesVersion, ifMatch, policy] using allowed

/-- A fold of a history ends at its head version. -/
theorem version_of_folded {history : List Entry} {state : DocumentState}
    (folded : foldHistory history = .ok (some state)) :
    history ≠ [] ∧ state.version = headVersion history := by
  rcases List.eq_nil_or_concat history with rfl | ⟨front, entry, rfl⟩
  · cases folded
  · rw [List.concat_eq_append] at folded ⊢
    exact ⟨by simp, by rw [(foldHistory_snoc folded).1, headVersion_snoc]⟩

/-- An unraced append under the fail policy. -/
theorem lands_of_appends {w : World} {command : UploadCompleted} {trace : Trace Ports}
    {event : DocumentEvent} {expect : Expect} {v : Nat} (sound : site.SoundLog w.log)
    (facts : site.Remembers w trace)
    (appends : Appends site.digest command trace event expect) (mode : command.mode = .replace)
    (ifMatch : command.ifMatch = some v) (policy : command.onConflict = .fail)
    (lets : w.log.Lets event expect)
    (unraced : ∀ history, (⟨.readStream command.tenantId command.documentId, .ok history⟩ :
        Call Ports) ∈ trace →
      ∀ entry ∈ w.log.streams command.streamKey, lastSeq history < entry.1 →
        entry.2.advancesVersion = false) :
    LastAdvance (w.log.streams command.streamKey) v ∧ event.version = v + 1 ∧
      supersededFlag event = false := by
  cases appends with
  | create mode' verified =>
      rw [mode'] at mode
      cases mode
  | @replace before sha256Hex ts version seq history state mode' verified read unapplied folded
      allowed =>
      obtain ⟨some_history, folded_version⟩ := version_of_folded folded
      -- The history read is the beginning of the stream, and the rest is quiet.
      have begins : history <+: w.log.streams command.streamKey :=
        Remembers.known facts (.readStream command.tenantId command.documentId) (.ok history)
          (by simp [read])
      obtain ⟨more, whole⟩ := begins
      have quiet : ∀ later ∈ more, later.2.advancesVersion = false := by
        intro later mem
        refine unraced history (by simp [read]) later (by rw [← whole]; simp [mem]) ?_
        have increasing := sound.consistent.increasing command.streamKey
        rw [← whole, List.pairwise_append] at increasing
        obtain ⟨last, old⟩ := lastSeq_mem some_history
        exact increasing.2.2 _ old later mem
      have shaped := sound.shaped command.streamKey
      have head : headVersion (w.log.streams command.streamKey) = v := by
        rw [← whole] at shaped ⊢
        rw [shaped.headVersion_of_quiet some_history quiet, ← folded_version]
        exact (version_of_allowed ifMatch policy allowed).symm
      -- The append is let through right after the entry `last` reported.
      obtain ⟨previous, mem, previousVersion⟩ := Remembers.known facts
        (.last command.tenantId command.documentId) (.ok (some (version, seq))) (by simp)
      obtain ⟨nonempty, current⟩ := sound.consistent.headVersion_of_lastSeq mem lets.2
      have same : version = v := by
        rw [← previousVersion, ← current]
        exact head
      subst same
      refine ⟨head ▸ shaped.lastAdvance nonempty, rfl, ?_⟩
      simp [supersededFlag, replacedEvent, basedElsewhere, ifMatch]

/-- As long as no version-advancing event slips in between a delivery's read of
the history and its append, an upload sent to fail on a version other than `v`
lands right on version `v`, and is accepted only if it did. -/
theorem fail_policy_honoured {c : DeliveryRun} {command : UploadCompleted} {v : Nat}
    (mode : command.mode = .replace)
    (ifMatch : command.ifMatch = some v) (policy : command.onConflict = .fail)
    (sole : ∀ other, site.publishes other → other.tenantId = command.tenantId →
      other.uploadId = command.uploadId → other = command)
    (reached : site.system.Reaches (Unraced command) ⟨.empty, []⟩ c) :
    LandsOn command v (c.shared.log.streams command.streamKey) ∧
    ∀ t ∈ c.tasks, t.input.command = command → ∀ documentId version superseded,
      t.rest = .ret (.accepted documentId version superseded) → Named c.shared.log command := by
  constructor
  · refine reached.invariant (J := fun c => LandsOn command v (c.shared.log.streams command.streamKey))
      (fun front entry back split => by simp [World.empty, EventStoreState.empty] at split) ?_
    intro c l c' earlier lands step unraced
    have known := holds earlier
    cases logMoves_of_step known step with
    | same streams => exact streams ▸ lands
    | @appended n t u event expect answer label found appends lets pushed =>
        have knows := known.tasks t (System.mem_of_found found)
        have written : site.Writes t.input.command event := .of_appends appends
        rw [pushed]
        refine lands.push fun addressed names => ?_
        have uploads := Option.some.inj (written.names.symm.trans names)
        have tenants := congrArg Prod.fst (written.streamKey.symm.trans addressed)
        have same := sole t.input.command knows.input tenants uploads
        rw [same] at appends
        exact lands_of_appends known.inv.log knows.facts appends mode ifMatch policy lets
          fun history => unraced n t event expect answer history label found same lets
    | written others pushed =>
        rw [pushed]
        refine lands.push fun _ names => ?_
        rw [DocumentEvent.Names, others.noBlob] at names
        cases names
  · intro t mem same documentId version superseded returned
    have known := holds reached
    have knows := known.tasks t mem
    have returns := knows.returns along_finish returned
    exact same ▸ named_of_reports known.inv knows.input knows.facts returns.2

/-- A check of `Unraced` for the delivery whose turn it is. -/
def unraced (c : DeliveryRun) (n : Nat) : Bool :=
  match c.tasks[n]? with
  | none => true
  | some t =>
      match t.rest.issues with
      | some (.append _ _) => t.trace.all fun call =>
          match call with
          | ⟨.readStream tenant documentId, .ok history⟩ =>
              decide (∀ entry ∈ c.shared.log.streams (tenant, documentId),
                lastSeq history < entry.1 → entry.2.advancesVersion = false)
          | _ => true
      | _ => true

theorem unraced_sound {command : UploadCompleted} {c c' : DeliveryRun} {n : Nat}
    {t : Task Ports Delivery FinishOutcome} {op : PortCall} {answer : op.Ans}
    {next : op.Ans → Program Ports FinishOutcome} (found : c.tasks[n]? = some t)
    (stands : t.rest = .call op next) (checked : unraced c n = true) :
    Unraced command c (.call n op answer) c' := by
  rintro m u event expect answer' history label found' rfl - read entry mem
  cases label
  obtain rfl : t = u := Option.some.inj (found.symm.trans found')
  simp only [unraced, found, stands, Program.issues_call] at checked
  have here := List.all_eq_true.mp checked _ read
  simp only [decide_eq_true_eq] at here
  exact here entry mem

/-- The replacement lands right on the version it was made on. -/
theorem fail_policy_honoured_undisturbed :
    ∃ c, Sample.site.system.Reaches (Unraced Sample.replace) ⟨.empty, []⟩ c ∧
      LandsOn Sample.replace 1 (c.shared.log.streams ("acme", "doc")) ∧
      ∃ entry ∈ c.shared.log.streams ("acme", "doc"), entry.2.Names "u2" := by
  have start : Sample.site.system.Reaches (Unraced Sample.replace) ⟨.empty, []⟩
      (Sample.started [⟨Sample.create, false⟩, ⟨Sample.replace, false⟩]) := by
    refine Sample.reaches_started ?_ _ (by simp [Sample.site])
    intro c l c' _ quiet n t event expect answer history label
    exact absurd label (quiet n _ answer)
  have reached := start.checked (truthfully 4 "3a6eb079") (fun _ _ _ _ _ => unraced_sound)
    (List.replicate 12 0 ++ List.replicate 14 1) (by decide +kernel)
  have sole : ∀ other, Sample.site.publishes other → other.tenantId = Sample.replace.tenantId →
      other.uploadId = Sample.replace.uploadId → other = Sample.replace := by
    rintro _ (rfl | rfl) _ uploads
    · exact absurd uploads (by decide)
    · rfl
  exact ⟨_, reached, (fail_policy_honoured rfl rfl rfl sole reached).1, by decide +kernel⟩

/-- A delivery checks the history, another writer's version lands, and the
delivery appends on top of it: made on version 1 and to fail on any other, the
upload is accepted as version 3. -/
theorem fail_policy_raced :
    Sample.replace.mode = .replace ∧ Sample.replace.ifMatch = some 1 ∧
    Sample.replace.onConflict = .fail ∧
    ∃ c, Sample.site.system.Reaches System.anyStep ⟨.empty, []⟩ c ∧
      (∃ entry ∈ c.shared.log.streams ("acme", "doc"), entry.2.Names "u2" ∧
        entry.2.version = 3 ∧ supersededFlag entry.2 = true) ∧
      ∃ t ∈ c.tasks, t.input.command.uploadId = "u2" ∧ t.rest = .ret (.accepted "doc" 3 true) := by
  let world : Sample.site.system.Reply := truthfully 4 "3a6eb079"
  have start : Sample.site.system.Reaches System.anyStep ⟨.empty, []⟩
      (Sample.started [⟨Sample.create, false⟩, ⟨Sample.replace, false⟩]) :=
    Sample.reaches_started (fun _ _ _ _ _ => trivial) _ (by simp [Sample.site])
  have checked := start.replies world (List.replicate 12 0 ++ List.replicate 9 1)
  have raced := checked.disturbed _
    (World.Disturbed.written Sample.rename (Sample.others_rename (by decide +kernel))) trivial
  have finished := raced.replies world (List.replicate 5 1)
  exact ⟨rfl, rfl, rfl, _, finished, by decide +kernel, Task.exists_ret (by decide +kernel)⟩

end Site

end Delphi.Document
