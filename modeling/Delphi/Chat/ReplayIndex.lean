/-
# Delphi.Chat.ReplayIndex -- what the two slots of a replay index hold

The events of a conversation fall into runs: a run begins at a `turn_started`
whose turn is not that of the `turn_started` before it, and a redelivered
`turn_started` lies inside its run.  The index describes the last two runs
(`Describes`): the turn, the sequence the run begins at, and the sequence of the
last terminal event the turn has had since then, wherever it stands.

A turn may run twice, with another one between; its second run has a start and an
end of its own.
-/
import Delphi.Chat.Replay

namespace Delphi.Chat

set_option autoImplicit false

/-- An event as `apply_replay_event` gets it. -/
structure AppliedEvent where
  sequence : Nat
  envelope : ChatEventEnvelope
deriving DecidableEq

namespace AppliedEvent

/-- The turn a `turn_started` is for. -/
def starts (event : AppliedEvent) : Option String :=
  match event.envelope.event with
  | .turnStarted _ => some event.envelope.turnId
  | _ => none

/-- The turn a terminal event is for. -/
def ends (event : AppliedEvent) : Option String :=
  match event.envelope.event with
  | .finish _ _ | .interrupted _ _ | .clear _ => some event.envelope.turnId
  | _ => none

theorem ends_of_starts {event : AppliedEvent} {turnId : String}
    (starts : event.starts = some turnId) : event.ends = none := by
  unfold AppliedEvent.starts at starts
  unfold ends
  split at starts
  case h_1 started => rw [started]
  case h_2 => cases starts

/-- A turn's slot after the event: a terminal event of the turn moves its end. -/
def closes (event : AppliedEvent) (turn : ReplayTurn) : ReplayTurn :=
  { turn with
    endSeq := if event.ends = some turn.turnId then some event.sequence else turn.endSeq }

@[simp] theorem closes_turnId (event : AppliedEvent) (turn : ReplayTurn) :
    (event.closes turn).turnId = turn.turnId := rfl

@[simp] theorem closes_startSeq (event : AppliedEvent) (turn : ReplayTurn) :
    (event.closes turn).startSeq = turn.startSeq := rfl

theorem closes_of_ne {event : AppliedEvent} {turn : ReplayTurn}
    (other : event.ends ≠ some turn.turnId) : event.closes turn = turn := by
  unfold closes
  rw [if_neg other]

/-- An event that ends no turn leaves every slot as it is. -/
theorem map_closes {event : AppliedEvent} (open_ : event.ends = none)
    (slot : Option ReplayTurn) : slot.map event.closes = slot := by
  cases slot with
  | none => rfl
  | some turn => rw [Option.map_some, closes_of_ne (by rw [open_]; simp)]

end AppliedEvent

def applyEvent (index : ReplayIndex) (event : AppliedEvent) : ReplayIndex :=
  applyReplayEvent index event.envelope event.sequence

/-- The index after a list of events. -/
def replayIndex (log : List AppliedEvent) : ReplayIndex := log.foldl applyEvent .default

theorem replayIndex_concat (log : List AppliedEvent) (event : AppliedEvent) :
    replayIndex (log ++ [event]) = applyEvent (replayIndex log) event := by
  rw [replayIndex, List.foldl_append]
  rfl

theorem applyEvent_starts {event : AppliedEvent} {turnId : String}
    (starts : event.starts = some turnId) (index : ReplayIndex) :
    applyEvent index event =
      if index.currentTurn.any fun turn => turn.turnId = turnId then index
      else ⟨index.currentTurn, some ⟨turnId, event.sequence, none⟩⟩ := by
  unfold AppliedEvent.starts at starts
  split at starts
  case h_1 started =>
      obtain rfl := Option.some.inj starts
      unfold applyEvent applyReplayEvent
      rw [started]
  case h_2 => cases starts

theorem applyEvent_ends {event : AppliedEvent} {turnId : String}
    (ends : event.ends = some turnId) (index : ReplayIndex) :
    applyEvent index event = closeTurn index turnId event.sequence := by
  unfold AppliedEvent.ends at ends
  unfold applyEvent applyReplayEvent
  split at ends
  case h_4 => cases ends
  all_goals
    obtain rfl := Option.some.inj ends
    simp_all

theorem applyEvent_inert {event : AppliedEvent} (starts : event.starts = none)
    (ends : event.ends = none) (index : ReplayIndex) : applyEvent index event = index := by
  unfold AppliedEvent.starts at starts
  unfold AppliedEvent.ends at ends
  unfold applyEvent applyReplayEvent
  split <;> simp_all

/-- Of two different turns a terminal event closes its own, the current slot being asked
first. -/
theorem closeTurn_eq {index : ReplayIndex} {event : AppliedEvent} {turnId : String}
    (ends : event.ends = some turnId)
    (distinct : ∀ current previous, index.currentTurn = some current →
      index.previousTurn = some previous → previous.turnId ≠ current.turnId) :
    closeTurn index turnId event.sequence
      = ⟨index.previousTurn.map event.closes, index.currentTurn.map event.closes⟩ := by
  obtain ⟨previousTurn, currentTurn⟩ := index
  have closed : ∀ turn : ReplayTurn, event.closes turn
      = if turn.turnId = turnId then { turn with endSeq := some event.sequence } else turn := by
    intro turn
    unfold AppliedEvent.closes
    rw [ends]
    by_cases own : turn.turnId = turnId
    · simp [own]
    · simp [own, Ne.symm own]
  cases currentTurn with
  | none => cases previousTurn with
    | none => rfl
    | some previous =>
        by_cases own : previous.turnId = turnId <;> simp [closeTurn, Option.filter, closed, own]
  | some current =>
      by_cases own : current.turnId = turnId
      · cases previousTurn with
        | none => simp [closeTurn, Option.filter, closed, own]
        | some previous =>
            have other : previous.turnId ≠ turnId := own ▸ distinct current previous rfl rfl
            simp [closeTurn, Option.filter, closed, own, other]
      · cases previousTurn with
        | none => simp [closeTurn, Option.filter, closed, own]
        | some previous =>
            by_cases before : previous.turnId = turnId <;>
              simp [closeTurn, Option.filter, closed, own, before]

/-- A turn that is not the current one takes the slots over. -/
theorem applyEvent_begins {index : ReplayIndex} {event : AppliedEvent} {turnId : String}
    (starts : event.starts = some turnId)
    (other : ∀ current, index.currentTurn = some current → current.turnId ≠ turnId) :
    applyEvent index event = ⟨index.currentTurn, some ⟨turnId, event.sequence, none⟩⟩ := by
  rw [applyEvent_starts starts, if_neg]
  cases inSlot : index.currentTurn with
  | none => simp
  | some current => simpa using other current inSlot

/-- Any other event leaves the turns in their slots and at most closes one of them. -/
theorem applyEvent_within {index : ReplayIndex} {event : AppliedEvent}
    (own : ∀ turnId, event.starts = some turnId →
      ∃ current, index.currentTurn = some current ∧ current.turnId = turnId)
    (distinct : ∀ current previous, index.currentTurn = some current →
      index.previousTurn = some previous → previous.turnId ≠ current.turnId) :
    applyEvent index event
      = ⟨index.previousTurn.map event.closes, index.currentTurn.map event.closes⟩ := by
  cases starts : event.starts with
  | some turnId =>
      obtain ⟨current, inSlot, same⟩ := own turnId starts
      have ends := AppliedEvent.ends_of_starts starts
      rw [applyEvent_starts starts, if_pos (by simp [inSlot, same]),
        AppliedEvent.map_closes ends, AppliedEvent.map_closes ends]
  | none =>
      cases ends : event.ends with
      | none =>
          rw [applyEvent_inert starts ends, AppliedEvent.map_closes ends,
            AppliedEvent.map_closes ends]
      | some turnId =>
          rw [applyEvent_ends ends, closeTurn_eq ends distinct]

/-! ## The specification -/

/-- The turn of the latest `turn_started`. -/
def latestTurn (log : List AppliedEvent) : Option String :=
  (log.filterMap AppliedEvent.starts).getLast?

/-- The sequence of a turn's last terminal event. -/
def lastEnd (turnId : String) (log : List AppliedEvent) : Option Nat :=
  ((log.filter fun event => event.ends = some turnId).getLast?).map AppliedEvent.sequence

/-- `turn` describes the run `run`, which comes after `front` and before `later`. -/
structure IsRun (turn : ReplayTurn) (front run later : List AppliedEvent) : Prop where
  opens : ∃ first rest, run = first :: rest ∧ first.starts = some turn.turnId ∧
    first.sequence = turn.startSeq ∧ turn.endSeq = lastEnd turn.turnId (rest ++ later)
  same : ∀ event ∈ run, ∀ turnId, event.starts = some turnId → turnId = turn.turnId
  fresh : latestTurn front ≠ some turn.turnId

/-- The previous slot holds the last run of `front`, the events before the current one. -/
def DescribesPrevious (front run : List AppliedEvent) : Option ReplayTurn → Prop
  | none => latestTurn front = none
  | some previous => ∃ before earlier,
      front = before ++ earlier ∧ IsRun previous before earlier run

/-- The current slot holds the last run of `log`. -/
def Describes (log : List AppliedEvent) (index : ReplayIndex) : Prop :=
  match index.currentTurn with
  | none => latestTurn log = none ∧ index.previousTurn = none
  | some current => ∃ front run, log = front ++ run ∧ IsRun current front run [] ∧
      DescribesPrevious front run index.previousTurn

/-! ## One more event -/

theorem latestTurn_concat (log : List AppliedEvent) (event : AppliedEvent) :
    latestTurn (log ++ [event]) = event.starts.or (latestTurn log) := by
  unfold latestTurn
  rw [List.filterMap_append]
  cases starts : event.starts with
  | none => simp [starts]
  | some turnId => simp [starts]

theorem lastEnd_concat (turnId : String) (log : List AppliedEvent) (event : AppliedEvent) :
    lastEnd turnId (log ++ [event])
      = if event.ends = some turnId then some event.sequence else lastEnd turnId log := by
  unfold lastEnd
  rw [List.filter_append]
  by_cases ends : event.ends = some turnId
  · simp [ends]
  · simp [ends]

theorem lastEnd_mem {turnId : String} {log : List AppliedEvent} {sequence : Nat}
    (last : lastEnd turnId log = some sequence) : ∃ event ∈ log, event.sequence = sequence := by
  obtain ⟨event, found, rfl⟩ := Option.map_eq_some_iff.mp last
  exact ⟨event, List.mem_of_mem_filter (List.mem_of_getLast? found), rfl⟩

namespace IsRun

variable {turn : ReplayTurn} {front run later : List AppliedEvent} {event : AppliedEvent}

/-- The turn of a run is that of the latest `turn_started` at its end. -/
theorem latest (described : IsRun turn front run later) :
    latestTurn (front ++ run) = some turn.turnId := by
  obtain ⟨first, rest, rfl, starts, -, -⟩ := described.opens
  have mem : turn.turnId ∈ (first :: rest).filterMap AppliedEvent.starts :=
    List.mem_filterMap.mpr ⟨first, List.mem_cons_self, starts⟩
  obtain ⟨last, found⟩ := Option.isSome_iff_exists.mp
    (List.getLast?_isSome.mpr (List.ne_nil_of_mem mem))
  obtain ⟨event, inRun, isLast⟩ := List.mem_filterMap.mp (List.mem_of_getLast? found)
  obtain rfl := described.same event inRun last isLast
  unfold latestTurn
  rw [List.filterMap_append, List.getLast?_append, found]
  rfl

/-- An event inside the run: a `turn_started` must be for the same turn. -/
theorem concat (described : IsRun turn front run [])
    (own : ∀ turnId, event.starts = some turnId → turnId = turn.turnId) :
    IsRun (event.closes turn) front (run ++ [event]) [] := by
  obtain ⟨first, rest, rfl, starts, sequence, ended⟩ := described.opens
  refine ⟨⟨first, rest ++ [event], rfl, starts, sequence, ?_⟩, ?_, described.fresh⟩
  · rw [List.append_nil] at ended ⊢
    rw [lastEnd_concat, AppliedEvent.closes_turnId, ← ended]
    rfl
  · intro member inRun
    rcases List.mem_append.mp inRun with old | new
    · exact described.same member old
    · obtain rfl := List.mem_singleton.mp new
      exact own

/-- An event after the run. -/
theorem later_concat (described : IsRun turn front run later) :
    IsRun (event.closes turn) front run (later ++ [event]) := by
  obtain ⟨first, rest, rfl, starts, sequence, ended⟩ := described.opens
  refine ⟨⟨first, rest, rfl, starts, sequence, ?_⟩, described.same, described.fresh⟩
  rw [← List.append_assoc, lastEnd_concat, AppliedEvent.closes_turnId, ← ended]
  rfl

/-- A run that has just begun. -/
theorem begin {log : List AppliedEvent} {turnId : String} (starts : event.starts = some turnId)
    (fresh : latestTurn log ≠ some turnId) :
    IsRun ⟨turnId, event.sequence, none⟩ log [event] [] := by
  refine ⟨⟨event, [], rfl, starts, rfl, rfl⟩, ?_, fresh⟩
  intro member inRun turnId' starts'
  obtain rfl := List.mem_singleton.mp inRun
  exact Option.some.inj (starts'.symm.trans starts)

end IsRun

theorem Describes.distinct {log : List AppliedEvent} {index : ReplayIndex}
    (described : Describes log index) (current previous : ReplayTurn)
    (isCurrent : index.currentTurn = some current)
    (isPrevious : index.previousTurn = some previous) : previous.turnId ≠ current.turnId := by
  unfold Describes at described
  rw [isCurrent, isPrevious] at described
  obtain ⟨front, run, -, ofCurrent, before, earlier, rfl, ofPrevious⟩ := described
  intro same
  exact ofCurrent.fresh (ofPrevious.latest.trans (congrArg some same))

theorem DescribesPrevious.concat {front run : List AppliedEvent} {slot : Option ReplayTurn}
    (described : DescribesPrevious front run slot) (event : AppliedEvent) :
    DescribesPrevious front (run ++ [event]) (slot.map event.closes) := by
  cases slot with
  | none => exact described
  | some previous =>
      obtain ⟨before, earlier, split, ofPrevious⟩ := described
      exact ⟨before, earlier, split, ofPrevious.later_concat⟩

/-- Step: the index goes on describing the log. -/
theorem Describes.step {log : List AppliedEvent} {index : ReplayIndex}
    (described : Describes log index) (event : AppliedEvent) :
    Describes (log ++ [event]) (applyEvent index event) := by
  by_cases own : ∀ turnId, event.starts = some turnId →
      ∃ current, index.currentTurn = some current ∧ current.turnId = turnId
  · -- inside the current run
    rw [applyEvent_within own described.distinct]
    unfold Describes at described ⊢
    cases isCurrent : index.currentTurn with
    | none =>
        rw [isCurrent] at described own
        have inert : event.starts = none := by
          cases starts : event.starts with
          | none => rfl
          | some turnId =>
              obtain ⟨current, absent, -⟩ := own turnId starts
              cases absent
        refine ⟨?_, ?_⟩
        · rw [latestTurn_concat, inert]
          exact described.1
        · rw [described.2]
          rfl
    | some current =>
        rw [isCurrent] at described own
        obtain ⟨front, run, rfl, ofCurrent, ofPrevious⟩ := described
        refine ⟨front, run ++ [event], List.append_assoc .., ofCurrent.concat ?_,
          ofPrevious.concat event⟩
        intro turnId starts
        obtain ⟨other, inSlot, same⟩ := own turnId starts
        rw [Option.some.inj inSlot]
        exact same.symm
  · -- a run begins
    push Not at own
    obtain ⟨turnId, starts, other⟩ := own
    rw [applyEvent_begins starts other]
    unfold Describes at described
    cases isCurrent : index.currentTurn with
    | none =>
        rw [isCurrent] at described
        refine ⟨log, [event], rfl, .begin starts ?_, described.1⟩
        rw [described.1]
        simp
    | some current =>
        rw [isCurrent] at described
        obtain ⟨front, run, rfl, ofCurrent, -⟩ := described
        refine ⟨front ++ run, [event], rfl, .begin starts ?_, front, run, rfl, ?_⟩
        · rw [ofCurrent.latest]
          exact fun same => other current isCurrent (Option.some.inj same)
        · have kept : IsRun (event.closes current) front run ([] ++ [event]) :=
            ofCurrent.later_concat
          rwa [AppliedEvent.closes_of_ne] at kept
          rw [AppliedEvent.ends_of_starts starts]
          simp

/-- Run: the index of a log describes it. -/
theorem describes_replayIndex (log : List AppliedEvent) : Describes log (replayIndex log) := by
  induction log using List.reverseRecOn with
  | nil => exact ⟨rfl, rfl⟩
  | append_singleton front event ih =>
      rw [replayIndex_concat]
      exact ih.step event

/-! ## Sequences -/

def Ordered (log : List AppliedEvent) : Prop :=
  log.Pairwise fun earlier later => earlier.sequence < later.sequence

namespace IsRun

variable {turn : ReplayTurn} {front run later : List AppliedEvent}

/-- A run begins at one of its events. -/
theorem start_mem (described : IsRun turn front run later) :
    ∃ event ∈ run, event.sequence = turn.startSeq := by
  obtain ⟨first, rest, rfl, -, sequence, -⟩ := described.opens
  exact ⟨first, List.mem_cons_self, sequence⟩

theorem start_lt_end (described : IsRun turn front run later) (ordered : Ordered (run ++ later))
    {sequence : Nat} (ended : turn.endSeq = some sequence) : turn.startSeq < sequence := by
  obtain ⟨first, rest, rfl, -, start, ends⟩ := described.opens
  obtain ⟨event, mem, rfl⟩ := lastEnd_mem (ends.symm.trans ended)
  rw [← start]
  exact (List.pairwise_cons.mp ordered).1 event mem

end IsRun

namespace Describes

variable {log : List AppliedEvent} {index : ReplayIndex}

/-- The current slot is of the latest `turn_started`. -/
theorem latest (described : Describes log index) :
    index.currentTurn.map ReplayTurn.turnId = latestTurn log := by
  unfold Describes at described
  cases isCurrent : index.currentTurn with
  | none =>
      rw [isCurrent] at described
      exact described.1.symm
  | some current =>
      rw [isCurrent] at described
      obtain ⟨front, run, rfl, ofCurrent, -⟩ := described
      exact ofCurrent.latest.symm

/-- Each slot holds a run that stands somewhere in the log. -/
theorem exists_run (described : Describes log index) {turn : ReplayTurn}
    (inSlot : index.currentTurn = some turn ∨ index.previousTurn = some turn) :
    ∃ front run later, log = front ++ (run ++ later) ∧ IsRun turn front run later := by
  unfold Describes at described
  cases isCurrent : index.currentTurn with
  | none =>
      rw [isCurrent] at described inSlot
      rcases inSlot with absent | isPrevious
      · cases absent
      · rw [described.2] at isPrevious
        cases isPrevious
  | some current =>
      rw [isCurrent] at described inSlot
      obtain ⟨front, run, rfl, ofCurrent, ofPrevious⟩ := described
      rcases inSlot with same | isPrevious
      · obtain rfl := Option.some.inj same
        exact ⟨front, run, [], by rw [List.append_nil], ofCurrent⟩
      · rw [isPrevious] at ofPrevious
        obtain ⟨before, earlier, rfl, ofPrevious⟩ := ofPrevious
        exact ⟨before, earlier, run, List.append_assoc .., ofPrevious⟩

/-- Each slot begins at an event of the log. -/
theorem start_mem (described : Describes log index) {turn : ReplayTurn}
    (inSlot : index.currentTurn = some turn ∨ index.previousTurn = some turn) :
    ∃ event ∈ log, event.sequence = turn.startSeq := by
  obtain ⟨front, run, later, rfl, isRun⟩ := described.exists_run inSlot
  obtain ⟨event, inRun, begins⟩ := isRun.start_mem
  exact ⟨event, List.mem_append_right front (List.mem_append_left later inRun), begins⟩

/-- Each slot ends after its beginning. -/
theorem start_lt_end (described : Describes log index) (ordered : Ordered log) {turn : ReplayTurn}
    (inSlot : index.currentTurn = some turn ∨ index.previousTurn = some turn) {ended : Nat}
    (atEnd : turn.endSeq = some ended) : turn.startSeq < ended := by
  obtain ⟨front, run, later, rfl, isRun⟩ := described.exists_run inSlot
  exact isRun.start_lt_end (List.pairwise_append.mp ordered).2.1 atEnd

/-- The slots begin one after the other. -/
theorem starts_apart (described : Describes log index) (ordered : Ordered log)
    {current previous : ReplayTurn} (isCurrent : index.currentTurn = some current)
    (isPrevious : index.previousTurn = some previous) : previous.startSeq < current.startSeq := by
  unfold Describes at described
  rw [isCurrent, isPrevious] at described
  obtain ⟨front, run, rfl, ofCurrent, before, earlier, rfl, ofPrevious⟩ := described
  have apart := (List.pairwise_append.mp ordered).2.2
  obtain ⟨first, inEarlier, begins⟩ := ofPrevious.start_mem
  obtain ⟨second, inRun, begins'⟩ := ofCurrent.start_mem
  rw [← begins, ← begins']
  exact apart first (List.mem_append_right before inEarlier) second inRun

end Describes

/-- The replay index of a conversation: it describes the last two runs of the log, the
current one being of the latest `turn_started`; their turns differ, they begin one after the
other, and each ends after its beginning. -/
theorem replayIndex_specification (log : List AppliedEvent) (ordered : Ordered log) :
    Describes log (replayIndex log) ∧
    (replayIndex log).currentTurn.map ReplayTurn.turnId = latestTurn log ∧
    (∀ current, (replayIndex log).currentTurn = some current →
      ∀ ended, current.endSeq = some ended → current.startSeq < ended) ∧
    ∀ current previous, (replayIndex log).currentTurn = some current →
      (replayIndex log).previousTurn = some previous →
      previous.turnId ≠ current.turnId ∧ previous.startSeq < current.startSeq ∧
      ∀ ended, previous.endSeq = some ended → previous.startSeq < ended := by
  have described := describes_replayIndex log
  refine ⟨described, described.latest, ?_, ?_⟩
  · intro current isCurrent ended atEnd
    exact described.start_lt_end ordered (.inl isCurrent) atEnd
  · intro current previous isCurrent isPrevious
    refine ⟨described.distinct current previous isCurrent isPrevious,
      described.starts_apart ordered isCurrent isPrevious, ?_⟩
    intro ended atEnd
    exact described.start_lt_end ordered (.inr isPrevious) atEnd

/-- A turn that is started twice, runs again after another one, and ends late. -/
def restartedTurn : List AppliedEvent :=
  [⟨3, ⟨"t", "u", "c", "t1", 0, .turnStarted "t1"⟩⟩,
    ⟨4, ⟨"t", "u", "c", "t1", 0, .turnStarted "t1"⟩⟩,
    ⟨6, ⟨"t", "u", "c", "t2", 1, .turnStarted "t2"⟩⟩,
    ⟨7, ⟨"t", "u", "c", "t1", 1, .clear .workerLost⟩⟩,
    ⟨9, ⟨"t", "u", "c", "t1", 2, .turnStarted "t1"⟩⟩,
    ⟨10, ⟨"t", "u", "c", "t2", 2, .finish "m2" .stop⟩⟩]

theorem replayIndex_specification_restarted :
    replayIndex restartedTurn = ⟨some ⟨"t2", 6, some 10⟩, some ⟨"t1", 9, none⟩⟩ ∧
    latestTurn restartedTurn = some "t1" ∧ "t2" ≠ "t1" ∧ 6 < 9 ∧ 6 < 10 := by
  have index : replayIndex restartedTurn = ⟨some ⟨"t2", 6, some 10⟩, some ⟨"t1", 9, none⟩⟩ := by
    decide
  obtain ⟨-, latest, -, slots⟩ := replayIndex_specification restartedTurn
    (by simp [Ordered, restartedTurn])
  rw [index] at latest slots
  obtain ⟨differ, before, ended⟩ := slots _ _ rfl rfl
  exact ⟨index, latest.symm, differ, before, ended 10 rfl⟩

/-! ## The published stream -/

/-- What `apply_replay_event` gets to see of a stream for one conversation. -/
def conversationLog (tenantId conversationId : String) (published : List ChatEventEnvelope) :
    List AppliedEvent :=
  (published.zipIdx 1).filterMap fun entry =>
    if entry.1.isOf tenantId conversationId && isReplayIndexEvent entry.1.event then
      some ⟨entry.2, entry.1⟩
    else none

theorem replayIndexAfter_eq (tenantId conversationId : String)
    (published : List ChatEventEnvelope) :
    replayIndexAfter tenantId conversationId published
      = replayIndex (conversationLog tenantId conversationId published) := by
  unfold replayIndexAfter replayIndex conversationLog
  rw [List.foldl_filterMap]
  congr 1
  funext index entry
  split <;> rfl

theorem ordered_conversationLog (tenantId conversationId : String)
    (published : List ChatEventEnvelope) :
    Ordered (conversationLog tenantId conversationId published) := by
  have counted : (published.zipIdx 1).Pairwise fun earlier later => earlier.2 < later.2 := by
    have range := List.pairwise_lt_range' (s := 1) (n := published.length)
    rwa [← List.zipIdx_map_snd, List.pairwise_map] at range
  unfold Ordered conversationLog
  rw [List.pairwise_filterMap]
  refine counted.imp fun before event isEvent event' isEvent' => ?_
  split at isEvent
  case isFalse => cases isEvent
  case isTrue =>
      split at isEvent'
      case isFalse => cases isEvent'
      case isTrue =>
          obtain rfl := Option.some.inj isEvent
          obtain rfl := Option.some.inj isEvent'
          exact before

theorem mem_conversationLog {tenantId conversationId : String}
    {published : List ChatEventEnvelope} {event : AppliedEvent}
    (mem : event ∈ conversationLog tenantId conversationId published) :
    event.sequence ≤ published.length := by
  obtain ⟨⟨envelope, sequence⟩, inStream, isEvent⟩ := List.mem_filterMap.mp mem
  have bound := (List.mem_zipIdx inStream).2.1
  split at isEvent
  case isFalse => cases isEvent
  case isTrue =>
      obtain rfl := Option.some.inj isEvent
      show sequence ≤ published.length
      omega

/-- The index of a conversation describes its last two turns in the stream. -/
theorem describes_replayIndexAfter (tenantId conversationId : String)
    (published : List ChatEventEnvelope) :
    Describes (conversationLog tenantId conversationId published)
      (replayIndexAfter tenantId conversationId published) := by
  rw [replayIndexAfter_eq]
  exact describes_replayIndex _

/-- Each of the two turns contains the sequence it begins at. -/
theorem contains_start {tenantId conversationId : String} {published : List ChatEventEnvelope}
    {turn : ReplayTurn}
    (inSlot : (replayIndexAfter tenantId conversationId published).currentTurn = some turn ∨
      (replayIndexAfter tenantId conversationId published).previousTurn = some turn) :
    turnContainsSequence turn turn.startSeq published.length = true := by
  have described := describes_replayIndexAfter tenantId conversationId published
  have within : turn.startSeq ≤ turn.endSeq.getD published.length := by
    cases ended : turn.endSeq with
    | none =>
        obtain ⟨event, mem, begins⟩ := described.start_mem inSlot
        rw [← begins]
        exact mem_conversationLog mem
    | some endSeq =>
        have ordered := ordered_conversationLog tenantId conversationId published
        exact Nat.le_of_lt (described.start_lt_end ordered inSlot ended)
  simp [turnContainsSequence, within]

/-- A client that has seen how one of the two turns began is never sent to resync. -/
theorem replayFrom_start {tenantId conversationId : String} {published : List ChatEventEnvelope}
    {turn : ReplayTurn}
    (inSlot : (replayIndexAfter tenantId conversationId published).currentTurn = some turn ∨
      (replayIndexAfter tenantId conversationId published).previousTurn = some turn) :
    ∃ range, replayFrom (replayIndexAfter tenantId conversationId published) turn.startSeq
      published.length = .ok range := by
  have contained : (some turn).filter (fun other =>
      turnContainsSequence other turn.startSeq published.length) = some turn :=
    Option.filter_some_eq_some.mpr (contains_start inSlot)
  unfold replayFrom
  split
  case h_1 current found => exact ⟨_, rfl⟩
  case h_2 notCurrent =>
      rcases inSlot with isCurrent | isPrevious
      · rw [isCurrent, contained] at notCurrent
        cases notCurrent
      · rw [isPrevious, contained]
        exact ⟨_, rfl⟩

end Delphi.Chat
