/-
# Delphi.Document.Projectors -- any number of projection loops over one table

Projection loops started at any time from the stored checkpoint or an earlier
one, interleaved statement by statement over one database, each abandoned at any
point.  The leader lease is not relied on.

A committed checkpoint is covered by the rows (`Sound.checkpoint`): every document
has a row that stands at its last success up to there.  So a loop that loads a
document knows which of its messages the row already holds, and what it writes is
a fold of the log or is stopped by the guard.
-/
import Delphi.Theory.Pool
import Delphi.Document.Tracking

namespace Delphi.Document

open Delphi.Theory
open EventLog (AtLeast atLeast_upward covers_upward covers_zero)
open Versioning (Sees)

set_option autoImplicit false

/-- A started projection loop, and the rounds it is given. -/
structure Projector where
  loop : ProjectionLoop
  left : Nat

/-- Projection loops over one log and one database. -/
def projectors {codec : Codec} {crc32 : String → Nat} (jsonb : Jsonb)
    (log : EventLog codec crc32) :
    System ProjectionPorts ProjectionDb Projector (Except AdapterError Unit) where
  main projector := projector.loop.run codec projector.left
  admits _ _ := True
  serves _ op db answer db' := ProjectionDb.serves jsonb log db op answer db'
  environment := ProjectionDb.Abandoned

namespace Projectors

variable {codec : Codec} {crc32 : String → Nat} (jsonb : Jsonb) (log : EventLog codec crc32)

/-! ## The invariant -/

/-- Every row, committed or pending, is a fold of the log, and every checkpoint is
covered by the rows it is committed with. -/
structure Sound (db : ProjectionDb) : Prop where
  orderly : versions.Orderly db
  rows : ∀ key row, db.rows (.document key) = some row → log.IsFold jsonb key row
  pending : ∀ (tx : Nat) writes, db.sessions[tx]? = some (.active writes) →
    ∀ key row, ⟨.document key, row⟩ ∈ writes → log.IsFold jsonb key row
  checkpoint : ∀ name sequence, db.rows (.checkpoint name) = some sequence →
    log.Covers (clampU64 sequence) db.rows
  pendingCheckpoint : ∀ (tx : Nat) writes, db.sessions[tx]? = some (.active writes) →
    ∀ name sequence, ⟨.checkpoint name, sequence⟩ ∈ writes →
      log.Covers (clampU64 sequence) (db.rows.overlay writes)

/-- The trace shows that the rows cover `p`: it was the checkpoint read, or the
loop has committed it. -/
inductive Reported (trace : Trace ProjectionPorts) (p : Nat) : Prop where
  | start (zero : p = 0)
  | read {name : String} {sequence : Int}
      (answered : (⟨.readCheckpoint name, .ok (some sequence)⟩ : Call ProjectionPorts) ∈ trace)
      (same : p = clampU64 sequence)
  | committed {tx : Nat} {name : String} {sequence : Int}
      (written : (⟨.writeCheckpoint tx name sequence, .ok ()⟩ : Call ProjectionPorts) ∈ trace)
      (done : (⟨.commit tx, .ok ()⟩ : Call ProjectionPorts) ∈ trace)
      (same : p = clampU64 sequence)

/-- What an answered call says from then on. -/
def known (db : ProjectionDb) (trace : Trace ProjectionPorts) :
    (op : ProjectionCall) → op.Ans → Prop
  | .readCheckpoint _, .ok (some sequence) => log.Covers (clampU64 sequence) db.rows
  | .next position, .message m => log.next position = some m
  | .begin, .ok tx => ∃ session, db.sessions[tx]? = some session
  | .loadDocument tx tenant documentId, .ok row =>
      (∀ p, Reported trace p → log.Loaded jsonb (tenant, documentId) p row) ∧
      ∀ r, row = some r → Sees db tx fun rows => AtLeast rows (tenant, documentId) r.streamSeq
  | .upsertDocument tx state, .ok () =>
      Sees db tx fun rows => AtLeast rows state.streamKey (bindRow jsonb state).streamSeq
  | .writeCheckpoint tx _ sequence, .ok () => Sees db tx (log.Covers (clampU64 sequence))
  | .commit tx, .ok () => db.sessions[tx]? = some .committed
  | _, _ => True

/-- A state about to be written: its row is a fold of the log, or the session saw
a row that is further on. -/
def Upserts (db : ProjectionDb) (tx : Nat) (state : DocumentState) : Prop :=
  log.IsFold jsonb state.streamKey (bindRow jsonb state) ∨
  ∃ n : Int, (Sees db tx fun rows => AtLeast rows state.streamKey n) ∧
    (bindRow jsonb state).streamSeq < n

/-- The writes a loop issues. -/
def Issues (db : ProjectionDb) (_ : Trace ProjectionPorts) : ProjectionCall → Prop
  | .upsertDocument tx state => Upserts jsonb log db tx state
  | .writeCheckpoint tx _ sequence => Sees db tx (log.Covers (clampU64 sequence))
  | _ => True

def invariants : Invariants ProjectionPorts ProjectionDb Projector where
  inv := Sound jsonb log
  input _ _ := True
  fact _ db trace op answer := known jsonb log db trace op answer

variable {jsonb log} {db db' : ProjectionDb}

theorem Reported.append {trace : Trace ProjectionPorts} {p : Nat} (reported : Reported trace p)
    (more : Trace ProjectionPorts) : Reported (trace ++ more) p := by
  cases reported with
  | start zero => exact .start zero
  | read answered same => exact .read (List.mem_append_left _ answered) same
  | committed written done same =>
      exact .committed (List.mem_append_left _ written) (List.mem_append_left _ done) same

/-- What the trace shows holds. -/
theorem Reported.covers {trace : Trace ProjectionPorts} {p : Nat} (reported : Reported trace p)
    (facts : Facts (known jsonb log db) trace) : log.Covers p db.rows := by
  cases reported with
  | start zero => exact zero ▸ covers_zero db.rows
  | read answered same =>
      obtain ⟨_, covers⟩ := facts.of_mem answered
      exact same ▸ covers
  | committed written done same =>
      obtain ⟨_, sees⟩ := facts.of_mem written
      obtain ⟨_, committed⟩ := facts.of_mem done
      exact same ▸ Sees.of_committed sees committed

theorem known_extends (extends_ : versions.Extends db db') (trace : Trace ProjectionPorts)
    (op : ProjectionCall) (answer : op.Ans) (fact : known jsonb log db trace op answer) :
    known jsonb log db' trace op answer := by
  cases op with
  | readCheckpoint name =>
      match answer, fact with
      | .ok (some sequence), fact => exact covers_upward _ _ _ extends_.rows fact
      | .ok none, _ => trivial
      | .error error, _ => trivial
  | next position =>
      cases answer with
      | message m => exact fact
      | _ => trivial
  | begin =>
      match answer, fact with
      | .ok tx, ⟨session, found⟩ =>
          obtain ⟨session', found', -⟩ := extends_.sessions tx session found
          exact ⟨session', found'⟩
      | .error error, _ => trivial
  | loadDocument tx tenant documentId =>
      match answer, fact with
      | .ok row, ⟨loaded, seen⟩ =>
          exact ⟨loaded, fun r same => (seen r same).extends extends_ (atLeast_upward _ _)⟩
      | .error error, _ => trivial
  | upsertDocument tx state =>
      match answer, fact with
      | .ok (), seen => exact Sees.extends seen extends_ (atLeast_upward _ _)
      | .error error, _ => trivial
  | writeCheckpoint tx name sequence =>
      match answer, fact with
      | .ok (), seen => exact Sees.extends seen extends_ (covers_upward _)
      | .error error, _ => trivial
  | commit tx =>
      match answer, fact with
      | .ok (), done => exact extends_.committed tx done
      | .error error, _ => trivial
  | _ => exact fact

/-! ## What a loop issues -/

section Paths

variable {tx p q : Nat} {folded : Folded} {trace : Trace ProjectionPorts}

/-- A row of the document was seen standing there. -/
abbrev seenBy (db : ProjectionDb) (tx : Nat) (key : StreamKey) (n : Int) : Prop :=
  Sees db tx fun rows => AtLeast rows key n

/-- The messages come one after another in the log. -/
def Chain (log : EventLog codec crc32) : Nat → List Message → Prop
  | _, [] => True
  | position, m :: rest => log.next position = some m ∧ Chain log m.sequence rest

/-- Where the log is read up to after a batch. -/
def standing : Nat → List Message → Nat
  | position, [] => position
  | _, m :: rest => standing m.sequence rest

theorem along_loadPrior {key : StreamKey} (tracks : log.Tracks jsonb (seenBy db tx) p q folded)
    (reported : Reported trace p) :
    Along (known jsonb log db) (Issues jsonb log db)
      (fun reached result => Reported reached p ∧ ∀ prior, result = .ok prior →
        log.PriorOf jsonb (seenBy db tx) key q prior ∧
        ∀ held, folded.lookup key = some held → prior = some held)
      trace (ProjectionLoop.loadPrior tx folded (some key)) := by
  simp only [ProjectionLoop.loadPrior]
  cases entry : folded.lookup key with
  | some held =>
      refine ⟨reported, ?_⟩
      rintro prior ⟨⟩
      exact ⟨tracks.priorOf_lookup entry, fun _ same => same⟩
  | none =>
      refine along_perform trivial fun answer fact => ?_
      cases answer with
      | error error => exact ⟨reported.append _, by rintro prior ⟨⟩⟩
      | ok row =>
          refine ⟨reported.append _, ?_⟩
          rintro prior ⟨⟩
          obtain ⟨loaded, seen⟩ := fact
          exact ⟨tracks.priorOf_loaded entry (loaded p reported) seen, by rintro held ⟨⟩⟩

theorem along_foldBatch {loop : ProjectionLoop} (batch : List Message)
    (chain : Chain log q batch) (tracks : log.Tracks jsonb (seenBy db tx) p q folded)
    (reported : Reported trace p) :
    Along (known jsonb log db) (Issues jsonb log db)
      (fun _ result => ∀ folded', result = .ok folded' →
        log.Tracks jsonb (seenBy db tx) p (standing q batch) folded')
      trace (loop.foldBatch codec tx folded batch) := by
  induction batch generalizing q folded trace with
  | nil =>
      rintro folded' ⟨⟩
      exact tracks
  | cons m rest ih =>
      obtain ⟨found, later⟩ := chain
      obtain ⟨key, named⟩ := EventLog.exists_key (EventLog.mem_of_next found).1
      unfold ProjectionLoop.foldBatch
      rw [named]
      refine (along_loadPrior tracks reported).bind ?_
      rintro reached result ⟨reported, known⟩
      cases result with
      | error error =>
          rintro folded' ⟨⟩
      | ok prior =>
          obtain ⟨priorOf, entry⟩ := known prior rfl
          simp only
          cases outcome : projectEvent codec prior m.payload m.sequence with
          | upsert state => exact ih later (tracks.upsert found named priorOf outcome) reported
          | failure payload error violation =>
              have skipped := tracks.failure found named priorOf entry outcome
              refine along_perform trivial fun answer _ => ?_
              cases answer with
              | error error =>
                  rintro folded' ⟨⟩
              | ok _ => exact ih later skipped (reported.append _)

theorem along_upsertAll (states : List DocumentState)
    (issued : ∀ state ∈ states, Upserts jsonb log db tx state) :
    Along (known jsonb log db) (Issues jsonb log db)
      (fun _ result => result = .ok () → ∀ state ∈ states,
        seenBy db tx state.streamKey (bindRow jsonb state).streamSeq)
      trace (ProjectionLoop.upsertAll tx states) := by
  induction states generalizing trace with
  | nil => exact fun _ _ mem => by cases mem
  | cons state rest ih =>
      refine along_perform (issued state (List.mem_cons_self ..)) fun answer fact => ?_
      cases answer with
      | error error =>
          rintro ⟨⟩
      | ok _ =>
          refine (ih fun other mem => issued other (List.mem_cons_of_mem _ mem)).imp ?_
          intro reached result written done other mem
          rcases List.mem_cons.mp mem with rfl | mem
          · exact fact
          · exact written done other mem

theorem along_finishBatch {loop : ProjectionLoop} {last : Nat} (small : last < 2 ^ 63)
    (covers : Sees db tx (log.Covers last)) :
    Along (known jsonb log db) (Issues jsonb log db)
      (fun reached result => result = .ok () → Reported reached last ∧ log.Covers last db.rows)
      trace (loop.finishBatch tx last) := by
  have kept : clampU64 (asI64 last) = last := by rw [asI64_of_lt small, clampU64_natCast]
  have issued : Sees db tx (log.Covers (clampU64 (asI64 last))) := by
    rw [kept]
    exact covers
  refine along_perform issued fun answer written => ?_
  cases answer with
  | error error =>
      rintro ⟨⟩
  | ok _ =>
      refine along_perform trivial fun answer done => ?_
      cases answer with
      | error error =>
          rintro ⟨⟩
      | ok _ => exact fun _ =>
          ⟨.committed (List.mem_append_left _ List.mem_concat_self) List.mem_concat_self kept.symm,
            Sees.of_committed covers done⟩

theorem standing_eq_lastSeq (position : Nat) {batch : List Message} (nonempty : batch ≠ []) :
    standing position batch = ProjectionLoop.lastSeq batch := by
  induction batch generalizing position with
  | nil => exact absurd rfl nonempty
  | cons m rest ih =>
      cases rest with
      | nil => rfl
      | cons m' rest => exact ih m.sequence (by simp)

theorem mem_of_chain {position : Nat} {batch : List Message} (chain : Chain log position batch)
    {m : Message} (mem : m ∈ batch) : m ∈ log.messages := by
  induction batch generalizing position with
  | nil => cases mem
  | cons first rest ih =>
      rcases List.mem_cons.mp mem with rfl | mem
      · exact (EventLog.mem_of_next chain.1).1
      · exact ih chain.2 mem

theorem lastSeq_small {position : Nat} {batch : List Message} (chain : Chain log position batch) :
    ProjectionLoop.lastSeq batch < 2 ^ 63 := by
  unfold ProjectionLoop.lastSeq
  cases last : batch.getLast? with
  | none => exact Nat.two_pow_pos 63
  | some m => exact log.small m (mem_of_chain chain (List.mem_of_getLast? last))

/-- A batch is written as folds of the log, and its checkpoint is covered. -/
theorem along_applyBatch {loop : ProjectionLoop} {batch : List Message}
    (orderly : versions.Orderly db) (chain : Chain log p batch) (nonempty : batch ≠ [])
    (reported : Reported trace p) (covers : log.Covers p db.rows) :
    Along (known jsonb log db) (Issues jsonb log db)
      (fun reached result => result = .ok () →
        Reported reached (ProjectionLoop.lastSeq batch) ∧
        log.Covers (ProjectionLoop.lastSeq batch) db.rows)
      trace (loop.applyBatch codec batch) := by
  refine along_perform trivial fun answer begun => ?_
  cases answer with
  | error error =>
      rintro ⟨⟩
  | ok tx =>
      obtain ⟨session, found⟩ : ∃ session, db.sessions[tx]? = some session := begun
      refine (along_foldBatch batch chain (EventLog.tracks_empty p) (reported.append _)).bind ?_
      intro reached result tracked
      cases result with
      | error error =>
          rintro ⟨⟩
      | ok folded =>
          have tracks := tracked folded rfl
          rw [standing_eq_lastSeq p nonempty] at tracks
          have perm := loop.permutes folded.values
          refine (along_upsertAll (loop.intoValues folded.values) ?_).bind ?_
          · intro state mem
            obtain ⟨key, entry⟩ := Folded.mem_values (perm.mem_iff.mp mem)
            obtain ⟨rfl, seq, fold | ⟨n, seen, less⟩⟩ := tracks.upserts entry
            · exact .inl fold
            · exact .inr ⟨n, seen, seq.symm ▸ less⟩
          · intro reached result written
            cases result with
            | error error =>
                rintro ⟨⟩
            | ok _ =>
                refine along_finishBatch (lastSeq_small chain) ⟨session, found, ?_⟩
                intro seen view
                refine tracks.covers ?_ ?_ fun key n sees => sees.of_view found view
                · exact (orderly.sees_of_rows found (covers_upward p) covers).of_view found view
                · intro key held entry
                  obtain ⟨rfl, seq, -⟩ := tracks.upserts entry
                  have mem := perm.mem_iff.mpr (Folded.values_of_lookup entry)
                  have stands := (written rfl held mem).of_view found view
                  rwa [seq] at stands

theorem chain_snoc {position : Nat} {batch : List Message} {m : Message}
    (chain : Chain log position batch) (found : log.next (standing position batch) = some m) :
    Chain log position (batch ++ [m]) := by
  induction batch generalizing position with
  | nil => exact ⟨found, trivial⟩
  | cons first rest ih => exact ⟨chain.1, ih chain.2 found⟩

theorem along_drain (room : Nat) {batch : List Message} (chain : Chain log p batch)
    (nonempty : batch ≠ []) (reported : Reported trace p) :
    Along (known jsonb log db) (Issues jsonb log db)
      (fun reached result => Chain log p result ∧ result ≠ [] ∧ Reported reached p)
      trace (ProjectionLoop.drain room batch) := by
  induction room generalizing batch trace with
  | zero => exact ⟨chain, nonempty, reported⟩
  | succ room ih =>
      refine along_perform trivial fun answer fact => ?_
      cases answer with
      | message m =>
          have found : log.next (standing p batch) = some m := by
            rw [standing_eq_lastSeq p nonempty]
            exact fact
          exact ih (chain_snoc chain found) (by simp) (reported.append _)
      | failed error => exact ⟨chain, nonempty, reported.append _⟩
      | ended => exact ⟨chain, nonempty, reported.append _⟩
      | elapsed => exact ⟨chain, nonempty, reported.append _⟩

/-- The run lemma of one loop: wherever its consumer stands, the rows cover that. -/
theorem along_rounds {loop : ProjectionLoop} (orderly : versions.Orderly db) (left : Nat)
    (reported : Reported trace p) (covers : log.Covers p db.rows) :
    Along (known jsonb log db) (Issues jsonb log db) (fun _ _ => True) trace
      (loop.rounds codec left p) := by
  induction left generalizing trace p with
  | zero => trivial
  | succ left ih =>
      refine along_perform trivial fun answer _ => ?_
      match answer with
      | .error error => trivial
      | .ok false => trivial
      | .ok true =>
          refine along_perform trivial fun answer fact => ?_
          have reported := (reported.append [⟨.stillHeld, .ok true⟩]).append [⟨.next p, answer⟩]
          cases answer with
          | failed error => exact ih reported covers
          | ended => trivial
          | elapsed => exact ih reported covers
          | message m =>
              have first : Chain log p [m] := ⟨fact, trivial⟩
              refine (along_drain _ first (by simp) reported).bind ?_
              rintro reached batch ⟨chain, nonempty, reported⟩
              refine along_perform trivial fun answer _ => ?_
              match answer with
              | .error error => trivial
              | .ok false => trivial
              | .ok true =>
                  refine (along_applyBatch orderly chain nonempty (reported.append _) covers).bind ?_
                  intro reached result done
                  cases result with
                  | error error => trivial
                  | ok _ => exact ih (done rfl).1 (done rfl).2

theorem along_run (projector : Projector) (orderly : versions.Orderly db) :
    Along (known jsonb log db) (Issues jsonb log db) (fun _ _ => True) []
      (projector.loop.run codec projector.left) := by
  refine along_perform trivial fun answer fact => ?_
  cases answer with
  | error error => trivial
  | ok sequence =>
      refine along_perform trivial fun answer _ => ?_
      cases answer with
      | error error => trivial
      | ok _ =>
          refine along_perform trivial fun answer _ => ?_
          cases answer with
          | error error => trivial
          | ok _ =>
              cases sequence with
              | none => exact along_rounds orderly _ (.start rfl) (covers_zero db.rows)
              | some sequence =>
                  have read : Reported [⟨.readCheckpoint projector.loop.name,
                      .ok (some sequence)⟩] (clampU64 sequence) := .read (List.mem_singleton_self _) rfl
                  exact along_rounds orderly _ ((read.append _).append _) fact

end Paths

/-! ## Steps keep the invariant -/

theorem sound_empty : Sound jsonb log Database.empty where
  orderly := .empty
  rows _ _ found := by cases found
  pending _ _ found := by simp [Database.empty] at found
  checkpoint _ _ found := by cases found
  pendingCheckpoint _ _ found := by simp [Database.empty] at found

/-- Every row a session sees is a fold of the log. -/
theorem Sound.seen (sound : Sound jsonb log db) {tx : Nat}
    {writes : List (Written Target Target.Stored)}
    (found : db.sessions[tx]? = some (.active writes)) (key : StreamKey) (row : Row)
    (here : db.rows.overlay writes (.document key) = some row) : log.IsFold jsonb key row := by
  rcases Rows.mem_or_of_overlay here with mem | committed
  · exact sound.pending tx writes found key row mem
  · exact sound.rows key row committed

theorem Sound.begin (sound : Sound jsonb log db) : Sound jsonb log db.begin := by
  have active : ∀ (tx : Nat) writes, db.begin.sessions[tx]? = some (.active writes) →
      writes = [] ∨ db.sessions[tx]? = some (.active writes) := by
    intro tx writes found
    rw [Database.begin, List.getElem?_append] at found
    split at found
    · exact .inr found
    · cases List.mem_singleton.mp (List.mem_of_getElem? found)
      exact .inl rfl
  refine ⟨sound.orderly.begin.1, sound.rows, ?_, sound.checkpoint, ?_⟩
  · intro tx writes found key row mem
    rcases active tx writes found with rfl | before
    · cases mem
    · exact sound.pending tx writes before key row mem
  · intro tx writes found name sequence mem
    rcases active tx writes found with rfl | before
    · cases mem
    · exact sound.pendingCheckpoint tx writes before name sequence mem

theorem Sound.rollback (sound : Sound jsonb log db) {tx : Nat}
    {writes : List (Written Target Target.Stored)}
    (found : db.sessions[tx]? = some (.active writes)) : Sound jsonb log (db.rollback tx) := by
  have active : ∀ (n : Nat) others, (db.rollback tx).sessions[n]? = some (.active others) →
      db.sessions[n]? = some (.active others) := by
    intro n others found'
    rcases Database.getElem?_set_cases found found' with ⟨-, new⟩ | ⟨-, before⟩
    · cases new
    · exact before
  exact ⟨(sound.orderly.rollback found).1, sound.rows,
    fun n others found' => sound.pending n others (active n others found'), sound.checkpoint,
    fun n others found' => sound.pendingCheckpoint n others (active n others found')⟩

theorem Sound.commit (sound : Sound jsonb log db) {tx : Nat}
    {writes : List (Written Target Target.Stored)}
    (found : db.sessions[tx]? = some (.active writes)) :
    Sound jsonb log (db.commit tx writes) := by
  have grows := sound.orderly.grows_overlay found
  have active : ∀ (n : Nat) others, (db.commit tx writes).sessions[n]? = some (.active others) →
      db.sessions[n]? = some (.active others) := by
    intro n others found'
    rcases Database.getElem?_set_cases found found' with ⟨-, new⟩ | ⟨-, before⟩
    · cases new
    · exact before
  refine ⟨(sound.orderly.commit found).1, sound.seen found,
    fun n others found' => sound.pending n others (active n others found'), ?_, ?_⟩
  · intro name sequence here
    rcases Rows.mem_or_of_overlay here with mem | committed
    · exact sound.pendingCheckpoint tx writes found name sequence mem
    · exact covers_upward _ _ _ grows (sound.checkpoint name sequence committed)
  · intro n others found' name sequence mem
    have before := sound.pendingCheckpoint n others (active n others found') name sequence mem
    exact covers_upward _ _ _ (grows.overlay others) before

theorem Sound.write (sound : Sound jsonb log db) {tx : Nat}
    {writes : List (Written Target Target.Stored)} {written : Written Target Target.Stored}
    (found : db.sessions[tx]? = some (.active writes)) (free : db.locked tx written.1 = false)
    (onTop : ∀ old, db.rows.overlay writes written.1 = some old →
      versions.le written.1 old written.2)
    (fold : ∀ key row, written = ⟨.document key, row⟩ → log.IsFold jsonb key row)
    (covers : ∀ name sequence, written = ⟨.checkpoint name, sequence⟩ →
      log.Covers (clampU64 sequence) (db.rows.overlay writes)) :
    Sound jsonb log (db.write tx writes written) := by
  have grows : versions.Grows (db.rows.overlay writes) (db.rows.overlay (writes ++ [written])) := by
    rw [Rows.overlay_snoc]
    exact Versioning.grows_put onTop
  refine ⟨(sound.orderly.write found free onTop).1, sound.rows, ?_, sound.checkpoint, ?_⟩
  · intro n others found' key row mem
    rcases Database.getElem?_set_cases found found' with ⟨-, new⟩ | ⟨-, before⟩
    · obtain rfl := Session.active.inj new
      rcases List.mem_append.mp mem with earlier | last
      · exact sound.pending tx writes found key row earlier
      · exact fold key row (List.mem_singleton.mp last).symm
    · exact sound.pending n others before key row mem
  · intro n others found' name sequence mem
    rcases Database.getElem?_set_cases found found' with ⟨-, new⟩ | ⟨-, before⟩
    · obtain rfl := Session.active.inj new
      refine covers_upward _ _ _ grows ?_
      rcases List.mem_append.mp mem with earlier | last
      · exact sound.pendingCheckpoint tx writes found name sequence earlier
      · exact covers name sequence (List.mem_singleton.mp last).symm
    · exact sound.pendingCheckpoint n others before name sequence mem

/-- The row a guarded upsert writes is a fold of the log: if the state is behind
the row it meets, it writes nothing, and the birth time it keeps is its own. -/
theorem Upserts.isFold (sound : Sound jsonb log db) {tx : Nat}
    {writes : List (Written Target Target.Stored)} {state : DocumentState}
    (found : db.sessions[tx]? = some (.active writes)) (issued : Upserts jsonb log db tx state)
    {written : Written Target Target.Stored}
    (writing : (Statement.upsert jsonb tx state).effect (db.rows.overlay writes) = some written) :
    written = ⟨.document state.streamKey, bindRow jsonb state⟩ ∧
      log.IsFold jsonb state.streamKey (bindRow jsonb state) := by
  simp only [Statement.upsert] at writing
  rcases issued with fold | ⟨n, sees, less⟩
  · refine ⟨?_, fold⟩
    split at writing
    · exact (Option.some.inj writing).symm
    · rename_i old present
      split at writing
      · rename_i older
        obtain ⟨earlier, folded, same, seq⟩ := (sound.seen found _ old present).state
        obtain ⟨later, folded', same', seq'⟩ := fold.state
        have order : earlier.streamSeq ≤ later.streamSeq := by omega
        obtain ⟨reached, now, -, born⟩ := EventLog.foldTo_mono order folded
        obtain rfl := Option.some.inj (now.symm.trans folded')
        have kept : old.createdAt = (bindRow jsonb state).createdAt := by
          rw [same, same']
          exact born.symm
        rw [kept] at writing
        exact (Option.some.inj writing).symm
      · cases writing
  · obtain ⟨row, present, le⟩ := sees.of_view found rfl
    rw [present] at writing
    simp only at writing
    split at writing
    · rename_i older
      omega
    · cases writing

/-- The step lemma: a call a loop issues keeps the invariant. -/
theorem Sound.served (sound : Sound jsonb log db) {op : ProjectionCall} {answer : op.Ans}
    {trace : Trace ProjectionPorts} (issued : Issues jsonb log db trace op)
    (served : ProjectionDb.serves jsonb log db op answer db') : Sound jsonb log db' := by
  cases op with
  | stillHeld => exact (served : db' = db) ▸ sound
  | readCheckpoint name => exact served.1 ▸ sound
  | createConsumer startSequence => exact (served : db' = db) ▸ sound
  | openMessages => exact (served : db' = db) ▸ sound
  | next position => exact served.1 ▸ sound
  | begin =>
      rcases served with ⟨error, -, rfl⟩ | ⟨-, rfl⟩
      · exact sound
      · exact sound.begin
  | loadDocument tx tenant documentId => exact served.1 ▸ sound
  | recordFailure tx name streamSeq subject payload error =>
      have advances := Statement.recordFailure_advances tx name streamSeq subject payload error
      cases served with
      | failed error => exact sound
      | skipped found storable nothing => exact sound
      | wrote found storable writing free =>
          refine sound.write found free (advances _ _ writing) ?_ ?_
          all_goals
            simp only [Statement.recordFailure] at writing
            split at writing <;> cases writing
            rintro _ _ ⟨⟩
  | upsertDocument tx state =>
      have advances := Statement.upsert_advances jsonb tx state
      cases served with
      | failed error => exact sound
      | skipped found storable nothing => exact sound
      | wrote found storable writing free =>
          obtain ⟨rfl, fold⟩ := Upserts.isFold sound found issued writing
          refine sound.write found free (advances _ _ writing) ?_ ?_
          · rintro key row ⟨⟩
            exact fold
          · rintro name sequence ⟨⟩
  | writeCheckpoint tx name sequence =>
      have advances := Statement.checkpoint_advances tx name sequence
      cases served with
      | failed error => exact sound
      | skipped found storable nothing => exact sound
      | wrote found storable writing free =>
          refine sound.write found free (advances _ _ writing) ?_ ?_
          · cases writing
            rintro key row ⟨⟩
          · cases writing
            rintro name sequence ⟨⟩
            exact Sees.of_view issued found rfl
  | commit tx =>
      rcases served with ⟨writes, found, rfl⟩ | ⟨-, rfl | ⟨writes, found, rfl⟩⟩
      · exact sound.commit found
      · exact sound
      · exact sound.rollback found

/-- After an upsert the session sees the document that far, whether it wrote or not. -/
theorem sees_of_upsert (sound : Sound jsonb log db) {tx : Nat} {state : DocumentState}
    (issued : Upserts jsonb log db tx state)
    (served : ProjectionDb.serves jsonb log db (.upsertDocument tx state) (.ok ()) db') :
    Sees db' tx fun rows => AtLeast rows state.streamKey (bindRow jsonb state).streamSeq := by
  cases served with
  | skipped found storable nothing =>
      refine ⟨_, found, ?_⟩
      rintro seen ⟨⟩
      simp only [Statement.upsert] at nothing
      split at nothing
      · cases nothing
      · rename_i old present
        split at nothing
        · cases nothing
        · rename_i newer
          exact ⟨old, present, by omega⟩
  | wrote found storable writing free =>
      obtain ⟨rfl, -⟩ := Upserts.isFold sound found issued writing
      have bound := (List.getElem?_eq_some_iff.mp found).1
      refine ⟨_, List.getElem?_set_self bound, ?_⟩
      rintro seen ⟨⟩
      refine ⟨bindRow jsonb state, ?_, Int.le_refl _⟩
      rw [Database.write, Rows.overlay_snoc, Rows.put_self]

/-- What the answer says holds when it is given. -/
theorem known_of_served (sound : Sound jsonb log db) {op : ProjectionCall} {answer : op.Ans}
    {trace : Trace ProjectionPorts} (facts : Facts (known jsonb log db) trace)
    (issued : Issues jsonb log db trace op)
    (served : ProjectionDb.serves jsonb log db op answer db') :
    known jsonb log db' trace op answer := by
  have extends_ := (ProjectionDb.serves_extends served sound.orderly).2
  cases op with
  | readCheckpoint name =>
      obtain ⟨rfl, stored⟩ := served
      match answer, stored with
      | .ok (some sequence), stored =>
          obtain ⟨checkpoint, found, le⟩ := stored sequence rfl
          have earlier : clampU64 sequence ≤ clampU64 checkpoint := by
            unfold clampU64
            omega
          exact (sound.checkpoint name checkpoint found).of_le earlier
      | .ok none, _ => trivial
      | .error error, _ => trivial
  | next position =>
      cases answer with
      | message m => exact served.2 m rfl
      | _ => trivial
  | begin =>
      match answer with
      | .ok tx =>
          rcases served with ⟨error, failed, -⟩ | ⟨same, rfl⟩
          · cases failed
          · cases same
            exact ⟨.active [], List.getElem?_concat_length⟩
      | .error error => trivial
  | loadDocument tx tenant documentId =>
      obtain ⟨rfl, loads⟩ := served
      match answer, loads with
      | .ok row, loads =>
          obtain ⟨writes, found, rfl⟩ := loads row rfl
          refine ⟨fun p reported => ?_, fun r here => ?_⟩
          · have covers := covers_upward _ _ _ (sound.orderly.grows_overlay found)
              (reported.covers facts)
            exact covers.loaded (sound.seen found) (tenant, documentId)
          · refine ⟨.active writes, found, ?_⟩
            rintro seen ⟨⟩
            exact ⟨r, here, Int.le_refl _⟩
      | .error error, _ => trivial
  | upsertDocument tx state =>
      match answer, served with
      | .ok (), upserted => exact sees_of_upsert sound issued upserted
      | .error error, _ => trivial
  | writeCheckpoint tx name sequence =>
      match answer with
      | .ok () => exact Sees.extends issued extends_ (covers_upward _)
      | .error error => trivial
  | commit tx =>
      match answer with
      | .ok () =>
          rcases served with ⟨writes, found, rfl⟩ | ⟨⟨error, failed⟩, -⟩
          · exact List.getElem?_set_self (List.getElem?_eq_some_iff.mp found).1
          · cases failed
      | .error error => trivial
  | _ => trivial

theorem holds {c : Config ProjectionPorts ProjectionDb Projector (Except AdapterError Unit)}
    (reached : (projectors jsonb log).Reaches System.anyStep ⟨Database.empty, []⟩ c) :
    (invariants jsonb log).Holds (projectors jsonb log) c := by
  refine Invariants.holds_of_reaches (I := invariants jsonb log) sound_empty
    (fun _ _ _ _ => trivial) ?_ ?_ reached
  · intro c n t op next answer db' holds found stands served _
    have sound : Sound jsonb log c.shared := holds.inv
    have knows := holds.tasks t (System.mem_of_found found)
    have issued := knows.issues (along_run t.input sound.orderly) stands
    have extends_ := (ProjectionDb.serves_extends served sound.orderly).2
    exact ⟨⟨sound.served issued served, fun _ _ => trivial,
      fun _ trace op answer => known_extends extends_ trace op answer⟩,
      known_of_served sound knows.facts issued served⟩
  · rintro c db' holds ⟨tx, writes, found, rfl⟩ -
    have sound : Sound jsonb log c.shared := holds.inv
    exact ⟨sound.rollback found, fun _ _ => trivial, fun _ trace op answer =>
      known_extends (sound.orderly.rollback found).2 trace op answer⟩

/-- In every state that any interleaving of projection loops can reach, each row
of the document table is the sequential fold of its document's messages up to the
sequence it stands at, and no row ever goes back. -/
theorem table_isFold {c : Config ProjectionPorts ProjectionDb Projector (Except AdapterError Unit)}
    (reached : (projectors jsonb log).Reaches System.anyStep ⟨Database.empty, []⟩ c) :
    (∀ key row, c.shared.rows (.document key) = some row →
      ∃ state, log.foldTo key (clampU64 row.streamSeq) = some state ∧
        row = bindRow jsonb state) ∧
    ∀ c', (projectors jsonb log).Reaches System.anyStep c c' →
      ∀ key row, c.shared.rows (.document key) = some row →
        ∃ row', c'.shared.rows (.document key) = some row' ∧ row.streamSeq ≤ row'.streamSeq := by
  have sound : Sound jsonb log c.shared := (holds reached).inv
  refine ⟨sound.rows, fun c' later => ?_⟩
  have grows : versions.Grows c.shared.rows c'.shared.rows := by
    refine later.invariant (J := fun now => versions.Grows c.shared.rows now.shared.rows)
      (Versioning.Grows.refl _) ?_
    intro now l after earlier grown step _
    have here : Sound jsonb log now.shared := (holds (reached.trans earlier)).inv
    cases step with
    | spawn admitted => exact grown
    | call found stands served =>
        exact grown.trans (ProjectionDb.serves_extends served here.orderly).2.rows
    | environment acted =>
        exact grown.trans (ProjectionDb.abandoned_extends acted here.orderly).2.rows
  exact fun key row found => grows (.document key) row found

end Projectors

/-! ## A small log: an index result that came before its document -/

namespace Projectors.Sample

def indexed : DocumentEvent where
  v := documentContractVersion
  eventId := "e1"
  tenantId := "acme"
  documentId := "doc-1"
  actor := .system "indexer"
  version := 1
  ts := 1767225600000000
  payload := .documentIndexed ⟨1, 7, "m"⟩

def created : DocumentEvent where
  v := documentContractVersion
  eventId := "e2"
  tenantId := "acme"
  documentId := "doc-1"
  actor := .user "ann"
  version := 1
  ts := 1767225600000000
  payload := .documentCreated ⟨"u1", "a.txt", "text/plain", 4, "sha256:9f86", {}⟩

def bytes (text : String) : List UInt8 := text.toUTF8.data.toList

def indexedText : String :=
  "\x7b\"v\":1,\"event_id\":\"e1\",\"tenant_id\":\"acme\",\"document_id\":\"doc-1\"," ++
  "\"actor\":\x7b\"kind\":\"system\",\"component\":\"indexer\"\x7d,\"version\":1," ++
  "\"ts\":\"2026-01-01T00:00:00Z\",\"payload\":\x7b\"type\":\"document_indexed\"," ++
  "\"for_version\":1,\"vector_count\":7,\"embedding_model\":\"m\"\x7d\x7d"

def createdText : String :=
  "\x7b\"v\":1,\"event_id\":\"e2\",\"tenant_id\":\"acme\",\"document_id\":\"doc-1\"," ++
  "\"actor\":\x7b\"kind\":\"user\",\"user_id\":\"ann\"\x7d,\"version\":1," ++
  "\"ts\":\"2026-01-01T00:00:00Z\",\"payload\":\x7b\"type\":\"document_created\"," ++
  "\"blob_ref\":\"u1\",\"filename\":\"a.txt\",\"content_type\":\"text/plain\"," ++
  "\"byte_size\":4,\"checksum\":\"sha256:9f86\",\"patch\":\x7b\x7d\x7d\x7d"

/-- What both texts parse to, but for the actor and the payload. -/
def envelope (eventId : String) (actor payload : Json) : Json :=
  .object [("actor", actor), ("document_id", .string "doc-1"), ("event_id", .string eventId),
    ("payload", payload), ("tenant_id", .string "acme"), ("ts", .string "2026-01-01T00:00:00Z"),
    ("v", .number "1"), ("version", .number "1")]

def indexedJson : Json :=
  envelope "e1" (.object [("component", .string "indexer"), ("kind", .string "system")])
    (.object [("embedding_model", .string "m"), ("for_version", .number "1"),
      ("type", .string "document_indexed"), ("vector_count", .number "7")])

def createdJson : Json :=
  envelope "e2" (.object [("kind", .string "user"), ("user_id", .string "ann")])
    (.object [("blob_ref", .string "u1"), ("byte_size", .number "4"),
      ("checksum", .string "sha256:9f86"), ("content_type", .string "text/plain"),
      ("filename", .string "a.txt"), ("patch", .object []), ("type", .string "document_created")])

def eventIdOf : Json → Option String
  | .object members => (members.lookup "event_id").bind stringFromValue
  | _ => none

/-- The codec on the payloads of this log. -/
def codec : Codec where
  fromSlice payload :=
    if payload = bytes indexedText then .ok indexedJson
    else if payload = bytes createdText then .ok createdJson
    else .error "expected value at line 1 column 1"
  fromValue raw :=
    if eventIdOf raw = some "e1" then .ok indexed
    else if eventIdOf raw = some "e2" then .ok created
    else .error "missing field"
  toValue event := if event.eventId = "e1" then some indexedJson else some createdJson

/-- CRC-32 of the one document. -/
def crc32 (text : String) : Nat := if text = "doc-1" then 4071681641 else 0

def messages : List Message :=
  [⟨1, eventSubject crc32 "acme" "doc-1", bytes indexedText⟩,
    ⟨2, eventSubject crc32 "acme" "doc-1", bytes createdText⟩,
    ⟨3, eventSubject crc32 "acme" "doc-1", bytes "not json at all"⟩]

theorem decode_indexed : decodeEvent codec (bytes indexedText) = .event indexed := by
  have id : eventIdOf indexedJson = some "e1" := by decide +kernel
  simp [decodeEvent, codec, id]

theorem decode_created : decodeEvent codec (bytes createdText) = .event created := by
  have other : bytes createdText ≠ bytes indexedText := by decide +kernel
  have id : eventIdOf createdJson = some "e2" := by decide +kernel
  simp [decodeEvent, codec, other, id]

theorem decode_malformed : decodeEvent codec (bytes "not json at all") =
    .malformed "expected value at line 1 column 1" := by
  have other : bytes "not json at all" ≠ bytes indexedText := by decide +kernel
  have other' : bytes "not json at all" ≠ bytes createdText := by decide +kernel
  simp [decodeEvent, codec, other, other']

/-- The events of this log are of the one document, with small counters. -/
theorem decoded {m : Message} (mem : m ∈ messages) {event : DocumentEvent}
    (carries : decodeEvent codec m.payload = .event event) :
    event.streamKey = ("acme", "doc-1") ∧ event.Bounded := by
  simp only [messages, List.mem_cons, List.not_mem_nil, or_false] at mem
  rcases mem with rfl | rfl | rfl
  · cases decode_indexed.symm.trans carries
    exact ⟨rfl, by simp [DocumentEvent.Bounded, indexed]⟩
  · cases decode_created.symm.trans carries
    exact ⟨rfl, by simp [DocumentEvent.Bounded, created]⟩
  · cases decode_malformed.symm.trans carries

def log : EventLog codec crc32 where
  messages := messages
  increasing := by decide
  positive := by decide
  small := by decide
  addressed m mem := by
    refine ⟨"acme", "doc-1", by decide, by decide, ?_, fun event carries => (decoded mem carries).1⟩
    simp only [messages, List.mem_cons, List.not_mem_nil, or_false] at mem
    rcases mem with rfl | rfl | rfl <;> rfl
  bounded m mem event carries := (decoded mem carries).2

/-- The JSON of this log comes back as it went in. -/
def jsonb : Jsonb := .verbatim

def projector (batchSize left : Nat) : Projector :=
  ⟨⟨"document-pg", batchSize, fun states => states, fun _ => .refl _⟩, left⟩

def truthfully : (projectors jsonb log).Reply where
  answer op db := ProjectionDb.answer jsonb log db op
  after op db := ProjectionDb.after jsonb db op
  lawful _ op db := ProjectionDb.serves_answer jsonb log db op

end Projectors.Sample

namespace Projectors

/-- One loop folds the log in one batch while another, which read no checkpoint,
replays it in two and leaves a lower checkpoint in between. -/
theorem table_isFold_of_two_loops :
    ∃ c, (projectors Sample.jsonb Sample.log).Reaches System.anyStep ⟨Database.empty, []⟩ c ∧
      c.tasks.map (fun t => t.rest.returned) = [some (.ok ()), some (.ok ())] ∧
      ∃ row, c.shared.rows (.document ("acme", "doc-1")) = some row ∧ row.streamSeq = 2 ∧
        ∃ state, Sample.log.foldTo ("acme", "doc-1") (clampU64 row.streamSeq) = some state ∧
          row = bindRow Sample.jsonb state := by
  have start : (projectors Sample.jsonb Sample.log).Reaches System.anyStep ⟨Database.empty, []⟩
      ⟨Database.empty, []⟩ := System.Reaches.refl _
  have both := (start.spawned (Sample.projector 3 1) trivial trivial).spawned
    (Sample.projector 2 2) trivial trivial
  obtain ⟨c, run, returned, stands⟩ : ∃ c,
      (projectors Sample.jsonb Sample.log).Reaches System.anyStep ⟨Database.empty, []⟩ c ∧
      c.tasks.map (fun t => t.rest.returned) = [some (.ok ()), some (.ok ())] ∧
      (c.shared.rows (.document ("acme", "doc-1"))).map (fun row => row.streamSeq) = some 2 :=
    ⟨_, both.replies Sample.truthfully
      (List.replicate 5 1 ++ List.replicate 20 0 ++ List.replicate 20 1), by decide +kernel⟩
  obtain ⟨row, found, seq⟩ := Option.map_eq_some_iff.mp stands
  exact ⟨c, run, returned, row, found, seq, (table_isFold run).1 _ row found⟩

end Projectors

end Delphi.Document
