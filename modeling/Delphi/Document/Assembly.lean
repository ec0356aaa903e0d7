/-
# Delphi.Document.Assembly -- the bytes a version names are the file's

A client puts parts of its file into a multipart, in any order, again and again,
while deliveries list, complete, abort and delete.  A completion assembles the parts
it names, in order, and nobody tells the worker which parts there should be: it
lists what storage holds, and all that shows a missing part is the count of the
bytes the scanner read.

Deliveries run here over a blob store as well, beside clients and the reaper.  Its
listings and heads may answer anything and a scan may stop short of the object's end.
Still, every event that introduces a blob carries the digest and the size of the file
that was uploaded, and what is stored under its key is the file
(`logged_bytes_are_the_file`).
-/
import Delphi.Theory.Slices
import Delphi.Document.Evidence
import Delphi.Document.Scanner

namespace Delphi.Document

open Delphi.Theory
open UploadFinisher

set_option autoImplicit false

/-! ## The blob store -/

structure StoredPart where
  partNumber : Nat
  etag : String
  bytes : List UInt8

/-- Multiparts that are open, by key and id, and objects.  `assembled` is what was last
assembled under a key, `opened` the keys a multipart was ever opened for. -/
structure BlobState where
  multiparts : String × String → Option (List StoredPart)
  objects : String → Option (List UInt8)
  assembled : String → Option (List UInt8)
  opened : List String

namespace BlobState

def empty : BlobState := ⟨fun _ => none, fun _ => none, fun _ => none, []⟩

def begin (b : BlobState) (key upload : String) : BlobState :=
  { b with
    multiparts := Function.update b.multiparts (key, upload) (some [])
    opened := key :: b.opened }

/-- A part replaces the one of its number. -/
def put (b : BlobState) (key upload : String) (stored : List StoredPart) (part : StoredPart) :
    BlobState :=
  { b with
    multiparts := Function.update b.multiparts (key, upload)
      (some (stored.filter (fun other => other.partNumber ≠ part.partNumber) ++ [part])) }

def abort (b : BlobState) (key upload : String) : BlobState :=
  { b with multiparts := Function.update b.multiparts (key, upload) none }

def remove (b : BlobState) (key : String) : BlobState :=
  { b with objects := Function.update b.objects key none }

def complete (b : BlobState) (key upload : String) (bytes : List UInt8) : BlobState :=
  { b with
    multiparts := Function.update b.multiparts (key, upload) none
    objects := Function.update b.objects key (some bytes)
    assembled := Function.update b.assembled key (some bytes) }

/-- The stored part a completion names. -/
def pick (stored : List StoredPart) (part : CompletedPart) : Option StoredPart :=
  stored.find? fun other => other.partNumber = part.partNumber ∧ other.etag = part.etag

theorem pick_eq_some {stored : List StoredPart} {part : CompletedPart} {held : StoredPart}
    (found : pick stored part = some held) :
    held ∈ stored ∧ held.partNumber = part.partNumber := by
  unfold pick at found
  have named := List.find?_some found
  simp only [decide_eq_true_eq] at named
  exact ⟨List.mem_of_find?_eq_some found, named.1⟩

/-- A completion names stored parts, in ascending order. -/
structure Completable (stored : List StoredPart) (parts : List CompletedPart)
    (picked : List StoredPart) : Prop where
  ascending : parts.Pairwise fun part other => part.partNumber < other.partNumber
  found : parts.mapM (pick stored) = some picked

end BlobState

/-! ## Files -/

/-- The file each object key was opened for, and the part size its client was given. -/
structure Files (site : Site) where
  file : String → List UInt8
  partSize : String → Nat
  positive : ∀ key, 0 < partSize key
  small : ∀ key, (file key).length < 2 ^ 64
  declared : ∀ {command}, site.publishes command →
    command.declaredSize = (file command.storageKey).length
  storageKey : ∀ {command}, site.publishes command →
    command.storageKey = Keys.objectKey command.tenantId command.uploadId

namespace Files

variable {site : Site} (files : Files site)

/-- A part of the file, as `getChunkSize` cuts it. -/
structure Cuts (key : String) (part : StoredPart) : Prop where
  isPart : IsPart (files.partSize key) (files.file key) part.partNumber
  bytes : part.bytes = slice (files.partSize key) (files.file key) part.partNumber

/-- What the blob store may do, of itself or asked to. -/
inductive Moves (b : BlobState) : BlobState → Prop where
  | begun (key upload : String) (new : key ∉ b.opened) : Moves b (b.begin key upload)
  | put (key upload : String) {stored : List StoredPart} (part : StoredPart)
      (open_ : b.multiparts (key, upload) = some stored) (cuts : files.Cuts key part) :
      Moves b (b.put key upload stored part)
  | completed (key upload : String) {stored picked : List StoredPart} (parts : List CompletedPart)
      (open_ : b.multiparts (key, upload) = some stored)
      (completable : BlobState.Completable stored parts picked) :
      Moves b (b.complete key upload (picked.flatMap StoredPart.bytes))
  | aborted (key upload : String) : Moves b (b.abort key upload)
  | removed (key : String) : Moves b (b.remove key)

/-- A call for the blob store or the scanner; each may do nothing. -/
def serves (sha : List UInt8 → List UInt8) (b : BlobState) : (op : PortCall) → op.Ans →
    BlobState → Prop
  | .completeMultipart key upload parts, answer, b' =>
      (answer ≠ .ok () ∧ b' = b) ∨ ∃ stored picked, b.multiparts (key, upload) = some stored ∧
        BlobState.Completable stored parts picked ∧
        b' = b.complete key upload (picked.flatMap StoredPart.bytes)
  | .abortMultipart key upload, _, b' => b' = b.abort key upload ∨ b' = b
  | .delete key, _, b' => b' = b.remove key ∨ b' = b
  | .openRead key, answer, b' =>
      b' = b ∧ ∀ reader, answer = .ok reader → b.objects key = some reader
  | .scan reader, answer, b' => b' = b ∧ ∀ outcome, answer = .ok outcome →
      ∃ read, read <+: reader ∧ outcome = PermissiveScanner.wholeScan sha read
  | _, _, b' => b' = b

theorem moves_of_served {sha : List UInt8 → List UInt8} {b b' : BlobState} {op : PortCall}
    {answer : op.Ans} (served : serves sha b op answer b') : b' = b ∨ files.Moves b b' := by
  cases op with
  | completeMultipart key upload parts =>
      rcases served with ⟨-, same⟩ | ⟨stored, picked, open_, completable, rfl⟩
      · exact .inl same
      · exact .inr (.completed key upload parts open_ completable)
  | abortMultipart key upload =>
      rcases served with rfl | same
      · exact .inr (.aborted key upload)
      · exact .inl same
  | delete key =>
      rcases served with rfl | same
      · exact .inr (.removed key)
      · exact .inl same
  | openRead key => exact .inl served.1
  | scan reader => exact .inl served.1
  | _ => exact .inl served

/-! ## What is assembled -/

/-- Parts of the file, in order. -/
def Pieces (key : String) (bytes : List UInt8) : Prop :=
  ∃ numbers, InOrder (files.partSize key) (files.file key) numbers ∧
    bytes = (numbers.map (slice (files.partSize key) (files.file key))).flatten

variable {files} in
theorem Pieces.length_le {key : String} {bytes : List UInt8} (pieces : files.Pieces key bytes) :
    bytes.length ≤ (files.file key).length := by
  obtain ⟨numbers, inOrder, rfl⟩ := pieces
  exact length_slices_le (files.positive key) inOrder

variable {files} in
/-- Pieces as long as the file are the file. -/
theorem Pieces.eq_file {key : String} {bytes : List UInt8} (pieces : files.Pieces key bytes)
    (length : (files.file key).length ≤ bytes.length) : bytes = files.file key := by
  obtain ⟨numbers, inOrder, rfl⟩ := pieces
  exact flatten_slices_eq (files.positive key) inOrder length

/-- The parts picked are stored, and have the numbers named.  By induction on the parts named. -/
theorem picked_of_completable {stored picked : List StoredPart} {parts : List CompletedPart}
    (found : parts.mapM (BlobState.pick stored) = some picked) :
    picked.map StoredPart.partNumber = parts.map CompletedPart.partNumber ∧
      ∀ part ∈ picked, part ∈ stored := by
  induction parts generalizing picked with
  | nil =>
      obtain rfl := Option.some.inj found
      exact ⟨rfl, fun _ mem => nomatch mem⟩
  | cons part parts ih =>
      rw [List.mapM_cons] at found
      obtain ⟨first, here, found⟩ := Option.bind_eq_some_iff.mp found
      obtain ⟨rest, later, found⟩ := Option.bind_eq_some_iff.mp found
      obtain rfl := Option.some.inj found
      obtain ⟨same, within⟩ := ih later
      obtain ⟨held, number⟩ := BlobState.pick_eq_some here
      refine ⟨by rw [List.map_cons, List.map_cons, same, number], fun other mem => ?_⟩
      rcases List.mem_cons.mp mem with rfl | old
      · exact held
      · exact within other old

/-- What a completion assembles, where storage holds parts of the file. -/
theorem slices_of_completable {key : String} {stored picked : List StoredPart}
    {parts : List CompletedPart} (cut : ∀ part ∈ stored, files.Cuts key part)
    (completable : BlobState.Completable stored parts picked) :
    InOrder (files.partSize key) (files.file key) (parts.map CompletedPart.partNumber) ∧
      picked.flatMap StoredPart.bytes = ((parts.map CompletedPart.partNumber).map
        (slice (files.partSize key) (files.file key))).flatten := by
  obtain ⟨ascending, found⟩ := completable
  obtain ⟨numbers, within⟩ := picked_of_completable found
  rw [← numbers]
  refine ⟨⟨?_, ?_⟩, ?_⟩
  · rw [numbers, List.pairwise_map]
    exact ascending
  · intro n mem
    obtain ⟨part, inPicked, rfl⟩ := List.mem_map.mp mem
    exact (cut part (within part inPicked)).isPart
  · rw [List.map_map, List.flatMap]
    congr 1
    exact List.map_congr_left fun part mem => (cut part (within part mem)).bytes

theorem pieces_of_completable {key : String} {stored picked : List StoredPart}
    {parts : List CompletedPart} (cut : ∀ part ∈ stored, files.Cuts key part)
    (completable : BlobState.Completable stored parts picked) :
    files.Pieces key (picked.flatMap StoredPart.bytes) :=
  ⟨_, files.slices_of_completable cut completable⟩

/-- A listing that leaves no part out, completed, is the file. -/
theorem file_of_completable {key : String} {stored picked : List StoredPart}
    {listed : List UploadedPart} (cut : ∀ part ∈ stored, files.Cuts key part)
    (completable : BlobState.Completable stored (completedParts listed) picked)
    (all : ∀ n, IsPart (files.partSize key) (files.file key) n →
      n ∈ listed.map UploadedPart.partNumber) :
    picked.flatMap StoredPart.bytes = files.file key := by
  obtain ⟨inOrder, assembled⟩ := files.slices_of_completable cut completable
  rw [assembled]
  refine flatten_slices_of_all (files.positive key) inOrder fun n isPart => ?_
  obtain ⟨part, mem, rfl⟩ := List.mem_map.mp (all n isPart)
  refine List.mem_map.mpr ⟨⟨part.partNumber, part.etag⟩, ?_, rfl⟩
  exact List.mem_mergeSort.mpr (List.mem_map_of_mem mem)

/-! ## The invariant -/

/-- Open multiparts hold parts of the file; a key has one multipart in all, and what was
assembled under it are pieces of the file. -/
structure Sound (b : BlobState) : Prop where
  cut : ∀ key upload stored, b.multiparts (key, upload) = some stored →
    ∀ part ∈ stored, files.Cuts key part
  known : ∀ key upload stored, b.multiparts (key, upload) = some stored → key ∈ b.opened
  unassembled : ∀ key upload stored, b.multiparts (key, upload) = some stored →
    b.assembled key = none
  single : ∀ key upload upload' stored stored', b.multiparts (key, upload) = some stored →
    b.multiparts (key, upload') = some stored' → upload = upload'
  remembered : ∀ key bytes, b.assembled key = some bytes → key ∈ b.opened
  stored : ∀ key bytes, b.objects key = some bytes → b.assembled key = some bytes
  pieces : ∀ key bytes, b.assembled key = some bytes → files.Pieces key bytes

variable {files} {b b' : BlobState}

theorem sound_empty : files.Sound .empty :=
  ⟨nofun, nofun, nofun, nofun, nofun, nofun, nofun⟩

/-- One multipart less, or one with other parts of the file. -/
theorem Sound.replaced (sound : files.Sound b) (key upload : String)
    (entry : Option (List StoredPart))
    (cut : ∀ stored, entry = some stored → (b.multiparts (key, upload)).isSome = true ∧
      ∀ part ∈ stored, files.Cuts key part) :
    files.Sound { b with multiparts := Function.update b.multiparts (key, upload) entry } := by
  have was : ∀ {key' upload' stored}, Function.update b.multiparts (key, upload) entry
      (key', upload') = some stored →
      (∃ before, b.multiparts (key', upload') = some before) ∧
      ∀ part ∈ stored, files.Cuts key' part := by
    intro key' upload' stored found
    by_cases same : (key', upload') = (key, upload)
    · rw [same, Function.update_self] at found
      obtain ⟨rfl, rfl⟩ := Prod.mk.inj same
      exact ⟨Option.isSome_iff_exists.mp (cut stored found).1, (cut stored found).2⟩
    · rw [Function.update_of_ne same] at found
      exact ⟨⟨stored, found⟩, sound.cut _ _ _ found⟩
  refine ⟨fun _ _ _ found => (was found).2, fun _ _ _ found => ?_, fun _ _ _ found => ?_,
    fun _ _ _ _ _ found found' => ?_, sound.remembered, sound.stored, sound.pieces⟩
  · obtain ⟨before, old⟩ := (was found).1
    exact sound.known _ _ _ old
  · obtain ⟨before, old⟩ := (was found).1
    exact sound.unassembled _ _ _ old
  · obtain ⟨before, old⟩ := (was found).1
    obtain ⟨before', old'⟩ := (was found').1
    exact sound.single _ _ _ _ _ old old'

theorem Sound.begin (sound : files.Sound b) {key : String} (upload : String)
    (new : key ∉ b.opened) : files.Sound (b.begin key upload) := by
  -- A multipart of the new state is the empty one of the key, or an old one of another key.
  have was : ∀ {key' upload' stored},
      (b.begin key upload).multiparts (key', upload') = some stored →
      key' = key ∧ upload' = upload ∧ stored = [] ∨
        key' ≠ key ∧ b.multiparts (key', upload') = some stored := by
    intro key' upload' stored found
    unfold BlobState.begin at found
    by_cases same : (key', upload') = (key, upload)
    · rw [same] at found
      simp only [Function.update_self] at found
      obtain ⟨rfl, rfl⟩ := Prod.mk.inj same
      exact .inl ⟨rfl, rfl, (Option.some.inj found).symm⟩
    · simp only [Function.update_of_ne same] at found
      exact .inr ⟨fun again => new (again ▸ sound.known _ _ _ found), found⟩
  refine ⟨fun _ _ _ found => ?_, fun _ _ _ found => ?_, fun _ _ _ found => ?_,
    fun _ _ _ _ _ found found' => ?_, fun _ _ found => ?_, sound.stored, sound.pieces⟩
  · rcases was found with ⟨-, -, rfl⟩ | ⟨-, old⟩
    · exact fun _ mem => nomatch mem
    · exact sound.cut _ _ _ old
  · rcases was found with ⟨rfl, -, -⟩ | ⟨-, old⟩
    · exact List.mem_cons_self
    · exact List.mem_cons_of_mem _ (sound.known _ _ _ old)
  · rcases was found with ⟨rfl, -, -⟩ | ⟨-, old⟩
    · show b.assembled _ = none
      exact Option.eq_none_iff_forall_ne_some.mpr fun bytes had =>
        new (sound.remembered _ bytes had)
    · exact sound.unassembled _ _ _ old
  · rcases was found with ⟨rfl, rfl, -⟩ | ⟨other, old⟩
    · rcases was found' with ⟨-, rfl, -⟩ | ⟨other, -⟩
      · rfl
      · exact absurd rfl other
    · rcases was found' with ⟨same, -, -⟩ | ⟨-, old'⟩
      · exact absurd same other
      · exact sound.single _ _ _ _ _ old old'
  · exact List.mem_cons_of_mem _ (sound.remembered _ _ found)

theorem Sound.remove (sound : files.Sound b) (key : String) : files.Sound (b.remove key) := by
  refine ⟨sound.cut, sound.known, sound.unassembled, sound.single, sound.remembered, ?_,
    sound.pieces⟩
  intro key' bytes found
  unfold BlobState.remove at found
  by_cases same : key' = key
  · subst same
    simp at found
  · simp only [Function.update_of_ne same] at found
    exact sound.stored key' bytes found

theorem Sound.complete (sound : files.Sound b) {key upload : String} {stored : List StoredPart}
    (open_ : b.multiparts (key, upload) = some stored) {bytes : List UInt8}
    (pieces : files.Pieces key bytes) : files.Sound (b.complete key upload bytes) := by
  have closed := sound.replaced key upload none fun _ impossible => nomatch impossible
  -- No other multipart of the key is open.
  have others : ∀ {key' upload' stored'},
      Function.update b.multiparts (key, upload) none (key', upload') = some stored' →
      key' ≠ key := by
    intro key' upload' stored' found same
    subst same
    by_cases same : upload' = upload
    · subst same
      simp at found
    · rw [Function.update_of_ne fun pair => same (Prod.mk.inj pair).2] at found
      exact same (sound.single _ _ _ _ _ found open_)
  refine ⟨closed.cut, closed.known, fun key' upload' stored' found => ?_, closed.single,
    fun key' bytes' found => ?_, fun key' bytes' found => ?_, fun key' bytes' found => ?_⟩
  · show Function.update b.assembled key (some bytes) key' = none
    rw [Function.update_of_ne (others found)]
    exact closed.unassembled key' upload' stored' found
  · by_cases same : key' = key
    · subst same
      exact sound.known _ _ _ open_
    · exact sound.remembered key' bytes' (by simpa [BlobState.complete, same] using found)
  · by_cases same : key' = key
    · subst same
      simpa [BlobState.complete] using found
    · simp only [BlobState.complete, Function.update_of_ne same] at found ⊢
      exact sound.stored key' bytes' found
  · by_cases same : key' = key
    · subst same
      obtain rfl : bytes = bytes' := by simpa [BlobState.complete] using found
      exact pieces
    · exact sound.pieces key' bytes' (by simpa [BlobState.complete, same] using found)

/-- The step lemma: soundness is kept, and what was assembled stays what it was. -/
theorem Sound.moves (sound : files.Sound b) (moves : files.Moves b b') :
    files.Sound b' ∧ ∀ key bytes, b.assembled key = some bytes → b'.assembled key = some bytes := by
  cases moves with
  | begun key upload new => exact ⟨sound.begin upload new, fun _ _ had => had⟩
  | @put key upload stored part open_ cuts =>
      refine ⟨sound.replaced key upload _ ?_, fun _ _ had => had⟩
      rintro _ ⟨⟩
      refine ⟨by rw [open_]; rfl, fun other mem => ?_⟩
      rcases List.mem_append.mp mem with old | new
      · exact sound.cut _ _ _ open_ other (List.mem_of_mem_filter old)
      · exact List.mem_singleton.mp new ▸ cuts
  | @completed key upload stored picked parts open_ completable =>
      have pieces := files.pieces_of_completable (sound.cut _ _ _ open_) completable
      refine ⟨sound.complete open_ pieces, fun key' bytes had => ?_⟩
      by_cases same : key' = key
      · rw [same, sound.unassembled _ _ _ open_] at had
        cases had
      · simpa [BlobState.complete, same] using had
  | aborted key upload =>
      have closed := sound.replaced key upload none fun _ impossible => nomatch impossible
      exact ⟨closed, fun _ _ had => had⟩
  | removed key => exact ⟨sound.remove key, fun _ _ had => had⟩

end Files

/-! ## What is scanned was read back -/

namespace UploadFinisher

/-- A scan is of what the object's key was read as. -/
def ReadsBack (command : UploadCompleted) (trace : Trace Ports) : PortCall → Prop
  | .scan reader => (⟨.openRead command.storageKey, .ok reader⟩ : Call Ports) ∈ trace
  | _ => True

section Paths

variable {digest : String → String} {command : UploadCompleted}
  {A : Trace Ports → (op : PortCall) → op.Ans → Prop} {trace : Trace Ports}

/-- Every path of a piece reads back what it scans. -/
abbrev Back {α : Type} (A : Trace Ports → (op : PortCall) → op.Ans → Prop)
    (command : UploadCompleted) (trace : Trace Ports) (p : Program Ports α) : Prop :=
  Along A (ReadsBack command) (fun _ _ => True) trace p

theorem back_record (status : UploadStatus) : Back A command trace (record command status) := by
  refine along_perform trivial fun now _ => ?_
  refine Along.bind (Q := fun _ _ => True) ?_ fun _ _ _ => trivial
  exact (Transition.along_setStatus _ (fun _ _ _ => trivial) fun _ _ _ _ _ => trivial).imp
    fun _ _ _ => trivial

theorem back_accept (version : Nat) (superseded : Bool) :
    Back A command trace (accept command version superseded) :=
  Along.bind (back_record _) fun _ _ _ => trivial

theorem back_reclaim : Back A command trace (reclaim command) :=
  ⟨trivial, fun _ _ => ⟨trivial, fun _ _ => trivial⟩⟩

theorem back_reject (reason : String) : Back A command trace (reject command reason) :=
  Along.bind back_reclaim fun _ _ _ => Along.bind (back_record _) fun _ _ _ => trivial

theorem back_appendCreated (sha256Hex : String) :
    Back A command trace (appendCreated digest command sha256Hex) := by
  refine along_perform trivial fun ts _ => ?_
  refine Along.bind (along_appendCreate trivial fun _ => trivial) fun reached result _ => ?_
  rcases result with error | appended
  · cases error with
    | alreadyCreated =>
        refine along_perform trivial fun answer _ => ?_
        rcases answer with error | (_ | ⟨version, seq⟩)
        · trivial
        · trivial
        · exact back_accept _ _
    | _ => trivial
  · exact back_accept _ _

theorem back_appendReplaced (sha256Hex : String) :
    Back A command trace (appendReplaced digest command sha256Hex) := by
  refine along_perform trivial fun answer _ => ?_
  rcases answer with error | history
  · trivial
  dsimp only
  cases findApplied history command.uploadId with
  | some entry => exact back_accept _ _
  | none =>
      dsimp only
      cases foldHistory history with
      | error error => exact back_reject _
      | ok result =>
          cases result with
          | none => exact back_reject _
          | some state =>
              dsimp only
              cases refusesVersion command state.version with
              | true => exact back_reject _
              | false =>
                  refine along_perform trivial fun now _ => ?_
                  refine Along.bind (along_appendUpdateFrom (fun _ _ => trivial)
                    (fun _ _ _ _ => trivial) updateAttempts List.prefix_rfl
                    (notRead_snoc (by simp))) fun reached result _ => ?_
                  cases result with
                  | ok appended => exact back_accept _ _
                  | error error => trivial

theorem back_scanAndAppend : Back A command trace (scanAndAppend digest command) := by
  refine along_perform trivial fun answer _ => ?_
  rcases answer with error | reader
  · trivial
  refine along_perform (List.mem_append_right _ (List.mem_singleton_self _)) fun answer _ => ?_
  rcases answer with error | ⟨verdict, sha256Hex, byteCount⟩
  · trivial
  cases verdict with
  | infected signature => exact back_reject _
  | clean =>
      dsimp only
      split
      · exact back_reject _
      · cases command.mode with
        | create => exact back_appendCreated sha256Hex
        | replace => exact back_appendReplaced sha256Hex

theorem back_inspect (head : BlobHead) : Back A command trace (inspect digest command head) := by
  unfold inspect
  split
  · exact back_reject _
  · refine along_perform trivial fun answer _ => ?_
    rcases answer with error | beginning
    · trivial
    refine along_perform trivial fun answer _ => ?_
    rcases answer with error | (_ | reason)
    · trivial
    · exact back_scanAndAppend
    · exact back_reject _

theorem back_settleByHead : Back A command trace (settleByHead command) := by
  refine along_perform trivial fun answer _ => ?_
  rcases answer with error | (_ | head)
  · trivial
  · exact Along.bind (back_reject _) fun _ _ _ => trivial
  · trivial

theorem back_assemble : Back A command trace (assemble command) := by
  refine along_perform trivial fun answer _ => ?_
  rcases answer with error | (_ | (_ | ⟨part, parts⟩))
  · trivial
  · exact back_settleByHead
  · exact Along.bind (back_reject _) fun _ _ _ => trivial
  · refine along_perform trivial fun answer _ => ?_
    rcases answer with ⟨kind, message⟩ | _
    · cases kind with
      | noSuchUpload => exact back_settleByHead
      | transient => trivial
      | invalidParts | notFound | permanent =>
          exact Along.bind (back_reject _) fun _ _ _ => trivial
    · trivial

theorem back_pipeline : Back A command trace (pipeline digest command) := by
  refine Along.bind back_assemble fun reached assembled _ => ?_
  rcases assembled with (_ | head) | outcome
  · refine along_perform trivial fun answer _ => ?_
    rcases answer with error | (_ | head)
    · trivial
    · exact back_reject _
    · exact back_inspect head
  · exact back_inspect head
  · trivial

theorem back_discardExpired : Back A command trace (discardExpired command) := by
  refine along_perform trivial fun answer _ => ?_
  rcases answer with error | history
  · trivial
  dsimp only
  cases findApplied history command.uploadId with
  | some entry => trivial
  | none => exact Along.bind back_reclaim fun _ _ _ => trivial

theorem back_run : Back A command [] (run digest command) := by
  refine (along_bind _ _ _).mpr ((along_bind _ _ _).mpr (Transition.along_get trivial ?_ ?_ ?_))
  · intro state revision
    dsimp only
    split
    · exact back_discardExpired
    · rw [Program.pure_eq, along_ret]
      dsimp only
      split
      · trivial
      · exact back_pipeline
  · exact fun entry gone => back_discardExpired
  · exact fun error error' => trivial

theorem back_finish {finalDelivery : Bool} :
    Back A command [] (finish digest command finalDelivery) := by
  refine Along.bind back_run fun reached outcome _ => ?_
  cases outcome with
  | accepted documentId version superseded => trivial
  | rejected reason => trivial
  | retry error =>
      dsimp only
      split
      · exact back_reject _
      · trivial

end Paths

end UploadFinisher

/-! ## Runs -/

section Run

variable {site : Site} {files : Files site} {sha : List UInt8 → List UInt8}

/-- Deliveries over the log, the records and the blob store, beside whoever moves them. -/
def storing (files : Files site) (sha : List UInt8 → List UInt8) :
    System Ports (World × BlobState) Delivery FinishOutcome where
  main := site.system.main
  admits s delivery := site.system.admits s.1 delivery
  serves n op s answer s' :=
    site.system.serves n op s.1 answer s'.1 ∧ Files.serves sha s.2 op answer s'.2
  environment s s' :=
    (site.system.environment s.1 s'.1 ∧ s'.2 = s.2) ∨ (s'.1 = s.1 ∧ files.Moves s.2 s'.2)

abbrev StoringRun := Config Ports (World × BlobState) Delivery FinishOutcome

/-- What a read of an object, and a scan, tell from then on. -/
def Told (sha : List UInt8 → List UInt8) (b : BlobState) : (op : PortCall) → op.Ans → Prop
  | .openRead key, .ok reader => b.assembled key = some reader
  | .scan reader, .ok outcome =>
      ∃ read, read <+: reader ∧ outcome = PermissiveScanner.wholeScan sha read
  | _, _ => True

theorem told_of_served {b b' : BlobState} {op : PortCall} {answer : op.Ans}
    (sound : files.Sound b) (served : Files.serves sha b op answer b') : Told sha b' op answer := by
  cases op with
  | openRead key =>
      obtain ⟨rfl, stored⟩ := served
      cases answer with
      | error error => trivial
      | ok reader => exact sound.stored key reader (stored reader rfl)
  | scan reader =>
      cases answer with
      | error error => trivial
      | ok outcome => exact served.2 outcome rfl
  | _ => trivial

theorem told_grows {b b' : BlobState}
    (grows : ∀ key bytes, b.assembled key = some bytes → b'.assembled key = some bytes)
    (op : PortCall) (answer : op.Ans) (told : Told sha b op answer) : Told sha b' op answer := by
  cases op with
  | openRead key =>
      cases answer with
      | error error => trivial
      | ok reader => exact grows key reader told
  | scan reader =>
      cases answer with
      | error error => trivial
      | ok outcome => exact told
  | _ => trivial

def reading (files : Files site) (sha : List UInt8 → List UInt8) :
    Invariants Ports (World × BlobState) Delivery where
  inv s := files.Sound s.2
  input _ delivery := site.publishes delivery.command
  fact _ s _ op answer := Told sha s.2 op answer

variable {c : StoringRun}

theorem holds_reading
    (reached : (storing files sha).Reaches System.anyStep ⟨(.empty, .empty), []⟩ c) :
    (reading files sha).Holds (storing files sha) c := by
  have kept : ∀ (w w' : World) (b b' : BlobState), files.Sound b → files.Moves b b' →
      (reading files sha).Keeps (w, b) (w', b') := by
    intro w w' b b' sound moves
    obtain ⟨sound', grows⟩ := sound.moves moves
    exact ⟨sound', fun _ known => known, fun _ _ op answer told => told_grows grows op answer told⟩
  have same : ∀ (w w' : World) (b : BlobState), files.Sound b →
      (reading files sha).Keeps (w, b) (w', b) :=
    fun w w' b sound => ⟨sound, fun _ known => known, fun _ _ _ _ told => told⟩
  have start : (reading files sha).inv (.empty, .empty) := Files.sound_empty
  refine Invariants.holds_of_reaches (I := reading files sha) start
    (fun _ _ _ admitted => admitted) ?_ ?_ reached
  · rintro c n t op next answer ⟨w', b'⟩ holds found stands ⟨-, served⟩ -
    have sound : files.Sound c.shared.2 := holds.inv
    rcases files.moves_of_served served with still | moves
    · obtain rfl : b' = c.shared.2 := still
      exact ⟨same _ _ _ sound, told_of_served sound served⟩
    · obtain ⟨sound', grows⟩ := sound.moves moves
      refine ⟨kept _ _ _ _ sound moves, ?_⟩
      show Told sha b' op answer
      exact told_of_served sound served
  · rintro c ⟨w', b'⟩ holds (⟨-, still⟩ | ⟨-, moves⟩) -
    · obtain rfl : b' = c.shared.2 := still
      exact same _ _ _ holds.inv
    · exact kept _ _ _ _ holds.inv moves

/-- A delivery that verified its object has scanned the file. -/
theorem file_of_verified {t : Task Ports Delivery FinishOutcome} {b : BlobState} {w : World}
    (sound : files.Sound b) (knows : (reading files sha).Knows (storing files sha) (w, b) t)
    {before : Trace Ports} {sha256Hex : String} (since : before <+: t.trace)
    (verified : Verified t.input.command sha256Hex before) :
    let file := files.file t.input.command.storageKey
    sha256Hex = hexEncode (sha file) ∧ b.assembled t.input.command.storageKey = some file := by
  intro file
  obtain ⟨blob, scanned⟩ := verified.scanned
  obtain ⟨earlier, later, split⟩ := List.append_of_mem (since.subset scanned)
  have along : Along (fun trace op answer => Told sha b op answer) (ReadsBack t.input.command)
      (fun _ _ => True) [] ((storing files sha).main t.input) := back_finish
  have read := along.facts knows.resumes knows.facts earlier _ _ later split
  obtain ⟨_, assembled⟩ := knows.facts.of_mem (split ▸ List.mem_append_left _ read)
  obtain ⟨_, seen, started, outcome⟩ := knows.facts.of_mem (since.subset scanned)
  have pieces := sound.pieces _ _ assembled
  have declared := files.declared knows.input
  -- The count of what was scanned is the size of the file, so nothing is missing.
  have count : seen.length % 2 ^ 64 = file.length :=
    (congrArg ScanOutcome.byteCount outcome).symm.trans declared
  have short : seen.length ≤ file.length := started.length_le.trans (pieces.length_le)
  rw [Nat.mod_eq_of_lt (short.trans_lt (files.small _))] at count
  have whole : blob = file := pieces.eq_file (count ▸ started.length_le)
  rw [whole] at started assembled
  have all : seen = file := started.eq_of_length count
  rw [all] at outcome
  exact ⟨congrArg ScanOutcome.sha256Hex outcome, assembled⟩

theorem reaches_site
    (reached : (storing files sha).Reaches System.anyStep ⟨(.empty, .empty), []⟩ c) :
    site.system.Reaches System.anyStep ⟨.empty, []⟩ ⟨c.shared.1, c.tasks⟩ := by
  have serves : ∀ n op s answer s', (storing files sha).serves n op s answer s' →
      site.system.serves n op s.1 answer s'.1 := fun _ _ _ _ _ served => served.1
  have environment : ∀ s s', (storing files sha).environment s s' →
      s'.1 = s.1 ∨ site.system.environment s.1 s'.1 := by
    rintro s s' (⟨acted, -⟩ | ⟨same, -⟩)
    · exact .inr acted
    · exact .inl same
  exact reached.project Prod.fst rfl (fun _ _ admitted => admitted) serves environment

/-- In every run, an event that introduces a blob carries the digest and the size of the file
its upload's key was opened for, and an object under that key is that file; and an upload that
is reported as accepted has such an event. -/
theorem logged_bytes_are_the_file
    (reached : (storing files sha).Reaches System.anyStep ⟨(.empty, .empty), []⟩ c) :
    (∀ key, ∀ entry ∈ c.shared.1.log.streams key, ∀ uploadId, entry.2.Names uploadId →
      let file := files.file (Keys.objectKey key.1 uploadId)
      entry.2.payload.checksum = some (checksum (hexEncode (sha file))) ∧
      entry.2.payload.byteSize = some file.length ∧
      ∀ bytes, c.shared.2.objects (Keys.objectKey key.1 uploadId) = some bytes → bytes = file) ∧
    ∀ t ∈ c.tasks, ∀ documentId version superseded,
      t.rest = .ret (.accepted documentId version superseded) →
      Named c.shared.1.log t.input.command := by
  obtain ⟨evidence, named, -⟩ := Site.verified_and_named (reaches_site reached)
  have holds := holds_reading reached
  refine ⟨?_, named⟩
  intro key entry mem uploadId names file
  obtain ⟨t, inTasks, upload, before, expect, answer, after, sha256Hex, addressed, -, split,
    verified, digest, size⟩ := evidence key entry mem uploadId names
  have knows := holds.tasks t inTasks
  have storageKey : t.input.command.storageKey = Keys.objectKey key.1 uploadId := by
    rw [files.storageKey knows.input, upload, ← addressed]
    rfl
  obtain ⟨hex, assembled⟩ := file_of_verified holds.inv knows
    (split ▸ List.prefix_append _ _) verified
  rw [storageKey] at hex assembled
  refine ⟨by rw [digest, hex], ?_, fun bytes stored => ?_⟩
  · rw [size, files.declared knows.input, storageKey]
  · have sound : files.Sound c.shared.2 := holds.inv
    exact Option.some.inj ((sound.stored _ _ stored).symm.trans assembled)

end Run

/-! ## A file in two parts -/

namespace Sample

/-- What a completion assembles. -/
def completion (b : BlobState) (key upload : String) (parts : List CompletedPart) :
    Except BlobError (List UInt8) :=
  match b.multiparts (key, upload) with
  | none => .error ⟨.noSuchUpload, "no such upload"⟩
  | some held =>
      if parts.Pairwise (fun part other => part.partNumber < other.partNumber) then
        match parts.mapM (BlobState.pick held) with
        | none => .error ⟨.invalidParts, "invalid part"⟩
        | some picked => .ok (picked.flatMap StoredPart.bytes)
      else .error ⟨.invalidParts, "invalid part order"⟩

/-- Truthful answers of a blob store that holds what was put into it. -/
def stored (sha : List UInt8 → List UInt8) (s : World × BlobState) : (op : PortCall) → op.Ans
  | .listParts key upload => .ok ((s.2.multiparts (key, upload)).map fun parts =>
      parts.map fun part => ⟨part.partNumber, part.etag, part.bytes.length⟩)
  | .completeMultipart key upload parts => (completion s.2 key upload parts).map fun _ => ()
  | .head key => .ok ((s.2.objects key).map fun bytes => ⟨bytes.length, none, 0⟩)
  | .readPrefix key len => .ok (((s.2.objects key).getD []).take len)
  | .openRead key =>
      match s.2.objects key with
      | none => .error ⟨.notFound, "no such key"⟩
      | some bytes => .ok bytes
  | .scan reader => .ok (PermissiveScanner.wholeScan sha reader)
  | op => s.1.answer 0 "" op

def storedAfter (b : BlobState) : PortCall → BlobState
  | .completeMultipart key upload parts =>
      match completion b key upload parts with
      | .ok bytes => b.complete key upload bytes
      | .error _ => b
  | .abortMultipart key upload => b.abort key upload
  | .delete key => b.remove key
  | _ => b

theorem completable_of_completion {b : BlobState} {key upload : String}
    {parts : List CompletedPart} {bytes : List UInt8}
    (assembled : completion b key upload parts = .ok bytes) :
    ∃ held picked, b.multiparts (key, upload) = some held ∧
      BlobState.Completable held parts picked ∧ bytes = picked.flatMap StoredPart.bytes := by
  unfold completion at assembled
  split at assembled
  · cases assembled
  · rename_i held open_
    split at assembled
    · rename_i ascending
      split at assembled
      · cases assembled
      · rename_i picked found
        cases assembled
        exact ⟨held, picked, open_, ⟨ascending, found⟩, rfl⟩
    · cases assembled

theorem serves_stored (sha : List UInt8 → List UInt8) (s : World × BlobState) (op : PortCall) :
    Files.serves sha s.2 op (stored sha s op) (storedAfter s.2 op) := by
  cases op with
  | completeMultipart key upload parts =>
      unfold Files.serves stored storedAfter
      dsimp only
      cases assembled : completion s.2 key upload parts with
      | error error => exact .inl ⟨by simp [Except.map], rfl⟩
      | ok bytes =>
          obtain ⟨held, picked, open_, completable, rfl⟩ := completable_of_completion assembled
          exact .inr ⟨held, picked, open_, completable, rfl⟩
  | abortMultipart key upload => exact .inl rfl
  | delete key => exact .inl rfl
  | openRead key =>
      refine ⟨rfl, fun reader same => ?_⟩
      unfold stored at same
      dsimp only at same
      cases held : s.2.objects key with
      | none =>
          rw [held] at same
          cases same
      | some bytes =>
          rw [held] at same
          exact congrArg some (Except.ok.inj same)
  | scan reader =>
      exact ⟨rfl, fun outcome same => ⟨reader, List.prefix_rfl, (Except.ok.inj same).symm⟩⟩
  | _ => rfl

def content : List UInt8 := [97, 98, 99, 100]

/-- SHA-256 of the content, as far as it is known here. -/
def contentSha256 (bytes : List UInt8) : List UInt8 :=
  if bytes = content then
    [136, 212, 38, 111, 212, 230, 51, 141, 19, 184, 69, 252, 242, 137, 87, 157, 32, 156, 137, 120,
      35, 185, 33, 125, 163, 225, 97, 147, 111, 3, 21, 137]
  else []

def files : Files site where
  file _ := content
  partSize _ := 3
  positive _ := by decide
  small _ := by decide
  declared := by
    rintro _ (rfl | rfl)
    · rfl
    · rfl
  storageKey := by
    rintro _ (rfl | rfl)
    · rfl
    · rfl

/-- Every port answers truthfully. -/
def truthful : (storing files contentSha256).Reply where
  answer op s := stored contentSha256 s op
  after op s := (s.1.after op, storedAfter s.2 op)
  lawful n op s := by
    refine ⟨?_, serves_stored contentSha256 s op⟩
    -- The log and the records answer as they do, and take any answer of the others.
    cases op with
    | append event expect => exact ⟨.answered, rfl⟩
    | last tenant documentId => exact ⟨⟨rfl, .inl rfl⟩, rfl⟩
    | readStream tenant documentId => exact ⟨⟨rfl, .inl rfl⟩, rfl⟩
    | kvEntry key => exact ⟨rfl, UploadBucket.serves_answer s.1.records (.kvEntry key)⟩
    | kvUpdate key state revision =>
        exact ⟨rfl, UploadBucket.serves_answer s.1.records (.kvUpdate key state revision)⟩
    | _ => exact ⟨rfl, rfl⟩

def head : StoredPart := ⟨1, "e1", [97, 98, 99]⟩

def tail : StoredPart := ⟨2, "e2", [100]⟩

def opened : BlobState := BlobState.empty.begin create.storageKey "m1"

/-- The second part is put first. -/
def half : BlobState := opened.put create.storageKey "m1" [] tail

def uploaded : BlobState := half.put create.storageKey "m1" [tail] head

/-- A delivery of the upload, with both parts in place. -/
def delivering : StoringRun :=
  ⟨(⟨.empty, KvBucket.put .empty (record create).ownKey (record create)⟩, uploaded),
    [site.system.started ⟨create, false⟩]⟩

theorem reaches_delivering :
    (storing files contentSha256).Reaches System.anyStep ⟨(.empty, .empty), []⟩ delivering := by
  have start : (storing files contentSha256).Reaches System.anyStep ⟨(.empty, .empty), []⟩
      ⟨(.empty, .empty), []⟩ := .refl _
  have begun := start.disturbed (.empty, opened)
    (.inr ⟨rfl, .begun create.storageKey "m1" (by simp [BlobState.empty])⟩) trivial
  have putTail := begun.disturbed (.empty, half)
    (.inr ⟨rfl, .put create.storageKey "m1" tail rfl ⟨⟨by decide, by decide⟩, by decide⟩⟩) trivial
  have putHead := putTail.disturbed (.empty, uploaded)
    (.inr ⟨rfl, .put create.storageKey "m1" head rfl ⟨⟨by decide, by decide⟩, by decide⟩⟩) trivial
  have recorded := putHead.disturbed (⟨.empty, _⟩, uploaded)
    (.inl ⟨World.Disturbed.preflight (record create) rfl rfl, rfl⟩) trivial
  exact recorded.spawned ⟨create, false⟩ (.inl rfl) trivial

/-- Storage lists the parts as they were put; the worker puts them in order. -/
theorem completedParts_uploaded :
    completedParts [⟨2, "e2", 1⟩, ⟨1, "e1", 3⟩] = [⟨1, "e1"⟩, ⟨2, "e2"⟩] := by
  simp [completedParts, List.mergeSort]

abbrev completing : PortCall :=
  .completeMultipart create.storageKey "m1" (completedParts [⟨2, "e2", 1⟩, ⟨1, "e1", 3⟩])

/-- The multipart is completed. -/
def completed (t : Task Ports Delivery FinishOutcome)
    (next : completing.Ans → Program Ports FinishOutcome) : StoringRun :=
  ⟨(delivering.shared.1, uploaded.complete create.storageKey "m1" content),
    [t.answered completing (.ok ()) next]⟩

def finished (t : Task Ports Delivery FinishOutcome)
    (next : completing.Ans → Program Ports FinishOutcome) : StoringRun :=
  (List.replicate 10 0).foldl truthful.reply (completed t next)

/-- The delivery's record is read and its parts are listed; it completes the multipart, and
goes on to its end. -/
theorem exists_finished : ∃ (t : Task Ports Delivery FinishOutcome)
    (next : completing.Ans → Program Ports FinishOutcome),
    (List.replicate 2 0).foldl truthful.reply delivering = ⟨delivering.shared, [t]⟩ ∧
    t.rest = .call completing next ∧
    (∃ u ∈ (finished t next).tasks, u.rest.returned = some (.accepted "doc" 1 false)) ∧
    (∃ entry ∈ (finished t next).shared.1.log.streams ("acme", "doc"), entry.2.Names "u1") ∧
    ((finished t next).shared.2.objects create.storageKey).isSome = true :=
  ⟨_, _, rfl, rfl, by decide +kernel⟩

theorem logged_bytes_are_the_file_of_two_parts :
    ∃ c : StoringRun, (∃ t ∈ c.tasks, t.rest = .ret (.accepted "doc" 1 false)) ∧
      ∃ entry ∈ c.shared.1.log.streams ("acme", "doc"), entry.2.payload.checksum =
          some "sha256:88d4266fd4e6338d13b845fcf289579d209c897823b9217da3e161936f031589" ∧
        ∃ bytes, c.shared.2.objects create.storageKey = some bytes ∧ bytes = content := by
  obtain ⟨t, next, listed, stands, ⟨u, inTasks, returned⟩, ⟨entry, mem, names⟩, kept⟩ :=
    exists_finished
  have before : (storing files contentSha256).Reaches System.anyStep ⟨(.empty, .empty), []⟩
      ⟨delivering.shared, [t]⟩ := listed ▸ reaches_delivering.replies truthful _
  have completable : BlobState.Completable [tail, head]
      (completedParts [⟨2, "e2", 1⟩, ⟨1, "e1", 3⟩]) [head, tail] := by
    rw [completedParts_uploaded]
    exact ⟨by decide, rfl⟩
  have served : (storing files contentSha256).serves 0 completing delivering.shared (.ok ())
      (delivering.shared.1, uploaded.complete create.storageKey "m1" content) :=
    ⟨⟨rfl, rfl⟩, .inr ⟨_, _, rfl, completable, rfl⟩⟩
  have assembled : (storing files contentSha256).Reaches System.anyStep
      ⟨(.empty, .empty), []⟩ (completed t next) := before.called 0 rfl stands _ _ served trivial
  have reached : (storing files contentSha256).Reaches System.anyStep ⟨(.empty, .empty), []⟩
      (finished t next) := assembled.replies truthful _
  obtain ⟨bytes, -⟩ := logged_bytes_are_the_file reached
  obtain ⟨checksum, -, object⟩ := bytes ("acme", "doc") entry mem "u1" names
  obtain ⟨held, stored⟩ := Option.isSome_iff_exists.mp kept
  refine ⟨finished t next, ⟨u, inTasks, Program.eq_ret_of_returned returned⟩, entry, mem, ?_,
    held, stored, object held stored⟩
  exact checksum.trans (by decide +kernel)

end Sample

end Delphi.Document
