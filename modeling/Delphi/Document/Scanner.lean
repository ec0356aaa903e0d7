/-
# Delphi.Document.Scanner -- the permissive scanner, chunk by chunk

`PermissiveScanner::scan`: one pass over the object that hashes, counts and looks
for the EICAR test signature.  The signature is searched for in a window that is
carried over from chunk to chunk and cut to one byte less than the signature.

The outcome is that of a scan of the whole content, however the reader cuts it.
The hasher is a parameter; `byte_count` is a `u64`.
-/
import Mathlib.Algebra.Group.Nat.Defs
import Mathlib.Data.List.Induction
import Mathlib.Data.List.Infix
import Delphi.Theory.StreamSearch
import Delphi.Document.Cursor
import Delphi.Document.Ports

namespace Delphi.Document

open Delphi.Theory

set_option autoImplicit false

/-- An incremental hash. -/
structure Hasher where
  State : Type
  new : State
  update : State → List UInt8 → State
  finalize : State → List UInt8

/-- What a reader yields, call by call; after the last one it is at its end. -/
abbrev Reads := List (Except String (List UInt8))

namespace PermissiveScanner

def eicar : List UInt8 :=
  "X5O!P%@AP[4\\PZX54(P^)7CC)7\x7d$EICAR-STANDARD-ANTIVIRUS-TEST-FILE!$H+H*".toUTF8.data.toList

def chunkBytes : Nat := 64 * 1024

def contains (haystack needle : List UInt8) : Bool :=
  (windows needle.length haystack).any fun window => window = needle

section

variable (hasher : Hasher)

structure ScanState where
  hash : hasher.State
  byteCount : Nat
  window : List UInt8
  infected : Bool

def initial : ScanState hasher := ⟨hasher.new, 0, [], false⟩

variable {hasher}

/-- `if window.len() > EICAR.len() { window.drain(..keep) }` -/
def trim (window : List UInt8) : List UInt8 :=
  if window.length > eicar.length then window.drop (window.length - (eicar.length - 1)) else window

def scanChunk (state : ScanState hasher) (chunk : List UInt8) : ScanState hasher :=
  let counted := { state with
    hash := hasher.update state.hash chunk
    byteCount := (state.byteCount + chunk.length) % 2 ^ 64 }
  if state.infected then counted
  else
    let window := state.window ++ chunk
    { counted with window := trim window, infected := contains window eicar }

/-- The loop; an empty read ends it. -/
def scanLoop (state : ScanState hasher) : Reads → Except ScanError (ScanState hasher)
  | [] => .ok state
  | .error error :: _ => .error (.read error)
  | .ok chunk :: rest => if chunk = [] then .ok state else scanLoop (scanChunk state chunk) rest

variable (hasher)

def scan (blob : Reads) : Except ScanError ScanOutcome :=
  match scanLoop (initial hasher) blob with
  | .error error => .error error
  | .ok state => .ok {
      verdict := if state.infected then .infected "Eicar-Test-Signature" else .clean
      sha256Hex := hexEncode (hasher.finalize state.hash)
      byteCount := state.byteCount }

end

/-! ## The specification -/

/-- The outcome for a whole content. -/
def wholeScan (digest : List UInt8 → List UInt8) (content : List UInt8) : ScanOutcome where
  verdict := if eicar <:+: content then .infected "Eicar-Test-Signature" else .clean
  sha256Hex := hexEncode (digest content)
  byteCount := content.length % 2 ^ 64

/-- A content as a reader may cut it. -/
structure Chunked (content : List UInt8) where
  chunks : List (List UInt8)
  joined : chunks.flatten = content
  nonempty : ∀ chunk ∈ chunks, chunk ≠ []
  fits : ∀ chunk ∈ chunks, chunk.length ≤ chunkBytes

/-- What the reader answers when no read fails. -/
def Chunked.reads {content : List UInt8} (cut : Chunked content) : Reads := cut.chunks.map .ok

/-! ## One chunk -/

theorem contains_iff {haystack needle : List UInt8} :
    contains haystack needle = true ↔ needle <:+: haystack := by
  unfold contains
  rw [List.any_eq_true]
  constructor
  · rintro ⟨window, mem, same⟩
    obtain rfl := of_decide_eq_true same
    exact (mem_windows.mp mem).1
  · intro found
    exact ⟨needle, mem_windows.mpr ⟨found, rfl⟩, decide_eq_true rfl⟩

theorem kept_trim {seen window : List UInt8} (kept : Kept eicar seen window) :
    Kept eicar seen (trim window) := by
  unfold trim
  split
  · apply kept.drop
    omega
  · exact kept

variable {hasher : Hasher}

/-- The state after the bytes `seen`, read in these chunks. -/
structure Scanned (chunks : List (List UInt8)) (state : ScanState hasher) : Prop where
  hash : state.hash = chunks.foldl hasher.update hasher.new
  count : state.byteCount = chunks.flatten.length % 2 ^ 64
  found : state.infected = true ↔ eicar <:+: chunks.flatten
  kept : state.infected = false → Kept eicar chunks.flatten state.window

theorem scanned_initial : Scanned [] (initial hasher) where
  hash := rfl
  count := rfl
  found := by
    have absent : ¬ eicar <:+: [] := by
      rw [List.infix_nil]
      decide +kernel
    simp [initial, absent]
  kept := fun _ => .start

theorem Scanned.step {chunks : List (List UInt8)} {state : ScanState hasher}
    (scanned : Scanned chunks state) (chunk : List UInt8) :
    Scanned (chunks ++ [chunk]) (scanChunk state chunk) := by
  have seen : (chunks ++ [chunk]).flatten = chunks.flatten ++ chunk := by simp
  have hash : hasher.update state.hash chunk
      = (chunks ++ [chunk]).foldl hasher.update hasher.new := by
    rw [List.foldl_append, ← scanned.hash]
    rfl
  have count : (state.byteCount + chunk.length) % 2 ^ 64
      = (chunks ++ [chunk]).flatten.length % 2 ^ 64 := by
    rw [seen, List.length_append, scanned.count, Nat.mod_add_mod]
  unfold scanChunk
  cases infected : state.infected with
  | true =>
      have before := scanned.found.mp infected
      refine ⟨hash, count, ?_, fun clean => ?_⟩
      · rw [seen]
        exact iff_of_true rfl (List.infix_append_of_infix_left before)
      · have impossible : true = false := clean
        cases impossible
  | false =>
      have absent : ¬ eicar <:+: chunks.flatten := fun before => by
        have infected' := scanned.found.mpr before
        rw [infected] at infected'
        cases infected'
      have kept := scanned.kept infected
      refine ⟨hash, count, ?_, fun _ => ?_⟩
      · rw [seen, kept.infix_append absent]
        exact contains_iff
      · rw [seen]
        exact kept_trim (kept.append chunk)

/-! ## The whole stream -/

theorem scanLoop_chunks (chunks : List (List UInt8)) (nonempty : ∀ chunk ∈ chunks, chunk ≠ [])
    (state : ScanState hasher) :
    scanLoop state (chunks.map .ok) = .ok (chunks.foldl scanChunk state) := by
  induction chunks generalizing state with
  | nil => rfl
  | cons chunk rest ih =>
      rw [List.map_cons, scanLoop, if_neg (nonempty chunk List.mem_cons_self)]
      exact ih (fun other mem => nonempty other (List.mem_cons_of_mem _ mem)) _

theorem scanned_foldl (chunks : List (List UInt8)) :
    Scanned chunks (chunks.foldl scanChunk (initial hasher)) := by
  induction chunks using List.reverseRecOn with
  | nil => exact scanned_initial
  | append_singleton front chunk ih =>
      rw [List.foldl_append]
      exact ih.step chunk

/-- A read that fails ends the scan with its error, whatever was found before. -/
theorem scan_read_error (chunks : List (List UInt8)) (nonempty : ∀ chunk ∈ chunks, chunk ≠ [])
    (error : String) (rest : Reads) :
    scan hasher (chunks.map .ok ++ .error error :: rest) = .error (.read error) := by
  have loop : ∀ state : ScanState hasher,
      scanLoop state (chunks.map .ok ++ .error error :: rest) = .error (.read error) := by
    induction chunks with
    | nil => exact fun _ => rfl
    | cons chunk later ih =>
        intro state
        rw [List.map_cons, List.cons_append, scanLoop, if_neg (nonempty chunk List.mem_cons_self)]
        exact ih (fun other mem => nonempty other (List.mem_cons_of_mem _ mem)) _
  unfold scan
  rw [loop]

/-- The streaming scan is the scan of the whole content: the verdict is `Infected` exactly
when the signature occurs in it, and count and digest are the content's. -/
theorem scan_eq_wholeScan (digest : List UInt8 → List UInt8)
    (incremental : ∀ chunks : List (List UInt8),
      hasher.finalize (chunks.foldl hasher.update hasher.new) = digest chunks.flatten)
    {content : List UInt8} (cut : Chunked content) :
    ∃ outcome, scan hasher cut.reads = .ok outcome ∧ outcome = wholeScan digest content ∧
      ((∃ signature, outcome.verdict = .infected signature) ↔ eicar <:+: content) ∧
      (content.length < 2 ^ 64 → outcome.byteCount = content.length) ∧
      outcome.sha256Hex = hexEncode (digest content) := by
  obtain ⟨chunks, rfl, nonempty, -⟩ := cut
  have scanned : Scanned chunks (chunks.foldl scanChunk (initial hasher)) := scanned_foldl chunks
  have outcome : scan hasher (chunks.map .ok) = .ok (wholeScan digest chunks.flatten) := by
    unfold scan wholeScan
    rw [scanLoop_chunks chunks nonempty]
    simp only [scanned.found, scanned.hash, scanned.count, incremental]
  refine ⟨_, outcome, rfl, ?_, Nat.mod_eq_of_lt, rfl⟩
  unfold wholeScan
  by_cases found : eicar <:+: chunks.flatten
  · rw [if_pos found]
    exact iff_of_true ⟨_, rfl⟩ found
  · rw [if_neg found]
    refine iff_of_false ?_ found
    rintro ⟨signature, ⟨⟩⟩

/-! ### The test file in three reads -/

/-- SHA-256 of the EICAR test file. -/
def eicarSha256 : List UInt8 :=
  [39, 90, 2, 27, 191, 182, 72, 158, 84, 212, 113, 137, 159, 125, 185, 209, 102, 63, 198,
    149, 236, 47, 226, 162, 196, 83, 138, 171, 246, 81, 253, 15]

/-- SHA-256, as far as it is known here: that of the test file. -/
def knownSha256 (content : List UInt8) : List UInt8 := if content = eicar then eicarSha256 else []

/-- A hash that keeps its input until the end. -/
def bufferingHasher : Hasher where
  State := List UInt8
  new := []
  update := fun seen chunk => seen ++ chunk
  finalize := knownSha256

theorem bufferingHasher_incremental (chunks : List (List UInt8)) :
    bufferingHasher.finalize (chunks.foldl bufferingHasher.update bufferingHasher.new)
      = knownSha256 chunks.flatten := by
  apply congrArg knownSha256
  show chunks.foldl (fun seen chunk => seen ++ chunk) [] = chunks.flatten
  rw [List.foldl_append_eq_append]
  simp

def eicarCut : Chunked eicar where
  chunks := [eicar.take 20, (eicar.drop 20).take 1, eicar.drop 21]
  joined := by decide +kernel
  nonempty := by decide +kernel
  fits := by decide +kernel

theorem scan_eq_wholeScan_eicar :
    ∃ outcome, scan bufferingHasher eicarCut.reads = .ok outcome ∧
      (∃ signature, outcome.verdict = .infected signature) ∧ outcome.byteCount = 68 ∧
      outcome.sha256Hex =
        "275a021bbfb6489e54d471899f7db9d1663fc695ec2fe2a2c4538aabf651fd0f" := by
  obtain ⟨outcome, scanned, -, verdict, count, hash⟩ :=
    scan_eq_wholeScan knownSha256 bufferingHasher_incremental eicarCut
  have length : eicar.length = 68 := by decide +kernel
  have digest : hexEncode (knownSha256 eicar) =
      "275a021bbfb6489e54d471899f7db9d1663fc695ec2fe2a2c4538aabf651fd0f" := by
    decide +kernel
  rw [length] at count
  exact ⟨outcome, scanned, verdict.mpr List.infix_rfl, count (by decide), hash.trans digest⟩

end PermissiveScanner

end Delphi.Document
