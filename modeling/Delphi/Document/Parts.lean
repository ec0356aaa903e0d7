/-
# Delphi.Document.Parts -- the parts of an upload: their sizes, and resuming

`expected_part_size`, `uploaded_parts` and `renew` of
`document-app/src/service.rs`.

The sizes come from a decoded record, so the one subtraction that is not checked
is modelled as one that can fail; the guards before it are what keep it from
failing, for every record (`expectedPartSize_exact`).  For a record preflight
wrote, the sizes cut the file exactly (`ExactParts`).
-/
import Delphi.Document.Service

namespace Delphi.Document

open Delphi.Theory

set_option autoImplicit false

/-! ## Machine arithmetic -/

/-- The panic of a plain integer operation. -/
inductive Overflow where
  | subtract
deriving DecidableEq

/-- `left - right` of `u16`. -/
def subU16 (left right : Nat) : Except Overflow Nat :=
  if right ≤ left then .ok (left - right) else .error .subtract

def checkedMul (left right : Nat) : Option Nat :=
  if left * right < 2 ^ 64 then some (left * right) else none

def checkedSub (left right : Nat) : Option Nat :=
  if right ≤ left then some (left - right) else none

namespace DocumentService

/-! ## Sizes -/

/-- How many bytes a part must hold: a full part everywhere but the last, and the
remainder there. -/
def expectedPartSize (context : UploadState) (partNumber : Nat) : Except Overflow (Option Nat) := do
  if partNumber = 0 ∨ partNumber > context.partCount then
    return none
  if partNumber < context.partCount then
    return some context.partSizeBytes
  let before ← subU16 context.partCount 1
  return (checkedMul before context.partSizeBytes).bind (checkedSub context.declaredSize)

section Sizes

variable {context : UploadState} {n : Nat}

theorem expectedPartSize_outside (outside : n = 0 ∨ context.partCount < n) :
    expectedPartSize context n = .ok none := by
  unfold expectedPartSize
  rw [if_pos outside]
  rfl

theorem expectedPartSize_full (one : 1 ≤ n) (before : n < context.partCount) :
    expectedPartSize context n = .ok (some context.partSizeBytes) := by
  unfold expectedPartSize
  rw [if_neg (by omega), if_pos before]
  rfl

/-- Where the subtraction stands, the count is at least one. -/
theorem expectedPartSize_last (one : 1 ≤ context.partCount) :
    expectedPartSize context context.partCount =
      .ok ((checkedMul (context.partCount - 1) context.partSizeBytes).bind
        (checkedSub context.declaredSize)) := by
  unfold expectedPartSize subU16
  rw [if_neg (by omega), if_neg (by omega), if_pos one]
  rfl

/-- The checked operations answer with the exact remainder, or that there is none. -/
theorem checked_remainder {declared before part : Nat} (wide : declared < 2 ^ 64) :
    (checkedMul before part).bind (checkedSub declared) =
      if before * part ≤ declared then some (declared - before * part) else none := by
  unfold checkedMul checkedSub
  by_cases product : before * part < 2 ^ 64
  · rw [if_pos product, Option.bind_some]
  · rw [if_neg product, if_neg (by omega), Option.bind_none]

/-- The size of part `n` of a record, as unbounded arithmetic has it. -/
def ExactSize (context : UploadState) (n : Nat) : Option Nat → Prop
  | none => n = 0 ∨ context.partCount < n ∨
      n = context.partCount ∧ context.declaredSize < (context.partCount - 1) * context.partSizeBytes
  | some bytes => bytes < 2 ^ 64 ∧ 1 ≤ n ∧
      (n < context.partCount ∧ bytes = context.partSizeBytes ∨
        n = context.partCount ∧
          (context.partCount - 1) * context.partSizeBytes + bytes = context.declaredSize)

/-- Whatever record was decoded, nothing overflows and nothing wraps. -/
theorem expectedPartSize_exact (declared : context.declaredSize < 2 ^ 64)
    (part : context.partSizeBytes < 2 ^ 64) :
    ∃ answer, expectedPartSize context n = .ok answer ∧ ExactSize context n answer := by
  by_cases outside : n = 0 ∨ context.partCount < n
  · refine ⟨none, expectedPartSize_outside outside, ?_⟩
    rcases outside with zero | past
    · exact .inl zero
    · exact .inr (.inl past)
  · by_cases before : n < context.partCount
    · exact ⟨_, expectedPartSize_full (by omega) before, part, (by omega), .inl ⟨before, rfl⟩⟩
    · obtain rfl : n = context.partCount := by omega
      refine ⟨_, expectedPartSize_last (by omega), ?_⟩
      rw [checked_remainder declared]
      split
      · refine ⟨by omega, by omega, .inr ⟨rfl, ?_⟩⟩
        omega
      · exact .inr (.inr ⟨rfl, (by omega)⟩)

/-- A record whose parts cut its file exactly. -/
structure ExactParts (context : UploadState) : Prop where
  defined : ∀ n, (∃ bytes, expectedPartSize context n = .ok (some bytes)) ↔
    1 ≤ n ∧ n ≤ context.partCount
  full : ∀ n, 1 ≤ n → n < context.partCount →
    expectedPartSize context n = .ok (some context.partSizeBytes)
  last : ∃ bytes, expectedPartSize context context.partCount = .ok (some bytes) ∧
    1 ≤ bytes ∧ bytes ≤ context.partSizeBytes
  total : ∃ sizes : List Nat, (List.range' 1 context.partCount).map (expectedPartSize context) =
    sizes.map (fun bytes => .ok (some bytes)) ∧ sizes.sum = context.declaredSize

theorem exactParts_of_remainder (wide : context.declaredSize < 2 ^ 64)
    (one : 1 ≤ context.partCount)
    (short : (context.partCount - 1) * context.partSizeBytes < context.declaredSize)
    (covers : context.declaredSize ≤
      (context.partCount - 1) * context.partSizeBytes + context.partSizeBytes) :
    ExactParts context := by
  have last : expectedPartSize context context.partCount =
      .ok (some (context.declaredSize - (context.partCount - 1) * context.partSizeBytes)) := by
    rw [expectedPartSize_last one, checked_remainder wide, if_pos short.le]
  refine ⟨fun n => ⟨?_, ?_⟩, fun n => expectedPartSize_full, ⟨_, last, by omega, by omega⟩, ?_⟩
  · rintro ⟨bytes, sized⟩
    by_contra outside
    rw [expectedPartSize_outside (by omega)] at sized
    cases sized
  · rintro ⟨first, within⟩
    rcases Nat.lt_or_eq_of_le within with before | rfl
    · exact ⟨_, expectedPartSize_full first before⟩
    · exact ⟨_, last⟩
  · obtain ⟨before, count⟩ := Nat.exists_eq_succ_of_ne_zero (by omega : context.partCount ≠ 0)
    refine ⟨List.replicate before context.partSizeBytes ++
      [context.declaredSize - before * context.partSizeBytes], ?_, ?_⟩
    · have fulls : (List.range' 1 before).map (expectedPartSize context) =
          List.replicate before (.ok (some context.partSizeBytes)) := by
        apply List.eq_replicate_iff.mpr
        refine ⟨by simp, ?_⟩
        intro answer mem
        obtain ⟨n, within, rfl⟩ := List.mem_map.mp mem
        have bounds := List.mem_range'_1.mp within
        exact expectedPartSize_full (by omega) (by omega)
      have final : expectedPartSize context (1 + before) =
          .ok (some (context.declaredSize - before * context.partSizeBytes)) := by
        rw [Nat.add_comm, ← Nat.succ_eq_add_one, ← count, last, count, Nat.succ_sub_one]
      rw [count, Nat.succ_eq_add_one, ← List.range'_append_1, List.map_append, fulls]
      simp [final]
    · simp only [count, Nat.succ_sub_one] at short
      simp only [List.sum_append, List.sum_replicate_nat, List.sum_singleton]
      omega

end Sizes

/-- The geometry of every file the policy can accept is exact, and the size of a
part is computed without overflow for every record. -/
theorem upload_geometry_exact :
    (∀ size target, 1 ≤ size → size ≤ maxObjectBytes → minPartBytes ≤ target →
      target ≤ maxPartBytes → ∃ partSize count,
        partSizeBytes size target = .ok partSize ∧ partCount size partSize = .ok count ∧
        target ≤ partSize ∧ partSize ≤ maxPartBytes ∧ 1 ≤ count ∧ count ≤ 10000 ∧
        (partSize = target ↔ size ≤ largestSizeHonouring target) ∧
        (¬ size ≤ largestSizeHonouring target → count = 10000) ∧
        ∀ context : UploadState, context.declaredSize = size → context.partSizeBytes = partSize →
          context.partCount = count →
          ExactParts context ∧ 5 * 1024 * 1024 ≤ context.partSizeBytes) ∧
    ∀ (context : UploadState) (n : Nat), context.declaredSize < 2 ^ 64 →
      context.partSizeBytes < 2 ^ 64 → context.partCount < 2 ^ 16 → n < 2 ^ 16 →
      ∃ answer, expectedPartSize context n = .ok answer ∧ ExactSize context n answer := by
  refine ⟨?_, fun context n declared part _ _ => expectedPartSize_exact declared part⟩
  intro size target nonempty fits least most
  have positive := part_pos size least
  have remainder := divCeil_remainder positive nonempty
  refine ⟨_, _, partSizeBytes_ok nonempty fits least most, partCount_ok nonempty least,
    le_max_left _ _, part_le_maxPartBytes fits most, divCeil_pos positive nonempty,
    count_le_maxParts size least, part_eq_target_iff most,
    fun past => count_eq_maxParts least most (by omega), ?_⟩
  intro context declared part count
  have limit : maxObjectBytes < 2 ^ 64 := by decide
  refine ⟨exactParts_of_remainder (by omega) ?_ ?_ ?_, ?_⟩
  · rw [count]
    exact divCeil_pos positive nonempty
  · rw [count, part, declared, Nat.mul_comm]
    exact remainder.1
  · rw [count, part, declared, Nat.mul_comm]
    exact remainder.2
  · rw [part]
    exact le_trans least (le_max_left _ _)

/-- One byte past what the target is honoured for. -/
theorem upload_geometry_exact_grown :
    ∃ count, partSizeBytes (20971520 * 10000 + 1) 20971520 = .ok 20971521 ∧
      partCount (20971520 * 10000 + 1) 20971521 = .ok count ∧ count = 10000 := by
  obtain ⟨partSize, count, sized, counted, -, -, -, -, -, capped, -⟩ :=
    upload_geometry_exact.1 (20971520 * 10000 + 1) 20971520 (by decide) (by decide) (by decide)
      (by decide)
  have grown : partSizeBytes (20971520 * 10000 + 1) 20971520 = .ok 20971521 := by rfl
  obtain rfl : 20971521 = partSize := Except.ok.inj (grown.symm.trans sized)
  exact ⟨count, grown, counted, capped (by decide)⟩

/-! ## Resuming -/

structure PresignedPart where
  partNumber : Nat
  url : String
  expiresAt : Timestamp

structure RenewRequest where
  fromPart : Option Nat
  count : Option Nat

structure RenewResponse where
  parts : List PresignedPart

structure UploadedPartsResponse where
  partSizeBytes : Nat
  partCount : Nat
  parts : List UploadedPart

/-- The calls of the service, and the one only signing makes. -/
inductive PartsCall where
  | service (op : ServiceCall)
  | presignPart (key upload : String) (part ttl : Nat)

@[reducible] def PartsCall.Ans : PartsCall → Type
  | .service op => op.Ans
  | .presignPart _ _ _ _ => Except BlobError PresignedPart

abbrev PartsPorts : Signature := ⟨PartsCall, PartsCall.Ans⟩

abbrev query (op : PartsCall) : Program PartsPorts op.Ans := Program.perform (S := PartsPorts) op

def viaService {α : Type} : Program ServicePorts α → Program PartsPorts α
  | .ret value => .ret value
  | .call op next => .call (.service op) (fun answer => viaService (next answer))

/-- Only parts of exactly the size the geometry calls for may be resumed. -/
def resumable (context : UploadState) (part : UploadedPart) : Bool :=
  match expectedPartSize context part.partNumber with
  | .ok expected => some part.size == expected
  | .error _ => false

/-- What storage already holds. -/
def uploadedParts (tenantId userId uploadId : String) :
    Program PartsPorts (Except DocumentError UploadedPartsResponse) := do
  match ← viaService (loadContext tenantId userId uploadId) with
  | .error error => return .error error
  | .ok context =>
      match ← query (.service (.port (.listParts context.storageKey context.multipartUploadId))) with
      | .error error => return .error (.internalIn "list parts" error.display)
      | .ok none => return .error .gone
      | .ok (some uploaded) =>
          return .ok ⟨context.partSizeBytes, context.partCount, uploaded.filter (resumable context)⟩

/-- `first..=last`. -/
def inclusive (first last : Nat) : List Nat := List.range' first (last + 1 - first)

/-- Sign the numbers given, leaving out those to skip; the first failure ends it. -/
def presignParts (context : UploadState) (partUrlTtl : Nat) (skip : List Nat) :
    List Nat → Program PartsPorts (Except DocumentError (List PresignedPart))
  | [] => return .ok []
  | partNumber :: rest =>
      if partNumber ∈ skip then presignParts context partUrlTtl skip rest
      else do
        match ← query (.presignPart context.storageKey context.multipartUploadId partNumber
          partUrlTtl) with
        | .error error => return .error (.internalIn "presign part" error.display)
        | .ok part =>
            match ← presignParts context partUrlTtl skip rest with
            | .error error => return .error error
            | .ok parts => return .ok (part :: parts)

def presignWindow (context : UploadState) (partUrlTtl first last : Nat) (skip : List Nat) :
    Program PartsPorts (Except DocumentError (List PresignedPart)) :=
  presignParts context partUrlTtl skip (inclusive first last)

/-- The first part storage does not hold, or the last one. -/
def firstMissing (partsTotal : Nat) (already : List Nat) : Nat :=
  ((inclusive 1 partsTotal).find? (fun part => part ∉ already)).getD partsTotal

/-- Where signing starts and what it skips.  Naming a part signs it even when it is
stored; naming none resumes. -/
def renewFrom (context : UploadState) :
    Option Nat → Program PartsPorts (Except DocumentError (Nat × List Nat))
  | some fromPart =>
      if 1 ≤ fromPart ∧ fromPart ≤ context.partCount then return .ok (fromPart, [])
      else return .error (.invalid
        ("from_part must be between 1 and " ++ toString context.partCount))
  | none => do
      match ← query (.service (.port (.listParts context.storageKey context.multipartUploadId))) with
      | .error error => return .error (.internalIn "list parts" error.display)
      | .ok none => return .error .gone
      | .ok (some uploaded) =>
          let already := uploaded.map (·.partNumber)
          return .ok (firstMissing context.partCount already, already)

/-- The last part to sign; `saturating_add` of `u16`. -/
def renewLast (context : UploadState) (first : Nat) : Option Nat → Nat
  | some count => min (min (first + (max count 1 - 1)) 65535) context.partCount
  | none => context.partCount

def renew (partUrlTtl : Nat) (tenantId userId uploadId : String) (renewRequest : RenewRequest) :
    Program PartsPorts (Except DocumentError RenewResponse) := do
  match ← viaService (loadContext tenantId userId uploadId) with
  | .error error => return .error error
  | .ok context =>
      match ← renewFrom context renewRequest.fromPart with
      | .error error => return .error error
      | .ok (first, skip) =>
          match ← presignWindow context partUrlTtl first
            (renewLast context first renewRequest.count) skip with
          | .error error => return .error error
          | .ok parts => return .ok ⟨parts⟩

/-! ## What a resumed upload signs -/

/-- The numbers signed by the calls of a run, in order. -/
def signedParts (trace : Trace PartsPorts) : List Nat :=
  trace.filterMap fun call =>
    match call.1 with
    | .presignPart _ _ part _ => some part
    | .service _ => none

@[simp] theorem signedParts_append (first second : Trace PartsPorts) :
    signedParts (first ++ second) = signedParts first ++ signedParts second :=
  List.filterMap_append

/-- The bucket holds this record and storage these parts. -/
def Reports (context : UploadState) (parts : List UploadedPart) (_ : Trace PartsPorts) :
    (op : PartsCall) → op.Ans → Prop
  | .service (.port (.kvEntry _)), answer => ∃ revision, answer = .ok (some (.put context revision))
  | .service (.port (.listParts _ _)), answer => answer = .ok (some parts)
  | _, _ => True

section Resuming

variable {context : UploadState} {parts : List UploadedPart}

/-- Any call. -/
abbrev anyCall : Trace PartsPorts → PartsCall → Prop := fun _ _ => True

theorem along_presignParts {A : Trace PartsPorts → (op : PartsCall) → op.Ans → Prop}
    (partUrlTtl : Nat) (skip numbers : List Nat) (trace : Trace PartsPorts) :
    Along A anyCall (fun reached result => ∀ signed, result = .ok signed →
      signedParts reached = signedParts trace ++ numbers.filter (fun n => n ∉ skip)) trace
      (presignParts context partUrlTtl skip numbers) := by
  induction numbers generalizing trace with
  | nil =>
      rintro signed ⟨⟩
      simp
  | cons n rest ih =>
      unfold presignParts
      by_cases skipped : n ∈ skip
      · rw [if_pos skipped]
        simpa [skipped] using ih trace
      · rw [if_neg skipped]
        refine along_perform trivial fun answer _ => ?_
        cases answer with
        | error error => rintro signed ⟨⟩
        | ok part =>
            refine Along.bind (ih _) ?_
            intro reached result continued
            cases result with
            | error error => rintro signed ⟨⟩
            | ok more =>
                rintro signed ⟨⟩
                rw [continued more rfl, signedParts_append]
                simp [signedParts, skipped]

theorem along_loadReported (tenantId userId uploadId : String) :
    Along (Reports context parts) anyCall (fun reached result => ∀ loaded, result = .ok loaded →
      loaded = context ∧ signedParts reached = []) []
      (viaService (loadContext tenantId userId uploadId)) := by
  refine ⟨trivial, fun answer reported => ?_⟩
  obtain ⟨revision, rfl⟩ := reported
  simp only [Program.bind, Program.pure_eq]
  split
  · rintro loaded ⟨⟩
  · rintro loaded ⟨⟩
    exact ⟨rfl, rfl⟩

/-- Everything before the first missing part is stored, so the window from it signs
what the whole range would. -/
theorem filter_from_firstMissing {count : Nat} (already : List Nat) (one : 1 ≤ count) :
    (inclusive (firstMissing count already) count).filter (fun n => n ∉ already) =
      (inclusive 1 count).filter (fun n => n ∉ already) := by
  unfold firstMissing
  cases found : (inclusive 1 count).find? (fun part => part ∉ already) with
  | none =>
      have stored : ∀ n ∈ inclusive 1 count, n ∈ already := by
        simpa using List.find?_eq_none.mp found
      have final : count ∈ already := stored count (by simp [inclusive, List.mem_range'_1]; omega)
      have nothing : (inclusive 1 count).filter (fun n => n ∉ already) = [] := by
        apply List.filter_eq_nil_iff.mpr
        intro n within
        simpa using stored n within
      rw [nothing]
      simp [inclusive, final]
  | some first =>
      obtain ⟨-, within, before⟩ := List.find?_range'_eq_some.mp found
      have bounds := List.mem_range'_1.mp within
      have split : inclusive 1 count = List.range' 1 (first - 1) ++ inclusive first count := by
        unfold inclusive
        rw [show count + 1 - 1 = first - 1 + (count + 1 - first) by omega, ← List.range'_append_1,
          show 1 + (first - 1) = first by omega]
      have skipped : (List.range' 1 (first - 1)).filter (fun n => n ∉ already) = [] := by
        apply List.filter_eq_nil_iff.mpr
        intro n earlier
        have range := List.mem_range'_1.mp earlier
        simpa using before n (by omega) (by omega)
      rw [split, List.filter_append, skipped]
      rfl

/-- What a successful resume has signed, as one list. -/
def toSign (context : UploadState) (parts : List UploadedPart) : List Nat :=
  let already := parts.map (·.partNumber)
  (inclusive (firstMissing context.partCount already) context.partCount).filter
    (fun n => n ∉ already)

theorem along_renew (partUrlTtl : Nat) (tenantId userId uploadId : String) :
    Along (Reports context parts) anyCall (fun reached result => ∀ response, result = .ok response →
      signedParts reached = toSign context parts) []
      (renew partUrlTtl tenantId userId uploadId ⟨none, none⟩) := by
  refine Along.bind (along_loadReported tenantId userId uploadId) ?_
  intro reached result loaded
  cases result with
  | error error => rintro response ⟨⟩
  | ok record =>
      obtain ⟨rfl, unsigned⟩ := loaded record rfl
      refine Along.bind (Q := fun later result => signedParts later = [] ∧
        result = .ok (firstMissing record.partCount (parts.map (·.partNumber)),
          parts.map (·.partNumber))) ?_ ?_
      · refine along_perform trivial fun answer reported => ?_
        obtain rfl : answer = .ok (some parts) := reported
        exact ⟨by rw [signedParts_append, unsigned]; rfl, rfl⟩
      · rintro listed _ ⟨silent, rfl⟩
        refine Along.bind (along_presignParts partUrlTtl _ _ _) ?_
        intro later result signed
        cases result with
        | error error => rintro response ⟨⟩
        | ok list =>
            rintro response ⟨⟩
            rw [signed list rfl, silent]
            rfl

theorem along_uploadedParts (tenantId userId uploadId : String) :
    Along (Reports context parts) anyCall (fun _ result => ∀ response, result = .ok response →
      response.parts = parts.filter (resumable context)) []
      (uploadedParts tenantId userId uploadId) := by
  refine Along.bind (along_loadReported tenantId userId uploadId) ?_
  intro reached result loaded
  cases result with
  | error error => rintro response ⟨⟩
  | ok record =>
      obtain ⟨rfl, -⟩ := loaded record rfl
      refine along_perform trivial fun answer reported => ?_
      obtain rfl : answer = .ok (some parts) := reported
      rintro response ⟨⟩
      rfl

/-! ## When the two agree -/

/-- The numbers in range that a listing does not report. -/
def unreported (context : UploadState) (reported : List UploadedPart) : List Nat :=
  (inclusive 1 context.partCount).filter (fun n => n ∉ reported.map (·.partNumber))

/-- Storage after a client put one part under each number it was given a URL for. -/
def afterUploads (parts : List UploadedPart) (signed : List Nat) (upload : Nat → UploadedPart) :
    List UploadedPart :=
  parts.filter (fun part => part.partNumber ∉ signed) ++ signed.map upload

/-- Uploading what was signed, at the size each part must have, leaves every part
present at its size. -/
def Completes (context : UploadState) (parts : List UploadedPart) (signed : List Nat) : Prop :=
  ∀ upload : Nat → UploadedPart,
    (∀ n ∈ signed, (upload n).partNumber = n ∧ resumable context (upload n) = true) →
    ∀ n, 1 ≤ n → n ≤ context.partCount →
      ∃ part ∈ afterUploads parts signed upload,
        part.partNumber = n ∧ resumable context part = true

/-- Every stored part the upload calls for is stored at its size, and a record of no
parts has nothing to sign. -/
def SoundlyStored (context : UploadState) (parts : List UploadedPart) : Prop :=
  (context.partCount = 0 → ∃ part ∈ parts, part.partNumber = 0) ∧
  ∀ part ∈ parts, 1 ≤ part.partNumber → part.partNumber ≤ context.partCount →
    ∃ other ∈ parts, other.partNumber = part.partNumber ∧ resumable context other = true

theorem completes_of_signed {signed : List Nat}
    (agree : signed = unreported context (parts.filter (resumable context))) :
    Completes context parts signed := by
  intro upload sized n one within
  by_cases given : n ∈ signed
  · obtain ⟨number, right⟩ := sized n given
    exact ⟨upload n, List.mem_append_right _ (List.mem_map_of_mem given), number, right⟩
  · have reported : n ∈ (parts.filter (resumable context)).map (·.partNumber) := by
      by_contra absent
      apply given
      rw [agree]
      apply List.mem_filter.mpr
      refine ⟨?_, by simpa using absent⟩
      simp only [inclusive, List.mem_range'_1]
      omega
    obtain ⟨part, kept, rfl⟩ := List.mem_map.mp reported
    obtain ⟨mem, right⟩ := List.mem_filter.mp kept
    refine ⟨part, List.mem_append_left _ (List.mem_filter.mpr ⟨mem, ?_⟩), rfl, right⟩
    simpa using given

/-- The two agree when every stored part in range is stored at its size. -/
theorem unreported_congr_iff :
    (inclusive 1 context.partCount).filter (fun n => n ∉ parts.map (·.partNumber)) =
      unreported context (parts.filter (resumable context)) ↔
    ∀ part ∈ parts, 1 ≤ part.partNumber → part.partNumber ≤ context.partCount →
      ∃ other ∈ parts, other.partNumber = part.partNumber ∧ resumable context other = true := by
  constructor
  · intro same part mem one within
    by_contra unsound
    have missing : part.partNumber ∈ unreported context (parts.filter (resumable context)) := by
      apply List.mem_filter.mpr
      constructor
      · simp only [inclusive, List.mem_range'_1]
        omega
      · simp only [List.mem_map, List.mem_filter, decide_not, Bool.not_eq_true', decide_eq_false_iff_not]
        rintro ⟨other, ⟨stored, right⟩, number⟩
        exact unsound ⟨other, stored, number, right⟩
    rw [← same] at missing
    obtain ⟨-, absent⟩ := List.mem_filter.mp missing
    have : part.partNumber ∉ parts.map (·.partNumber) := by simpa using absent
    exact this (List.mem_map_of_mem mem)
  · intro sound
    apply List.filter_congr
    intro n within
    have bounds : 1 ≤ n ∧ n ≤ context.partCount := by
      simp only [inclusive, List.mem_range'_1] at within
      omega
    have agree : n ∈ parts.map (·.partNumber) ↔
        n ∈ (parts.filter (resumable context)).map (·.partNumber) := by
      constructor
      · intro stored
        obtain ⟨part, mem, rfl⟩ := List.mem_map.mp stored
        obtain ⟨other, mem', number, right⟩ := sound part mem bounds.1 bounds.2
        exact List.mem_map.mpr ⟨other, List.mem_filter.mpr ⟨mem', right⟩, number⟩
      · intro reported
        obtain ⟨part, kept, rfl⟩ := List.mem_map.mp reported
        exact List.mem_map_of_mem (List.mem_filter.mp kept).1
    simp only [agree]

theorem toSign_eq_unreported_iff :
    toSign context parts = unreported context (parts.filter (resumable context)) ↔
      SoundlyStored context parts := by
  by_cases one : 1 ≤ context.partCount
  · unfold toSign
    rw [filter_from_firstMissing _ one, unreported_congr_iff]
    exact ⟨fun sound => ⟨fun zero => by omega, sound⟩, fun sound => sound.2⟩
  · obtain zero : context.partCount = 0 := by omega
    -- The range is empty, the search falls back to `part_count`, and 0 is signed.
    have nothing : unreported context (parts.filter (resumable context)) = [] := by
      simp [unreported, inclusive, zero]
    have signs : toSign context parts = [0].filter (fun n => n ∉ parts.map (·.partNumber)) := by
      simp [toSign, firstMissing, inclusive, zero]
    rw [nothing, signs, List.filter_eq_nil_iff]
    constructor
    · intro stored
      refine ⟨fun _ => by simpa using stored, fun part _ first within => by omega⟩
    · rintro ⟨stored, -⟩
      simpa using stored zero

end Resuming

/-- A resume signs exactly what the listing leaves out, and completes the upload,
when every stored part in range is stored at its size. -/
theorem resume_agrees_iff {context : UploadState} {parts : List UploadedPart}
    {partUrlTtl : Nat} {tenantId userId uploadId : String}
    {signing listing : Trace PartsPorts} {renewed : RenewResponse} {listed : UploadedPartsResponse}
    (signs : (renew partUrlTtl tenantId userId uploadId ⟨none, none⟩).Resumes signing
      (.ret (.ok renewed)))
    (signsReported : Facts (Reports context parts) signing)
    (lists : (uploadedParts tenantId userId uploadId).Resumes listing (.ret (.ok listed)))
    (listsReported : Facts (Reports context parts) listing) :
    (signedParts signing = unreported context listed.parts ∧
      Completes context parts (signedParts signing)) ↔ SoundlyStored context parts := by
  have signed : signedParts signing = toSign context parts :=
    (along_renew partUrlTtl tenantId userId uploadId).resumes signs signsReported renewed rfl
  have reported : listed.parts = parts.filter (resumable context) :=
    (along_uploadedParts tenantId userId uploadId).resumes lists listsReported listed rfl
  rw [signed, reported]
  constructor
  · intro agree
    exact toSign_eq_unreported_iff.mp agree.1
  · intro sound
    have agree := toSign_eq_unreported_iff.mpr sound
    exact ⟨agree, completes_of_signed agree⟩

namespace Resume

/-- 50 MiB at a 20 MiB part size. -/
def context : UploadState :=
  uploadRecord "acme" "user-1" "upload-1" "doc-1" .create "mp-1" "report.pdf" "application/pdf"
    52428800 20971520 3 0

def full : UploadedPart := ⟨1, "etag-1", 20971520⟩
def short : UploadedPart := ⟨2, "etag-2", 5242880⟩

def signature (n : Nat) : PresignedPart := ⟨n, "https://blobs.test/" ++ toString n, 300⟩

def reads : Call PartsPorts :=
  ⟨.service (.port (.kvEntry "acme/user-1/upload-1")), .ok (some (.put context 1))⟩

def lists (parts : List UploadedPart) : Call PartsPorts :=
  ⟨.service (.port (.listParts context.storageKey "mp-1")), .ok (some parts)⟩

def signs (n : Nat) : Call PartsPorts :=
  ⟨.presignPart context.storageKey "mp-1" n 300, .ok (signature n)⟩

/-- The calls of a resume that signs the numbers given, all answered. -/
def signing (parts : List UploadedPart) (numbers : List Nat) : Trace PartsPorts :=
  reads :: lists parts :: numbers.map signs

theorem facts_signing (parts : List UploadedPart) (numbers : List Nat) :
    Facts (Reports context parts) (signing parts numbers) := by
  intro before op a after same
  have mem : (⟨op, a⟩ : Call PartsPorts) ∈ signing parts numbers := by
    rw [same]
    exact List.mem_append_right _ (List.mem_cons_self)
  rcases List.mem_cons.mp mem with read | mem
  · cases read
    exact ⟨1, rfl⟩
  rcases List.mem_cons.mp mem with list | mem
  · cases list
    rfl
  · obtain ⟨n, -, sign⟩ := List.mem_map.mp mem
    cases sign
    trivial

theorem runs_listing (parts : List UploadedPart) :
    (uploadedParts "acme" "user-1" "upload-1").Resumes (signing parts [])
      (.ret (.ok ⟨20971520, 3, parts.filter (resumable context)⟩)) :=
  .call (.call .start)

theorem runs_signing_rest :
    (renew 300 "acme" "user-1" "upload-1" ⟨none, none⟩).Resumes (signing [full] [2, 3])
      (.ret (.ok ⟨[signature 2, signature 3]⟩)) :=
  .call (.call (.call (.call .start)))

theorem runs_signing_last :
    (renew 300 "acme" "user-1" "upload-1" ⟨none, none⟩).Resumes (signing [full, short] [3])
      (.ret (.ok ⟨[signature 3]⟩)) :=
  .call (.call (.call .start))

end Resume

/-- With part 1 stored whole, the rest is signed and the upload completes. -/
theorem resume_agrees_whole :
    signedParts (Resume.signing [Resume.full] [2, 3]) =
      unreported Resume.context ([Resume.full].filter (resumable Resume.context)) ∧
    Completes Resume.context [Resume.full] [2, 3] :=
  (resume_agrees_iff Resume.runs_signing_rest (Resume.facts_signing _ _)
    (Resume.runs_listing [Resume.full]) (Resume.facts_signing _ _)).mpr (by
      refine ⟨by decide, ?_⟩
      intro part mem _ _
      obtain rfl := List.mem_singleton.mp mem
      exact ⟨_, mem, rfl, by decide⟩)

/-- A short part 2 is not reported, so that the client uploads it again, and is not
signed, so that it cannot: nobody ever replaces it. -/
theorem short_part_is_never_signed :
    (renew 300 "acme" "user-1" "upload-1" ⟨none, none⟩).Resumes
      (Resume.signing [Resume.full, Resume.short] [3]) (.ret (.ok ⟨[Resume.signature 3]⟩)) ∧
    Facts (Reports Resume.context [Resume.full, Resume.short])
      (Resume.signing [Resume.full, Resume.short] [3]) ∧
    (uploadedParts "acme" "user-1" "upload-1").Resumes
      (Resume.signing [Resume.full, Resume.short] []) (.ret (.ok ⟨20971520, 3, [Resume.full]⟩)) ∧
    Facts (Reports Resume.context [Resume.full, Resume.short])
      (Resume.signing [Resume.full, Resume.short] []) ∧
    signedParts (Resume.signing [Resume.full, Resume.short] [3]) = [3] ∧
    unreported Resume.context [Resume.full] = [2, 3] ∧
    ¬ Completes Resume.context [Resume.full, Resume.short] [3] := by
  refine ⟨Resume.runs_signing_last, Resume.facts_signing _ _, Resume.runs_listing _,
    Resume.facts_signing _ _, rfl, by decide, ?_⟩
  intro completes
  have sized : ∀ n ∈ [3], (⟨3, "etag-3", 10485760⟩ : UploadedPart).partNumber = n ∧
      resumable Resume.context ⟨3, "etag-3", 10485760⟩ = true := by decide
  obtain ⟨part, mem, number, right⟩ :=
    completes (fun _ => ⟨3, "etag-3", 10485760⟩) sized 2 (by decide) (by decide)
  have stored : part ∈ [Resume.full, Resume.short, ⟨3, "etag-3", 10485760⟩] := mem
  simp only [List.mem_cons, List.not_mem_nil, or_false] at stored
  rcases stored with rfl | rfl | rfl
  · exact absurd number (by decide)
  · exact absurd right (by decide)
  · exact absurd number (by decide)

end DocumentService

end Delphi.Document
