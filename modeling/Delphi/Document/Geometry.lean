/-
# Delphi.Document.Geometry -- how an upload is cut into parts

`part_size_bytes`, `largest_size_honouring` and `part_count` of
`document-domain/src/geometry.rs`, with their errors.  Sizes are `u64`; no
operation here leaves that range, and the one that could saturates.

The arithmetic is two ceiling divisions.  Where the target is honoured the count
is at most the cap; where it is not, the part is so much larger than the cap that
rounding it up cannot lose a part (`divCeil_capped`).
-/
import Mathlib.Algebra.Order.Floor.Div
import Mathlib.Data.List.Basic

namespace Delphi.Document

set_option autoImplicit false

def maxObjectBytes : Nat := 5 * 1024 * 1024 * 1024 * 1024
def minPartBytes : Nat := 5 * 1024 * 1024
def maxParts : Nat := 10000
def maxPartBytes : Nat := 5 * 1024 * 1024 * 1024

inductive GeometryError where
  | empty
  | invalidPartSize (partSize : Nat)
  | tooLarge (size : Nat)
  | zeroPartSize
  | tooManyParts (size partSize parts : Nat)
deriving DecidableEq

namespace GeometryError

def display : GeometryError → String
  | .empty => "file size must be greater than zero"
  | .invalidPartSize partSize =>
      "configured part size " ++ toString partSize ++ " must be between " ++
        toString minPartBytes ++ " and " ++ toString maxPartBytes ++ " bytes"
  | .tooLarge size =>
      "file size " ++ toString size ++ " exceeds the " ++ toString maxObjectBytes ++
        " byte object limit"
  | .zeroPartSize => "part size must be greater than zero"
  | .tooManyParts size partSize parts =>
      "file size " ++ toString size ++ " at part size " ++ toString partSize ++ " needs " ++
        toString parts ++ " parts, over the " ++ toString maxParts ++ " limit"

end GeometryError

def divCeil (size part : Nat) : Nat := (size + part - 1) / part

/-- The target governs until the part cap binds; then the part grows. -/
def partSizeBytes (fileSize target : Nat) : Except GeometryError Nat :=
  if ¬ (minPartBytes ≤ target ∧ target ≤ maxPartBytes) then .error (.invalidPartSize target)
  else if fileSize = 0 then .error .empty
  else if fileSize > maxObjectBytes then .error (.tooLarge fileSize)
  else .ok (max target (divCeil fileSize maxParts))

def partCount (fileSize partSize : Nat) : Except GeometryError Nat :=
  if fileSize = 0 then .error .empty
  else if partSize = 0 then .error .zeroPartSize
  else
    let parts := divCeil fileSize partSize
    if parts > maxParts then .error (.tooManyParts fileSize partSize parts)
    -- `u16::try_from`, which the cap keeps from failing
    else if parts > 65535 then .error (.tooManyParts fileSize partSize parts)
    else .ok parts

/-- The largest file the target is honoured for: a `saturating_mul` of `u64`. -/
def largestSizeHonouring (target : Nat) : Nat := min (target * maxParts) (2 ^ 64 - 1)

/-! ## Ceiling division -/

theorem divCeil_le_iff {size part n : Nat} (positive : 0 < part) :
    divCeil size part ≤ n ↔ size ≤ part * n := by
  unfold divCeil
  rw [← Nat.ceilDiv_eq_add_pred_div, ceilDiv_le_iff_le_mul positive]

theorem lt_divCeil_iff {size part n : Nat} (positive : 0 < part) :
    n < divCeil size part ↔ part * n < size := by
  rw [← not_le, divCeil_le_iff positive, not_le]

theorem divCeil_pos {size part : Nat} (positive : 0 < part) (some : 0 < size) :
    0 < divCeil size part := by
  apply (lt_divCeil_iff positive).mpr
  simpa using some

/-- The last of `divCeil size part` parts holds at least a byte and at most a part. -/
theorem divCeil_remainder {size part : Nat} (positive : 0 < part) (some : 0 < size) :
    part * (divCeil size part - 1) < size ∧ size ≤ part * (divCeil size part - 1) + part := by
  have count := divCeil_pos positive some
  constructor
  · apply (lt_divCeil_iff positive).mp
    omega
  · have covers : size ≤ part * divCeil size part := (divCeil_le_iff positive).mp le_rfl
    obtain ⟨before, same⟩ := Nat.exists_eq_succ_of_ne_zero count.ne'
    rw [same] at covers ⊢
    simpa [Nat.mul_add] using covers

/-- A part cut to fit `n` parts needs all `n`, once it is at least `n` bytes. -/
theorem divCeil_capped {size n : Nat} (positive : 0 < n) (large : n ≤ divCeil size n) :
    divCeil size (divCeil size n) = n := by
  have part : 0 < divCeil size n := by omega
  have atMost : divCeil size (divCeil size n) ≤ n := by
    apply (divCeil_le_iff part).mpr
    rw [Nat.mul_comm]
    exact (divCeil_le_iff positive).mp le_rfl
  -- One byte less a part would not cover the file, and `n` such bytes are the most
  -- that `n - 1` whole parts could miss.
  have short : n * (divCeil size n - 1) < size := (lt_divCeil_iff positive).mp (by omega)
  have atLeast : n - 1 < divCeil size (divCeil size n) := by
    apply (lt_divCeil_iff part).mpr
    obtain ⟨cut, same⟩ := Nat.exists_eq_succ_of_ne_zero part.ne'
    obtain ⟨less, rfl⟩ := Nat.exists_eq_succ_of_ne_zero positive.ne'
    rw [same] at short large ⊢
    calc (cut + 1) * less = cut * less + less := Nat.succ_mul _ _
      _ ≤ cut * less + cut := by omega
      _ = (less + 1) * cut := by rw [Nat.succ_mul, Nat.mul_comm]
      _ < size := short
  omega

/-! ## The geometry of an acceptable file -/

section Acceptable

variable {size target : Nat}

theorem partSizeBytes_ok (nonempty : 1 ≤ size) (fits : size ≤ maxObjectBytes)
    (least : minPartBytes ≤ target) (most : target ≤ maxPartBytes) :
    partSizeBytes size target = .ok (max target (divCeil size maxParts)) := by
  unfold partSizeBytes
  rw [if_neg (by simp [least, most]), if_neg (by omega), if_neg (by omega)]

theorem part_le_maxPartBytes (fits : size ≤ maxObjectBytes) (most : target ≤ maxPartBytes) :
    max target (divCeil size maxParts) ≤ maxPartBytes := by
  apply max_le most
  apply (divCeil_le_iff (by decide)).mpr
  apply le_trans fits
  decide

theorem part_pos (size : Nat) (least : minPartBytes ≤ target) :
    0 < max target (divCeil size maxParts) := by
  have floor : 0 < minPartBytes := by decide
  exact lt_of_lt_of_le floor (le_trans least (le_max_left _ _))

theorem count_le_maxParts (size : Nat) (least : minPartBytes ≤ target) :
    divCeil size (max target (divCeil size maxParts)) ≤ maxParts := by
  apply (divCeil_le_iff (part_pos size least)).mpr
  have covers : size ≤ maxParts * divCeil size maxParts := (divCeil_le_iff (by decide)).mp le_rfl
  calc size ≤ maxParts * divCeil size maxParts := covers
    _ = divCeil size maxParts * maxParts := Nat.mul_comm _ _
    _ ≤ max target (divCeil size maxParts) * maxParts :=
        Nat.mul_le_mul_right _ (le_max_right _ _)

theorem partCount_ok (nonempty : 1 ≤ size) (least : minPartBytes ≤ target) :
    partCount size (max target (divCeil size maxParts)) =
      .ok (divCeil size (max target (divCeil size maxParts))) := by
  have positive := part_pos size least
  have capped := count_le_maxParts size least
  have cap : maxParts ≤ 65535 := by decide
  unfold partCount
  rw [if_neg (by omega), if_neg (by omega)]
  simp only
  rw [if_neg (by omega), if_neg (by omega)]

/-- A target of at most the part limit never saturates the product. -/
theorem largestSizeHonouring_eq (most : target ≤ maxPartBytes) :
    largestSizeHonouring target = target * maxParts := by
  apply min_eq_left
  calc target * maxParts ≤ maxPartBytes * maxParts := Nat.mul_le_mul_right _ most
    _ ≤ 2 ^ 64 - 1 := by decide

theorem part_eq_target_iff (most : target ≤ maxPartBytes) :
    max target (divCeil size maxParts) = target ↔ size ≤ largestSizeHonouring target := by
  rw [max_eq_left_iff, divCeil_le_iff (by decide), largestSizeHonouring_eq most, Nat.mul_comm]

/-- Past the size the target is honoured for, the count stands at the cap. -/
theorem count_eq_maxParts (least : minPartBytes ≤ target) (most : target ≤ maxPartBytes)
    (past : largestSizeHonouring target < size) :
    divCeil size (max target (divCeil size maxParts)) = maxParts := by
  have grown : target < divCeil size maxParts := by
    apply (lt_divCeil_iff (by decide)).mpr
    rw [largestSizeHonouring_eq most] at past
    rwa [Nat.mul_comm]
  have floor : maxParts ≤ minPartBytes := by decide
  rw [max_eq_right grown.le]
  apply divCeil_capped (by decide)
  omega

end Acceptable

end Delphi.Document
