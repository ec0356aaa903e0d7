/-
# Delphi.Theory.Numeral -- decimal numerals and their one proper spelling

A non-empty list of digits denotes a number, and a number has one numeral that is
printed for it.  The two agree exactly on the numerals without a leading zero
(`toDigits_ofDigitChars_iff`): every other spelling is read and printed
differently.
-/
import Mathlib.Data.List.Induction

namespace Delphi.Theory

set_option autoImplicit false

/-- No leading zero, unless the numeral is zero itself. -/
def Proper (digits : List Char) : Prop := digits = ['0'] ∨ digits.head? ≠ some '0'

instance (digits : List Char) : Decidable (Proper digits) := inferInstanceAs (Decidable (_ ∨ _))

theorem digitChar_toNat_sub {c : Char} (digit : c.isDigit = true) :
    c.toNat - '0'.toNat < 10 ∧ Nat.digitChar (c.toNat - '0'.toNat) = c := by
  have bounds : 48 ≤ c.toNat ∧ c.toNat ≤ 57 := by
    simpa [Char.isDigit, UInt32.le_iff_toNat_le] using digit
  have all : ∀ n : Fin 10, Nat.digitChar n.val = Char.ofNat (n.val + 48) := by decide
  have small : c.toNat - '0'.toNat < 10 := by
    show c.toNat - 48 < 10
    omega
  refine ⟨small, ?_⟩
  have back : c.toNat - '0'.toNat + 48 = c.toNat := by
    show c.toNat - 48 + 48 = c.toNat
    omega
  rw [all ⟨_, small⟩, back, Char.ofNat_toNat]

/-- The numeral of a positive number does not start with a zero. -/
theorem head?_toDigits {n : Nat} (positive : 0 < n) : (Nat.toDigits 10 n).head? ≠ some '0' := by
  induction n using Nat.strongRecOn with
  | ind n ih =>
      by_cases small : n < 10
      · rw [Nat.toDigits_of_lt_base small]
        simp only [List.head?_cons, ne_eq, Option.some.injEq, Nat.digitChar_eq_zero]
        omega
      · have shorter : 0 < n / 10 := by omega
        have front := ih (n / 10) (by omega) shorter
        rw [Nat.toDigits_of_base_le (by decide) (by omega), List.head?_append]
        cases first : (Nat.toDigits 10 (n / 10)).head? with
        | none => exact absurd (List.head?_eq_none_iff.mp first) Nat.toDigits_ne_nil
        | some c =>
            rw [first] at front
            exact front

theorem proper_toDigits (n : Nat) : Proper (Nat.toDigits 10 n) := by
  rcases Nat.eq_zero_or_pos n with rfl | positive
  · exact .inl (Nat.toDigits_zero 10)
  · exact .inr (head?_toDigits positive)

theorem toDigits_ofDigitChars_of_head {digits : List Char} (nonempty : digits ≠ [])
    (all : ∀ c ∈ digits, c.isDigit = true) (head : digits.head? ≠ some '0') :
    0 < Nat.ofDigitChars 10 digits 0 ∧
      Nat.toDigits 10 (Nat.ofDigitChars 10 digits 0) = digits := by
  induction digits using List.reverseRecOn with
  | nil => exact absurd rfl nonempty
  | append_singleton front last ih =>
      obtain ⟨small, spelled⟩ := digitChar_toNat_sub (all last (by simp))
      rw [Nat.ofDigitChars_append, Nat.ofDigitChars_cons, Nat.ofDigitChars_nil]
      cases front with
      | nil =>
          rw [Nat.ofDigitChars_nil, Nat.mul_zero, Nat.zero_add, Nat.toDigits_of_lt_base small,
            spelled]
          refine ⟨?_, rfl⟩
          apply Nat.pos_of_ne_zero
          intro zero
          rw [zero] at spelled
          exact head (by rw [← spelled]; rfl)
      | cons first rest =>
          obtain ⟨positive, front⟩ := ih (by simp) (fun c mem => all c (List.mem_append_left _ mem))
            (by simpa using head)
          refine ⟨by omega, ?_⟩
          rw [← Nat.toDigits_append_toDigits (by decide) positive small, front,
            Nat.toDigits_of_lt_base small, spelled]

/-- A numeral is the printed one of its number if and only if it is proper. -/
theorem toDigits_ofDigitChars_iff {digits : List Char} (nonempty : digits ≠ [])
    (all : ∀ c ∈ digits, c.isDigit = true) :
    Nat.toDigits 10 (Nat.ofDigitChars 10 digits 0) = digits ↔ Proper digits := by
  constructor
  · intro printed
    rw [← printed]
    exact proper_toDigits _
  · rintro (rfl | head)
    · rfl
    · exact (toDigits_ofDigitChars_of_head nonempty all head).2

end Delphi.Theory
