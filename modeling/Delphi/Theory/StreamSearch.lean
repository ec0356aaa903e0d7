/-
# Delphi.Theory.StreamSearch -- searching a stream for a pattern, chunk by chunk

A pattern that has not occurred in what was read can only be completed by a part
of it at the very end.  So a search over a stream need not keep what it has read:
any end of it that is at most one element shorter than the pattern will do
(`Kept`), and with it the next chunk is searched exactly (`Kept.infix_append`).
-/
import Mathlib.Data.List.Basic

namespace Delphi.Theory

set_option autoImplicit false

variable {α : Type}

/-! ## Windows -/

/-- The stretches of a given length, from left to right. -/
def windows (size : Nat) (haystack : List α) : List (List α) :=
  (List.range (haystack.length + 1 - size)).map fun start => (haystack.drop start).take size

theorem mem_windows {size : Nat} {haystack window : List α} :
    window ∈ windows size haystack ↔ window <:+: haystack ∧ window.length = size := by
  unfold windows
  rw [List.mem_map]
  constructor
  · rintro ⟨start, inRange, rfl⟩
    rw [List.mem_range] at inRange
    refine ⟨(List.take_prefix size _).isInfix.trans (List.drop_suffix start _).isInfix, ?_⟩
    rw [List.length_take, List.length_drop]
    omega
  · rintro ⟨⟨front, back, rfl⟩, rfl⟩
    refine ⟨front.length, ?_, ?_⟩
    · rw [List.mem_range]
      simp only [List.length_append]
      omega
    · rw [List.append_assoc, List.drop_left, List.take_left]

/-! ## What a search has to keep -/

/-- `window` is enough of `seen` to go on searching for `needle`: all of it, or an end that
lacks at most one element of the needle's length. -/
structure Kept (needle seen window : List α) : Prop where
  suffix : window <:+ seen
  enough : window = seen ∨ needle.length ≤ window.length + 1

namespace Kept

variable {needle seen window : List α}

theorem start : Kept needle [] [] := ⟨List.suffix_rfl, .inl rfl⟩

/-- A needle not seen so far occurs in the next chunk, or across its border with the
window. -/
theorem infix_append (kept : Kept needle seen window) (absent : ¬ needle <:+: seen)
    (chunk : List α) : needle <:+: seen ++ chunk ↔ needle <:+: window ++ chunk := by
  constructor
  · intro found
    rcases List.infix_append_iff_ne_nil.mp found with before | after | across
    · exact absurd before absent
    · exact List.infix_append_of_infix_right after
    · obtain ⟨left, right, leftNe, rightNe, rfl, atEnd, atStart⟩ := across
      have fits : left <:+ window := by
        rcases kept.enough with whole | long
        · exact whole ▸ atEnd
        · apply List.suffix_of_suffix_length_le atEnd kept.suffix
          have one := List.length_pos_iff.mpr rightNe
          rw [List.length_append] at long
          omega
      obtain ⟨front, rfl⟩ := fits
      obtain ⟨back, rfl⟩ := atStart
      exact ⟨front, back, by simp⟩
  · intro found
    obtain ⟨gone, rfl⟩ := kept.suffix
    rw [List.append_assoc]
    exact List.infix_append_of_infix_right found

theorem append (kept : Kept needle seen window) (chunk : List α) :
    Kept needle (seen ++ chunk) (window ++ chunk) := by
  obtain ⟨gone, rfl⟩ := kept.suffix
  refine ⟨⟨gone, by rw [List.append_assoc]⟩, ?_⟩
  rcases kept.enough with whole | long
  · exact .inl (by rw [← whole])
  · right
    rw [List.length_append]
    omega

/-- Dropping from the front is fine down to one element less than the needle. -/
theorem drop (kept : Kept needle seen window) {count : Nat}
    (leaves : needle.length + count ≤ window.length + 1) :
    Kept needle seen (window.drop count) := by
  refine ⟨(List.drop_suffix count window).trans kept.suffix, .inr ?_⟩
  rw [List.length_drop]
  omega

end Kept

end Delphi.Theory
