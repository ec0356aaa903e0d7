/-
# Delphi.Theory.Slices -- a list in parts, and put together again

A list is cut into parts of one length, counted from one, the last one shorter.
All parts, in order, give the list (`flatten_allSlices`).  Some of them, in order,
give no more than the list has, and when they give as much they are all of them
(`flatten_slices_eq`): a check of the length alone shows that nothing is missing.
-/
import Mathlib.Data.List.Flatten
import Mathlib.Data.List.Sort
import Mathlib.Algebra.Order.Floor.Div

namespace Delphi.Theory

set_option autoImplicit false

variable {α β : Type}

/-- What a choice of parts gives is shorter, unless all are chosen. -/
theorem eq_of_sublist_of_flatten_length {f : β → List α} {some_ all : List β}
    (sublist : some_.Sublist all) (nonempty : ∀ x ∈ all, f x ≠ [])
    (length : (all.map f).flatten.length ≤ (some_.map f).flatten.length) : some_ = all := by
  induction sublist with
  | slnil => rfl
  | @cons some_ all x sublist _ =>
      have shorter : (some_.map f).flatten.length ≤ (all.map f).flatten.length :=
        (sublist.map f).flatten.length_le
      have added : 0 < (f x).length :=
        List.length_pos_of_ne_nil (nonempty x List.mem_cons_self)
      rw [List.map_cons, List.flatten_cons, List.length_append] at length
      omega
  | @cons_cons some_ all x sublist ih =>
      simp only [List.map_cons, List.flatten_cons, List.length_append] at length
      rw [ih (fun y mem => nonempty y (List.mem_cons_of_mem _ mem)) (by omega)]

/-- The `n`-th part. -/
def slice (part : Nat) (whole : List α) (n : Nat) : List α :=
  (whole.drop ((n - 1) * part)).take part

/-- The numbers of the parts. -/
def IsPart (part : Nat) (whole : List α) (n : Nat) : Prop := 1 ≤ n ∧ (n - 1) * part < whole.length

/-- Parts in their order, each once. -/
structure InOrder (part : Nat) (whole : List α) (numbers : List Nat) : Prop where
  rising : numbers.Pairwise (· < ·)
  within : ∀ n ∈ numbers, IsPart part whole n

def allParts (part : Nat) (whole : List α) : List Nat := List.range' 1 (whole.length ⌈/⌉ part)

section

variable {part : Nat} {whole : List α} {numbers : List Nat} {n : Nat}

theorem flatten_slices_take (count : Nat) :
    ((List.range' 1 count).map (slice part whole)).flatten = whole.take (count * part) := by
  induction count with
  | zero => simp
  | succ count ih =>
      rw [List.range'_concat, List.map_append, List.flatten_append, ih, Nat.add_mul, List.take_add]
      simp [slice, Nat.add_comm 1]

variable (positive : 0 < part)

include positive

theorem mem_allParts : n ∈ allParts part whole ↔ IsPart part whole n := by
  have below : n - 1 < whole.length ⌈/⌉ part ↔ (n - 1) * part < whole.length := by
    rw [← not_le, ceilDiv_le_iff_le_mul positive, not_le, Nat.mul_comm]
  rw [allParts, List.mem_range'_1, IsPart, ← below]
  omega

theorem flatten_allSlices : ((allParts part whole).map (slice part whole)).flatten = whole := by
  rw [allParts, flatten_slices_take, List.take_of_length_le]
  rw [Nat.mul_comm]
  exact (ceilDiv_le_iff_le_mul positive).mp le_rfl

theorem slice_ne_nil (isPart : IsPart part whole n) : slice part whole n ≠ [] := by
  intro empty
  have length := congrArg List.length empty
  have inside := isPart.2
  simp only [slice, List.length_take, List.length_drop, List.length_nil] at length
  omega

theorem sublist_allParts (inOrder : InOrder part whole numbers) :
    numbers.Sublist (allParts part whole) := by
  have rising : (allParts part whole).Pairwise (· < ·) := List.pairwise_lt_range'
  have subset : numbers ⊆ allParts part whole := fun n mem =>
    (mem_allParts positive).mpr (inOrder.within n mem)
  exact List.sublist_of_subperm_of_pairwise
    (List.subperm_of_subset (inOrder.rising.imp Nat.ne_of_lt) subset) inOrder.rising rising

/-- Parts in their order give no more than the whole. -/
theorem length_slices_le (inOrder : InOrder part whole numbers) :
    (numbers.map (slice part whole)).flatten.length ≤ whole.length := by
  calc (numbers.map (slice part whole)).flatten.length
      ≤ ((allParts part whole).map (slice part whole)).flatten.length :=
        ((sublist_allParts positive inOrder).map _).flatten.length_le
    _ = whole.length := by rw [flatten_allSlices positive]

/-- Parts in their order that give as much as the whole give the whole. -/
theorem flatten_slices_eq (inOrder : InOrder part whole numbers)
    (length : whole.length ≤ (numbers.map (slice part whole)).flatten.length) :
    (numbers.map (slice part whole)).flatten = whole := by
  have all : numbers = allParts part whole := by
    refine eq_of_sublist_of_flatten_length (f := slice part whole)
      (sublist_allParts positive inOrder) ?_ ?_
    · exact fun n mem => slice_ne_nil positive ((mem_allParts positive).mp mem)
    · rwa [flatten_allSlices positive]
  rw [all, flatten_allSlices positive]

/-- Parts in their order, none left out. -/
theorem flatten_slices_of_all (inOrder : InOrder part whole numbers)
    (all : ∀ n, IsPart part whole n → n ∈ numbers) :
    (numbers.map (slice part whole)).flatten = whole := by
  have sublist := sublist_allParts positive inOrder
  have nodup : (allParts part whole).Nodup := List.nodup_range'
  have subset : allParts part whole ⊆ numbers := fun n mem =>
    all n ((mem_allParts positive).mp mem)
  rw [sublist.eq_of_length_le (List.subperm_of_subset nodup subset).length_le,
    flatten_allSlices positive]

end

end Delphi.Theory
