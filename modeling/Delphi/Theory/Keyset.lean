/-
# Delphi.Theory.Keyset -- walking a listing by its keys

A listing in a strict order, cut into pages; a page names the key of its last
element, and the next page is what comes strictly after that key.  Following the
keys visits every element once, in order, whatever the size of a page.
-/
import Mathlib.Data.List.Basic

namespace Delphi.Theory.Keyset

set_option autoImplicit false

variable {α κ P : Type}

/-- Where a cursor stands in a listing: at its start, or after the element it names. -/
inductive Stands (key : α → κ) : List α → Option κ → Prop where
  | start : Stands key [] none
  | after (front : List α) (last : α) : Stands key (front ++ [last]) (some (key last))

/-- What comes after a cursor. -/
def rest (key : α → κ) (after : κ → κ → Bool) (listing : List α) : Option κ → List α
  | none => listing
  | some cursor => listing.filter fun x => after cursor (key x)

/-- In a strict order, what comes after a cursor is what it has not passed. -/
theorem rest_eq {key : α → κ} {after : κ → κ → Bool}
    (asymm : ∀ k k', after k k' = true → after k' k = false) {front back : List α}
    {cursor : Option κ}
    (strict : (front ++ back).Pairwise fun x y => after (key x) (key y) = true)
    (stands : Stands key front cursor) : rest key after (front ++ back) cursor = back := by
  cases stands with
  | start => rfl
  | after front last =>
      obtain ⟨-, later, across⟩ := List.pairwise_append.mp strict
      obtain ⟨-, -, behind⟩ := List.pairwise_append.mp
        (List.pairwise_append.mp strict).1
      have passed : ((front ++ [last]).filter fun x => after (key last) (key x)) = [] := by
        refine List.filter_eq_nil_iff.mpr ?_
        intro x mem ahead
        rcases List.mem_append.mp mem with earlier | self
        · have back := asymm _ _ (behind x earlier last (List.mem_singleton_self last))
          rw [back] at ahead
          cases ahead
        · cases List.mem_singleton.mp self
          have back := asymm _ _ ahead
          rw [back] at ahead
          cases ahead
      have ahead : (back.filter fun x => after (key last) (key x)) = back :=
        List.filter_eq_self.mpr fun x mem => across last (by simp) x mem
      rw [rest, List.filter_append, passed, ahead, List.nil_append]

/-- The key a full page of a size hands on. -/
def handedOn (key : α → κ) (size : Nat) (items : List α) : Option κ :=
  if items.length = size then items.getLast?.map key else none

/-- Fetch page after page, from a cursor on. -/
def walk (fetch : Option κ → Option P) (next : P → Option κ) : Nat → Option κ → Option (List P)
  | 0, _ => none
  | fuel + 1, cursor =>
      match fetch cursor with
      | none => none
      | some page =>
          match next page with
          | none => some [page]
          | some cursor => (walk fetch next fuel (some cursor)).map (page :: ·)

/-- What each page has to be: the next so many elements, and a key when it is full. -/
def Pages (key : α → κ) (size : Nat) (listing : List α) (fetch : Option κ → Option P)
    (items : P → List α) (next : P → Option κ) : Prop :=
  ∀ front back cursor, listing = front ++ back → Stands key front cursor →
    ∃ page, fetch cursor = some page ∧ items page = back.take size ∧
      next page = handedOn key size (back.take size)

variable {key : α → κ} {size : Nat} {listing : List α} {fetch : Option κ → Option P}
  {items : P → List α} {next : P → Option κ}

theorem walk_from (positive : 0 < size) (pages : Pages key size listing fetch items next)
    (length : Nat) : ∀ (front back : List α) (cursor : Option κ), back.length = length →
      listing = front ++ back → Stands key front cursor →
      ∃ walked, (∀ fuel, length < fuel → walk fetch next fuel cursor = some walked) ∧
        walked.flatMap items = back ∧ ∀ page ∈ walked, (items page).length ≤ size := by
  induction length using Nat.strongRecOn with
  | ind length ih =>
      intro front back cursor measured split stands
      obtain ⟨page, fetched, holds, hands⟩ := pages front back cursor split stands
      have fits : (items page).length ≤ size := by
        rw [holds, List.length_take]
        exact Nat.min_le_left _ _
      by_cases full : (back.take size).length = size
      · -- A full page names its last element, and the walk goes on after it.
        have nonempty : back.take size ≠ [] := by
          intro empty
          rw [empty] at full
          exact absurd full (Nat.ne_of_lt positive)
        obtain ⟨inits, last, ends⟩ : ∃ inits last, back.take size = inits ++ [last] :=
          ⟨_, _, (List.dropLast_append_getLast nonempty).symm⟩
        have enough : size ≤ back.length := by
          rw [List.length_take] at full
          omega
        have follows : next page = some (key last) := by
          rw [hands, handedOn, if_pos full, ends, List.getLast?_concat]
          rfl
        obtain ⟨walked, walks, all, small⟩ := ih (back.drop size).length
          (by rw [List.length_drop]; omega) (front ++ back.take size) (back.drop size)
          (some (key last)) rfl (by rw [List.append_assoc, List.take_append_drop, split])
          (by rw [ends, ← List.append_assoc]; exact .after _ _)
        refine ⟨page :: walked, ?_, ?_, ?_⟩
        · intro fuel long
          obtain ⟨fuel, rfl⟩ := Nat.exists_eq_succ_of_ne_zero (by omega : fuel ≠ 0)
          have more := walks fuel (by rw [List.length_drop]; omega)
          simp only [walk, fetched, follows, more, Option.map_some]
        · rw [List.flatMap_cons, all, holds, List.take_append_drop]
        · intro other mem
          rcases List.mem_cons.mp mem with rfl | mem
          · exact fits
          · exact small other mem
      · have ends : next page = none := by rw [hands, handedOn, if_neg full]
        refine ⟨[page], ?_, ?_, ?_⟩
        · intro fuel long
          obtain ⟨fuel, rfl⟩ := Nat.exists_eq_succ_of_ne_zero (by omega : fuel ≠ 0)
          simp only [walk, fetched, ends]
        · have short : back.length ≤ size := by
            rw [List.length_take] at full
            omega
          simp [holds, List.take_of_length_le short]
        · intro other mem
          cases List.mem_singleton.mp mem
          exact fits

/-- A walk from the start ends, and its pages are the listing. -/
theorem walk_enumerates (positive : 0 < size) (pages : Pages key size listing fetch items next) :
    ∃ walked, (∀ fuel, listing.length < fuel → walk fetch next fuel none = some walked) ∧
      walked.flatMap items = listing ∧ ∀ page ∈ walked, (items page).length ≤ size :=
  walk_from positive pages listing.length [] listing none rfl rfl .start

end Delphi.Theory.Keyset
