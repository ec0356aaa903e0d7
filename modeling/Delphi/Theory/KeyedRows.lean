/-
# Delphi.Theory.KeyedRows -- a table of rows under a primary key

A table is a list of rows, in no particular order, no two of which have one key
(`Keyed`).  `upsert` is an insert that updates the row already there; it touches
no row of another key (`mem_upsert_of_ne`) and leaves exactly one row of its own
(`mem_upsert_self`).
-/
import Mathlib.Data.List.Nodup

namespace Delphi.Theory

set_option autoImplicit false

variable {R κ : Type} [DecidableEq κ] (key : R → κ)

/-- No two rows have one key. -/
def Keyed (table : List R) : Prop := (table.map key).Nodup

/-- Insert a row, or update the one that has its key: `update held row`. -/
def upsert (update : R → R → R) (table : List R) (row : R) : List R :=
  if table.any fun held => key held = key row then
    table.map fun held => if key held = key row then update held row else held
  else table ++ [row]

variable {key} {update : R → R → R} {table : List R} {row : R}

theorem upsert_of_absent (absent : ∀ held ∈ table, key held ≠ key row) :
    upsert key update table row = table ++ [row] := by
  unfold upsert
  rw [if_neg]
  simpa using absent

theorem upsert_of_present {held : R} (mem : held ∈ table) (same : key held = key row) :
    upsert key update table row =
      table.map fun held => if key held = key row then update held row else held := by
  unfold upsert
  rw [if_pos]
  exact List.any_eq_true.mpr ⟨held, mem, by simpa using same⟩

/-- Rows of other keys are neither lost nor made. -/
theorem mem_upsert_of_ne (keeps : ∀ held row, key held = key row → key (update held row) = key row)
    {other : R} (ne : key other ≠ key row) :
    other ∈ upsert key update table row ↔ other ∈ table := by
  by_cases present : ∃ held ∈ table, key held = key row
  · obtain ⟨held, mem, same⟩ := present
    rw [upsert_of_present mem same, List.mem_map]
    constructor
    · rintro ⟨old, oldMem, rfl⟩
      by_cases hit : key old = key row
      · rw [if_pos hit] at ne
        exact absurd (keeps old row hit) ne
      · rwa [if_neg hit]
    · intro otherMem
      exact ⟨other, otherMem, if_neg ne⟩
  · rw [upsert_of_absent fun held mem same => present ⟨held, mem, same⟩]
    simp only [List.mem_append, List.mem_singleton, or_iff_left_iff_imp]
    rintro rfl
    exact absurd rfl ne

/-- The row of its own key is the updated one, or the new one. -/
theorem mem_upsert_self {other : R} (same : key other = key row) :
    other ∈ upsert key update table row ↔
      (∃ held ∈ table, key held = key row ∧ other = update held row) ∨
      ((∀ held ∈ table, key held ≠ key row) ∧ other = row) := by
  by_cases present : ∃ held ∈ table, key held = key row
  · obtain ⟨held, mem, hit⟩ := present
    rw [upsert_of_present mem hit, List.mem_map]
    constructor
    · rintro ⟨old, oldMem, rfl⟩
      by_cases old_hit : key old = key row
      · exact .inl ⟨old, oldMem, old_hit, if_pos old_hit⟩
      · rw [if_neg old_hit] at same
        exact absurd same old_hit
    · rintro (⟨old, oldMem, old_hit, rfl⟩ | ⟨absent, -⟩)
      · exact ⟨old, oldMem, if_pos old_hit⟩
      · exact absurd hit (absent held mem)
  · have absent : ∀ held ∈ table, key held ≠ key row := fun held mem hit => present ⟨held, mem, hit⟩
    rw [upsert_of_absent absent]
    constructor
    · intro mem
      rcases List.mem_append.mp mem with old | new
      · exact absurd same (absent other old)
      · exact .inr ⟨absent, List.mem_singleton.mp new⟩
    · rintro (⟨held, mem, hit, -⟩ | ⟨-, rfl⟩)
      · exact absurd hit (absent held mem)
      · simp

/-- A row of the table after an upsert was there, is the updated one, or is the new one. -/
theorem of_mem_upsert {other : R} (mem : other ∈ upsert key update table row) :
    other ∈ table ∨ (∃ held ∈ table, key held = key row ∧ other = update held row) ∨
      other = row := by
  unfold upsert at mem
  split at mem
  · obtain ⟨held, heldMem, rfl⟩ := List.mem_map.mp mem
    by_cases hit : key held = key row
    · exact .inr (.inl ⟨held, heldMem, hit, if_pos hit⟩)
    · rw [if_neg hit]
      exact .inl heldMem
  · rcases List.mem_append.mp mem with old | new
    · exact .inl old
    · exact .inr (.inr (List.mem_singleton.mp new))

/-- A selection that holds neither the new row, nor the updated one before or after, is kept. -/
theorem filter_upsert {p : R → Bool} (new : p row = false)
    (own : ∀ held ∈ table, key held = key row → p held = false ∧ p (update held row) = false) :
    (upsert key update table row).filter p = table.filter p := by
  unfold upsert
  split
  · rw [List.filter_map]
    have same : (table.filter (p ∘ fun held => if key held = key row then update held row else held)) =
        table.filter p := by
      refine List.filter_congr fun held mem => ?_
      by_cases hit : key held = key row
      · simp [Function.comp, hit, own held mem hit]
      · simp [Function.comp, hit]
    rw [same]
    refine (List.map_congr_left fun held mem => ?_).trans (List.map_id _)
    obtain ⟨heldMem, chosen⟩ := List.mem_filter.mp mem
    refine if_neg fun hit => ?_
    rw [(own held heldMem hit).1] at chosen
    cases chosen
  · simp [List.filter_append, new]

theorem map_key_upsert (keeps : ∀ held row, key held = key row → key (update held row) = key row)
    (table : List R) (row : R) :
    (upsert key update table row).map key = table.map key ∨
      (∀ held ∈ table, key held ≠ key row) ∧
        (upsert key update table row).map key = table.map key ++ [key row] := by
  by_cases present : ∃ held ∈ table, key held = key row
  · obtain ⟨held, mem, hit⟩ := present
    refine .inl ?_
    rw [upsert_of_present mem hit, List.map_map]
    refine List.map_congr_left fun old _ => ?_
    by_cases old_hit : key old = key row
    · simp [old_hit, keeps old row old_hit]
    · simp [old_hit]
  · have absent : ∀ held ∈ table, key held ≠ key row := fun held mem hit => present ⟨held, mem, hit⟩
    refine .inr ⟨absent, ?_⟩
    rw [upsert_of_absent absent, List.map_append, List.map_singleton]

theorem Keyed.upsert (keyed : Keyed key table)
    (keeps : ∀ held row, key held = key row → key (update held row) = key row) (row : R) :
    Keyed key (Delphi.Theory.upsert key update table row) := by
  unfold Keyed
  rcases map_key_upsert keeps table row with same | ⟨absent, appended⟩
  · rw [same]
    exact keyed
  · rw [appended, List.nodup_append]
    refine ⟨keyed, List.nodup_singleton _, ?_⟩
    rintro k mem k' single rfl
    obtain ⟨held, heldMem, rfl⟩ := List.mem_map.mp mem
    exact absent held heldMem (List.mem_singleton.mp single)

omit [DecidableEq κ] in
theorem Keyed.filter (keyed : Keyed key table) (p : R → Bool) : Keyed key (table.filter p) :=
  keyed.sublist (List.filter_sublist.map key)

omit [DecidableEq κ] in
/-- A key has one row. -/
theorem Keyed.unique (keyed : Keyed key table) {first second : R} (mem : first ∈ table)
    (mem' : second ∈ table) (same : key first = key second) : first = second :=
  List.inj_on_of_nodup_map keyed mem mem' same

end Delphi.Theory
