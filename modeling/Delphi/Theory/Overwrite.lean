/-
# Delphi.Theory.Overwrite -- updates that write fields without reading them

A state is read through a family of fields.  An update is overwriting when it
sets each field to a value of its own or leaves it alone; such updates compose,
respect states with equal fields, and repeating one changes nothing.  A log of
them may therefore be replayed over a state that already holds its effects
(`Overwrites.replay`), or a suffix of it over a state that a prefix led to
(`Overwrites.replay_suffix`).
-/
import Mathlib.Data.List.Basic

namespace Delphi.Theory

set_option autoImplicit false

variable {σ ι α : Type} {V : ι → Type} (get : (i : ι) → σ → V i)

/-- Every field is equal. -/
def SameFields (s t : σ) : Prop := ∀ i, get i s = get i t

/-- Each field is set, whatever the state was, or left alone. -/
def Overwrites (update : σ → σ) : Prop :=
  ∀ i, (∀ s t, get i (update s) = get i (update t)) ∨ ∀ s, get i (update s) = get i s

variable {get}

theorem SameFields.trans {s t u : σ} (first : SameFields get s t) (second : SameFields get t u) :
    SameFields get s u :=
  fun i => (first i).trans (second i)

namespace Overwrites

theorem id : Overwrites get (fun s => s) := fun _ => .inr fun _ => rfl

theorem comp {first second : σ → σ} (outer : Overwrites get second)
    (inner : Overwrites get first) : Overwrites get (fun s => second (first s)) := by
  intro i
  rcases outer i with sets | leaves
  · exact .inl fun s t => sets (first s) (first t)
  · rcases inner i with sets | leaves'
    · exact .inl fun s t => by rw [leaves, leaves, sets s t]
    · exact .inr fun s => (leaves (first s)).trans (leaves' s)

theorem congr {update : σ → σ} (overwrites : Overwrites get update) {s t : σ}
    (same : SameFields get s t) : SameFields get (update s) (update t) := by
  intro i
  rcases overwrites i with sets | leaves
  · exact sets s t
  · rw [leaves, leaves, same i]

/-- Doing it again changes nothing. -/
theorem idem {update : σ → σ} (overwrites : Overwrites get update) (s : σ) :
    SameFields get (update (update s)) (update s) := by
  intro i
  rcases overwrites i with sets | leaves
  · exact sets (update s) s
  · exact leaves (update s)

/-- What is read from the fields is overwritten with them. -/
theorem through {W : ι → Type} {read : (i : ι) → σ → W i} {update : σ → σ}
    (overwrites : Overwrites get update)
    (reads : ∀ i s t, get i s = get i t → read i s = read i t) : Overwrites read update := by
  intro i
  rcases overwrites i with sets | leaves
  · exact .inl fun s t => reads i _ _ (sets s t)
  · exact .inr fun s => reads i _ _ (leaves s)

theorem foldl {act : α → σ → σ} {log : List α} (each : ∀ a ∈ log, Overwrites get (act a)) :
    Overwrites get (fun s => log.foldl (fun s a => act a s) s) := by
  induction log with
  | nil => exact id
  | cons a rest ih =>
      have later := ih fun b mem => each b (List.mem_cons_of_mem _ mem)
      exact later.comp (each a (List.mem_cons_self ..))

/-- A log of overwriting updates, replayed over a state it led to, leads there
again. -/
theorem replay {act : α → σ → σ} {log : List α} (each : ∀ a ∈ log, Overwrites get (act a))
    (s : σ) :
    SameFields get (log.foldl (fun s a => act a s) (log.foldl (fun s a => act a s) s))
      (log.foldl (fun s a => act a s) s) :=
  (foldl each).idem s

/-- Any stretch of a log that reaches back into what a state already holds may be folded on
top of it: the part the state has seen changes nothing, the part it has not follows. -/
theorem replay_stretch {act : α → σ → σ} {seen missed : List α}
    (eachSeen : ∀ a ∈ seen, Overwrites get (act a))
    (eachMissed : ∀ a ∈ missed, Overwrites get (act a)) (s : σ) :
    SameFields get
      ((seen ++ missed).foldl (fun s a => act a s) (seen.foldl (fun s a => act a s) s))
      ((seen ++ missed).foldl (fun s a => act a s) s) := by
  rw [List.foldl_append, List.foldl_append]
  exact (foldl eachMissed).congr (replay eachSeen s)

/-- A suffix that begins within the first `reached` entries, or directly after them, folded
over what they led to. -/
theorem replay_suffix {act : α → σ → σ} {log : List α}
    (each : ∀ a ∈ log, Overwrites get (act a)) {start reached : Nat} (overlaps : start ≤ reached)
    (inLog : reached ≤ log.length) (s : σ) :
    SameFields get
      ((log.drop start).foldl (fun s a => act a s)
        ((log.take reached).foldl (fun s a => act a s) s))
      (log.foldl (fun s a => act a s) s) := by
  have cut : log.drop start = (log.take reached).drop start ++ log.drop reached := by
    conv_lhs => rw [← List.take_append_drop reached log]
    rw [List.drop_append_of_le_length (by rw [List.length_take]; omega)]
  have front : log.take reached = log.take start ++ (log.take reached).drop start := by
    conv_lhs => rw [← List.take_append_drop start (log.take reached)]
    rw [List.take_take, Nat.min_eq_left overlaps]
  have whole : log.foldl (fun s a => act a s) s
      = (log.drop start).foldl (fun s a => act a s)
        ((log.take start).foldl (fun s a => act a s) s) := by
    rw [← List.foldl_append, List.take_append_drop]
  rw [whole, front, List.foldl_append, cut]
  exact replay_stretch (fun a mem => each a (List.mem_of_mem_take (List.mem_of_mem_drop mem)))
    (fun a mem => each a (List.mem_of_mem_drop mem)) _

end Overwrites

end Delphi.Theory
