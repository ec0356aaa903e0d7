/-
# Delphi.Theory.KvBucket -- a revisioned key-value bucket

A bucket whose every write carries the next revision of one counter, so no
revision is ever used twice.  A key holds a live value, the marker a purge left,
or nothing (never written, or expired).  `update` is a compare-and-swap on the
key's last revision, with 0 for a key that holds nothing; `create` needs a key
with no live value.  The operations are the server's, on a key it takes
(`isValidKey`); the client of a bucket refuses the others.

The reason a compare-and-swap protects a read-modify-write is `InHand`: a value
read at revision `r` is still the stored one whenever the key's revision is
still `r`, through any number of writes, purges and expiries in between.
-/
import Mathlib.Logic.Function.Basic

namespace Delphi.Theory

set_option autoImplicit false

/-- What a key holds. -/
inductive KvEntry (V : Type) where
  | put (value : V) (revision : Nat)
  | marker (revision : Nat)

namespace KvEntry

variable {V : Type}

def revision : KvEntry V → Nat
  | .put _ revision => revision
  | .marker revision => revision

end KvEntry

structure KvBucket (V : Type) where
  entries : String → Option (KvEntry V)
  lastRevision : Nat

namespace KvBucket

variable {V : Type}

def empty : KvBucket V := ⟨fun _ => none, 0⟩

/-- The live value of a key. -/
def live (b : KvBucket V) (key : String) : Option V :=
  match b.entries key with
  | some (.put value _) => some value
  | _ => none

/-- The key's last revision, 0 when it holds nothing. -/
def revisionOf (b : KvBucket V) (key : String) : Nat :=
  match b.entries key with
  | some entry => entry.revision
  | none => 0

/-- Write a value at the next revision. -/
def put (b : KvBucket V) (key : String) (value : V) : KvBucket V where
  entries := Function.update b.entries key (some (.put value (b.lastRevision + 1)))
  lastRevision := b.lastRevision + 1

/-- `none` when a live value exists. -/
def create (b : KvBucket V) (key : String) (value : V) : Option (KvBucket V) :=
  match b.live key with
  | some _ => none
  | none => some (b.put key value)

/-- Compare-and-swap; `none` when the key's last revision is another one. -/
def update (b : KvBucket V) (key : String) (value : V) (revision : Nat) : Option (KvBucket V) :=
  if b.revisionOf key = revision then some (b.put key value) else none

/-- Leave a marker. -/
def purge (b : KvBucket V) (key : String) : KvBucket V where
  entries := Function.update b.entries key (some (.marker (b.lastRevision + 1)))
  lastRevision := b.lastRevision + 1

/-- A purge guarded by the key's last revision. -/
def purgeExpectRevision (b : KvBucket V) (key : String) (revision : Nat) : Option (KvBucket V) :=
  if b.revisionOf key = revision then some (b.purge key) else none

/-- The key's age limit has passed. -/
def expire (b : KvBucket V) (key : String) : KvBucket V :=
  { b with entries := Function.update b.entries key none }

/-! ## Keys -/

def isKeyChar (c : Char) : Bool := c.isAlphanum || ['-', '/', '_', '=', '.'].contains c

/-- A key the bucket takes: ASCII letters, digits and `-`, `/`, `_`, `=`, `.`, with no dot at
either end, as the client tests it, and no two dots in a row, since no token of a subject is
empty. -/
def isValidKey (key : String) : Bool :=
  (key.toList.splitOn '.').all fun token => !token.isEmpty && token.all isKeyChar

/-! ## Reading after a write -/

theorem live_eq_some {b : KvBucket V} {key : String} {value : V} :
    b.live key = some value ↔ ∃ revision, b.entries key = some (.put value revision) := by
  unfold live
  cases entry : b.entries key with
  | none => simp
  | some held => cases held <;> simp

@[simp] theorem put_entries_self (b : KvBucket V) (key : String) (value : V) :
    (b.put key value).entries key = some (.put value (b.lastRevision + 1)) := by
  simp [put]

theorem put_entries_of_ne (b : KvBucket V) {key other : String} (value : V) (ne : other ≠ key) :
    (b.put key value).entries other = b.entries other := by
  simp [put, Function.update_of_ne ne]

@[simp] theorem purge_entries_self (b : KvBucket V) (key : String) :
    (b.purge key).entries key = some (.marker (b.lastRevision + 1)) := by
  simp [purge]

theorem purge_entries_of_ne (b : KvBucket V) {key other : String} (ne : other ≠ key) :
    (b.purge key).entries other = b.entries other := by
  simp [purge, Function.update_of_ne ne]

@[simp] theorem expire_entries_self (b : KvBucket V) (key : String) :
    (b.expire key).entries key = none := by
  simp [expire]

theorem expire_entries_of_ne (b : KvBucket V) {key other : String} (ne : other ≠ key) :
    (b.expire key).entries other = b.entries other := by
  simp [expire, Function.update_of_ne ne]

@[simp] theorem live_put_self (b : KvBucket V) (key : String) (value : V) :
    (b.put key value).live key = some value := by
  simp [live]

theorem live_put_of_ne (b : KvBucket V) {key other : String} (value : V) (ne : other ≠ key) :
    (b.put key value).live other = b.live other := by
  simp [live, put_entries_of_ne b value ne]

theorem update_eq_some {b b' : KvBucket V} {key : String} {value : V} {revision : Nat}
    (updated : b.update key value revision = some b') :
    b.revisionOf key = revision ∧ b' = b.put key value := by
  unfold update at updated
  split at updated
  · rename_i same
    exact ⟨same, (Option.some.inj updated).symm⟩
  · cases updated

theorem create_eq_some {b b' : KvBucket V} {key : String} {value : V}
    (created : b.create key value = some b') : b.live key = none ∧ b' = b.put key value := by
  unfold create at created
  split at created
  · cases created
  · rename_i absent
    exact ⟨absent, (Option.some.inj created).symm⟩

/-! ## Revisions -/

/-- Every held revision is positive and counted. -/
def Counted (b : KvBucket V) : Prop :=
  ∀ key entry, b.entries key = some entry → 0 < entry.revision ∧ entry.revision ≤ b.lastRevision

/-- One bucket follows another by writes, purges and expiries of single keys. -/
inductive Follows (b : KvBucket V) : KvBucket V → Prop where
  | same : Follows b b
  | put (key : String) (value : V) : Follows b (b.put key value)
  | purge (key : String) : Follows b (b.purge key)
  | expire (key : String) : Follows b (b.expire key)

/-- After one operation a key holds what it held, nothing, or something at the
next revision. -/
theorem Follows.entry {b b' : KvBucket V} (follows : b.Follows b') (key : String) :
    b'.entries key = b.entries key ∨ b'.entries key = none ∨
      ∃ entry, b'.entries key = some entry ∧ entry.revision = b.lastRevision + 1 ∧
        b'.lastRevision = b.lastRevision + 1 := by
  cases follows with
  | same => exact .inl rfl
  | put k value =>
      by_cases same : key = k
      · subst same
        exact .inr (.inr ⟨_, b.put_entries_self key value, rfl, rfl⟩)
      · exact .inl (b.put_entries_of_ne value same)
  | purge k =>
      by_cases same : key = k
      · subst same
        exact .inr (.inr ⟨_, b.purge_entries_self key, rfl, rfl⟩)
      · exact .inl (b.purge_entries_of_ne same)
  | expire k =>
      by_cases same : key = k
      · subst same
        exact .inr (.inl (b.expire_entries_self key))
      · exact .inl (b.expire_entries_of_ne same)

theorem Follows.lastRevision_le {b b' : KvBucket V} (follows : b.Follows b') :
    b.lastRevision ≤ b'.lastRevision := by
  cases follows <;> simp [KvBucket.put, KvBucket.purge, KvBucket.expire]

theorem counted_empty : Counted (empty : KvBucket V) := by
  intro key entry held
  cases held

theorem Counted.follows {b b' : KvBucket V} (counted : b.Counted) (follows : b.Follows b') :
    b'.Counted := by
  intro key entry held
  rcases follows.entry key with same | gone | ⟨new, at', revision, next⟩
  · rw [same] at held
    obtain ⟨positive, le⟩ := counted key entry held
    exact ⟨positive, Nat.le_trans le follows.lastRevision_le⟩
  · rw [gone] at held
    cases held
  · rw [at'] at held
    cases held
    rw [revision, next]
    exact ⟨Nat.succ_pos _, Nat.le_refl _⟩

/-- `value` was read from `key` at `revision`: as long as the key's revision is
that one, it still holds that value. -/
structure InHand (b : KvBucket V) (key : String) (value : V) (revision : Nat) : Prop where
  positive : 0 < revision
  counted : revision ≤ b.lastRevision
  unchanged : b.revisionOf key = revision → b.entries key = some (.put value revision)

theorem Counted.inHand {b : KvBucket V} (counted : b.Counted) {key : String} {value : V}
    {revision : Nat} (held : b.entries key = some (.put value revision)) :
    b.InHand key value revision :=
  ⟨(counted key _ held).1, (counted key _ held).2, fun _ => held⟩

theorem InHand.follows {b b' : KvBucket V} {key : String} {value : V} {revision : Nat}
    (inHand : b.InHand key value revision) (follows : b.Follows b') :
    b'.InHand key value revision := by
  refine ⟨inHand.positive, Nat.le_trans inHand.counted follows.lastRevision_le, fun still => ?_⟩
  rcases follows.entry key with same | gone | ⟨new, at', at_, next⟩
  · rw [same]
    apply inHand.unchanged
    simpa [revisionOf, same] using still
  · have := inHand.positive
    simp only [revisionOf, gone] at still
    omega
  · have := inHand.counted
    simp only [revisionOf, at'] at still
    omega

/-- A compare-and-swap on a revision in hand replaces exactly the value read. -/
theorem InHand.of_update {b b' : KvBucket V} {key : String} {value next : V} {revision : Nat}
    (inHand : b.InHand key value revision) (updated : b.update key next revision = some b') :
    b.entries key = some (.put value revision) ∧ b' = b.put key next := by
  obtain ⟨same, rfl⟩ := update_eq_some updated
  exact ⟨inHand.unchanged same, rfl⟩

end KvBucket

end Delphi.Theory
