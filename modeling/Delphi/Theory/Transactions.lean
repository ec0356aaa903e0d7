/-
# Delphi.Theory.Transactions -- sessions over shared rows

A database in the isolation level a service gets by default: a session reads the
committed rows under its own writes, a row written by an open session is locked
until that session ends, and a commit publishes all the session wrote at once.
A session that is rolled back, or whose client is gone, publishes nothing.

The rows under a key are compared by a preorder (`Versioning`).  When every write
is at least the row its session saw (`upward`), committed rows only grow, so does
what each session sees, and whatever an upward closed property said of a session's
view it says for good (`Sees.extends`).
-/
import Mathlib.Data.List.Induction
import Mathlib.Logic.Function.Basic

namespace Delphi.Theory

set_option autoImplicit false

/-- The rows of a database, one at most under each key. -/
abbrev Rows (κ : Type) (V : κ → Type) := (k : κ) → Option (V k)

/-- A row as it is written. -/
abbrev Written (κ : Type) (V : κ → Type) := Σ k : κ, V k

variable {κ : Type} {V : κ → Type} [DecidableEq κ]

set_option linter.unusedSectionVars false

namespace Rows

def put (rows : Rows κ V) (written : Written κ V) : Rows κ V :=
  Function.update rows written.1 (some written.2)

/-- The rows under a session's writes, the latest on top. -/
def overlay (rows : Rows κ V) (writes : List (Written κ V)) : Rows κ V :=
  writes.foldl put rows

@[simp] theorem overlay_nil (rows : Rows κ V) : rows.overlay [] = rows := rfl

theorem overlay_snoc (rows : Rows κ V) (writes : List (Written κ V)) (written : Written κ V) :
    rows.overlay (writes ++ [written]) = (rows.overlay writes).put written := by
  simp [overlay]

@[simp] theorem put_self (rows : Rows κ V) (k : κ) (v : V k) :
    rows.put ⟨k, v⟩ k = some v := by
  simp [put]

theorem put_of_ne (rows : Rows κ V) {k k' : κ} (v : V k) (other : k' ≠ k) :
    rows.put ⟨k, v⟩ k' = rows k' := by
  simp [put, other]

theorem overlay_of_untouched (rows : Rows κ V) {writes : List (Written κ V)} {k : κ}
    (untouched : ∀ written ∈ writes, written.1 ≠ k) : rows.overlay writes k = rows k := by
  induction writes using List.reverseRecOn with
  | nil => rfl
  | append_singleton writes last ih =>
      obtain ⟨k', v⟩ := last
      rw [overlay_snoc, put_of_ne _ _ (untouched ⟨k', v⟩ (by simp)).symm]
      exact ih fun written mem => untouched written (List.mem_append_left _ mem)

/-- A row under the writes was written or was there before. -/
theorem mem_or_of_overlay {rows : Rows κ V} {writes : List (Written κ V)} {k : κ} {v : V k}
    (found : rows.overlay writes k = some v) : ⟨k, v⟩ ∈ writes ∨ rows k = some v := by
  induction writes using List.reverseRecOn with
  | nil => exact .inr found
  | append_singleton writes last ih =>
      obtain ⟨k', v'⟩ := last
      rw [overlay_snoc] at found
      by_cases same : k = k'
      · subst same
        rw [put_self] at found
        cases found
        exact .inl (by simp)
      · rw [put_of_ne _ _ same] at found
        exact (ih found).imp_left (List.mem_append_left _)

/-- What was written does not depend on what it covers. -/
theorem overlay_of_touched (rows rows' : Rows κ V) {writes : List (Written κ V)} {k : κ}
    (touched : ∃ written ∈ writes, written.1 = k) :
    rows.overlay writes k = rows'.overlay writes k := by
  induction writes using List.reverseRecOn with
  | nil => simp at touched
  | append_singleton writes last ih =>
      obtain ⟨k', v⟩ := last
      rw [overlay_snoc, overlay_snoc]
      by_cases same : k = k'
      · subst same
        simp only [put_self]
      · rw [put_of_ne _ _ same, put_of_ne _ _ same]
        refine ih ?_
        obtain ⟨written, mem, here⟩ := touched
        rcases List.mem_append.mp mem with old | last
        · exact ⟨written, old, here⟩
        · obtain rfl := List.mem_singleton.mp last
          exact absurd here.symm same

/-- Writing loses no row. -/
theorem exists_overlay {rows : Rows κ V} {k : κ} {v : V k} (found : rows k = some v)
    (writes : List (Written κ V)) : ∃ v', rows.overlay writes k = some v' := by
  induction writes using List.reverseRecOn with
  | nil => exact ⟨v, found⟩
  | append_singleton writes last ih =>
      obtain ⟨k', v'⟩ := last
      rw [overlay_snoc]
      by_cases same : k = k'
      · subst same
        exact ⟨v', put_self _ _ _⟩
      · rw [put_of_ne _ _ same]
        exact ih

end Rows

/-! ## Sessions -/

inductive Session (κ : Type) (V : κ → Type) where
  | active (writes : List (Written κ V))
  | committed
  | rolledBack

/-- The committed rows, and the sessions begun so far. -/
structure Database (κ : Type) (V : κ → Type) where
  rows : Rows κ V
  sessions : List (Session κ V)

namespace Session

/-- What a session reads; nothing once it is rolled back. -/
def view (rows : Rows κ V) : Session κ V → Option (Rows κ V)
  | .active writes => some (rows.overlay writes)
  | .committed => some rows
  | .rolledBack => none

/-- Does the session hold the lock of a row? -/
def touches (k : κ) : Session κ V → Bool
  | .active writes => writes.any fun written => written.1 = k
  | .committed => false
  | .rolledBack => false

theorem touches_active {writes : List (Written κ V)} {k : κ} :
    (Session.active writes).touches k = true ↔ ∃ written ∈ writes, written.1 = k := by
  simp [touches]

end Session

namespace Database

def empty : Database κ V := ⟨fun _ => none, []⟩

/-- What an open session has written. -/
def writesOf (db : Database κ V) (tx : Nat) : Option (List (Written κ V)) :=
  match db.sessions[tx]? with
  | some (.active writes) => some writes
  | _ => none

theorem active_of_writesOf {db : Database κ V} {tx : Nat} {writes : List (Written κ V)}
    (found : db.writesOf tx = some writes) : db.sessions[tx]? = some (.active writes) := by
  unfold writesOf at found
  split at found
  · rename_i here
    cases found
    exact here
  · cases found

/-- Another open session holds the lock of the row. -/
def locked (db : Database κ V) (tx : Nat) (k : κ) : Bool :=
  db.sessions.zipIdx.any fun (session, other) => other ≠ tx && session.touches k

def begin (db : Database κ V) : Database κ V :=
  { db with sessions := db.sessions ++ [.active []] }

/-- Session `tx`, which has written `writes`, writes one row more. -/
def write (db : Database κ V) (tx : Nat) (writes : List (Written κ V)) (written : Written κ V) :
    Database κ V :=
  { db with sessions := db.sessions.set tx (.active (writes ++ [written])) }

def commit (db : Database κ V) (tx : Nat) (writes : List (Written κ V)) : Database κ V where
  rows := db.rows.overlay writes
  sessions := db.sessions.set tx .committed

def rollback (db : Database κ V) (tx : Nat) : Database κ V :=
  { db with sessions := db.sessions.set tx .rolledBack }

theorem touches_of_not_locked {db : Database κ V} {tx other : Nat} {k : κ}
    {session : Session κ V} (free : db.locked tx k = false) (differs : other ≠ tx)
    (found : db.sessions[other]? = some session) : session.touches k = false := by
  have mem : (session, other) ∈ db.sessions.zipIdx := List.mk_mem_zipIdx_iff_getElem?.mpr found
  have here := List.any_eq_false.mp free _ mem
  simpa [differs] using here

/-- A session after one of them was replaced. -/
theorem getElem?_set_cases {sessions : List (Session κ V)} {tx n : Nat}
    {old new session : Session κ V} (found : sessions[tx]? = some old)
    (after : (sessions.set tx new)[n]? = some session) :
    (n = tx ∧ session = new) ∨ (n ≠ tx ∧ sessions[n]? = some session) := by
  have bound := (List.getElem?_eq_some_iff.mp found).1
  by_cases same : n = tx
  · subst same
    rw [List.getElem?_set_self bound] at after
    exact .inl ⟨rfl, (Option.some.inj after).symm⟩
  · rw [List.getElem?_set_ne (Ne.symm same)] at after
    exact .inr ⟨same, after⟩

end Database

/-! ## Rows that only grow -/

/-- A preorder on the values of each key. -/
structure Versioning (κ : Type) (V : κ → Type) where
  le : (k : κ) → V k → V k → Prop
  refl : ∀ k v, le k v v
  trans : ∀ {k} {a b c : V k}, le k a b → le k b c → le k a c

namespace Versioning

variable (O : Versioning κ V)

/-- No row is lost and none goes back. -/
def Grows (rows rows' : Rows κ V) : Prop :=
  ∀ k v, rows k = some v → ∃ v', rows' k = some v' ∧ O.le k v v'

/-- Pending writes are at least the committed rows, and no row is written by two
open sessions. -/
structure Orderly (db : Database κ V) : Prop where
  ahead : ∀ (tx : Nat) writes, db.sessions[tx]? = some (.active writes) →
    ∀ written ∈ writes, ∀ old, db.rows written.1 = some old → O.le written.1 old written.2
  apart : ∀ (tx other : Nat) session session' k, db.sessions[tx]? = some session →
    db.sessions[other]? = some session' → session.touches k = true →
    session'.touches k = true → tx = other

/-- Later states of a database: what was committed and seen is still there. -/
structure Extends (db db' : Database κ V) : Prop where
  rows : O.Grows db.rows db'.rows
  sessions : ∀ (tx : Nat) session, db.sessions[tx]? = some session →
    ∃ session', db'.sessions[tx]? = some session' ∧
      ∀ seen', session'.view db'.rows = some seen' →
        ∃ seen, session.view db.rows = some seen ∧ O.Grows seen seen'
  committed : ∀ tx : Nat, db.sessions[tx]? = some .committed → db'.sessions[tx]? = some .committed

/-- Whatever the session still reads has the property. -/
def Sees (db : Database κ V) (tx : Nat) (P : Rows κ V → Prop) : Prop :=
  ∃ session, db.sessions[tx]? = some session ∧ ∀ seen, session.view db.rows = some seen → P seen

/-- A property kept by growth. -/
def Upward (P : Rows κ V → Prop) : Prop := ∀ rows rows', O.Grows rows rows' → P rows → P rows'

variable {O}

theorem Grows.refl (rows : Rows κ V) : O.Grows rows rows := fun k v found => ⟨v, found, O.refl k v⟩

theorem Grows.trans {a b c : Rows κ V} (first : O.Grows a b) (second : O.Grows b c) :
    O.Grows a c := by
  intro k v found
  obtain ⟨v', found', le⟩ := first k v found
  obtain ⟨v'', found'', le'⟩ := second k v' found'
  exact ⟨v'', found'', O.trans le le'⟩

/-- The same writes over rows that grew. -/
theorem Grows.overlay {rows rows' : Rows κ V} (grows : O.Grows rows rows')
    (writes : List (Written κ V)) : O.Grows (rows.overlay writes) (rows'.overlay writes) := by
  intro k v found
  by_cases touched : ∃ written ∈ writes, written.1 = k
  · exact ⟨v, (Rows.overlay_of_touched rows' rows touched).trans found, O.refl k v⟩
  · have untouched : ∀ written ∈ writes, written.1 ≠ k :=
      fun written mem same => touched ⟨written, mem, same⟩
    rw [Rows.overlay_of_untouched _ untouched] at found ⊢
    exact grows k v found

theorem grows_put {rows : Rows κ V} {k : κ} {v : V k}
    (onTop : ∀ old, rows k = some old → O.le k old v) : O.Grows rows (rows.put ⟨k, v⟩) := by
  intro k' old found
  by_cases same : k' = k
  · subst same
    exact ⟨v, Rows.put_self _ _ _, onTop old found⟩
  · exact ⟨old, (Rows.put_of_ne _ _ same).trans found, O.refl k' old⟩

theorem Extends.refl (db : Database κ V) : O.Extends db db :=
  ⟨Grows.refl _, fun _ session found =>
    ⟨session, found, fun seen view => ⟨seen, view, Grows.refl _⟩⟩, fun _ found => found⟩

theorem Sees.extends {db db' : Database κ V} {tx : Nat} {P : Rows κ V → Prop}
    (sees : Sees db tx P) (extends_ : O.Extends db db') (upward : O.Upward P) : Sees db' tx P := by
  obtain ⟨session, found, here⟩ := sees
  obtain ⟨session', found', views⟩ := extends_.sessions tx session found
  refine ⟨session', found', fun seen' view' => ?_⟩
  obtain ⟨seen, view, grows⟩ := views seen' view'
  exact upward seen seen' grows (here seen view)

theorem Sees.of_view {db : Database κ V} {tx : Nat} {P : Rows κ V → Prop} {session : Session κ V}
    {seen : Rows κ V} (sees : Sees db tx P) (found : db.sessions[tx]? = some session)
    (view : session.view db.rows = some seen) : P seen := by
  obtain ⟨session', found', here⟩ := sees
  obtain rfl : session' = session := Option.some.inj (found'.symm.trans found)
  exact here seen view

/-- What a committed session saw is committed. -/
theorem Sees.of_committed {db : Database κ V} {tx : Nat} {P : Rows κ V → Prop}
    (sees : Sees db tx P) (done : db.sessions[tx]? = some .committed) : P db.rows :=
  sees.of_view done rfl

namespace Orderly

variable {db : Database κ V}

theorem grows_overlay (orderly : O.Orderly db) {tx : Nat} {writes : List (Written κ V)}
    (found : db.sessions[tx]? = some (.active writes)) :
    O.Grows db.rows (db.rows.overlay writes) := by
  intro k v committed
  obtain ⟨v', seen⟩ := Rows.exists_overlay committed writes
  refine ⟨v', seen, ?_⟩
  rcases Rows.mem_or_of_overlay seen with mem | same
  · exact orderly.ahead tx writes found _ mem v committed
  · obtain rfl : v = v' := Option.some.inj (committed.symm.trans same)
    exact O.refl k v

/-- A session sees at least the committed rows. -/
theorem grows_view (orderly : O.Orderly db) {tx : Nat} {session : Session κ V} {seen : Rows κ V}
    (found : db.sessions[tx]? = some session) (view : session.view db.rows = some seen) :
    O.Grows db.rows seen := by
  cases session with
  | active writes =>
      cases view
      exact orderly.grows_overlay found
  | committed =>
      cases view
      exact .refl _
  | rolledBack => cases view

/-- What is committed is seen by every session. -/
theorem sees_of_rows (orderly : O.Orderly db) {tx : Nat} {session : Session κ V}
    {P : Rows κ V → Prop} (found : db.sessions[tx]? = some session) (upward : O.Upward P)
    (here : P db.rows) : Sees db tx P :=
  ⟨session, found, fun _ view => upward _ _ (orderly.grows_view found view) here⟩

theorem empty : O.Orderly (Database.empty : Database κ V) :=
  ⟨fun _ _ found => by simp [Database.empty] at found,
    fun _ _ _ _ _ found => by simp [Database.empty] at found⟩

theorem begin (orderly : O.Orderly db) : O.Orderly db.begin ∧ O.Extends db db.begin := by
  have old : ∀ (tx : Nat) session, db.begin.sessions[tx]? = some session →
      db.sessions[tx]? = some session ∨ session = .active [] := by
    intro tx session found
    rw [Database.begin, List.getElem?_append] at found
    split at found
    · exact .inl found
    · exact .inr (List.mem_singleton.mp (List.mem_of_getElem? found))
  have kept : ∀ (tx : Nat) session, db.sessions[tx]? = some session →
      db.begin.sessions[tx]? = some session := by
    intro tx session found
    rw [Database.begin, List.getElem?_append_left (List.getElem?_eq_some_iff.mp found).1]
    exact found
  refine ⟨⟨?_, ?_⟩, Grows.refl _, ?_, fun tx found => kept tx _ found⟩
  · intro tx writes found
    rcases old tx _ found with found | new
    · exact orderly.ahead tx writes found
    · cases new
      simp
  · intro tx other session session' k found found' touched touched'
    rcases old tx session found with found | rfl
    · rcases old other session' found' with found' | rfl
      · exact orderly.apart tx other session session' k found found' touched touched'
      · simp [Session.touches] at touched'
    · simp [Session.touches] at touched
  · exact fun tx session found =>
      ⟨session, kept tx session found, fun seen view => ⟨seen, view, Grows.refl _⟩⟩

/-- An open session takes a step of its own: the rows grow, and only where no
other session wrote; it sees at least what it saw, and locks only free rows. -/
theorem replace (orderly : O.Orderly db) {tx : Nat} {writes : List (Written κ V)}
    (found : db.sessions[tx]? = some (.active writes)) {rows' : Rows κ V} {new : Session κ V}
    (grows : O.Grows db.rows rows')
    (kept : ∀ (other : Nat) session k, other ≠ tx → db.sessions[other]? = some session →
      session.touches k = true → rows' k = db.rows k)
    (ahead : ∀ writes', new = .active writes' → ∀ written ∈ writes', ∀ old,
      rows' written.1 = some old → O.le written.1 old written.2)
    (locks : ∀ k, new.touches k = true →
      (Session.active writes).touches k = true ∨ db.locked tx k = false)
    (sees : ∀ seen', new.view rows' = some seen' → O.Grows (db.rows.overlay writes) seen') :
    O.Orderly ⟨rows', db.sessions.set tx new⟩ ∧
      O.Extends db ⟨rows', db.sessions.set tx new⟩ := by
  have bound := (List.getElem?_eq_some_iff.mp found).1
  -- No other session holds a lock of the session's new state.
  have apart : ∀ (other : Nat) session k, other ≠ tx → db.sessions[other]? = some session →
      session.touches k = true → new.touches k = true → False := by
    intro other session k differs found' touched touched'
    rcases locks k touched' with held | free
    · exact differs (orderly.apart tx other _ _ k found found' held touched).symm
    · rw [Database.touches_of_not_locked free differs found'] at touched
      cases touched
  refine ⟨⟨?_, ?_⟩, grows, ?_, ?_⟩
  · intro n writes' found' written mem old committed
    rcases Database.getElem?_set_cases found found' with ⟨rfl, rfl⟩ | ⟨differs, found'⟩
    · exact ahead writes' rfl written mem old committed
    · have touched : (Session.active writes').touches written.1 = true :=
        Session.touches_active.mpr ⟨written, mem, rfl⟩
      have same := kept n _ written.1 differs found' touched
      exact orderly.ahead n writes' found' written mem old (same.symm.trans committed)
  · intro n other session session' k found' found'' touched touched'
    rcases Database.getElem?_set_cases found found' with ⟨rfl, rfl⟩ | ⟨differs, before⟩
    · rcases Database.getElem?_set_cases found found'' with ⟨rfl, -⟩ | ⟨differs', before'⟩
      · rfl
      · exact (apart other session' k differs' before' touched' touched).elim
    · rcases Database.getElem?_set_cases found found'' with ⟨rfl, rfl⟩ | ⟨differs', before'⟩
      · exact (apart n session k differs before touched touched').elim
      · exact orderly.apart n other session session' k before before' touched touched'
  · intro n session found'
    by_cases same : n = tx
    · subst same
      obtain rfl : session = .active writes := Option.some.inj (found'.symm.trans found)
      exact ⟨new, List.getElem?_set_self bound, fun seen' view => ⟨_, rfl, sees seen' view⟩⟩
    · refine ⟨session, by rw [List.getElem?_set_ne (Ne.symm same)]; exact found', ?_⟩
      intro seen' view'
      cases session with
      | active others =>
          cases view'
          exact ⟨_, rfl, grows.overlay others⟩
      | committed =>
          cases view'
          exact ⟨_, rfl, grows⟩
      | rolledBack => cases view'
  · intro n found'
    have differs : n ≠ tx := by
      rintro rfl
      cases found'.symm.trans found
    rw [List.getElem?_set_ne (Ne.symm differs)]
    exact found'

/-- A session writes a row that is free, on top of what it sees. -/
theorem write (orderly : O.Orderly db) {tx : Nat} {writes : List (Written κ V)}
    (found : db.sessions[tx]? = some (.active writes)) {k : κ} {v : V k}
    (free : db.locked tx k = false)
    (onTop : ∀ old, db.rows.overlay writes k = some old → O.le k old v) :
    O.Orderly (db.write tx writes ⟨k, v⟩) ∧ O.Extends db (db.write tx writes ⟨k, v⟩) := by
  refine orderly.replace found (Grows.refl _) (fun _ _ _ _ _ _ => rfl) ?_ ?_ ?_
  · intro writes' new written mem old committed
    obtain rfl := Session.active.inj new
    rcases List.mem_append.mp mem with earlier | last
    · exact orderly.ahead tx writes found written earlier old committed
    · obtain rfl := List.mem_singleton.mp last
      obtain ⟨seen, overlaid, le⟩ := orderly.grows_overlay found _ old committed
      exact O.trans le (onTop seen overlaid)
  · intro k' touched
    rw [Session.touches_active] at touched ⊢
    obtain ⟨written, mem, rfl⟩ := touched
    rcases List.mem_append.mp mem with earlier | last
    · exact .inl ⟨written, earlier, rfl⟩
    · obtain rfl := List.mem_singleton.mp last
      exact .inr free
  · intro seen' view
    cases view
    rw [Rows.overlay_snoc]
    exact grows_put onTop

theorem commit (orderly : O.Orderly db) {tx : Nat} {writes : List (Written κ V)}
    (found : db.sessions[tx]? = some (.active writes)) :
    O.Orderly (db.commit tx writes) ∧ O.Extends db (db.commit tx writes) := by
  refine orderly.replace found (orderly.grows_overlay found) ?_ ?_ ?_ ?_
  · intro other session k differs found' touched
    refine Rows.overlay_of_untouched _ fun written mem same => differs ?_
    have mine : (Session.active writes).touches k = true :=
      Session.touches_active.mpr ⟨written, mem, same⟩
    exact orderly.apart other tx session _ k found' found touched mine
  · intro writes' new
    cases new
  · intro k touched
    cases touched
  · intro seen' view
    cases view
    exact Grows.refl _

theorem rollback (orderly : O.Orderly db) {tx : Nat} {writes : List (Written κ V)}
    (found : db.sessions[tx]? = some (.active writes)) :
    O.Orderly (db.rollback tx) ∧ O.Extends db (db.rollback tx) := by
  refine orderly.replace found (Grows.refl _) (fun _ _ _ _ _ _ => rfl) ?_ ?_ ?_
  · intro writes' new
    cases new
  · intro k touched
    cases touched
  · intro seen' view
    cases view

end Orderly

end Versioning

end Delphi.Theory
