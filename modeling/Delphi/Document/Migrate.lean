/-
# Delphi.Document.Migrate -- the migration runner

`migrate.rs`: every service that starts takes an advisory lock on a connection of its
pool, reads which versions are applied, applies the others of its own directory in
filename order, each in a transaction of its own, and releases the lock.

Any number of services may start together, with directories of different releases;
a statement may be refused, a connection may be lost with its statement done or not,
and the lock may stay behind on a pooled connection.  From the empty database on,
and whatever happens, the scripts committed are the first few of the newest
directory, in order and once each, and a run that reports success has all of its own
applied (`migrations_of_run`).
-/
import Mathlib.Data.List.Sort
import Mathlib.Data.String.Basic
import Delphi.Theory.Sessions

namespace Delphi.Document.Migrate

open Delphi.Theory

set_option autoImplicit false

/-! ## The embedded directory -/

/-- A file of the directory, by its name; `contents_utf8` may have nothing. -/
structure File where
  name : String
  contents : Option String
deriving DecidableEq

/-- `Path::extension`: what follows the last dot, unless the name only begins with it. -/
def extension (name : List Char) : Option (List Char) :=
  let after := (name.reverse.takeWhile (· ≠ '.')).reverse
  if name.length ≤ after.length + 1 then none else some after

def File.isSql (file : File) : Bool := extension file.name.toList = some ['s', 'q', 'l']

/-- What `include_dir!` embeds: no two files of one name. -/
structure Directory where
  files : List File
  distinct : (files.map File.name).Nodup

/-- The migrations in filename order. -/
def Directory.pending (directory : Directory) : List File :=
  (directory.files.filter File.isSql).insertionSort fun one other => one.name ≤ other.name

/-! ## The runner -/

structure SqlxError where
  message : String

inductive MigrateError where
  | unreadable (file : String)
  | failed (file : String) (source : SqlxError)
  | database (source : SqlxError)

inductive Statement where
  | advisoryLock
  | createTable
  | begin
  | execute (sql : String)
  | insertVersion (version : String)
  | commit
  | advisoryUnlock
deriving DecidableEq

/-- `rollback` and `release` are what dropping a transaction and a connection does. -/
inductive MigrateCall where
  | acquire
  | statement (statement : Statement)
  | selectVersions
  | rollback
  | release

@[reducible] def MigrateCall.Ans : MigrateCall → Type
  | .acquire => Except SqlxError Unit
  | .statement _ => Except SqlxError Unit
  | .selectVersions => Except SqlxError (List String)
  | .rollback => Unit
  | .release => Unit

abbrev MigratePorts : Signature := ⟨MigrateCall, MigrateCall.Ans⟩

abbrev Outcome := Except MigrateError Nat

/-- Issue a statement. -/
def issue (statement : Statement) : Program MigratePorts (Except SqlxError Unit) :=
  Program.perform (S := MigratePorts) (.statement statement)

/-- Leave a transaction by dropping it. -/
def abandon (error : MigrateError) : Program MigratePorts Outcome := do
  Program.perform (S := MigratePorts) .rollback
  return .error error

/-- The loop over the pending files. -/
def applyPending (applied : List String) : List File → Nat → Program MigratePorts Outcome
  | [], count => return .ok count
  | file :: rest, count =>
      if file.name ∈ applied then applyPending applied rest count
      else
        match file.contents with
        | none => return .error (.unreadable file.name)
        | some sql => do
            match ← issue .begin with
            | .error error => return .error (.database error)
            | .ok () =>
            match ← issue (.execute sql) with
            | .error error => abandon (.failed file.name error)
            | .ok () =>
            match ← issue (.insertVersion file.name) with
            | .error error => abandon (.database error)
            | .ok () =>
            match ← issue .commit with
            | .error error => abandon (.database error)
            | .ok () => applyPending applied rest (count + 1)

def applyAll (directory : Directory) : Program MigratePorts Outcome := do
  match ← issue .createTable with
  | .error error => return .error (.database error)
  | .ok () =>
  match ← (Program.perform (S := MigratePorts) .selectVersions :
      Program MigratePorts (Except SqlxError (List String))) with
  | .error error => return .error (.database error)
  | .ok applied => applyPending applied directory.pending 0

def run (directory : Directory) : Program MigratePorts Outcome := do
  match ← (Program.perform (S := MigratePorts) .acquire :
      Program MigratePorts (Except SqlxError Unit)) with
  | .error error => return .error (.database error)
  | .ok () =>
  match ← issue .advisoryLock with
  | .error error =>
      Program.perform (S := MigratePorts) .release
      return .error (.database error)
  | .ok () =>
      let result ← applyAll directory
      -- a failure to unlock is only logged
      let _ ← issue .advisoryUnlock
      Program.perform (S := MigratePorts) .release
      return result

/-! ## The database -/

/-- The connection of a run. -/
inductive Link where
  | unopened
  | inUse
  | pooled
  | lost
deriving DecidableEq

/-- What a transaction has done and not committed. -/
structure Tx where
  scripts : List String
  versions : List String

/-- Who holds the advisory lock, the connections and their transactions, and what is
committed: the rows of `schema_migration`, when there is the table, and the scripts. -/
structure Database where
  holder : Option Nat
  link : Nat → Link
  tx : Nat → Option Tx
  table : Option (List String)
  scripts : List String

namespace Database

def empty : Database := ⟨none, fun _ => .unopened, fun _ => none, none, []⟩

def rows (s : Database) : List String := s.table.getD []

def setLink (s : Database) (n : Nat) (link : Link) : Database :=
  { s with link := Function.update s.link n link }

@[simp] theorem setLink_link (s : Database) (n : Nat) (link : Link) :
    (s.setLink n link).link n = link := Function.update_self ..

def setTx (s : Database) (n : Nat) (tx : Option Tx) : Database :=
  { s with tx := Function.update s.tx n tx }

/-- Work that is committed. -/
def committed (s : Database) (work : Tx) : Database :=
  { s with table := s.table.map (· ++ work.versions), scripts := s.scripts ++ work.scripts }

/-- Work in the transaction of a connection; outside of one it is committed at once. -/
def record (s : Database) (n : Nat) (work : Tx) : Database :=
  match s.tx n with
  | some tx => s.setTx n (some ⟨tx.scripts ++ work.scripts, tx.versions ++ work.versions⟩)
  | none => s.committed work

/-- What a statement does when it succeeds. -/
def after (s : Database) (n : Nat) : Statement → Database
  | .advisoryLock => { s with holder := some n }
  | .createTable => { s with table := some s.rows }
  | .begin => s.setTx n (some ⟨[], []⟩)
  | .execute sql => s.record n ⟨[sql], []⟩
  | .insertVersion version => s.record n ⟨[], [version]⟩
  | .commit => (s.committed ((s.tx n).getD ⟨[], []⟩)).setTx n none
  | .advisoryUnlock => { s with holder := if s.holder = some n then none else s.holder }

/-- The lock is waited for. -/
def Ready (s : Database) (n : Nat) : Statement → Prop
  | .advisoryLock => s.holder = none ∨ s.holder = some n
  | _ => True

/-- A statement that fails was refused, or its connection is lost and it may have succeeded. -/
def Fails (s : Database) (n : Nat) (statement : Statement) (s' : Database) : Prop :=
  s' = s ∨ s.link n = .inUse ∧ (s' = s.setLink n .lost ∨
    s.Ready n statement ∧ s' = (s.after n statement).setLink n .lost)

/-- An unlock that succeeds may leave a lock taken twice on the connection. -/
def Succeeds (s : Database) (n : Nat) (statement : Statement) (s' : Database) : Prop :=
  s.link n = .inUse ∧ s.Ready n statement ∧
    (s' = s.after n statement ∨ statement = .advisoryUnlock ∧ s' = s)

/-- A connection is new, or one of the pool, which may still hold the lock. -/
def Acquires (s : Database) (n : Nat) (s' : Database) : Prop :=
  ∃ holder, s' = { s.setLink n .inUse with holder := holder } ∧ s.link n = .unopened ∧
    s.tx n = none ∧ (holder = s.holder ∨
      ∃ other, s.holder = some other ∧ s.link other = .pooled ∧ holder = some n)

def serves (s : Database) (n : Nat) : (op : MigrateCall) → op.Ans → Database → Prop
  | .acquire, .ok (), s' => s.Acquires n s'
  | .acquire, .error _, s' => s' = s
  | .statement statement, .ok (), s' => s.Succeeds n statement s'
  | .statement statement, .error _, s' => s.Fails n statement s'
  | .selectVersions, .ok rows, s' => s.link n = .inUse ∧ s.table = some rows ∧ s' = s
  | .selectVersions, .error _, s' => s' = s ∨ s' = s.setLink n .lost
  | .rollback, _, s' => s' = if s.link n = .inUse then s.setTx n none else s
  | .release, _, s' => s' = if s.link n = .inUse then s.setLink n .pooled else s

/-- A connection is lost at any time; the server notices later. -/
inductive Moves (s : Database) : Database → Prop where
  | loses (n : Nat) (opened : s.link n ≠ .unopened) : s.Moves (s.setLink n .lost)
  | notices (n : Nat) (gone : s.link n = .lost) : s.Moves
      { s.setTx n none with holder := if s.holder = some n then none else s.holder }

end Database

/-- Services that start, each with a directory that `whole` continues. -/
def startups (whole : Directory) : System MigratePorts Database Directory Outcome where
  main := run
  admits _ directory := directory.pending <+: whole.pending
  serves n op s answer s' := s.serves n op answer s'
  environment := Database.Moves

/-! ## What a run knows under the lock -/

/-- What the calls of a run tell it: whether it has the lock, the rows as it knows them, and
what is in its transaction. -/
structure View where
  locked : Bool
  rows : Option (List String)
  tx : Option Tx

namespace View

def initial : View := ⟨false, none, none⟩

def record (v : View) (work : Tx) : View :=
  { v with tx := v.tx.map fun tx => ⟨tx.scripts ++ work.scripts, tx.versions ++ work.versions⟩ }

def after (v : View) : (op : MigrateCall) → op.Ans → View
  | .statement .advisoryLock, .ok () => { v with locked := true }
  | .statement .advisoryUnlock, _ => { v with locked := false }
  | .statement .begin, .ok () => { v with tx := some ⟨[], []⟩ }
  | .statement (.execute sql), .ok () => v.record ⟨[sql], []⟩
  | .statement (.insertVersion version), .ok () => v.record ⟨[], [version]⟩
  | .statement .commit, .ok () =>
      { v with rows := v.rows.map (· ++ (v.tx.getD ⟨[], []⟩).versions), tx := none }
  | .selectVersions, .ok rows => { v with rows := some rows }
  | .rollback, _ => { v with tx := none }
  | _, _ => v

end View

def view (trace : Trace MigratePorts) : View :=
  trace.foldl (fun v call => v.after call.1 call.2) .initial

theorem view_snoc (trace : Trace MigratePorts) (op : MigrateCall) (answer : op.Ans) :
    view (trace ++ [⟨op, answer⟩]) = (view trace).after op answer := by
  simp [view]

/-- While its connection lasts, what a run sees is so. -/
structure Agrees (s : Database) (n : Nat) (v : View) : Prop where
  tx : s.tx n = v.tx
  holder : v.locked = true → s.holder = some n
  rows : v.locked = true → ∀ rows, v.rows = some rows → s.table = some rows

section Run

variable (whole : Directory)

/-- The versions of the newest directory, in order. -/
def versions : List String := whole.pending.map File.name

/-- The first `count` migrations are applied, and nothing else is. -/
structure Applied (count : Nat) (s : Database) : Prop where
  rows : s.rows = (versions whole).take count
  scripts : s.scripts.map some = (whole.pending.take count).map File.contents

/-- A commit is of the next file, by a run that has the lock. -/
def Commits (v : View) : Prop :=
  v.locked = true ∧ ∃ i file sql, whole.pending[i]? = some file ∧ file.contents = some sql ∧
    v.rows = some ((versions whole).take i) ∧ v.tx = some ⟨[sql], [file.name]⟩

/-- What the calls of a run are, given what it sees. -/
def Proper (trace : Trace MigratePorts) : MigrateCall → Prop
  | .acquire => trace = []
  | .statement .advisoryLock => (view trace).rows = none
  | .statement (.execute _) => (view trace).tx ≠ none
  | .statement (.insertVersion _) => (view trace).tx ≠ none
  | .statement .commit => Commits whole (view trace)
  | _ => True

def migrating : Sessions MigratePorts Database Directory where
  inv s := ∃ count, Applied whole count s
  input _ directory := directory.pending <+: whole.pending
  fact _ s trace op answer :=
    ∀ rows, (view (trace ++ [⟨op, answer⟩])).rows = some rows → rows <+: s.rows
  agrees s n trace := s.link n = .inUse → Agrees s n (view trace)

/-! ### The directory -/

theorem ascending_versions : (versions whole).Pairwise (· < ·) := by
  have sorted : (versions whole).Pairwise (· ≤ ·) :=
    List.pairwise_map.mpr (List.pairwise_insertionSort _ _)
  have distinct : (versions whole).Nodup := by
    have same : whole.pending.Perm (whole.files.filter File.isSql) := List.perm_insertionSort _ _
    exact (same.map File.name).nodup_iff.mpr
      (whole.distinct.sublist (List.filter_sublist.map File.name))
  exact (sorted.and distinct).imp fun both => lt_of_le_of_ne both.1 both.2

theorem nodup_versions : (versions whole).Nodup :=
  (ascending_versions whole).imp ne_of_lt

variable {whole}

theorem mem_take_versions {i d : Nat} {name : String} (found : (versions whole)[i]? = some name) :
    name ∈ (versions whole).take d ↔ i < d := by
  obtain ⟨bound, here⟩ := List.getElem?_eq_some_iff.mp found
  rw [List.mem_take_iff_getElem]
  constructor
  · rintro ⟨j, small, same⟩
    have at_ := (nodup_versions whole).getElem_inj_iff.mp (same.trans here.symm)
    omega
  · intro small
    exact ⟨i, by omega, here⟩

variable {s s' : Database} {n : Nat} {v : View} {statement : Statement}

/-- A list of versions that is applied is the first few. -/
theorem Applied.take_of_prefix {count : Nat} {rows : List String} (applied : Applied whole count s)
    (front : rows <+: s.rows) :
    ∃ d, d ≤ whole.pending.length ∧ rows = (versions whole).take d := by
  have within : rows <+: versions whole := front.trans (applied.rows ▸ List.take_prefix _ _)
  refine ⟨rows.length, ?_, List.prefix_iff_eq_take.mp within⟩
  simpa [versions] using within.length_le

/-! ### What a call does -/

/-- A step of one run takes nothing from another that has the lock. -/
structure Spares (s : Database) (n : Nat) (s' : Database) : Prop where
  link : ∀ m, m ≠ n → s'.link m = s.link m
  tx : ∀ m, m ≠ n → s'.tx m = s.tx m
  lock : ∀ m, m ≠ n → s.link m = .inUse → s.holder = some m →
    s'.holder = some m ∧ ∀ rows, s.table = some rows → s'.table = some rows

theorem Spares.refl (s : Database) (n : Nat) : Spares s n s :=
  ⟨fun _ _ => rfl, fun _ _ => rfl, fun _ _ _ held => ⟨held, fun _ rows => rows⟩⟩

theorem Spares.agrees {m : Nat} (spares : Spares s n s') (other : m ≠ n)
    (agrees : s.link m = .inUse → Agrees s m v) (inUse : s'.link m = .inUse) : Agrees s' m v := by
  rw [spares.link m other] at inUse
  obtain ⟨tx, holder, rows⟩ := agrees inUse
  refine ⟨(spares.tx m other).trans tx, fun locked => ?_, fun locked list known => ?_⟩
  · exact (spares.lock m other inUse (holder locked)).1
  · exact (spares.lock m other inUse (holder locked)).2 list (rows locked list known)

/-- A loss changes nothing else. -/
theorem Spares.lost (spares : Spares s n s') (link : Link) : Spares s n (s'.setLink n link) :=
  ⟨fun m other => (Function.update_of_ne other _ _).trans (spares.link m other), spares.tx,
    spares.lock⟩

/-- What a call keeps. -/
structure Keeps (whole : Directory) (s : Database) (n : Nat) (s' : Database) : Prop where
  applied : ∃ count, Applied whole count s'
  rows : s.rows <+: s'.rows
  spares : Spares s n s'

theorem Keeps.refl (applied : ∃ count, Applied whole count s) (n : Nat) : Keeps whole s n s :=
  ⟨applied, List.prefix_rfl, .refl s n⟩

theorem Keeps.lost (keeps : Keeps whole s n s') (link : Link) :
    Keeps whole s n (s'.setLink n link) :=
  ⟨keeps.applied.imp fun _ applied => ⟨applied.rows, applied.scripts⟩, keeps.rows,
    keeps.spares.lost link⟩

/-- Of the state, a step that moves only what belongs to the run. -/
theorem Keeps.of_same (applied : ∃ count, Applied whole count s) (table : s'.rows = s.rows)
    (scripts : s'.scripts = s.scripts) (spares : Spares s n s') : Keeps whole s n s' := by
  obtain ⟨count, rows, committed⟩ := applied
  exact ⟨⟨count, table.trans rows, scripts ▸ committed⟩, table ▸ List.prefix_rfl, spares⟩

theorem Spares.setTx (s : Database) (n : Nat) (tx : Option Tx) : Spares s n (s.setTx n tx) :=
  ⟨fun _ _ => rfl, fun _ other => Function.update_of_ne other _ _,
    fun _ _ _ held => ⟨held, fun _ rows => rows⟩⟩

theorem Database.record_of_tx {tx work : Tx} (open_ : s.tx n = some tx) :
    s.record n work =
      s.setTx n (some ⟨tx.scripts ++ work.scripts, tx.versions ++ work.versions⟩) := by
  rw [Database.record, open_]

/-- The commit of the next file. -/
theorem applied_commit (applied : ∃ count, Applied whole count s) (agrees : Agrees s n v)
    (commits : Commits whole v) : ∃ i file sql, whole.pending[i]? = some file ∧
      s.tx n = some ⟨[sql], [file.name]⟩ ∧ s.table = some ((versions whole).take i) ∧
      (versions whole).take (i + 1) = (versions whole).take i ++ [file.name] ∧
      Applied whole (i + 1) (s.after n .commit) := by
  obtain ⟨locked, i, file, sql, found, contents, known, tx⟩ := commits
  obtain ⟨count, rows, scripts⟩ := applied
  have table := agrees.rows locked _ known
  have open_ : s.tx n = some ⟨[sql], [file.name]⟩ := agrees.tx.trans tx
  have bound : i < whole.pending.length := (List.getElem?_eq_some_iff.mp found).1
  have next : (versions whole).take (i + 1) = (versions whole).take i ++ [file.name] := by
    have here : (versions whole)[i]? = some file.name := by simp [versions, found]
    rw [List.take_add_one, here, Option.toList_some]
  have upTo : whole.pending.take count = whole.pending.take i := by
    have lengths : ((versions whole).take count).length = ((versions whole).take i).length := by
      rw [← rows, Database.rows, table, Option.getD_some]
    rw [List.take_eq_take_iff]
    simpa [versions] using lengths
  refine ⟨i, file, sql, found, open_, table, next, ?_, ?_⟩
  · show (s.table.map _).getD [] = _
    rw [table, open_, next]
    rfl
  · show (s.scripts ++ _).map some = _
    rw [open_, List.map_append, scripts, upTo, List.take_add_one, found, List.map_append]
    simp [contents]

/-- A statement of a run that sees what is so keeps the order, and everyone else's view. -/
theorem keeps_after (applied : ∃ count, Applied whole count s) (agrees : Agrees s n v)
    (ready : s.Ready n statement) {trace : Trace MigratePorts} (same : view trace = v)
    (proper : Proper whole trace (.statement statement)) :
    Keeps whole s n (s.after n statement) := by
  subst same
  have recorded : ∀ work, (view trace).tx ≠ none → Keeps whole s n (s.record n work) := by
    intro work some_
    obtain ⟨tx, open_⟩ := Option.ne_none_iff_exists'.mp some_
    rw [Database.record_of_tx (agrees.tx.trans open_)]
    exact .of_same applied rfl rfl (.setTx s n _)
  cases statement with
  | advisoryLock =>
      refine .of_same applied rfl rfl ⟨fun _ _ => rfl, fun _ _ => rfl, ?_⟩
      intro m other _ held
      rcases ready with free | own
      · rw [free] at held
        cases held
      · rw [own] at held
        exact absurd (Option.some.inj held).symm other
  | createTable =>
      refine .of_same applied rfl rfl ⟨fun _ _ => rfl, fun _ _ => rfl, ?_⟩
      intro m _ _ held
      refine ⟨held, fun rows known => ?_⟩
      show some s.rows = some rows
      rw [Database.rows, known, Option.getD_some]
  | begin => exact .of_same applied rfl rfl (.setTx s n _)
  | execute sql => exact recorded _ proper
  | insertVersion version => exact recorded _ proper
  | commit =>
      obtain ⟨i, file, sql, -, open_, table, next, after⟩ := applied_commit applied agrees proper
      have held := agrees.holder proper.1
      refine ⟨⟨i + 1, after⟩, ?_, fun _ _ => rfl, fun _ other => Function.update_of_ne other _ _,
        ?_⟩
      · rw [after.rows, next, Database.rows, table]
        exact List.prefix_append _ _
      · intro m other _ held'
        rw [held] at held'
        exact absurd (Option.some.inj held').symm other
  | advisoryUnlock =>
      refine .of_same applied rfl rfl ⟨fun _ _ => rfl, fun _ _ => rfl, ?_⟩
      intro m other _ held
      refine ⟨?_, fun _ rows => rows⟩
      show (if s.holder = some n then none else s.holder) = some m
      rw [held, if_neg (fun same => other (Option.some.inj same))]

/-- After a statement that succeeded a run sees what is so. -/
theorem agrees_after (agrees : Agrees s n v) {trace : Trace MigratePorts} (same : view trace = v)
    (proper : Proper whole trace (.statement statement)) :
    Agrees (s.after n statement) n (v.after (.statement statement) (.ok ())) := by
  subst same
  have recorded : ∀ work, (view trace).tx ≠ none →
      Agrees (s.record n work) n ((view trace).record work) := by
    intro work some_
    obtain ⟨tx, open_⟩ := Option.ne_none_iff_exists'.mp some_
    rw [Database.record_of_tx (agrees.tx.trans open_)]
    refine ⟨?_, agrees.holder, agrees.rows⟩
    rw [View.record, open_]
    exact Function.update_self ..
  cases statement with
  | advisoryLock =>
      refine ⟨agrees.tx, fun _ => rfl, fun _ rows known => ?_⟩
      have unread : (view trace).rows = none := proper
      rw [show (view trace).rows = some rows from known] at unread
      cases unread
  | createTable =>
      refine ⟨agrees.tx, agrees.holder, fun locked rows known => ?_⟩
      show some s.rows = some rows
      rw [Database.rows, agrees.rows locked rows known, Option.getD_some]
  | begin => exact ⟨Function.update_self .., agrees.holder, agrees.rows⟩
  | execute sql => exact recorded _ proper
  | insertVersion version => exact recorded _ proper
  | commit =>
      obtain ⟨locked, i, file, sql, -, -, known, tx⟩ := proper
      refine ⟨Function.update_self .., fun _ => agrees.holder locked, fun _ rows later => ?_⟩
      have open_ : s.tx n = (view trace).tx := agrees.tx
      show s.table.map _ = some rows
      rw [agrees.rows locked _ known, open_, tx]
      simpa [View.after, known, tx] using later
  | advisoryUnlock => exact ⟨agrees.tx, nofun, nofun⟩

/-- A lost connection changes nobody's view. -/
theorem keeps_moves (applied : ∃ count, Applied whole count s) (moves : s.Moves s') :
    (∃ count, Applied whole count s') ∧ s'.rows = s.rows ∧ ∀ m v,
      (s.link m = .inUse → Agrees s m v) → s'.link m = .inUse → Agrees s' m v := by
  have same : s'.rows = s.rows ∧ s'.scripts = s.scripts := by
    cases moves <;> exact ⟨rfl, rfl⟩
  have kept := applied.imp fun _ applied =>
    (⟨same.1.trans applied.rows, same.2 ▸ applied.scripts⟩ : Applied whole _ s')
  refine ⟨kept, same.1, fun m v agrees inUse => ?_⟩
  cases moves with
  | loses n opened =>
      by_cases other : m = n
      · subst other
        rw [Database.setLink_link] at inUse
        cases inUse
      · exact ((Spares.refl s n).lost .lost).agrees other agrees inUse
  | notices n gone =>
      have other : m ≠ n := by
        rintro rfl
        rw [show s.link m = .inUse from inUse] at gone
        cases gone
      have spares : Spares s n
          { s.setTx n none with holder := if s.holder = some n then none else s.holder } := by
        refine ⟨fun _ _ => rfl, (Spares.setTx s n none).tx, fun k different _ held => ?_⟩
        refine ⟨?_, fun _ rows => rows⟩
        show (if s.holder = some n then none else s.holder) = some k
        rw [held, if_neg (fun same => different (Option.some.inj same))]
      exact spares.agrees other agrees inUse

/-- What a run that sees what is so keeps with any call, however it is answered. -/
theorem keeps_served (applied : ∃ count, Applied whole count s) {trace : Trace MigratePorts}
    (agrees : s.link n = .inUse → Agrees s n (view trace)) {op : MigrateCall} {answer : op.Ans}
    (proper : Proper whole trace op) (served : s.serves n op answer s') :
    Keeps whole s n s' := by
  cases op with
  | acquire =>
      cases answer with
      | error error => exact (show s' = s from served) ▸ .refl applied n
      | ok _ =>
          obtain ⟨holder, rfl, unopened, tx, origin⟩ := served
          refine .of_same applied rfl rfl ⟨fun _ other => Function.update_of_ne other _ _,
            fun _ _ => rfl, fun m other inUse held => ⟨?_, fun _ rows => rows⟩⟩
          rcases origin with rfl | ⟨before, held', pooled, rfl⟩
          · exact held
          · rw [held'] at held
            obtain rfl := Option.some.inj held
            rw [inUse] at pooled
            cases pooled
  | statement statement =>
      cases answer with
      | ok _ =>
          obtain ⟨inUse, ready, rfl | ⟨-, rfl⟩⟩ := served
          · exact keeps_after applied (agrees inUse) ready rfl proper
          · exact .refl applied n
      | error error =>
          rcases served with rfl | ⟨inUse, rfl | ⟨ready, rfl⟩⟩
          · exact .refl applied n
          · exact (Keeps.refl applied n).lost .lost
          · exact (keeps_after applied (agrees inUse) ready rfl proper).lost .lost
  | selectVersions =>
      cases answer with
      | ok rows =>
          obtain ⟨-, -, rfl⟩ := served
          exact .refl applied n
      | error error =>
          rcases served with rfl | rfl
          · exact .refl applied n
          · exact (Keeps.refl applied n).lost .lost
  | rollback =>
      obtain rfl := served
      split
      · exact .of_same applied rfl rfl (.setTx s n none)
      · exact .refl applied n
  | release =>
      obtain rfl := served
      split
      · exact (Keeps.refl applied n).lost .pooled
      · exact .refl applied n

/-- What a run sees after any call is so, while its connection lasts. -/
theorem agrees_served (applied : ∃ count, Applied whole count s) {trace : Trace MigratePorts}
    (agrees : s.link n = .inUse → Agrees s n (view trace)) {op : MigrateCall} {answer : op.Ans}
    (proper : Proper whole trace op) (served : s.serves n op answer s')
    (inUse : s'.link n = .inUse) : Agrees s' n (view (trace ++ [⟨op, answer⟩])) := by
  have gone : ∀ other : Database, (other.setLink n .lost).link n ≠ .inUse := by
    intro other same
    rw [Database.setLink_link] at same
    cases same
  rw [view_snoc]
  cases op with
  | acquire =>
      cases answer with
      | error error =>
          obtain rfl := served
          exact agrees inUse
      | ok _ =>
          obtain ⟨holder, rfl, unopened, tx, -⟩ := served
          obtain rfl := proper
          exact ⟨tx, nofun, nofun⟩
  | statement statement =>
      cases answer with
      | ok _ =>
          obtain ⟨before, ready, rfl | ⟨rfl, rfl⟩⟩ := served
          · exact agrees_after (agrees before) rfl proper
          · exact ⟨(agrees before).tx, nofun, nofun⟩
      | error error =>
          rcases served with rfl | ⟨-, rfl | ⟨-, rfl⟩⟩
          · have before := agrees inUse
            cases statement with
            | advisoryUnlock => exact ⟨before.tx, nofun, nofun⟩
            | _ => exact before
          · exact absurd inUse (gone _)
          · exact absurd inUse (gone _)
  | selectVersions =>
      cases answer with
      | ok rows =>
          obtain ⟨-, table, rfl⟩ := served
          have before := agrees inUse
          refine ⟨before.tx, before.holder, fun _ list known => ?_⟩
          rw [table, Option.some.inj known]
      | error error =>
          rcases served with rfl | rfl
          · exact agrees inUse
          · exact absurd inUse (gone _)
  | rollback =>
      rw [show s' = if s.link n = .inUse then s.setTx n none else s from served] at inUse ⊢
      split at inUse <;> rename_i before
      · rw [if_pos before]
        exact ⟨Function.update_self .., (agrees before).holder, (agrees before).rows⟩
      · exact absurd inUse before
  | release =>
      rw [show s' = if s.link n = .inUse then s.setLink n .pooled else s from served] at inUse
      split at inUse <;> rename_i before
      · rw [Database.setLink_link] at inUse
        cases inUse
      · exact absurd inUse before

/-- The rows a run sees after a call are applied. -/
theorem seen_served {trace : Trace MigratePorts}
    (agrees : s.link n = .inUse → Agrees s n (view trace)) {op : MigrateCall} {answer : op.Ans}
    (proper : Proper whole trace op) (served : s.serves n op answer s')
    (before : ∀ rows, (view trace).rows = some rows → rows <+: s'.rows) (rows : List String)
    (seen : (view (trace ++ [⟨op, answer⟩])).rows = some rows) : rows <+: s'.rows := by
  rw [view_snoc] at seen
  cases op with
  | acquire => exact before rows seen
  | rollback => exact before rows seen
  | release => exact before rows seen
  | selectVersions =>
      cases answer with
      | error error => exact before rows seen
      | ok answered =>
          obtain ⟨-, table, rfl⟩ := served
          rw [Database.rows, table, Option.some.inj seen]
          exact List.prefix_rfl
  | statement statement =>
      cases answer with
      | error error =>
          cases statement <;> exact before rows seen
      | ok _ =>
          cases statement with
          | commit =>
              obtain ⟨inUse, -, rfl | ⟨impossible, -⟩⟩ := served
              · have after := agrees_after (agrees inUse) rfl proper
                rw [Database.rows, after.rows proper.1 rows seen]
                exact List.prefix_rfl
              · cases impossible
          | _ => exact before rows seen

/-! ### The paths of a run -/

/-- What a run has seen applied when it ends. -/
def Ends (whole : Directory) (p d : Nat) (v : View) : Outcome → Prop
  | .ok _ => v.rows = some ((versions whole).take (max d p))
  | .error (.failed file _) => ∃ i, i < p ∧ (versions whole)[i]? = some file ∧
      v.rows = some ((versions whole).take i)
  | .error _ => True

theorem Ends.of_rows {p d : Nat} {v' : View} {result : Outcome} (ended : Ends whole p d v result)
    (same : v'.rows = v.rows) : Ends whole p d v' result := by
  rcases result with error | count
  · cases error with
    | failed file source =>
        obtain ⟨i, small, here, rows⟩ := ended
        exact ⟨i, small, here, same.trans rows⟩
    | unreadable file => trivial
    | database source => trivial
  · exact same.trans ended

theorem rows_of_facts {directory : Directory} {trace : Trace MigratePorts}
    (facts : Facts ((migrating whole).fact directory s) trace) (rows : List String)
    (seen : (view trace).rows = some rows) : rows <+: s.rows := by
  rcases List.eq_nil_or_concat trace with rfl | ⟨before, call, rfl⟩
  · cases seen
  · rw [List.concat_eq_append] at facts seen
    exact (facts_snoc.mp facts).2 rows seen

theorem view_ok {trace : Trace MigratePorts} (statement : Statement) (seen : view trace = v) :
    view (trace ++ [⟨.statement statement, .ok ()⟩]) =
      v.after (.statement statement) (.ok ()) := by
  rw [view_snoc, seen]

/-- A statement that fails shows nothing new. -/
theorem view_error {trace : Trace MigratePorts} (error : SqlxError) (statement : Statement)
    (other : statement ≠ .advisoryUnlock) (seen : view trace = v) :
    view (trace ++ [⟨.statement statement, .error error⟩]) = v := by
  rw [view_snoc, seen]
  cases statement with
  | advisoryUnlock => exact absurd rfl other
  | _ => rfl

theorem along_abandon {A : Trace MigratePorts → (op : MigrateCall) → op.Ans → Prop} {d p : Nat}
    {error : MigrateError} {trace : Trace MigratePorts} (locked : (view trace).locked = true)
    (ends : ∀ v : View, v.rows = (view trace).rows → Ends whole p d v (.error error)) :
    Along A (Proper whole) (fun reached result => Ends whole p d (view reached) result ∧
      (view reached).locked = true) trace (abandon error) := by
  refine along_perform trivial fun answer _ => ?_
  have after : view (trace ++ [⟨.rollback, answer⟩]) = { view trace with tx := none } :=
    view_snoc trace .rollback answer
  refine ⟨ends _ ?_, ?_⟩
  · rw [after]
  · rw [after]
    exact locked

/-- By induction on the files left: `d` versions were applied at the start, `i` are behind. -/
theorem along_applyPending {A : Trace MigratePorts → (op : MigrateCall) → op.Ans → Prop} {d p : Nat}
    (files : List File) (count i : Nat) {trace : Trace MigratePorts}
    (small : p ≤ whole.pending.length) (left : (whole.pending.take p).drop i = files) (behind : i ≤ p)
    (seen : view trace = ⟨true, some ((versions whole).take (max d i)), none⟩) :
    Along A (Proper whole) (fun reached result => Ends whole p d (view reached) result ∧
      (view reached).locked = true) trace
      (applyPending ((versions whole).take d) files count) := by
  induction files generalizing count i trace with
  | nil =>
      have all : i = p := by
        have none_left := List.drop_eq_nil_iff.mp left
        rw [List.length_take] at none_left
        omega
      subst all
      refine ⟨?_, by rw [seen]⟩
      show (view trace).rows = _
      rw [seen]
  | cons file rest ih =>
      have here : (whole.pending.take p)[i]? = some file := by
        have first := congrArg (·[0]?) left
        simpa using first
      have lt : i < p := by
        have bound := (List.getElem?_eq_some_iff.mp here).1
        rw [List.length_take] at bound
        omega
      have found : whole.pending[i]? = some file := by
        rwa [List.getElem?_take_of_lt lt] at here
      have named : (versions whole)[i]? = some file.name := by simp [versions, found]
      have later : (whole.pending.take p).drop (i + 1) = rest := by
        rw [← List.tail_drop, left, List.tail_cons]
      rw [applyPending]
      split
      · rename_i skipped
        have old := (mem_take_versions named).mp skipped
        refine ih count (i + 1) later lt ?_
        rw [seen, show max d (i + 1) = max d i by omega]
      · rename_i fresh
        have new : d ≤ i := Nat.le_of_not_lt fun old => fresh ((mem_take_versions named).mpr old)
        have upTo : max d i = i := by omega
        rw [upTo] at seen
        cases contents : file.contents with
        | none => exact ⟨trivial, by rw [seen]⟩
        | some sql =>
            refine along_perform trivial fun answer _ => ?_
            cases answer with
            | error error => exact ⟨trivial, by rw [view_error error .begin nofun seen]⟩
            | ok _ =>
            have begun := view_ok .begin seen
            refine along_perform (by show _ ≠ none; rw [begun]; nofun) fun answer _ => ?_
            cases answer with
            | error error =>
                have same := view_error error (.execute sql) nofun begun
                refine along_abandon (by rw [same]; rfl) fun v rows => ⟨i, lt, named, ?_⟩
                rw [rows, same]
                rfl
            | ok _ =>
            have executed := view_ok (.execute sql) begun
            refine along_perform (by show _ ≠ none; rw [executed]; nofun) fun answer _ => ?_
            cases answer with
            | error error =>
                have same := view_error error (.insertVersion file.name) nofun executed
                exact along_abandon (by rw [same]; rfl) fun _ _ => trivial
            | ok _ =>
            have inserted := view_ok (.insertVersion file.name) executed
            refine along_perform (by
              show Commits whole _
              rw [inserted]
              exact ⟨rfl, i, file, sql, found, contents, rfl, rfl⟩) fun answer _ => ?_
            cases answer with
            | error error =>
                have same := view_error error .commit nofun inserted
                exact along_abandon (by rw [same]; rfl) fun _ _ => trivial
            | ok _ =>
            have committed := view_ok .commit inserted
            refine ih (count + 1) (i + 1) later lt ?_
            rw [committed, show max d (i + 1) = i + 1 by omega, List.take_add_one, named]
            rfl

/-- What holds of a run that has ended. -/
structure Finished (whole : Directory) (p : Nat) (trace : Trace MigratePorts) (result : Outcome) :
    Prop where
  ends : ∃ d, Ends whole p d (view trace) result
  unlocks : (⟨.statement .advisoryLock, .ok ()⟩ : Call MigratePorts) ∈ trace →
    ∃ answer, (⟨.statement .advisoryUnlock, answer⟩ : Call MigratePorts) ∈ trace

theorem along_applyAll {p : Nat} {directory : Directory} {trace : Trace MigratePorts}
    (applied : ∃ count, Applied whole count s)
    (within : directory.pending = whole.pending.take p) (small : p ≤ whole.pending.length)
    (seen : view trace = ⟨true, none, none⟩) :
    Along ((migrating whole).fact directory s) (Proper whole)
      (fun reached result => ∃ d, Ends whole p d (view reached) result) trace
      (applyAll directory) := by
  refine along_perform trivial fun answer _ => ?_
  cases answer with
  | error error => exact ⟨0, trivial⟩
  | ok _ =>
  have created := view_ok .createTable seen
  refine along_perform trivial fun answer known => ?_
  cases answer with
  | error error => exact ⟨0, trivial⟩
  | ok rows =>
  obtain ⟨count, applied⟩ := applied
  have read := view_snoc (trace ++ [⟨.statement .createTable, .ok ()⟩]) .selectVersions (.ok rows)
  rw [created] at read
  obtain ⟨d, -, rfl⟩ := applied.take_of_prefix (known rows (by rw [read]; rfl))
  refine (along_applyPending _ 0 0 small (by rw [List.drop_zero, within]) (Nat.zero_le p) ?_).imp
    fun _ _ ended => ⟨d, ended.1⟩
  rw [read, Nat.max_zero]
  rfl

theorem along_run {p : Nat} {directory : Directory} (applied : ∃ count, Applied whole count s)
    (within : directory.pending = whole.pending.take p) (small : p ≤ whole.pending.length) :
    Along ((migrating whole).fact directory s) (Proper whole) (Finished whole p) []
      (run directory) := by
  refine along_perform rfl fun answer _ => ?_
  cases answer with
  | error error => exact ⟨⟨0, trivial⟩, by simp⟩
  | ok _ =>
  refine along_perform (by show (view _).rows = none; rfl) fun answer _ => ?_
  cases answer with
  | error error => exact along_perform trivial fun _ _ => ⟨⟨0, trivial⟩, by simp⟩
  | ok _ =>
  refine (along_applyAll applied within small rfl).bind ?_
  rintro reached result ⟨d, ended⟩
  refine along_perform trivial fun unlocked _ => along_perform trivial fun released _ => ?_
  refine ⟨⟨d, ended.of_rows ?_⟩, fun _ => ⟨unlocked, by simp⟩⟩
  rw [view_snoc, view_snoc]
  rfl

/-! ### Every run -/

theorem holds_startups {c : Config MigratePorts Database Directory Outcome}
    (reached : (startups whole).Reaches System.anyStep ⟨.empty, []⟩ c) :
    (migrating whole).Holds (startups whole) c := by
  have fresh : ∀ n, (migrating whole).agrees .empty n [] := by
    intro n inUse
    cases inUse
  refine Sessions.holds_of_reaches (I := migrating whole) ⟨0, rfl, rfl⟩ fresh
    (fun _ _ _ admitted => admitted) ?_ ?_ reached
  · intro c n t op next answer s' holds found stands served _
    have knows := holds.known.tasks t (System.mem_of_found found)
    have agrees := holds.agrees_found found
    have applied := holds.known.inv
    have proper : Proper whole t.trace op := knows.issues
      (along_run applied (List.prefix_iff_eq_take.mp knows.input) knows.input.length_le) stands
    have keeps := keeps_served applied agrees proper served
    have after := agrees_served applied agrees proper served
    refine ⟨⟨⟨keeps.applied, fun _ input => input, fun _ _ _ _ known rows seen =>
      (known rows seen).trans keeps.rows⟩, ?_⟩, after, fun m other => keeps.spares.agrees other⟩
    exact seen_served agrees proper served fun rows seen =>
      (rows_of_facts knows.facts rows seen).trans keeps.rows
  · intro c s' holds moves _
    obtain ⟨applied, rows, agrees⟩ := keeps_moves holds.known.inv moves
    exact ⟨⟨applied, fun _ input => input, fun _ _ _ _ known list seen => rows ▸ known list seen⟩,
      fun m before => agrees m _ before⟩

/-- In every run from the empty database, the scripts committed are the first few migrations of
the newest directory, each once and in filename order, and the table says so.  A run that
ends well has all of its directory applied; one that fails at a file has applied every file
before it.  A run that got the lock has tried to give it back. -/
theorem migrations_of_run {c : Config MigratePorts Database Directory Outcome}
    (reached : (startups whole).Reaches System.anyStep ⟨.empty, []⟩ c) :
    (∃ done, done <+: whole.pending ∧ c.shared.scripts.map some = done.map File.contents ∧
      c.shared.rows = done.map File.name ∧ c.shared.rows.Pairwise (· < ·)) ∧
    ∀ t ∈ c.tasks, ∀ result, t.rest = .ret result →
      (∀ count, result = .ok count → t.input.pending.map File.name <+: c.shared.rows) ∧
      (∀ file source, result = .error (.failed file source) → ∃ before after,
        t.input.pending.map File.name = before ++ file :: after ∧ before <+: c.shared.rows) ∧
      ((⟨.statement .advisoryLock, .ok ()⟩ : Call MigratePorts) ∈ t.trace →
        ∃ answer, (⟨.statement .advisoryUnlock, answer⟩ : Call MigratePorts) ∈ t.trace) := by
  have holds := holds_startups reached
  obtain ⟨count, rows, scripts⟩ := holds.known.inv
  refine ⟨⟨whole.pending.take count, List.take_prefix _ _, scripts, ?_, ?_⟩, ?_⟩
  · rw [rows, versions, List.map_take]
  · rw [rows]
    exact (ascending_versions whole).sublist (List.take_sublist _ _)
  · intro t mem result returned
    have knows := holds.known.tasks t mem
    have finished : Finished whole t.input.pending.length t.trace result := knows.returns
      (along_run ⟨count, rows, scripts⟩ (List.prefix_iff_eq_take.mp knows.input)
        knows.input.length_le) returned
    obtain ⟨⟨d, ended⟩, unlocks⟩ := finished
    have known := rows_of_facts knows.facts
    have own : t.input.pending.map File.name = (versions whole).take t.input.pending.length := by
      rw [versions, ← List.map_take, ← List.prefix_iff_eq_take.mp knows.input]
    refine ⟨?_, ?_, unlocks⟩
    · rintro _ rfl
      rw [own]
      refine List.IsPrefix.trans ?_ (known _ ended)
      exact List.take_prefix_take_left (Nat.le_max_right _ _)
    · rintro file source rfl
      obtain ⟨i, small, here, seen⟩ := ended
      refine ⟨(versions whole).take i, ((versions whole).take t.input.pending.length).drop (i + 1),
        ?_, known _ seen⟩
      have at_ : ((versions whole).take t.input.pending.length)[i]? = some file := by
        rwa [List.getElem?_take_of_lt small]
      obtain ⟨bound, rfl⟩ := List.getElem?_eq_some_iff.mp at_
      have front : (versions whole).take i =
          ((versions whole).take t.input.pending.length).take i := by
        rw [List.take_take, Nat.min_eq_left (Nat.le_of_lt small)]
      rw [own, ← List.drop_eq_getElem_cons bound, front, List.take_append_drop]

end Run

/-! ## Two releases start together -/

namespace Sample

def first : File := ⟨"0001_pg_cutover.sql", some "CREATE TABLE tenant"⟩

def second : File := ⟨"0002_drop_upload_session.sql", some "DROP TABLE upload_session"⟩

def older : Directory := ⟨[first, ⟨"README.md", none⟩], by decide⟩

def newer : Directory := ⟨[second, first], by decide⟩

theorem older_front : older.pending <+: newer.pending := by decide +kernel

/-- Every statement succeeds at once, but the first service never hears of its commit. -/
def answer (n : Nat) (s : Database) : (op : MigrateCall) → op.Ans
  | .acquire => .ok ()
  | .statement statement =>
      if n = 0 ∧ statement = .commit then .error ⟨"connection reset"⟩
      else if s.link n = .inUse then .ok () else .error ⟨"connection closed"⟩
  | .selectVersions =>
      match s.table with
      | some rows => .ok rows
      | none => .error ⟨"no table"⟩
  | .rollback => ()
  | .release => ()

def next (n : Nat) (s : Database) : MigrateCall → Database
  | .acquire => s.setLink n .inUse
  | .statement statement =>
      if n = 0 ∧ statement = .commit then (s.after n statement).setLink n .lost
      else if s.link n = .inUse then s.after n statement else s
  | .selectVersions => s
  | .rollback => if s.link n = .inUse then s.setTx n none else s
  | .release => if s.link n = .inUse then s.setLink n .pooled else s

def ready (n : Nat) (s : Database) : MigrateCall → Bool
  | .acquire => s.link n = .unopened && (s.tx n).isNone
  | .statement statement => s.link n = .inUse ∧ (statement = .advisoryLock → s.holder = none) ∨
      s.link n ≠ .inUse ∧ statement ≠ .commit
  | .selectVersions => s.link n = .inUse && s.table.isSome
  | _ => true

theorem lawful (n : Nat) (op : MigrateCall) (s : Database) (isReady : ready n s op = true) :
    s.serves n op (answer n s op) (next n s op) := by
  cases op with
  | acquire =>
      obtain ⟨unopened, tx⟩ := Bool.and_eq_true_iff.mp isReady
      exact ⟨s.holder, rfl, of_decide_eq_true unopened, Option.isNone_iff_eq_none.mp tx, .inl rfl⟩
  | rollback => rfl
  | release => rfl
  | selectVersions =>
      obtain ⟨inUse, table⟩ := Bool.and_eq_true_iff.mp isReady
      obtain ⟨rows, found⟩ := Option.isSome_iff_exists.mp table
      simp only [answer, found]
      exact ⟨of_decide_eq_true inUse, found, rfl⟩
  | statement statement =>
      have ready : s.link n = .inUse → s.Ready n statement := by
        intro inUse
        rcases of_decide_eq_true isReady with ⟨-, free⟩ | ⟨notInUse, -⟩
        · cases statement with
          | advisoryLock => exact .inl (free rfl)
          | _ => trivial
        · exact absurd inUse notInUse
      simp only [answer, next]
      split
      · rename_i loses
        rcases of_decide_eq_true isReady with ⟨inUse, -⟩ | ⟨-, other⟩
        · exact .inr ⟨inUse, .inr ⟨ready inUse, rfl⟩⟩
        · exact absurd loses.2 other
      · split
        · rename_i inUse
          exact ⟨inUse, ready inUse, .inl rfl⟩
        · exact .inl rfl

def serving : (startups newer).Serving :=
  ⟨fun n op s => answer n s op, fun n op s => next n s op, fun n op s => ready n s op, lawful⟩

def starting : Config MigratePorts Database Directory Outcome :=
  ⟨.empty, [(startups newer).started older, (startups newer).started newer]⟩

/-- The first service until it has returned, beside the second. -/
def interrupted : Config MigratePorts Database Directory Outcome :=
  [0, 1, 0, 0, 0, 0, 0, 0, 0, 0, 0, 0].foldl serving.serve starting

/-- The server has noticed. -/
def noticed : Config MigratePorts Database Directory Outcome :=
  ⟨{ interrupted.shared.setTx 0 none with
      holder := if interrupted.shared.holder = some 0 then none else interrupted.shared.holder },
    interrupted.tasks⟩

def finished : Config MigratePorts Database Directory Outcome :=
  (List.replicate 10 1).foldl serving.serve noticed

theorem reaches_finished : (startups newer).Reaches System.anyStep ⟨.empty, []⟩ finished := by
  have begun : (startups newer).Reaches System.anyStep ⟨.empty, []⟩ starting :=
    ((System.Reaches.refl _).spawned older older_front trivial).spawned newer List.prefix_rfl
      trivial
  have gone : interrupted.shared.link 0 = .lost := by decide +kernel
  have stopped := (begun.served serving _).disturbed _ (.notices 0 gone) trivial
  exact stopped.served serving _

/-- How the tasks ended: the count of a run that ended well. -/
def outcomes (c : Config MigratePorts Database Directory Outcome) : List (Option (Option Nat)) :=
  c.tasks.map fun t => t.rest.returned.map Except.toOption

theorem returned_of_outcome {c : Config MigratePorts Database Directory Outcome}
    {outcome : Option Nat} (mem : some outcome ∈ outcomes c) :
    ∃ t ∈ c.tasks, ∃ result, t.rest = .ret result ∧ result.toOption = outcome := by
  obtain ⟨t, found, same⟩ := List.mem_map.mp mem
  obtain ⟨result, returned, rfl⟩ := Option.map_eq_some_iff.mp same
  exact ⟨t, found, result, Program.eq_ret_of_returned returned, rfl⟩

/-- The first service fails, its migration stands, and the second goes on from there. -/
theorem migrations_of_run_interrupted :
    outcomes finished = [some none, some (some 1)] ∧
    finished.shared.scripts = ["CREATE TABLE tenant", "DROP TABLE upload_session"] ∧
    finished.shared.rows.Pairwise (· < ·) ∧
    ∃ t ∈ finished.tasks, t.rest = .ret (.ok 1) ∧
      t.input.pending.map File.name <+: finished.shared.rows := by
  have ends : outcomes finished = [some none, some (some 1)] := by decide +kernel
  obtain ⟨⟨_, _, _, _, ascending⟩, runs⟩ := migrations_of_run reaches_finished
  have ended : some (some 1) ∈ outcomes finished := by
    rw [ends]
    exact List.mem_cons_of_mem _ List.mem_cons_self
  obtain ⟨t, mem, result, returned, count⟩ := returned_of_outcome ended
  obtain rfl : result = .ok 1 := by
    cases result with
    | error error => cases count
    | ok other => exact congrArg _ (Option.some.inj count)
  exact ⟨ends, by decide +kernel, ascending, t, mem, returned, (runs t mem _ returned).1 1 rfl⟩

end Sample

end Delphi.Document.Migrate
