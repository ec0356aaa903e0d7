/-
# Delphi.Document.Table -- rows of the document table

The columns `upsert_document` binds and `row_to_document` reads back.  A `u64`
is bound as `i64` and read back clamped at zero; tags and metadata are `jsonb`,
which gives a value back in a form of its own (`Jsonb`); text and `jsonb` columns
hold every string but those with a NUL character.

Rows are compared column by column, and over the columns every message of the
log is an overwriting update (`overwrites_act`).
-/
import Mathlib.Algebra.Group.Nat.Defs
import Delphi.Document.Fields

namespace Delphi.Document

open Delphi.Theory

set_option autoImplicit false

/-! ## What Postgres stores -/

/-- A string a text column takes. -/
def textStorable (value : String) : Bool := !value.toList.contains '\x00'

namespace Json

/-! A document a `jsonb` column takes: no string and no key has a NUL. -/
mutual

def storable : Json → Bool
  | .null => true
  | .bool _ => true
  | .number _ => true
  | .string value => textStorable value
  | .array items => storableItems items
  | .object members => storableMembers members

def storableItems : List Json → Bool
  | [] => true
  | item :: rest => item.storable && storableItems rest

def storableMembers : List (String × Json) → Bool
  | [] => true
  | (key, value) :: rest => textStorable key && value.storable && storableMembers rest

end

end Json

/-- What a `jsonb` column gives back for a value: numbers are kept by value, not by
literal; strings and their order in an array are kept. -/
structure Jsonb where
  readBack : Json → Json
  idempotent : ∀ value, readBack (readBack value) = readBack value
  strings : ∀ tags : List String,
    readBack (.array (tags.map .string)) = .array (tags.map .string)
  stored : ∀ value, value.storable = true → (readBack value).storable = true

/-- The column that gives back every value as it came. -/
def Jsonb.verbatim : Jsonb :=
  ⟨fun value => value, fun _ => rfl, fun _ => rfl, fun _ stored => stored⟩

/-- `u64 as i64`. -/
@[irreducible] def asI64 (value : Nat) : Int := Int.bmod value (2 ^ 64)

/-- `value.max(0) as u64`. -/
def clampU64 (value : Int) : Nat := (max value 0).toNat

theorem asI64_of_lt {value : Nat} (small : value < 2 ^ 63) : asI64 value = value := by
  unfold asI64
  rw [Int.bmod_eq_of_le] <;> omega

@[simp] theorem clampU64_natCast (value : Nat) : clampU64 value = value := by
  simp [clampU64]

/-! ## Rows -/

/-- A row of the `document` table. -/
@[ext] structure Row where
  tenantId : String
  documentId : String
  ownerUserId : String
  version : Int
  streamSeq : Int
  state : String
  indexState : String
  indexVersion : Option Int
  currentBlob : Option String
  filename : Option String
  contentType : Option String
  byteSize : Option Int
  checksum : Option String
  title : Option String
  tags : Json
  description : Option String
  metadata : Json
  createdAt : Timestamp
  updatedAt : Timestamp

namespace Row

def key (row : Row) : StreamKey := (row.tenantId, row.documentId)

end Row

def tagsToValue (tags : List String) : Json := .array (tags.map .string)

def stringFromValue : Json → Option String
  | .string value => some value
  | _ => none

/-- `from_value::<Vec<String>>` -/
def tagsFromValue : Json → Option (List String)
  | .array items => items.mapM stringFromValue
  | _ => none

@[simp] theorem tagsFromValue_tagsToValue (tags : List String) :
    tagsFromValue (tagsToValue tags) = some tags := by
  unfold tagsFromValue tagsToValue
  induction tags with
  | nil => rfl
  | cons tag rest ih =>
      simp only at ih
      simp [List.mapM_cons, stringFromValue, ih]

/-- Every text and `jsonb` value of a state is one the columns take. -/
def DocumentState.storable (state : DocumentState) : Bool :=
  textStorable state.tenantId && textStorable state.documentId && textStorable state.ownerUserId &&
  textStorable state.state.asStr && textStorable state.indexState.asStr &&
  state.currentBlob.all textStorable && state.filename.all textStorable &&
  state.contentType.all textStorable && state.checksum.all textStorable &&
  state.title.all textStorable && (tagsToValue state.tags).storable &&
  state.description.all textStorable && state.metadata.storable

/-- The columns bound for a state, as the table holds them. -/
def bindRow (jsonb : Jsonb) (state : DocumentState) : Row where
  tenantId := state.tenantId
  documentId := state.documentId
  ownerUserId := state.ownerUserId
  version := asI64 state.version
  streamSeq := asI64 state.streamSeq
  state := state.state.asStr
  indexState := state.indexState.asStr
  indexVersion := state.indexVersion.map asI64
  currentBlob := state.currentBlob
  filename := state.filename
  contentType := state.contentType
  byteSize := state.byteSize.map asI64
  checksum := state.checksum
  title := state.title
  tags := jsonb.readBack (tagsToValue state.tags)
  description := state.description
  metadata := jsonb.readBack state.metadata
  createdAt := state.createdAt
  updatedAt := state.updatedAt

def rowToDocument (row : Row) : DocumentState where
  tenantId := row.tenantId
  documentId := row.documentId
  ownerUserId := row.ownerUserId
  version := clampU64 row.version
  streamSeq := clampU64 row.streamSeq
  state := (DocState.parse row.state).getD .active
  indexState := (IndexState.parse row.indexState).getD .pending
  indexVersion := row.indexVersion.map clampU64
  currentBlob := row.currentBlob
  filename := row.filename
  contentType := row.contentType
  byteSize := row.byteSize.map clampU64
  checksum := row.checksum
  title := row.title
  tags := (tagsFromValue row.tags).getD []
  description := row.description
  metadata := row.metadata
  createdAt := row.createdAt
  updatedAt := row.updatedAt

/-! ## Counters below `2 ^ 63` -/

/-- The counters a row keeps exactly. -/
structure DocumentState.Bounded (state : DocumentState) : Prop where
  version : state.version < 2 ^ 63
  streamSeq : state.streamSeq < 2 ^ 63
  indexVersion : ∀ value ∈ state.indexVersion, value < 2 ^ 63
  byteSize : ∀ value ∈ state.byteSize, value < 2 ^ 63

/-- The counters of an event that reach a row. -/
def DocumentEvent.Bounded (event : DocumentEvent) : Prop :=
  event.version < 2 ^ 63 ∧
  match event.payload with
  | .documentCreated created => created.byteSize < 2 ^ 63
  | .documentBlobValidated validated => validated.byteSize < 2 ^ 63
  | .documentIndexed indexed => indexed.forVersion < 2 ^ 63
  | _ => True

theorem DocumentEvent.act_bounded {event : DocumentEvent} {seq : Nat} {state : DocumentState}
    (small : event.Bounded) (seqSmall : seq < 2 ^ 63) (bounded : state.Bounded) :
    (event.act seq state).Bounded := by
  obtain ⟨version, counters⟩ := small
  unfold DocumentEvent.act
  cases payload : event.payload with
  | documentCreated created =>
      rw [payload] at counters
      cases event.actor with
      | user userId =>
          exact ⟨version, seqSmall, by rintro _ ⟨⟩, by rintro _ ⟨⟩; exact counters⟩
      | system component => exact bounded
  | documentBlobValidated validated =>
      rw [payload] at counters
      exact ⟨version, seqSmall, bounded.indexVersion, by rintro _ ⟨⟩; exact counters⟩
  | documentIndexed indexed =>
      rw [payload] at counters
      exact ⟨version, seqSmall, by rintro _ ⟨⟩; exact counters, bounded.byteSize⟩
  | documentStageFailed failed =>
      simp only [amend]
      split <;> exact ⟨version, seqSmall, bounded.indexVersion, bounded.byteSize⟩
  | _ => exact ⟨version, seqSmall, bounded.indexVersion, bounded.byteSize⟩

theorem DocState.parse_asStr (state : DocState) : DocState.parse state.asStr = some state := by
  cases state <;> decide

theorem IndexState.parse_asStr (state : IndexState) :
    IndexState.parse state.asStr = some state := by
  cases state <;> decide

/-- What a counter is after a round through the table. -/
theorem map_clampU64_asI64 {value : Option Nat} (small : ∀ v ∈ value, v < 2 ^ 63) :
    (value.map asI64).map clampU64 = value := by
  cases value with
  | none => rfl
  | some v => simp [asI64_of_lt (small v rfl)]

/-- A stored row reads back as a state of the same columns. -/
theorem bindRow_rowToDocument (jsonb : Jsonb) {state : DocumentState} (bounded : state.Bounded) :
    bindRow jsonb (rowToDocument (bindRow jsonb state)) = bindRow jsonb state := by
  have tags : jsonb.readBack (tagsToValue state.tags) = tagsToValue state.tags :=
    jsonb.strings state.tags
  simp only [bindRow, rowToDocument, asI64_of_lt bounded.version, asI64_of_lt bounded.streamSeq,
    clampU64_natCast, map_clampU64_asI64 bounded.indexVersion,
    map_clampU64_asI64 bounded.byteSize, jsonb.idempotent, tags, tagsFromValue_tagsToValue,
    DocState.parse_asStr, IndexState.parse_asStr, Option.getD_some]

@[simp] theorem rowToDocument_streamKey (row : Row) :
    (rowToDocument row).streamKey = row.key := rfl

@[simp] theorem bindRow_key (jsonb : Jsonb) (state : DocumentState) :
    (bindRow jsonb state).key = state.streamKey := rfl

theorem rowToDocument_bindRow_bounded (jsonb : Jsonb) {state : DocumentState}
    (bounded : state.Bounded) : (rowToDocument (bindRow jsonb state)).Bounded where
  version := by
    rw [rowToDocument, bindRow, asI64_of_lt bounded.version, clampU64_natCast]
    exact bounded.version
  streamSeq := by
    rw [rowToDocument, bindRow, asI64_of_lt bounded.streamSeq, clampU64_natCast]
    exact bounded.streamSeq
  indexVersion := by
    rw [rowToDocument, bindRow, map_clampU64_asI64 bounded.indexVersion]
    exact bounded.indexVersion
  byteSize := by
    rw [rowToDocument, bindRow, map_clampU64_asI64 bounded.byteSize]
    exact bounded.byteSize

theorem streamSeq_of_bindRow {jsonb : Jsonb} {state other : DocumentState}
    (bounded : state.Bounded) (bounded' : other.Bounded)
    (same : bindRow jsonb state = bindRow jsonb other) : state.streamSeq = other.streamSeq := by
  have seqs : asI64 state.streamSeq = asI64 other.streamSeq := congrArg Row.streamSeq same
  rw [asI64_of_lt bounded.streamSeq, asI64_of_lt bounded'.streamSeq] at seqs
  exact_mod_cast seqs

/-! ## Columns -/

namespace Column

abbrev Value : Column → Type
  | .tenantId | .documentId | .ownerUserId | .state | .indexState => String
  | .version | .streamSeq => Int
  | .indexVersion | .byteSize => Option Int
  | .currentBlob | .filename | .contentType | .checksum | .title | .description => Option String
  | .tags | .metadata => Json
  | .createdAt | .updatedAt => Timestamp

/-- The value a state binds to a column. -/
def ofState (jsonb : Jsonb) (column : Column) (state : DocumentState) : column.Value :=
  match column with
  | .tenantId => (bindRow jsonb state).tenantId
  | .documentId => (bindRow jsonb state).documentId
  | .ownerUserId => (bindRow jsonb state).ownerUserId
  | .version => (bindRow jsonb state).version
  | .streamSeq => (bindRow jsonb state).streamSeq
  | .state => (bindRow jsonb state).state
  | .indexState => (bindRow jsonb state).indexState
  | .indexVersion => (bindRow jsonb state).indexVersion
  | .currentBlob => (bindRow jsonb state).currentBlob
  | .filename => (bindRow jsonb state).filename
  | .contentType => (bindRow jsonb state).contentType
  | .byteSize => (bindRow jsonb state).byteSize
  | .checksum => (bindRow jsonb state).checksum
  | .title => (bindRow jsonb state).title
  | .tags => (bindRow jsonb state).tags
  | .description => (bindRow jsonb state).description
  | .metadata => (bindRow jsonb state).metadata
  | .createdAt => (bindRow jsonb state).createdAt
  | .updatedAt => (bindRow jsonb state).updatedAt

end Column

/-- States of equal columns bind equal rows. -/
theorem sameFields_iff {jsonb : Jsonb} {state other : DocumentState} :
    SameFields (Column.ofState jsonb) state other ↔ bindRow jsonb state = bindRow jsonb other := by
  constructor
  · intro same
    exact Row.ext (same .tenantId) (same .documentId) (same .ownerUserId) (same .version)
      (same .streamSeq) (same .state) (same .indexState) (same .indexVersion)
      (same .currentBlob) (same .filename) (same .contentType) (same .byteSize)
      (same .checksum) (same .title) (same .tags) (same .description) (same .metadata)
      (same .createdAt) (same .updatedAt)
  · intro same column
    cases column <;> (simp only [Column.ofState]; rw [same])

/-! ## Messages overwrite -/

variable {jsonb : Jsonb}

/-- A column's value is computed from the state's own field. -/
theorem ofState_of_field (jsonb : Jsonb) (column : Column) (state other : DocumentState)
    (same : column.field state = column.field other) :
    column.ofState jsonb state = column.ofState jsonb other := by
  cases column <;> simp_all [Column.ofState, Column.field, bindRow]

theorem overwrites_event (event : DocumentEvent) (seq : Nat) :
    Overwrites (Column.ofState jsonb) (event.act seq) :=
  (overwrites_fields event seq).through (ofState_of_field jsonb)

theorem overwrites_act (codec : Codec) (message : Message) :
    Overwrites (Column.ofState jsonb) (message.act codec) := by
  unfold Message.act
  cases decodeEvent codec message.payload with
  | event event => exact overwrites_event event message.sequence
  | unknown raw error => exact .id
  | malformed error => exact .id

end Delphi.Document
