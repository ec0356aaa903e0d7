/-
# Delphi.Document.Listing -- the listing of a tenant's documents

`list_documents` of the service and of its HTTP handler, over the two read models:
the Postgres query and the map the tests use.  They are one function, over rows
compared in the collation of the database and over states compared as strings.

A page is a window of the tenant's documents in descending order of
`(updated_at, document_id)`; a client that follows the cursors sees the whole of
it (`Keyset.walk_enumerates`).
-/
import Mathlib.Data.String.Basic
import Delphi.Theory.Keyset
import Delphi.Document.Cursor
import Delphi.Document.Service

namespace Delphi.Document

open Delphi.Theory

set_option autoImplicit false

/-! ## Read models -/

section Order

variable (ids : LinearOrder String)

/-- `(updated_at, document_id) < (…)` -/
def DocumentCursor.before (key other : DocumentCursor) : Bool :=
  key.updatedAt < other.updatedAt ||
  (key.updatedAt = other.updatedAt &&
    @decide _ (ids.toDecidableLT key.documentId other.documentId))

variable {α : Type} (tenantOf : α → String) (key : α → DocumentCursor)

/-- In descending order, `first` stands no later than `second`. -/
def descending (first second : α) : Bool := !DocumentCursor.before ids (key first) (key second)

/-- The tenant's rows strictly after a cursor, in descending order, up to a limit. -/
def listBy (table : List α) (tenant : String) (limit : Nat) (after : Option DocumentCursor) :
    List α :=
  ((table.filter fun row => tenantOf row = tenant &&
    after.all fun cursor => DocumentCursor.before ids (key row) cursor).mergeSort
      (descending ids key)).take limit

end Order

def Row.cursor (row : Row) : DocumentCursor := ⟨row.updatedAt, row.documentId⟩

def DocumentState.cursor (state : DocumentState) : DocumentCursor :=
  ⟨state.updatedAt, state.documentId⟩

def PgDocumentReadModel.list (collation : LinearOrder String) (table : List Row) (tenant : String)
    (limit : Nat) (after : Option DocumentCursor) : List DocumentState :=
  (listBy collation Row.tenantId Row.cursor table tenant limit after).map rowToDocument

def MemoryReadModel.list (documents : List DocumentState) (tenant : String) (limit : Nat)
    (after : Option DocumentCursor) : List DocumentState :=
  listBy inferInstance DocumentState.tenantId DocumentState.cursor documents tenant limit after

/-- A table to list from: of Postgres, with its collation, or in memory. -/
inductive ReadModel where
  | postgres (collation : LinearOrder String) (table : List Row)
  | memory (documents : List DocumentState)

namespace ReadModel

/-- The documents a table holds. -/
def documents : ReadModel → List DocumentState
  | .postgres _ table => table.map rowToDocument
  | .memory documents => documents

/-- The order of document ids. -/
@[reducible] def ids : ReadModel → LinearOrder String
  | .postgres collation _ => collation
  | .memory _ => inferInstance

def list : ReadModel → String → Nat → Option DocumentCursor → Except ReadError (List DocumentState)
  | .postgres collation table, tenant, limit, after =>
      .ok (PgDocumentReadModel.list collation table tenant limit after)
  | .memory documents, tenant, limit, after => .ok (MemoryReadModel.list documents tenant limit after)

end ReadModel

/-! ## The service -/

def maxListLimit : Nat := 200

structure DocumentPage where
  items : List DocumentState
  next : Option DocumentCursor

/-- Only a full page names a cursor. -/
def documentPage (limit : Nat) (items : List DocumentState) : DocumentPage where
  items := items
  next := if items.length % 2 ^ 32 = limit then items.getLast?.map DocumentState.cursor else none

namespace DocumentService

def listDocuments (documents : ReadModel) (tenantId : String) (limit : Nat)
    (after : Option DocumentCursor) : Except DocumentError DocumentPage :=
  let limit := min (max limit 1) maxListLimit
  match documents.list tenantId limit after with
  | .error error => .error (.internalIn "read model" error.display)
  | .ok items => .ok (documentPage limit items)

end DocumentService

/-- `GET /api/documents?limit=&cursor=` -/
def getDocuments (documents : ReadModel) (tenantId : String) (limit : Nat)
    (cursor : Option String) : Except DocumentError DocumentPage :=
  match cursor with
  | none => DocumentService.listDocuments documents tenantId limit none
  | some value =>
      match DocumentCursor.decode value with
      | none => .error (.invalid "cursor is not valid")
      | some after => DocumentService.listDocuments documents tenantId limit (some after)

/-- The `next` of a response. -/
def DocumentPage.nextText (page : DocumentPage) : Option String :=
  page.next.map DocumentCursor.encode

/-- A client that follows the cursors from the first page on. -/
def followCursors (documents : ReadModel) (tenantId : String) (limit fuel : Nat) :
    Option (List DocumentPage) :=
  Keyset.walk (fun cursor => (getDocuments documents tenantId limit cursor).toOption)
    DocumentPage.nextText fuel none

/-! ## The order -/

namespace DocumentCursor

variable {ids : LinearOrder String} {key other third : DocumentCursor}

theorem before_iff : before ids key other = true ↔
    key.updatedAt < other.updatedAt ∨
      key.updatedAt = other.updatedAt ∧ ids.lt key.documentId other.documentId := by
  simp [before]

theorem before_asymm (below : before ids key other = true) : before ids other key = false := by
  rw [← Bool.not_eq_true, before_iff]
  rcases before_iff.mp below with earlier | ⟨tie, earlier⟩
  · rintro (later | ⟨same, -⟩)
    · exact lt_asymm earlier later
    · exact earlier.ne same.symm
  · rintro (later | ⟨-, later⟩)
    · exact later.ne tie.symm
    · exact @lt_asymm _ ids.toPreorder _ _ earlier later

theorem before_trans (first : before ids key other = true) (second : before ids other third = true) :
    before ids key third = true := by
  rw [before_iff] at *
  rcases first with first | ⟨tie, first⟩ <;> rcases second with second | ⟨tie', second⟩
  · exact .inl (first.trans second)
  · exact .inl (tie' ▸ first)
  · exact .inl (tie ▸ second)
  · exact .inr ⟨tie.trans tie', @lt_trans _ ids.toPreorder _ _ _ first second⟩

theorem before_total (ne : key ≠ other) : before ids key other = true ∨ before ids other key = true := by
  rw [before_iff, before_iff]
  rcases lt_trichotomy key.updatedAt other.updatedAt with earlier | tie | later
  · exact .inl (.inl earlier)
  · rcases @lt_trichotomy _ ids key.documentId other.documentId with earlier | same | later
    · exact .inl (.inr ⟨tie, earlier⟩)
    · exact absurd (by cases key; cases other; simp_all) ne
    · exact .inr (.inr ⟨tie.symm, later⟩)
  · exact .inr (.inl later)

end DocumentCursor

section Sorting

variable {α : Type} {ids : LinearOrder String} {key : α → DocumentCursor}

theorem descending_trans {first second third : α} (before : descending ids key first second = true)
    (after : descending ids key second third = true) : descending ids key first third = true := by
  simp only [descending, Bool.not_eq_true', ← Bool.not_eq_true] at *
  intro below
  by_cases same : key first = key second
  · exact after (by rwa [same] at below)
  · rcases DocumentCursor.before_total same with ahead | behind
    · exact before ahead
    · exact after (DocumentCursor.before_trans behind below)

theorem descending_total (first second : α) :
    (descending ids key first second || descending ids key second first) = true := by
  simp only [descending, Bool.or_eq_true, Bool.not_eq_true']
  cases below : DocumentCursor.before ids (key first) (key second) with
  | false => exact .inl rfl
  | true => exact .inr (DocumentCursor.before_asymm below)

/-- Rows with keys apart are sorted in one way only. -/
theorem mergeSort_descending {rows sorted : List α}
    (apart : ∀ row ∈ rows, ∀ other ∈ rows, key row = key other → row = other)
    (perm : sorted.Perm rows)
    (pairwise : sorted.Pairwise fun row other => descending ids key row other = true) :
    rows.mergeSort (descending ids key) = sorted := by
  refine List.Perm.eq_of_pairwise ?_
    (List.pairwise_mergeSort (fun _ _ _ => descending_trans) descending_total rows) pairwise
    ((List.mergeSort_perm rows _).trans perm.symm)
  intro row other mem mem' down up
  refine apart row (List.mem_mergeSort.mp mem) other (perm.mem_iff.mp mem') ?_
  by_contra ne
  simp only [descending, Bool.not_eq_true'] at down up
  rcases @DocumentCursor.before_total ids _ _ ne with below | above
  · rw [down] at below
    cases below
  · rw [up] at above
    cases above

end Sorting

/-! ## Pages -/

/-- The tenant's documents, the latest first. -/
def listing (ids : LinearOrder String) (documents : List DocumentState) (tenant : String) :
    List DocumentState :=
  (documents.filter fun document => document.tenantId = tenant).mergeSort
    (descending ids DocumentState.cursor)

/-- Both read models list the documents they hold. -/
theorem ReadModel.list_eq (documents : ReadModel) (tenant : String) (limit : Nat)
    (after : Option DocumentCursor) :
    documents.list tenant limit after =
      .ok (listBy documents.ids DocumentState.tenantId DocumentState.cursor documents.documents
        tenant limit after) := by
  cases documents with
  | memory documents => rfl
  | postgres collation table =>
      show Except.ok _ = Except.ok _
      congr 1
      unfold PgDocumentReadModel.list listBy ReadModel.documents
      rw [List.map_take, List.filter_map]
      congr 1
      exact List.map_mergeSort fun _ _ _ _ => rfl

section Pages

variable {ids : LinearOrder String} {documents : List DocumentState} {tenant : String}
  (keys : (documents.map fun document => (document.tenantId, document.documentId)).Nodup)

include keys

/-- Two documents of one tenant have two keys. -/
theorem cursor_injective {document other : DocumentState} (mem : document ∈ documents)
    (mem' : other ∈ documents) (tenant : document.tenantId = other.tenantId)
    (same : document.cursor = other.cursor) : document = other := by
  refine List.inj_on_of_nodup_map keys mem mem' ?_
  rw [Prod.mk.injEq]
  exact ⟨tenant, congrArg DocumentCursor.documentId same⟩

theorem listing_strict :
    (listing ids documents tenant).Pairwise fun document other =>
      DocumentCursor.before ids other.cursor document.cursor = true := by
  have distinct : (listing ids documents tenant).Nodup :=
    (List.mergeSort_perm _ _).nodup_iff.mpr ((List.Nodup.of_map _ keys).filter _)
  have sorted : (listing ids documents tenant).Pairwise fun document other =>
      descending ids DocumentState.cursor document other = true :=
    List.pairwise_mergeSort (fun _ _ _ => descending_trans) descending_total _
  refine (distinct.and sorted).imp_of_mem ?_
  rintro document other mem mem' ⟨ne, down⟩
  obtain ⟨held, own⟩ := List.mem_filter.mp (List.mem_mergeSort.mp mem)
  obtain ⟨held', own'⟩ := List.mem_filter.mp (List.mem_mergeSort.mp mem')
  simp only [decide_eq_true_eq] at own own'
  have apart : document.cursor ≠ other.cursor := fun same =>
    ne (cursor_injective keys held held' (own.trans own'.symm) same)
  simp only [descending, Bool.not_eq_true'] at down
  rcases @DocumentCursor.before_total ids _ _ apart with below | above
  · rw [down] at below
    cases below
  · exact above

/-- A page is the front of what the cursor has not passed. -/
theorem listBy_eq (limit : Nat) (after : Option DocumentCursor) :
    listBy ids DocumentState.tenantId DocumentState.cursor documents tenant limit after =
      (Keyset.rest DocumentState.cursor (fun cursor key => DocumentCursor.before ids key cursor)
        (listing ids documents tenant) after).take limit := by
  have sorted : (listing ids documents tenant).Pairwise fun document other =>
      descending ids DocumentState.cursor document other = true :=
    (listing_strict keys).imp fun above => by
      simp only [descending, Bool.not_eq_true']
      exact DocumentCursor.before_asymm above
  have split : Keyset.rest DocumentState.cursor
      (fun cursor key => DocumentCursor.before ids key cursor) (listing ids documents tenant) after =
      (listing ids documents tenant).filter fun document =>
        after.all fun cursor => DocumentCursor.before ids document.cursor cursor := by
    cases after with
    | none => simp [Keyset.rest]
    | some cursor => simp [Keyset.rest]
  unfold listBy
  rw [split]
  congr 1
  refine mergeSort_descending ?_ ?_ (sorted.filter _)
  · intro document mem other mem' same
    obtain ⟨held, own⟩ := List.mem_filter.mp mem
    obtain ⟨held', own'⟩ := List.mem_filter.mp mem'
    simp only [Bool.and_eq_true, decide_eq_true_eq] at own own'
    exact cursor_injective keys held held' (own.1.trans own'.1.symm) same
  · have perm := (List.mergeSort_perm (documents.filter fun document => document.tenantId = tenant)
      (descending ids DocumentState.cursor)).filter fun document =>
        after.all fun cursor => DocumentCursor.before ids document.cursor cursor
    rw [List.filter_filter] at perm
    refine perm.trans (List.Perm.of_eq (List.filter_congr fun document _ => ?_))
    exact Bool.and_comm _ _

end Pages

/-! ## The whole listing -/

section Listing

variable {documents : ReadModel}
  (keys : (documents.documents.map fun document => (document.tenantId, document.documentId)).Nodup)

include keys

theorem listDocuments_eq (tenant : String) (limit : Nat) (after : Option DocumentCursor) :
    DocumentService.listDocuments documents tenant limit after =
      .ok (documentPage (min (max limit 1) maxListLimit)
        ((Keyset.rest DocumentState.cursor
          (fun cursor key => DocumentCursor.before documents.ids key cursor)
          (listing documents.ids documents.documents tenant) after).take
            (min (max limit 1) maxListLimit))) := by
  unfold DocumentService.listDocuments
  simp only [ReadModel.list_eq, listBy_eq keys]

/-- What a page says is what the walk of the listing asks of it. -/
theorem pages_getDocuments (named : ∀ document ∈ documents.documents, document.documentId ≠ "")
    (dated : ∀ document ∈ documents.documents, Representable document.updatedAt)
    (tenant : String) (limit : Nat) :
    Keyset.Pages (fun document => document.cursor.encode) (min (max limit 1) maxListLimit)
      (listing documents.ids documents.documents tenant)
      (fun cursor => (getDocuments documents tenant limit cursor).toOption)
      DocumentPage.items DocumentPage.nextText := by
  intro front back cursor split stands
  have strict := @listing_strict documents.ids documents.documents tenant keys
  rw [split] at strict
  -- The token stands for the key of the last document passed.
  obtain ⟨after, standing, decoded⟩ : ∃ after, Keyset.Stands DocumentState.cursor front after ∧
      getDocuments documents tenant limit cursor =
        DocumentService.listDocuments documents tenant limit after := by
    cases stands with
    | start => exact ⟨none, .start, rfl⟩
    | after front last =>
        have mem : last ∈ documents.documents := by
          have listed : last ∈ listing documents.ids documents.documents tenant := by simp [split]
          exact (List.mem_filter.mp (List.mem_mergeSort.mp listed)).1
        refine ⟨some last.cursor, .after front last, ?_⟩
        unfold getDocuments
        simp only [DocumentCursor.decode_encode (show Representable last.cursor.updatedAt from
          dated last mem) (named last mem)]
  have passed : Keyset.rest DocumentState.cursor
      (fun cursor key => DocumentCursor.before documents.ids key cursor)
      (listing documents.ids documents.documents tenant) after = back := by
    rw [split]
    exact Keyset.rest_eq (fun _ _ => DocumentCursor.before_asymm) strict standing
  refine ⟨documentPage (min (max limit 1) maxListLimit)
    (back.take (min (max limit 1) maxListLimit)), ?_, rfl, ?_⟩
  · show (getDocuments documents tenant limit cursor).toOption = _
    rw [decoded, listDocuments_eq keys, passed]
    rfl
  · have short : (back.take (min (max limit 1) maxListLimit)).length < 2 ^ 32 := by
      rw [List.length_take]
      simp only [maxListLimit]
      omega
    simp only [DocumentPage.nextText, documentPage, Keyset.handedOn, Nat.mod_eq_of_lt short]
    split
    · rw [Option.map_map]
      rfl
    · rfl

/-- A client that follows the cursors sees every document of its tenant once, the latest first,
on pages no longer than it asked for, and is told to stop only at the end. -/
theorem listing_enumerates
    (named : ∀ document ∈ documents.documents, document.documentId ≠ "")
    (dated : ∀ document ∈ documents.documents, Representable document.updatedAt)
    (tenant : String) (limit : Nat) :
    (∃ pages,
      (∀ fuel, documents.documents.length < fuel →
        followCursors documents tenant limit fuel = some pages) ∧
      (∀ page ∈ pages, page.items.length ≤ min (max limit 1) 200) ∧
      (pages.flatMap DocumentPage.items).Perm
        (documents.documents.filter fun document => document.tenantId = tenant) ∧
      (pages.flatMap DocumentPage.items).Pairwise fun document other =>
        DocumentCursor.before documents.ids other.cursor document.cursor = true) ∧
    ∀ after page, DocumentService.listDocuments documents tenant limit after = .ok page →
      page.next = none → ∀ document ∈ documents.documents, document.tenantId = tenant →
        (after.all fun cursor => DocumentCursor.before documents.ids document.cursor cursor) = true →
          document ∈ page.items := by
  have positive : 0 < min (max limit 1) maxListLimit := by
    simp only [maxListLimit]
    omega
  constructor
  · obtain ⟨pages, walks, all, small⟩ :=
      Keyset.walk_enumerates positive (pages_getDocuments keys named dated tenant limit)
    refine ⟨pages, ?_, small, ?_, ?_⟩
    · intro fuel long
      refine walks fuel (lt_of_le_of_lt ?_ long)
      rw [listing, List.length_mergeSort]
      exact List.length_filter_le _ _
    · rw [all]
      exact List.mergeSort_perm _ _
    · rw [all]
      exact listing_strict keys
  · intro after page answered last document mem own ahead
    rw [listDocuments_eq keys] at answered
    cases answered
    have listed : document ∈ Keyset.rest DocumentState.cursor
        (fun cursor key => DocumentCursor.before documents.ids key cursor)
        (listing documents.ids documents.documents tenant) after := by
      have held : document ∈ listing documents.ids documents.documents tenant :=
        List.mem_mergeSort.mpr (List.mem_filter.mpr ⟨mem, by simpa using own⟩)
      cases after with
      | none => exact held
      | some cursor => exact List.mem_filter.mpr ⟨held, by simpa using ahead⟩
    generalize Keyset.rest DocumentState.cursor
        (fun cursor key => DocumentCursor.before documents.ids key cursor)
        (listing documents.ids documents.documents tenant) after = back at last listed ⊢
    -- A page without a cursor is short, so it holds everything left.
    have short : back.length < min (max limit 1) maxListLimit := by
      by_contra long
      have full : (back.take (min (max limit 1) maxListLimit)).length =
          min (max limit 1) maxListLimit := by
        rw [List.length_take]
        omega
      have bound : min (max limit 1) maxListLimit < 2 ^ 32 := by
        simp only [maxListLimit]
        omega
      simp only [documentPage, full, Nat.mod_eq_of_lt bound, if_true, Option.map_eq_none_iff,
        List.getLast?_eq_none_iff] at last
      rw [last] at full
      simp only [List.length_nil] at full
      omega
    show document ∈ back.take _
    rwa [List.take_of_length_le short.le]

end Listing

def sampleDocument (tenant documentId : String) (updatedAt : Timestamp) : DocumentState where
  tenantId := tenant
  documentId := documentId
  ownerUserId := "user-1"
  version := 1
  streamSeq := 1
  state := .active
  indexState := .pending
  indexVersion := none
  currentBlob := none
  filename := none
  contentType := none
  byteSize := none
  checksum := none
  title := none
  tags := []
  description := none
  metadata := .object []
  createdAt := 0
  updatedAt := updatedAt

/-- Two documents updated in one microsecond, an older one, and one of another tenant; pages
of two. -/
theorem listing_enumerates_tied :
    let documents := [sampleDocument "acme" "doc-1" 5, sampleDocument "other" "doc-1" 7,
      sampleDocument "acme" "doc-2" 5, sampleDocument "acme" "doc-0" 3]
    ∃ pages, followCursors (.memory documents) "acme" 2 5 = some pages ∧
      (∀ page ∈ pages, page.items.length ≤ 2) ∧
      (pages.flatMap DocumentPage.items).Perm
        [sampleDocument "acme" "doc-1" 5, sampleDocument "acme" "doc-2" 5,
          sampleDocument "acme" "doc-0" 3] := by
  intro documents
  obtain ⟨⟨pages, walks, small, all, -⟩, -⟩ :=
    @listing_enumerates (.memory documents)
      (show (documents.map fun document => (document.tenantId, document.documentId)).Nodup by
        decide)
      (show ∀ document ∈ documents, document.documentId ≠ "" by
        simp [documents, sampleDocument])
      (show ∀ document ∈ documents, Representable document.updatedAt by
        simp [documents, sampleDocument, Representable])
      "acme" 2
  refine ⟨pages, walks 5 (show 4 < 5 by decide), small, all.trans ?_⟩
  simp [ReadModel.documents, documents, sampleDocument]

end Delphi.Document
