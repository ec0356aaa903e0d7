/-
# Delphi.Document.Validation -- the one check of a metadata patch

`validate_metadata_patch` of `document-domain/src/validation.rs`.  Characters are
counted after `str::trim`, which strips Unicode white space; tags must have no
control character between their white space; the metadata is measured in the
bytes `serde_json` prints it in.

A NUL is a control character and no white space, so trimming neither adds nor
removes one (`textStorable_trim`), and of all the fields only the tags are
checked for it (`tags_storable`).
-/
import Mathlib.Data.List.DropRight
import Delphi.Document.Table

namespace Delphi.Document

set_option autoImplicit false

/-! ## Text -/

/-- `char::is_whitespace`: the Unicode property `White_Space`. -/
def isWhitespace (c : Char) : Bool :=
  let n := c.toNat
  (0x9 ≤ n && n ≤ 0xD) || n == 0x20 || n == 0x85 || n == 0xA0 || n == 0x1680 ||
  (0x2000 ≤ n && n ≤ 0x200A) || n == 0x2028 || n == 0x2029 || n == 0x202F || n == 0x205F ||
  n == 0x3000

/-- `char::is_control`: the general category `Cc`. -/
def isControl (c : Char) : Bool :=
  let n := c.toNat
  n ≤ 0x1F || (0x7F ≤ n && n ≤ 0x9F)

/-- `str::trim` -/
def trim (text : String) : String :=
  String.ofList ((text.toList.dropWhile isWhitespace).rdropWhile isWhitespace)

def charCount (text : String) : Nat := text.toList.length

/-- Stripping white space keeps every other character. -/
theorem mem_trim {text : String} {c : Char} (solid : isWhitespace c = false) :
    c ∈ (trim text).toList ↔ c ∈ text.toList := by
  have stripped : ∀ chars : List Char, c ∈ chars.dropWhile isWhitespace ↔ c ∈ chars := by
    intro chars
    constructor
    · exact fun mem => (List.dropWhile_suffix _).mem mem
    · intro mem
      rw [← List.takeWhile_append_dropWhile (p := isWhitespace) (l := chars)] at mem
      rcases List.mem_append.mp mem with front | rest
      · have := List.mem_takeWhile_imp front
        rw [solid] at this
        cases this
      · exact rest
  rw [trim, String.toList_ofList, List.rdropWhile, List.mem_reverse, stripped, List.mem_reverse,
    stripped]

theorem textStorable_iff {text : String} : textStorable text = true ↔ '\x00' ∉ text.toList := by
  simp [textStorable]

theorem textStorable_trim (text : String) : textStorable (trim text) = textStorable text := by
  rw [Bool.eq_iff_iff, textStorable_iff, textStorable_iff, mem_trim (by decide)]

/-! ## Printing -/

namespace Json

/-- A character inside a JSON string, as `serde_json` prints it. -/
def escape (c : Char) : List Char :=
  if c = '"' then ['\\', '"']
  else if c = '\\' then ['\\', '\\']
  else if c.toNat = 0x8 then ['\\', 'b']
  else if c.toNat = 0x9 then ['\\', 't']
  else if c.toNat = 0xA then ['\\', 'n']
  else if c.toNat = 0xC then ['\\', 'f']
  else if c.toNat = 0xD then ['\\', 'r']
  else if c.toNat < 0x20 then
    ['\\', 'u', '0', '0', Nat.digitChar (c.toNat / 16), Nat.digitChar (c.toNat % 16)]
  else [c]

def quote (text : String) : List Char := '"' :: text.toList.flatMap escape ++ ['"']

/-! The compact text of a document. -/
mutual

def print : Json → List Char
  | .null => "null".toList
  | .bool true => "true".toList
  | .bool false => "false".toList
  | .number literal => literal.toList
  | .string value => quote value
  | .array items => '[' :: printItems items ++ [']']
  | .object members => '\x7b' :: printMembers members ++ ['\x7d']

def printItems : List Json → List Char
  | [] => []
  | [item] => item.print
  | item :: next :: rest => item.print ++ ',' :: printItems (next :: rest)

def printMembers : List (String × Json) → List Char
  | [] => []
  | [(key, value)] => quote key ++ ':' :: value.print
  | (key, value) :: next :: rest => quote key ++ ':' :: value.print ++ ',' :: printMembers (next :: rest)

end

/-- `serde_json::to_vec(value).len()` -/
def serializedLen (value : Json) : Nat := (String.ofList value.print).utf8ByteSize

def isObject : Json → Bool
  | .object _ => true
  | _ => false

end Json

/-! ## The patch -/

def maxTitleChars : Nat := 512
def maxTags : Nat := 64
def maxTagChars : Nat := 64
def maxDescriptionChars : Nat := 8192
def maxMetadataBytes : Nat := 32 * 1024

inductive ValidationError where
  | title
  | tagCount
  | tag
  | description
  | metadataShape
  | metadataSize
deriving DecidableEq

namespace ValidationError

def display : ValidationError → String
  | .title => "title must be between 1 and 512 characters"
  | .tagCount => "at most 64 tags are allowed"
  | .tag => "each tag must be between 1 and 64 characters with no control characters"
  | .description => "description must be at most 8192 characters"
  | .metadataShape => "metadata must be a JSON object"
  | .metadataSize => "metadata must serialize to at most 32768 bytes"

end ValidationError

/-- Between one and so many characters, white space apart. -/
def lengthWithin (text : String) (most : Nat) : Bool :=
  charCount (trim text) ≠ 0 && charCount (trim text) ≤ most

def validateTitle (title : String) : Except ValidationError Unit :=
  if lengthWithin title maxTitleChars then .ok () else .error .title

def validateTag (tag : String) : Except ValidationError Unit :=
  if !lengthWithin tag maxTagChars then .error .tag
  else if (trim tag).toList.any isControl then .error .tag
  else .ok ()

def validateTags (tags : List String) : Except ValidationError Unit :=
  if tags.length > maxTags then .error .tagCount else tags.forM validateTag

def validateDescription (description : String) : Except ValidationError Unit :=
  if charCount description > maxDescriptionChars then .error .description else .ok ()

-- Printing a JSON tree cannot fail, so the size is always known.
def validateMetadata (metadata : Json) : Except ValidationError Unit :=
  if !metadata.isObject then .error .metadataShape
  else if metadata.serializedLen > maxMetadataBytes then .error .metadataSize
  else .ok ()

/-- The one validation entry point for every write path. -/
def validateMetadataPatch (patch : MetadataPatch) : Except ValidationError Unit := do
  patch.title.forM validateTitle
  patch.tags.forM validateTags
  patch.description.forM validateDescription
  patch.metadata.forM validateMetadata

/-- Of checks made in a row, all passed. -/
theorem ok_of_seq {first second : Except ValidationError Unit}
    (valid : (do first; second) = .ok ()) : first = .ok () ∧ second = .ok () := by
  cases first with
  | error error => cases valid
  | ok _ => exact ⟨rfl, valid⟩

theorem tag_storable {tag : String} (valid : validateTag tag = .ok ()) :
    textStorable tag = true := by
  unfold validateTag at valid
  split at valid
  · cases valid
  · split at valid
    · cases valid
    · rename_i plain
      rw [← textStorable_trim, textStorable_iff]
      intro mem
      exact plain (List.any_eq_true.mpr ⟨'\x00', mem, by decide⟩)

theorem forM_ok {check : String → Except ValidationError Unit} {texts : List String}
    (valid : texts.forM check = .ok ()) : ∀ text ∈ texts, check text = .ok () := by
  induction texts with
  | nil => simp
  | cons first rest ih =>
      obtain ⟨here, later⟩ := ok_of_seq valid
      intro text mem
      rcases List.mem_cons.mp mem with rfl | mem
      · exact here
      · exact ih later text mem

theorem tags_storable {tags : List String} (valid : validateTags tags = .ok ()) :
    ∀ tag ∈ tags, textStorable tag = true := by
  unfold validateTags at valid
  split at valid
  · cases valid
  · exact fun tag mem => tag_storable (forM_ok valid tag mem)

/-- An accepted patch has tags every column takes; nothing else of it is checked
for a NUL. -/
theorem validateMetadataPatch_tags {patch : MetadataPatch}
    (valid : validateMetadataPatch patch = .ok ()) :
    ∀ tags ∈ patch.tags, ∀ tag ∈ tags, textStorable tag = true := by
  intro tags present
  obtain ⟨-, rest⟩ := ok_of_seq valid
  obtain ⟨checked, -⟩ := ok_of_seq rest
  rw [Option.mem_def.mp present] at checked
  exact tags_storable checked

end Delphi.Document
