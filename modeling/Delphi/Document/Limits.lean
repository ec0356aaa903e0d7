/-
# Delphi.Document.Limits -- what is validated and what is stored

`validate_metadata_patch` measures a title and the tags after `str::trim`; the
request, the command, the event and the fold carry the text as it came.  What is
stored is therefore within the limits exactly when the white space around the
text is too: it fits in what the text leaves of its limit, and around a tag none
of it is a control character, as a tab or a newline is (`PaddingFits`).

Within the limits one constant bounds the encoded patch, far below what one
message may hold (`encodedLen_le`).  Without the condition nothing does: a title
may come in any amount of white space (`padding_is_stored`).
-/
import Mathlib.Data.String.Basic
import Delphi.Document.Serde

namespace Delphi.Document

set_option autoImplicit false

/-! ## Padding -/

/-- The white space `str::trim` strips. -/
def padding (text : String) : List Char :=
  text.toList.takeWhile isWhitespace ++ (text.toList.dropWhile isWhitespace).rtakeWhile isWhitespace

theorem rdropWhile_append_rtakeWhile (p : Char → Bool) (chars : List Char) :
    chars.rdropWhile p ++ chars.rtakeWhile p = chars := by
  unfold List.rdropWhile List.rtakeWhile
  rw [← List.reverse_append, List.takeWhile_append_dropWhile, List.reverse_reverse]

theorem toList_eq_trim (text : String) :
    text.toList = text.toList.takeWhile isWhitespace ++ ((trim text).toList ++
      (text.toList.dropWhile isWhitespace).rtakeWhile isWhitespace) := by
  unfold trim
  rw [String.toList_ofList, rdropWhile_append_rtakeWhile, List.takeWhile_append_dropWhile]

theorem charCount_eq_trim (text : String) :
    charCount text = charCount (trim text) + (padding text).length := by
  have parts := congrArg List.length (toList_eq_trim text)
  simp only [List.length_append] at parts
  simp only [charCount, padding, List.length_append]
  omega

theorem mem_iff_trim {text : String} {c : Char} :
    c ∈ text.toList ↔ c ∈ (trim text).toList ∨ c ∈ padding text := by
  constructor
  · intro mem
    rw [toList_eq_trim text] at mem
    simp only [List.mem_append] at mem
    rcases mem with front | middle | back
    · exact .inr (List.mem_append_left _ front)
    · exact .inl middle
    · exact .inr (List.mem_append_right _ back)
  · intro mem
    rw [toList_eq_trim text]
    simp only [List.mem_append]
    rcases mem with middle | around
    · exact .inr (.inl middle)
    · rcases List.mem_append.mp around with front | back
      · exact .inl front
      · exact .inr (.inr back)

/-! ## What validation accepts -/

/-- A patch validation accepts, read off its checks. -/
structure AcceptedPatch (patch : MetadataPatch) : Prop where
  title : ∀ title ∈ patch.title,
    1 ≤ charCount (trim title) ∧ charCount (trim title) ≤ maxTitleChars
  tagCount : ∀ tags ∈ patch.tags, tags.length ≤ maxTags
  tag : ∀ tags ∈ patch.tags, ∀ tag ∈ tags,
    1 ≤ charCount (trim tag) ∧ charCount (trim tag) ≤ maxTagChars ∧
      ∀ c ∈ (trim tag).toList, isControl c = false
  description : ∀ description ∈ patch.description, charCount description ≤ maxDescriptionChars
  metadata : ∀ metadata ∈ patch.metadata,
    metadata.isObject = true ∧ metadata.serializedLen ≤ maxMetadataBytes

theorem lengthWithin_iff {text : String} {most : Nat} :
    lengthWithin text most = true ↔ 1 ≤ charCount (trim text) ∧ charCount (trim text) ≤ most := by
  simp only [lengthWithin, Bool.and_eq_true, decide_eq_true_eq, ne_eq]
  omega

theorem validateTitle_ok {title : String} (valid : validateTitle title = .ok ()) :
    1 ≤ charCount (trim title) ∧ charCount (trim title) ≤ maxTitleChars := by
  unfold validateTitle at valid
  split at valid
  · rename_i within
    exact lengthWithin_iff.mp within
  · cases valid

theorem validateTag_ok {tag : String} (valid : validateTag tag = .ok ()) :
    1 ≤ charCount (trim tag) ∧ charCount (trim tag) ≤ maxTagChars ∧
      ∀ c ∈ (trim tag).toList, isControl c = false := by
  unfold validateTag at valid
  split at valid
  · cases valid
  · rename_i within
    split at valid
    · cases valid
    · rename_i plain
      obtain ⟨least, most⟩ := lengthWithin_iff.mp (by simpa using within)
      refine ⟨least, most, ?_⟩
      simpa using plain

theorem validateTags_ok {tags : List String} (valid : validateTags tags = .ok ()) :
    tags.length ≤ maxTags ∧ ∀ tag ∈ tags, validateTag tag = .ok () := by
  unfold validateTags at valid
  split at valid
  · cases valid
  · exact ⟨by omega, forM_ok valid⟩

theorem validateDescription_ok {description : String}
    (valid : validateDescription description = .ok ()) :
    charCount description ≤ maxDescriptionChars := by
  unfold validateDescription at valid
  split at valid
  · cases valid
  · omega

theorem validateMetadata_ok {metadata : Json} (valid : validateMetadata metadata = .ok ()) :
    metadata.isObject = true ∧ metadata.serializedLen ≤ maxMetadataBytes := by
  unfold validateMetadata at valid
  split at valid
  · cases valid
  · rename_i object
    split at valid
    · cases valid
    · exact ⟨by simpa using object, by omega⟩

theorem accepted_of_valid {patch : MetadataPatch} (valid : validateMetadataPatch patch = .ok ()) :
    AcceptedPatch patch := by
  obtain ⟨title, rest⟩ := ok_of_seq valid
  obtain ⟨tags, rest⟩ := ok_of_seq rest
  obtain ⟨description, metadata⟩ := ok_of_seq rest
  have checked : ∀ {α : Type} {check : α → Except ValidationError Unit} {field : Option α} {value},
      field.forM check = .ok () → value ∈ field → check value = .ok () := by
    intro α check field value all mem
    rw [Option.mem_def.mp mem] at all
    exact all
  constructor
  · intro text mem
    exact validateTitle_ok (checked title mem)
  · intro list mem
    exact (validateTags_ok (checked tags mem)).1
  · intro list mem tag within
    exact validateTag_ok ((validateTags_ok (checked tags mem)).2 tag within)
  · intro text mem
    exact validateDescription_ok (checked description mem)
  · intro value mem
    exact validateMetadata_ok (checked metadata mem)

/-! ## What is stored -/

/-- The limits, of the state a document is stored with. -/
structure WithinLimits (state : DocumentState) : Prop where
  title : ∀ title ∈ state.title, 1 ≤ charCount title ∧ charCount title ≤ 512
  tagCount : state.tags.length ≤ 64
  tag : ∀ tag ∈ state.tags, 1 ≤ charCount tag ∧ charCount tag ≤ 64 ∧
    ∀ c ∈ tag.toList, isControl c = false
  description : ∀ description ∈ state.description, charCount description ≤ 8192
  metadata : state.metadata.isObject = true ∧ state.metadata.serializedLen ≤ 32 * 1024

/-- The white space around the title and the tags stays within their limits. -/
structure PaddingFits (patch : MetadataPatch) : Prop where
  title : ∀ title ∈ patch.title,
    (padding title).length ≤ maxTitleChars - charCount (trim title)
  tag : ∀ tags ∈ patch.tags, ∀ tag ∈ tags,
    (padding tag).length ≤ maxTagChars - charCount (trim tag) ∧
      ∀ c ∈ padding tag, isControl c = false

/-- A create stores its patch as it came. -/
theorem apply_create_patch {prior : Option DocumentState} {event : DocumentEvent}
    {created : DocumentCreated} {seq : Nat} {state : DocumentState}
    (payload : event.payload = .documentCreated created)
    (folded : apply prior event seq = .ok state) :
    state.title = created.patch.title ∧ state.tags = created.patch.tags.getD [] ∧
      state.description = created.patch.description ∧
      state.metadata = created.patch.metadata.getD (.object []) := by
  unfold apply at folded
  simp only [payload] at folded
  split at folded
  · cases folded
  · cases actor : event.actor with
    | user userId =>
        simp only [actor] at folded
        cases folded
        simp [mergePatch, seed]
    | system name =>
        simp only [actor] at folded
        cases folded

theorem withinLimits_iff {patch : MetadataPatch} {state : DocumentState}
    (accepted : AcceptedPatch patch) (title : state.title = patch.title)
    (tags : state.tags = patch.tags.getD []) (description : state.description = patch.description)
    (metadata : state.metadata = patch.metadata.getD (.object [])) :
    WithinLimits state ↔ PaddingFits patch := by
  constructor
  · intro limits
    constructor
    · intro text mem
      have stored := (limits.title text (by rwa [title])).2
      have whole := charCount_eq_trim text
      have limit : maxTitleChars = 512 := rfl
      omega
    · intro list mem tag within
      have stored : tag ∈ state.tags := by rwa [tags, Option.mem_def.mp mem]
      obtain ⟨-, most, plain⟩ := limits.tag tag stored
      have whole := charCount_eq_trim tag
      have limit : maxTagChars = 64 := rfl
      refine ⟨by omega, ?_⟩
      intro c around
      exact plain c (mem_iff_trim.mpr (.inr around))
  · intro fits
    constructor
    · intro text mem
      rw [title] at mem
      have trimmed := accepted.title text mem
      have around := fits.title text mem
      have whole := charCount_eq_trim text
      have limit : maxTitleChars = 512 := rfl
      omega
    · rw [tags]
      cases present : patch.tags with
      | none => exact Nat.zero_le _
      | some list => exact accepted.tagCount list present
    · intro tag mem
      rw [tags] at mem
      cases present : patch.tags with
      | none =>
          rw [present] at mem
          cases mem
      | some list =>
          rw [present] at mem
          obtain ⟨least, most, plain⟩ := accepted.tag list present tag mem
          obtain ⟨around, quiet⟩ := fits.tag list present tag mem
          have whole := charCount_eq_trim tag
          have limit : maxTagChars = 64 := rfl
          refine ⟨by omega, by omega, ?_⟩
          intro c within
          rcases mem_iff_trim.mp within with middle | outside
          · exact plain c middle
          · exact quiet c outside
    · intro text mem
      rw [description] at mem
      exact accepted.description text mem
    · rw [metadata]
      cases present : patch.metadata with
      | none => exact ⟨rfl, by decide +kernel⟩
      | some value => exact accepted.metadata value present

/-! ## The encoded patch -/

/-- `max_payload` of the message bus. -/
def natsMaxPayloadBytes : Nat := 8 * 1024 * 1024

/-- `serde_json::to_vec(patch).len()` -/
def MetadataPatch.encodedLen (patch : MetadataPatch) : Nat := patch.toValue.serializedLen

open String (utf8Len)

namespace Json

theorem utf8Len_escape_le (c : Char) : utf8Len (escape c) ≤ 6 := by
  have hex : ∀ n < 0x20, utf8Len ['\\', 'u', '0', '0', Nat.digitChar (n / 16),
      Nat.digitChar (n % 16)] ≤ 6 := by decide +kernel
  unfold escape
  split
  · decide
  split
  · decide
  split
  · decide
  split
  · decide
  split
  · decide
  split
  · decide
  split
  · decide
  split
  · rename_i control
    exact hex c.toNat control
  · have wide := c.utf8Size_le_four
    simp only [String.utf8Len_cons, String.utf8Len_nil]
    omega

theorem utf8Len_flatMap_escape_le (chars : List Char) :
    utf8Len (chars.flatMap escape) ≤ 6 * chars.length := by
  induction chars with
  | nil => simp
  | cons c rest ih =>
      have here := utf8Len_escape_le c
      simp only [List.flatMap_cons, String.utf8Len_append, List.length_cons]
      omega

/-- A character takes at most six bytes: an escape of a control character. -/
theorem utf8Len_quote_le (text : String) : utf8Len (quote text) ≤ 6 * charCount text + 2 := by
  have inside := utf8Len_flatMap_escape_le text.toList
  have mark : '"'.utf8Size = 1 := by decide
  simp only [quote, String.utf8Len_append, String.utf8Len_cons, String.utf8Len_nil, List.cons_append,
    mark, charCount]
  omega

theorem utf8Len_printItems_le (items : List Json) :
    utf8Len (printItems items) ≤ (items.map fun item => utf8Len item.print + 1).sum := by
  induction items with
  | nil => simp [printItems]
  | cons item rest ih =>
      cases rest with
      | nil => simp [printItems]
      | cons next rest =>
          have comma : ','.utf8Size = 1 := by decide
          simp only [printItems, String.utf8Len_append, String.utf8Len_cons, comma] at ih ⊢
          rw [List.map_cons, List.sum_cons]
          omega

/-- What one member adds to an object. -/
def memberLen (member : String × Json) : Nat :=
  utf8Len (quote member.1) + utf8Len member.2.print + 2

theorem utf8Len_printMembers_le (members : List (String × Json)) :
    utf8Len (printMembers members) ≤ (members.map memberLen).sum := by
  have colon : ':'.utf8Size = 1 := by decide
  have comma : ','.utf8Size = 1 := by decide
  induction members with
  | nil => simp [printMembers]
  | cons member rest ih =>
      obtain ⟨key, value⟩ := member
      cases rest with
      | nil =>
          simp only [printMembers, String.utf8Len_append, String.utf8Len_cons, colon,
            List.map_cons, List.map_nil, List.sum_cons, List.sum_nil, memberLen]
          omega
      | cons next rest =>
          simp only [printMembers, String.utf8Len_append, String.utf8Len_cons, colon, comma] at ih ⊢
          rw [List.map_cons, List.sum_cons]
          simp only [memberLen] at ih ⊢
          omega

theorem sum_unlessNone_le {α : Type} {name : String} {toValue : α → Json} {field : Option α}
    {most : Nat} (each : ∀ value ∈ field, memberLen (name, toValue value) ≤ most) :
    ((unlessNone name toValue field).map memberLen).sum ≤ most := by
  cases field with
  | none => exact Nat.zero_le _
  | some value => simpa [unlessNone] using each value rfl

theorem memberLen_string_le {name value : String} {most : Nat} (short : charCount value ≤ most) :
    memberLen (name, .string value) ≤ 6 * charCount name + 6 * most + 6 := by
  have key := utf8Len_quote_le name
  have text := utf8Len_quote_le value
  simp only [memberLen, print]
  omega

theorem memberLen_strings_le {name : String} {values : List String} {count most : Nat}
    (few : values.length ≤ count) (short : ∀ value ∈ values, charCount value ≤ most) :
    memberLen (name, .array (values.map .string)) ≤
      6 * charCount name + count * (6 * most + 3) + 6 := by
  have key := utf8Len_quote_le name
  have marks : '['.utf8Size = 1 ∧ ']'.utf8Size = 1 := by decide
  have inside := utf8Len_printItems_le (values.map .string)
  have items : ((values.map Json.string).map fun item => utf8Len item.print + 1).sum ≤
      values.length * (6 * most + 3) := by
    have sized := List.sum_le_card_nsmul
      ((values.map Json.string).map fun item => utf8Len item.print + 1) (6 * most + 3) (by
        intro bytes mem
        simp only [List.map_map, List.mem_map, Function.comp_apply] at mem
        obtain ⟨value, within, rfl⟩ := mem
        have text := utf8Len_quote_le value
        have length := short value within
        simp only [print]
        omega)
    simpa only [List.length_map, smul_eq_mul] using sized
  have all : values.length * (6 * most + 3) ≤ count * (6 * most + 3) :=
    Nat.mul_le_mul_right _ few
  simp only [memberLen, print, String.utf8Len_append, String.utf8Len_cons, String.utf8Len_nil,
    List.cons_append, marks.1, marks.2]
  omega

theorem utf8Len_print (value : Json) : utf8Len value.print = value.serializedLen :=
  (String.utf8ByteSize_ofList _).symm

end Json

open Json in
/-- Within the limits, the encoded patch is bounded. -/
theorem encodedLen_le {patch : MetadataPatch} (accepted : AcceptedPatch patch)
    (fits : PaddingFits patch) : patch.encodedLen ≤ 128 * 1024 := by
  have title : ((unlessNone "title" .string patch.title).map memberLen).sum ≤ 3108 := by
    apply sum_unlessNone_le
    intro text mem
    have trimmed := accepted.title text mem
    have around := fits.title text mem
    have whole := charCount_eq_trim text
    have short : charCount text ≤ maxTitleChars := by omega
    exact memberLen_string_le short
  have tags : ((unlessNone "tags" (fun tags : List String => .array (tags.map .string))
      patch.tags).map memberLen).sum ≤ 24798 := by
    apply sum_unlessNone_le
    intro list mem
    have short : ∀ tag ∈ list, charCount tag ≤ maxTagChars := by
      intro tag within
      have trimmed := accepted.tag list mem tag within
      have around := fits.tag list mem tag within
      have whole := charCount_eq_trim tag
      omega
    exact memberLen_strings_le (accepted.tagCount list mem) short
  have description : ((unlessNone "description" .string patch.description).map memberLen).sum ≤
      49224 := by
    apply sum_unlessNone_le
    intro text mem
    exact memberLen_string_le (accepted.description text mem)
  have metadata : ((unlessNone "metadata" id patch.metadata).map memberLen).sum ≤ 32820 := by
    apply sum_unlessNone_le
    intro value mem
    have key := utf8Len_quote_le "metadata"
    have size := (accepted.metadata value mem).2
    have name : charCount "metadata" = 8 := by decide
    have limit : maxMetadataBytes = 32768 := rfl
    simp only [memberLen, id, utf8Len_print]
    omega
  have marks : '\x7b'.utf8Size = 1 ∧ '\x7d'.utf8Size = 1 := by decide
  have members := utf8Len_printMembers_le patch.members
  simp only [MetadataPatch.members, List.map_append, List.sum_append] at members
  unfold MetadataPatch.encodedLen MetadataPatch.toValue
  rw [← utf8Len_print]
  simp only [print, String.utf8Len_append, String.utf8Len_cons, String.utf8Len_nil,
    List.cons_append, marks.1, marks.2, MetadataPatch.members]
  omega

/-- What the encoded patch of a request is to stay within. -/
def encodedPatchBound : Nat := 128 * 1024

/-- A created document is stored within its limits, and its patch within a bound below what
a message may hold, exactly when the white space around its texts is. -/
theorem stored_within_limits_iff {prior : Option DocumentState} {event : DocumentEvent}
    {created : DocumentCreated} {seq : Nat} {state : DocumentState}
    (payload : event.payload = .documentCreated created)
    (valid : validateMetadataPatch created.patch = .ok ())
    (folded : apply prior event seq = .ok state) :
    encodedPatchBound < natsMaxPayloadBytes ∧
    (WithinLimits state ∧ created.patch.encodedLen ≤ encodedPatchBound ↔
      PaddingFits created.patch) := by
  have accepted := accepted_of_valid valid
  obtain ⟨title, tags, description, metadata⟩ := apply_create_patch payload folded
  have limits := withinLimits_iff accepted title tags description metadata
  refine ⟨by decide, ?_⟩
  constructor
  · intro stored
    exact limits.mp stored.1
  · intro fits
    exact ⟨limits.mpr fits, encodedLen_le accepted fits⟩

/-! ## Patches with padding -/

namespace Limits

/-- A one-letter title after so many blanks. -/
def padded (blanks : Nat) : MetadataPatch :=
  ⟨some (String.ofList (List.replicate blanks ' ' ++ ['a'])), none, none, none⟩

def tabbed : MetadataPatch := ⟨none, some ["\tx"], none, none⟩

def create (patch : MetadataPatch) : DocumentEvent where
  v := 1
  eventId := "event-1"
  documentId := "doc-1"
  tenantId := "acme"
  version := 1
  actor := .user "user-1"
  ts := 0
  payload := .documentCreated
    { blobRef := "acme/u1", filename := "a.txt", contentType := "text/plain", byteSize := 3,
      checksum := "00", patch := patch }

/-- What folding the create leaves. -/
def stored (patch : MetadataPatch) : DocumentState :=
  mergePatch (seed (create patch)
    { blobRef := "acme/u1", filename := "a.txt", contentType := "text/plain", byteSize := 3,
      checksum := "00", patch := patch } "user-1" 0 1) patch

theorem apply_create (patch : MetadataPatch) :
    apply none (create patch) 1 = .ok (stored patch) := rfl

theorem trim_padded (blanks : Nat) :
    trim (String.ofList (List.replicate blanks ' ' ++ ['a'])) = "a" := by
  have blank : ∀ c ∈ List.replicate blanks ' ', isWhitespace c = true := by
    intro c mem
    rw [List.eq_of_mem_replicate mem]
    decide
  unfold trim
  rw [String.toList_ofList, List.dropWhile_append_of_pos blank]
  decide

theorem valid_padded (blanks : Nat) : validateMetadataPatch (padded blanks) = .ok () := by
  have title : validateTitle (String.ofList (List.replicate blanks ' ' ++ ['a'])) = .ok () := by
    unfold validateTitle lengthWithin
    rw [trim_padded]
    decide
  unfold validateMetadataPatch padded
  simp only [Option.forM, title]
  rfl

theorem utf8Len_blanks (blanks : Nat) :
    utf8Len ((List.replicate blanks ' ').flatMap Json.escape) = blanks := by
  induction blanks with
  | zero => rfl
  | succ n ih =>
      rw [List.replicate_succ, List.flatMap_cons, String.utf8Len_append, ih]
      exact Nat.add_comm _ _

theorem lt_encodedLen_padded (blanks : Nat) : blanks < (padded blanks).encodedLen := by
  have letter : 'a'.utf8Size = 1 := by decide
  have blank := utf8Len_blanks blanks
  unfold MetadataPatch.encodedLen
  rw [← Json.utf8Len_print]
  simp only [MetadataPatch.toValue, MetadataPatch.members, padded, Json.unlessNone, Json.print,
    Json.printMembers, List.append_nil, Json.quote, String.toList_ofList, List.flatMap_append,
    String.utf8Len_append, String.utf8Len_cons, List.cons_append, blank]
  have rest : 0 < '\x7b'.utf8Size := by decide
  omega

theorem valid_tabbed : validateMetadataPatch tabbed = .ok () := by
  decide +kernel

end Limits

/-- An ordinary title: nothing around it, and stored within its limits. -/
theorem stored_within_limits_plain :
    WithinLimits (Limits.stored (Limits.padded 0)) ∧
      (Limits.padded 0).encodedLen ≤ encodedPatchBound := by
  have created : (Limits.create (Limits.padded 0)).payload = .documentCreated _ := rfl
  obtain ⟨-, exact⟩ := stored_within_limits_iff created (Limits.valid_padded 0)
    (Limits.apply_create _)
  refine exact.mpr ⟨?_, ?_⟩
  · rintro title ⟨⟩
    decide +kernel
  · rintro tags ⟨⟩

/-- Accepted, and stored beyond the limits: a title of 513 characters, 512 of them
blanks, and a tag with a tab.  No constant bounds what is accepted. -/
theorem padding_is_stored :
    (validateMetadataPatch (Limits.padded 512) = .ok () ∧
      apply none (Limits.create (Limits.padded 512)) 1 = .ok (Limits.stored (Limits.padded 512)) ∧
      ¬ WithinLimits (Limits.stored (Limits.padded 512))) ∧
    (validateMetadataPatch Limits.tabbed = .ok () ∧
      apply none (Limits.create Limits.tabbed) 1 = .ok (Limits.stored Limits.tabbed) ∧
      ¬ WithinLimits (Limits.stored Limits.tabbed)) ∧
    ∀ bound, ∃ patch, validateMetadataPatch patch = .ok () ∧ bound < patch.encodedLen := by
  refine ⟨⟨Limits.valid_padded 512, Limits.apply_create _, ?_⟩,
    ⟨Limits.valid_tabbed, Limits.apply_create _, ?_⟩,
    fun bound => ⟨_, Limits.valid_padded bound, Limits.lt_encodedLen_padded bound⟩⟩
  · intro limits
    obtain ⟨-, most⟩ := limits.title _ rfl
    rw [charCount, String.toList_ofList, List.length_append, List.length_replicate] at most
    exact absurd most (by decide)
  · intro limits
    obtain ⟨-, -, plain⟩ := limits.tag "\tx" (List.mem_singleton_self _)
    exact absurd (plain '\t' (by decide)) (by decide)

end Delphi.Document
