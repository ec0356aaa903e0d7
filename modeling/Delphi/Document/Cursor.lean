/-
# Delphi.Document.Cursor -- the listing's resumption token

`cursor.rs`: a cursor is the key of the last document of a page, spelled
`hex(<micros>:<document_id>)`.  Reading it back takes the crates apart that the
source calls: `hex::decode`, `String::from_utf8`, `split_once`, `str::parse` for
an `i64`, and `DateTime::from_timestamp_micros` with its range of years.
-/
import Mathlib.Algebra.Group.Int.Defs
import Delphi.Document.Events

namespace Delphi.Document

set_option autoImplicit false

/-! ## Hexadecimal -/

/-- `hex::encode` -/
def hexEncode (bytes : List UInt8) : String :=
  String.ofList (bytes.flatMap fun byte =>
    [Nat.digitChar (byte.toNat / 16), Nat.digitChar (byte.toNat % 16)])

def hexValue (c : Char) : Option Nat :=
  if '0' ≤ c ∧ c ≤ '9' then some (c.toNat - '0'.toNat)
  else if 'a' ≤ c ∧ c ≤ 'f' then some (c.toNat - 'a'.toNat + 10)
  else if 'A' ≤ c ∧ c ≤ 'F' then some (c.toNat - 'A'.toNat + 10)
  else none

/-- `hex::decode`: pairs of digits of either case. -/
def hexDecode : List Char → Option (List UInt8)
  | [] => some []
  | [_] => none
  | high :: low :: rest => do
      let high ← hexValue high
      let low ← hexValue low
      let bytes ← hexDecode rest
      return UInt8.ofNat (16 * high + low) :: bytes

theorem hexValue_digitChar {n : Nat} (small : n < 16) : hexValue (Nat.digitChar n) = some n := by
  revert small
  have all : ∀ n : Fin 16, hexValue (Nat.digitChar n) = some n.val := by decide
  exact fun small => all ⟨n, small⟩

theorem hexDecode_hexEncode (bytes : List UInt8) :
    hexDecode (hexEncode bytes).toList = some bytes := by
  rw [hexEncode, String.toList_ofList]
  induction bytes with
  | nil => rfl
  | cons byte rest ih =>
      have bound := byte.toNat_lt
      have high : hexValue (Nat.digitChar (byte.toNat / 16)) = some (byte.toNat / 16) :=
        hexValue_digitChar (by omega)
      have low : hexValue (Nat.digitChar (byte.toNat % 16)) = some (byte.toNat % 16) :=
        hexValue_digitChar (by omega)
      have whole : UInt8.ofNat (16 * (byte.toNat / 16) + byte.toNat % 16) = byte := by
        rw [Nat.div_add_mod]
        exact UInt8.ofNat_toNat
      simp only [List.flatMap_cons, List.cons_append, List.nil_append, hexDecode, high, low, ih,
        Option.bind_eq_bind, Option.bind_some, whole]
      rfl

/-! ## Text -/

/-- `str::split_once` -/
def splitOnce (separator : Char) : List Char → Option (List Char × List Char)
  | [] => none
  | c :: rest =>
      if c = separator then some ([], rest)
      else (splitOnce separator rest).map fun parts => (c :: parts.1, parts.2)

theorem splitOnce_append {separator : Char} {front : List Char} (back : List Char)
    (absent : separator ∉ front) :
    splitOnce separator (front ++ separator :: back) = some (front, back) := by
  induction front with
  | nil => simp [splitOnce]
  | cons c rest ih =>
      rw [List.mem_cons, not_or] at absent
      simp [splitOnce, ih absent.2, Ne.symm absent.1]

def parseDigits (digits : List Char) : Option Nat :=
  if digits ≠ [] ∧ digits.all Char.isDigit = true then some (Nat.ofDigitChars 10 digits 0) else none

def inI64 (value : Int) : Option Int :=
  if -2 ^ 63 ≤ value ∧ value < 2 ^ 63 then some value else none

/-- `str::parse::<i64>`: a sign is optional. -/
def parseI64 : List Char → Option Int
  | '-' :: digits => (parseDigits digits).bind fun n => inI64 (-n)
  | '+' :: digits => (parseDigits digits).bind fun n => inI64 n
  | digits => (parseDigits digits).bind fun n => inI64 n

theorem parseDigits_repr (n : Nat) : parseDigits n.repr.toList = some n := by
  have digits : ∀ c ∈ Nat.toDigits 10 n, c.isDigit = true :=
    fun c mem => Nat.isDigit_of_mem_toDigits (by decide) (by decide) mem
  rw [Nat.toList_repr, parseDigits, if_pos ⟨Nat.toDigits_ne_nil, List.all_eq_true.mpr digits⟩,
    Nat.ofDigitChars_ten_toDigits]

/-- No digit is a colon or a sign. -/
theorem not_mem_repr {n : Nat} {c : Char} (mark : c.isDigit = false) : c ∉ n.repr.toList := by
  rw [Nat.toList_repr]
  intro mem
  rw [Nat.isDigit_of_mem_toDigits (by decide) (by decide) mem] at mark
  cases mark

theorem parseI64_of_unsigned {digits : List Char} (minus : '-' ∉ digits) (plus : '+' ∉ digits) :
    parseI64 digits = (parseDigits digits).bind fun n => inI64 n := by
  unfold parseI64
  split
  · exact absurd List.mem_cons_self minus
  · exact absurd List.mem_cons_self plus
  · rfl

theorem parseI64_repr {value : Int} (low : -2 ^ 63 ≤ value) (high : value < 2 ^ 63) :
    parseI64 value.repr.toList = some value := by
  have fits : inI64 value = some value := if_pos ⟨low, high⟩
  cases value with
  | ofNat n =>
      show parseI64 n.repr.toList = _
      rw [parseI64_of_unsigned (not_mem_repr (by decide)) (not_mem_repr (by decide)),
        parseDigits_repr, Option.bind_some]
      rw [Int.ofNat_eq_natCast] at fits ⊢
      rw [fits]
  | negSucc n =>
      have spelled : (Int.negSucc n).repr.toList = '-' :: (n + 1).repr.toList := by
        simp [Int.repr]
      have negative : -((n + 1 : Nat) : Int) = Int.negSucc n := (Int.negSucc_eq n).symm
      rw [spelled, parseI64, parseDigits_repr, Option.bind_some, negative, fits]

theorem colon_not_mem_repr (value : Int) : ':' ∉ value.repr.toList := by
  cases value with
  | ofNat n => exact not_mem_repr (by decide)
  | negSucc n =>
      have spelled : (Int.negSucc n).repr.toList = '-' :: (n + 1).repr.toList := by
        simp [Int.repr]
      rw [spelled, List.mem_cons, not_or]
      exact ⟨by decide, not_mem_repr (by decide)⟩

/-! ## The cursor -/

/-- The microseconds of the years `chrono` counts, -262143 to 262142. -/
def Representable (micros : Int) : Prop :=
  -8334601228800000000 ≤ micros ∧ micros ≤ 8210266876799999999

instance (micros : Int) : Decidable (Representable micros) := inferInstanceAs (Decidable (_ ∧ _))

/-- `DateTime::from_timestamp_micros` -/
def fromTimestampMicros (micros : Int) : Option Timestamp :=
  if Representable micros then some micros else none

/-- Where the previous page stopped. -/
structure DocumentCursor where
  updatedAt : Timestamp
  documentId : String
deriving DecidableEq

namespace DocumentCursor

def encode (cursor : DocumentCursor) : String :=
  hexEncode (cursor.updatedAt.repr ++ ":" ++ cursor.documentId).toUTF8.data.toList

def decode (value : String) : Option DocumentCursor := do
  let bytes ← hexDecode value.toList
  let text ← String.fromUTF8? ⟨bytes.toArray⟩
  let (micros, documentId) ← splitOnce ':' text.toList
  if documentId = [] then none
  else
    let updatedAt ← (parseI64 micros).bind fromTimestampMicros
    return ⟨updatedAt, String.ofList documentId⟩

theorem fromUTF8?_toUTF8 (text : String) :
    String.fromUTF8? ⟨text.toUTF8.data.toList.toArray⟩ = some text := by
  have valid : text.toUTF8.IsValidUTF8 := text.isValidUTF8
  rw [Array.toArray_toList]
  exact dif_pos valid

/-- A cursor of a document is read back as itself. -/
theorem decode_encode {cursor : DocumentCursor} (dated : Representable cursor.updatedAt)
    (named : cursor.documentId ≠ "") : decode cursor.encode = some cursor := by
  have split : splitOnce ':' (cursor.updatedAt.repr ++ ":" ++ cursor.documentId).toList =
      some (cursor.updatedAt.repr.toList, cursor.documentId.toList) := by
    rw [String.toList_append, String.toList_append, List.append_assoc]
    exact splitOnce_append _ (colon_not_mem_repr _)
  have solid : cursor.documentId.toList ≠ [] := by simpa using named
  have time : (parseI64 cursor.updatedAt.repr.toList).bind fromTimestampMicros =
      some cursor.updatedAt := by
    obtain ⟨low, high⟩ := dated
    rw [parseI64_repr (by omega) (by omega)]
    exact if_pos ⟨low, high⟩
  simp only [decode, encode, hexDecode_hexEncode, Option.bind_eq_bind, Option.bind_some,
    fromUTF8?_toUTF8, split, if_neg solid, time, String.ofList_toList]
  rfl

end DocumentCursor

end Delphi.Document
