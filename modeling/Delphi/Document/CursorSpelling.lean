/-
# Delphi.Document.CursorSpelling -- the spellings `decode` accepts

`encode` emits one spelling of a cursor; `decode` accepts others.  `hex::decode`
takes digits of either case, and `str::parse` a plus sign and leading zeros.
Which accepted tokens are the emitted ones is a matter of the token alone
(`Emittable`): lower-case digits, and a timestamp spelled as a number is printed.

Poles: `upper_case_is_accepted` (a token in capitals that is read and was never
emitted).
-/
import Delphi.Theory.Numeral
import Delphi.Document.Cursor

namespace Delphi.Document

open Delphi.Theory

set_option autoImplicit false

/-! ## Hexadecimal digits -/

/-- `encode` writes none of these. -/
def CapitalHex (c : Char) : Prop := 'A' ≤ c ∧ c ≤ 'F'

instance (c : Char) : Decidable (CapitalHex c) := inferInstanceAs (Decidable (_ ∧ _))

theorem hexValue_some {c : Char} {n : Nat} (value : hexValue c = some n) :
    n < 16 ∧ (Nat.digitChar n = c ↔ ¬ CapitalHex c) := by
  have ascii : c.toNat < 128 := by
    unfold hexValue at value
    split at value
    case isTrue range => exact Nat.lt_of_le_of_lt range.2 (by decide)
    split at value
    case isTrue range => exact Nat.lt_of_le_of_lt range.2 (by decide)
    split at value
    case isTrue range => exact Nat.lt_of_le_of_lt range.2 (by decide)
    cases value
  have all : ∀ code : Fin 128, ∀ n ∈ hexValue (Char.ofNat code.val),
      n < 16 ∧ (Nat.digitChar n = Char.ofNat code.val ↔ ¬ CapitalHex (Char.ofNat code.val)) := by
    decide +kernel
  have here := all ⟨c.toNat, ascii⟩
  rw [Char.ofNat_toNat] at here
  exact here n value

theorem hexEncode_cons (byte : UInt8) (bytes : List UInt8) :
    (hexEncode (byte :: bytes)).toList =
      Nat.digitChar (byte.toNat / 16) :: Nat.digitChar (byte.toNat % 16) ::
        (hexEncode bytes).toList := by
  simp [hexEncode]

theorem hexDecode_cons {high low : Char} {rest : List Char} {bytes : List UInt8}
    (read : hexDecode (high :: low :: rest) = some bytes) :
    ∃ h l tail, hexValue high = some h ∧ hexValue low = some l ∧ hexDecode rest = some tail ∧
      bytes = UInt8.ofNat (16 * h + l) :: tail := by
  simp only [hexDecode, Option.bind_eq_bind, Option.bind_eq_some_iff] at read
  obtain ⟨h, isHigh, l, isLow, tail, later, built⟩ := read
  exact ⟨h, l, tail, isHigh, isLow, later, (Option.some.inj built).symm⟩

/-- What was read is written back as it stood, unless it had capitals. -/
theorem hexEncode_of_hexDecode {text : List Char} {bytes : List UInt8}
    (read : hexDecode text = some bytes) :
    (hexEncode bytes).toList = text ↔ ∀ c ∈ text, ¬ CapitalHex c := by
  induction text using hexDecode.induct generalizing bytes with
  | case1 =>
      obtain rfl := Option.some.inj read
      simp [hexEncode]
  | case2 => cases read
  | case3 high low rest ih =>
      obtain ⟨h, l, tail, isHigh, isLow, later, rfl⟩ := hexDecode_cons read
      obtain ⟨smallHigh, high'⟩ := hexValue_some isHigh
      obtain ⟨smallLow, low'⟩ := hexValue_some isLow
      have byte : (UInt8.ofNat (16 * h + l)).toNat = 16 * h + l := by
        rw [UInt8.toNat_ofNat']
        omega
      have front : (16 * h + l) / 16 = h := by omega
      have back : (16 * h + l) % 16 = l := by omega
      rw [hexEncode_cons, byte, front, back, List.cons_eq_cons, List.cons_eq_cons, high', low',
        ih later, List.forall_mem_cons, List.forall_mem_cons]

/-! ## Numbers -/

/-- A number as it is printed: no plus sign, and a proper numeral after the minus. -/
def Printed : List Char → Prop
  | '-' :: digits => digits.head? ≠ some '0'
  | '+' :: _ => False
  | digits => Proper digits

theorem printed_of_unsigned {text : List Char} (minus : ∀ digits, text ≠ '-' :: digits)
    (plus : ∀ digits, text ≠ '+' :: digits) : Printed text ↔ Proper text := by
  unfold Printed
  split
  case h_1 digits => exact absurd rfl (minus digits)
  case h_2 digits => exact absurd rfl (plus digits)
  case h_3 => rfl

theorem parseDigits_some {digits : List Char} {n : Nat} (read : parseDigits digits = some n) :
    digits ≠ [] ∧ (∀ c ∈ digits, c.isDigit = true) ∧ Nat.ofDigitChars 10 digits 0 = n := by
  unfold parseDigits at read
  split at read
  case isTrue shape =>
      exact ⟨shape.1, List.all_eq_true.mp shape.2, Option.some.inj read⟩
  case isFalse => cases read

theorem inI64_some {value fits : Int} (within : inI64 value = some fits) : fits = value := by
  unfold inI64 at within
  split at within
  · exact (Option.some.inj within).symm
  · cases within

theorem repr_natCast (n : Nat) : (n : Int).repr.toList = Nat.toDigits 10 n := by
  show n.repr.toList = _
  exact Nat.toList_repr

theorem repr_neg_natCast {n : Nat} (positive : 0 < n) :
    (-(n : Int)).repr.toList = '-' :: Nat.toDigits 10 n := by
  obtain ⟨m, rfl⟩ := Nat.exists_eq_add_of_le' positive
  have negative : -((m + 1 : Nat) : Int) = Int.negSucc m := (Int.negSucc_eq m).symm
  rw [negative]
  simp [Int.repr, Nat.toList_repr]

theorem repr_of_parseDigits {digits : List Char} {n : Nat} (read : parseDigits digits = some n) :
    (n : Int).repr.toList = digits ↔ Proper digits := by
  obtain ⟨nonempty, all, rfl⟩ := parseDigits_some read
  rw [repr_natCast, toDigits_ofDigitChars_iff nonempty all]

theorem printed_repr (value : Int) : Printed value.repr.toList := by
  cases value with
  | ofNat n =>
      show Printed n.repr.toList
      have unsigned : ∀ mark : Char, mark.isDigit = false →
          ∀ digits, n.repr.toList ≠ mark :: digits := by
        intro mark isMark digits printed
        exact not_mem_repr (n := n) isMark (by rw [printed]; exact List.mem_cons_self)
      rw [printed_of_unsigned (unsigned '-' (by decide)) (unsigned '+' (by decide)),
        Nat.toList_repr]
      exact proper_toDigits n
  | negSucc n =>
      have spelled := repr_neg_natCast (Nat.succ_pos n)
      rw [Int.negSucc_eq]
      show Printed (-((n + 1 : Nat) : Int)).repr.toList
      rw [spelled]
      exact head?_toDigits (Nat.succ_pos n)

/-- After a minus a leading zero is never printed, and zero itself has no minus. -/
theorem repr_of_negative {digits : List Char} {n : Nat} (read : parseDigits digits = some n) :
    (-(n : Int)).repr.toList = '-' :: digits ↔ digits.head? ≠ some '0' := by
  obtain ⟨nonempty, all, rfl⟩ := parseDigits_some read
  constructor
  · intro printed head
    rcases Nat.eq_zero_or_pos (Nat.ofDigitChars 10 digits 0) with zero | positive
    · rw [zero] at printed
      cases printed
    · rw [repr_neg_natCast positive, List.cons_eq_cons] at printed
      rw [← printed.2] at head
      exact head?_toDigits positive head
  · intro head
    obtain ⟨positive, printed⟩ := toDigits_ofDigitChars_of_head nonempty all head
    rw [repr_neg_natCast positive, printed]

/-- What was parsed is printed as it stood, if it stood there as a number is printed. -/
theorem repr_of_parseI64 {text : List Char} {value : Int} (read : parseI64 text = some value) :
    value.repr.toList = text ↔ Printed text := by
  unfold parseI64 at read
  split at read
  case h_1 digits =>
      obtain ⟨n, parsed, within⟩ := Option.bind_eq_some_iff.mp read
      obtain rfl := inI64_some within
      exact repr_of_negative parsed
  case h_2 digits =>
      obtain ⟨n, parsed, within⟩ := Option.bind_eq_some_iff.mp read
      obtain rfl := inI64_some within
      refine iff_of_false (fun printed => ?_) id
      exact not_mem_repr (n := n) (c := '+') (by decide) (by
        show '+' ∈ (n : Int).repr.toList
        rw [printed]
        exact List.mem_cons_self)
  case h_3 unsigned_minus unsigned_plus =>
      obtain ⟨n, parsed, within⟩ := Option.bind_eq_some_iff.mp read
      obtain rfl := inI64_some within
      rw [repr_of_parseDigits parsed, printed_of_unsigned unsigned_minus unsigned_plus]

/-! ## Tokens -/

theorem splitOnce_some {separator : Char} {text front back : List Char}
    (split : splitOnce separator text = some (front, back)) :
    text = front ++ separator :: back := by
  induction text generalizing front with
  | nil => cases split
  | cons c rest ih =>
      unfold splitOnce at split
      split at split
      case isTrue same =>
          obtain ⟨rfl, rfl⟩ := Prod.mk.inj (Option.some.inj split)
          rw [same]
          rfl
      case isFalse =>
          obtain ⟨⟨front', back'⟩, later, parts⟩ := Option.map_eq_some_iff.mp split
          obtain ⟨rfl, rfl⟩ := Prod.mk.inj parts
          rw [ih later]
          rfl

theorem fromUTF8?_some {bytes : List UInt8} {text : String}
    (read : String.fromUTF8? ⟨bytes.toArray⟩ = some text) : text.toUTF8.data.toList = bytes := by
  unfold String.fromUTF8? at read
  split at read
  case isTrue valid =>
      obtain rfl := Option.some.inj read
      rfl
  case isFalse => cases read

namespace DocumentCursor

/-- The characters `decode` takes for the timestamp. -/
def microsOf (value : String) : Option (List Char) := do
  let bytes ← hexDecode value.toList
  let text ← String.fromUTF8? ⟨bytes.toArray⟩
  let (micros, _) ← splitOnce ':' text.toList
  return micros

/-- A token spelled as `encode` spells: no capitals, the timestamp a printed number. -/
def Emittable (value : String) : Prop :=
  (∀ c ∈ value.toList, ¬ CapitalHex c) ∧ ∀ micros ∈ microsOf value, Printed micros

/-- The characters under the hexadecimal digits. -/
def text (cursor : DocumentCursor) : String := cursor.updatedAt.repr ++ ":" ++ cursor.documentId

theorem toList_text (cursor : DocumentCursor) :
    cursor.text.toList = cursor.updatedAt.repr.toList ++ ':' :: cursor.documentId.toList := by
  unfold text
  rw [String.toList_append, String.toList_append, List.append_assoc]
  rfl

/-- What a token that is read is made of. -/
theorem decode_some {value : String} {cursor : DocumentCursor}
    (read : decode value = some cursor) :
    ∃ (text : String) (micros : List Char), hexDecode value.toList = some text.toUTF8.data.toList ∧
      text.toList = micros ++ ':' :: cursor.documentId.toList ∧ microsOf value = some micros ∧
      parseI64 micros = some cursor.updatedAt := by
  simp only [decode, Option.bind_eq_bind, Option.bind_eq_some_iff] at read
  obtain ⟨bytes, isHex, text, isText, ⟨micros, documentId⟩, isSplit, rest⟩ := read
  have micros_eq : microsOf value = some micros := by
    simp only [microsOf, isHex, isText, isSplit, Option.bind_eq_bind, Option.bind_some]
    rfl
  simp only at rest
  split at rest
  case isTrue => cases rest
  case isFalse solid =>
      simp only [Option.bind_eq_some_iff] at rest
      obtain ⟨updatedAt, ⟨read, parsed, dated⟩, built⟩ := rest
      unfold fromTimestampMicros at dated
      split at dated
      case isFalse => cases dated
      case isTrue =>
          obtain rfl := Option.some.inj dated
          obtain rfl := Option.some.inj built
          refine ⟨text, micros, ?_, ?_, micros_eq, parsed⟩
          · rw [fromUTF8?_some isText, isHex]
          · rw [splitOnce_some isSplit, String.toList_ofList]

theorem microsOf_encode (cursor : DocumentCursor) :
    microsOf cursor.encode = some cursor.updatedAt.repr.toList := by
  have split : splitOnce ':' cursor.text.toList =
      some (cursor.updatedAt.repr.toList, cursor.documentId.toList) := by
    rw [toList_text]
    exact splitOnce_append _ (colon_not_mem_repr _)
  unfold text at split
  simp only [microsOf, encode, hexDecode_hexEncode, fromUTF8?_toUTF8, split, Option.bind_eq_bind,
    Option.bind_some]
  rfl

/-- `encode` keeps to its spelling, for every cursor. -/
theorem emittable_encode (cursor : DocumentCursor) : Emittable cursor.encode := by
  refine ⟨(hexEncode_of_hexDecode (hexDecode_hexEncode _)).mp rfl, ?_⟩
  intro micros isMicros
  rw [microsOf_encode] at isMicros
  obtain rfl := Option.some.inj isMicros
  exact printed_repr cursor.updatedAt

theorem encode_eq_iff {value : String} {cursor : DocumentCursor}
    (read : decode value = some cursor) : cursor.encode = value ↔ Emittable value := by
  constructor
  · rintro rfl
    exact emittable_encode cursor
  · rintro ⟨lowerCase, spelled⟩
    obtain ⟨text, micros, isHex, parts, isMicros, parsed⟩ := decode_some read
    have printed : cursor.updatedAt.repr.toList = micros :=
      (repr_of_parseI64 parsed).mpr (spelled micros isMicros)
    have same : cursor.text = text := by
      apply String.toList_injective
      rw [toList_text, printed, parts]
    apply String.toList_injective
    show (hexEncode cursor.text.toUTF8.data.toList).toList = value.toList
    rw [same]
    exact (hexEncode_of_hexDecode isHex).mpr lowerCase

/-- An accepted token is the one its cursor is encoded as, or the encoding of any cursor, or
the only spelling `encode` may give its cursor, exactly if it is spelled as `encode` does. -/
theorem decode_exact_iff {value : String} {cursor : DocumentCursor}
    (read : decode value = some cursor) :
    (cursor.encode = value ↔ Emittable value) ∧
    ((∃ emitted : DocumentCursor, emitted.encode = value) ↔ Emittable value) ∧
    ∀ other, decode other = some cursor → Emittable value → (other = value ↔ Emittable other) := by
  refine ⟨encode_eq_iff read, ⟨?_, fun emittable => ⟨cursor, (encode_eq_iff read).mpr emittable⟩⟩,
    ?_⟩
  · rintro ⟨emitted, rfl⟩
    exact emittable_encode emitted
  · intro other readOther emittable
    rw [← encode_eq_iff readOther, (encode_eq_iff read).mpr emittable]
    exact eq_comm

theorem decode_exact_emitted :
    decode "313a61" = some ⟨1, "a"⟩ ∧ (DocumentCursor.mk 1 "a").encode = "313a61" ∧
      Emittable "313a61" := by
  have read : decode "313a61" = some ⟨1, "a"⟩ := by decide +kernel
  have spelling := (decode_exact_iff read).1
  have encoded : (DocumentCursor.mk 1 "a").encode = "313a61" := by decide +kernel
  exact ⟨read, encoded, spelling.mp encoded⟩

/-- The same token in capitals is read as the same cursor; no cursor is encoded so. -/
theorem upper_case_is_accepted :
    decode "313A61" = some ⟨1, "a"⟩ ∧ decode "313A61" = decode "313a61" ∧
      (DocumentCursor.mk 1 "a").encode ≠ "313A61" ∧
      ¬ ∃ emitted : DocumentCursor, emitted.encode = "313A61" := by
  refine ⟨by decide +kernel, by decide +kernel, by decide +kernel, ?_⟩
  rintro ⟨emitted, encoded⟩
  have lowerCase := (emittable_encode emitted).1
  rw [encoded] at lowerCase
  exact lowerCase 'A' (by decide) (by decide)

end DocumentCursor

end Delphi.Document
