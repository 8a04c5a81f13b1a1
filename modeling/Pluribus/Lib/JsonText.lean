import Mathlib.Algebra.Ring.Nat
import Mathlib.Algebra.Order.Group.Nat
import Mathlib.Algebra.BigOperators.Group.List.Basic
import Mathlib.Data.Nat.Digits.Defs
import Pluribus.Lib.Json

namespace Pluribus.Lib

open List

namespace Text

def isSpace (c : Char) : Bool :=
  let n := c.toNat
  (9 ≤ n && n ≤ 13) || n = 0x20 || n = 0x85 || n = 0xA0 || n = 0x1680 || (0x2000 ≤ n && n ≤ 0x200A) ||
    n = 0x2028 || n = 0x2029 || n = 0x202F || n = 0x205F || n = 0x3000

def blank (text : String) : Bool := text.toList.all isSpace

def trim (text : List Char) : List Char := ((text.dropWhile isSpace).reverse.dropWhile isSpace).reverse

def words (text : List Char) : List (List Char) := (text.splitBy fun a b => isSpace a == isSpace b).filter (!·.all isSpace)

def includes (part text : String) : Bool := text.toList.tails.any part.toList.isPrefixOf

def pointerToken (key : String) : String :=
  String.ofList (key.toList.flatMap fun c => if c = '~' then ['~', '0'] else if c = '/' then ['~', '1'] else [c])

def utf8 (text : String) : List UInt8 := text.toByteArray.data.toList

def fromUtf8 (bytes : List UInt8) : Option String := String.fromUTF8? ⟨bytes.toArray⟩

def bytes (text : String) : Nat := (utf8 text).length

def weigh (w : UInt8 → Nat) (bytes : List UInt8) : Nat := (bytes.map w).sum

def hexDigit (n : Nat) : Nat := if n < 10 then 48 + n else 87 + n

def escapeCode (n : Nat) : List Nat :=
  if n = 34 then [92, 34]
  else if n = 92 then [92, 92]
  else if 32 ≤ n then [n]
  else
    match n with
    | 8 => [92, 98]
    | 9 => [92, 116]
    | 10 => [92, 110]
    | 12 => [92, 102]
    | 13 => [92, 114]
    | n => [92, 117, 48, 48, hexDigit (n / 16), hexDigit (n % 16)]

def escape (c : Char) : List Char := if c.toNat < 128 then (escapeCode c.toNat).map Char.ofNat else [c]

def escapeByte (b : UInt8) : List UInt8 := if b.toNat < 128 then (escapeCode b.toNat).map UInt8.ofNat else [b]

def quoted (text : String) : List Char := '"' :: text.toList.flatMap escape ++ ['"']

/-- The length of a text inside a JSON string, without its quotes. -/
def escapedBytes (text : String) : Nat := weigh (fun b => weigh (fun _ => 1) (escapeByte b)) (utf8 text)

theorem utf8_ofList (text : List Char) : utf8 (String.ofList text) = text.flatMap String.utf8EncodeChar := by
  rw [utf8, String.toByteArray_ofList, utf8Encode, toList_data_toByteArray]

theorem utf8_toList (text : String) : text.toList.flatMap String.utf8EncodeChar = utf8 text := by
  rw [← utf8_ofList, String.ofList_toList]

theorem bytes_le (text : String) : bytes text ≤ 4 * text.length := by
  rw [bytes, ← utf8_toList, ← String.length_toList]
  induction text.toList with
  | nil => simp
  | cons c rest ih =>
    have hchar : (String.utf8EncodeChar c).length ≤ 4 := by
      rw [String.length_utf8EncodeChar]
      exact c.utf8Size_le_four
    simp only [flatMap_cons, length_append, length_cons]
    omega

theorem weigh_append (w : UInt8 → Nat) (a b : List UInt8) : weigh w (a ++ b) = weigh w a + weigh w b := by
  simp [weigh]

theorem weigh_flatMap (w : UInt8 → Nat) (f : UInt8 → List UInt8) (bytes : List UInt8) :
    weigh w (bytes.flatMap f) = weigh (fun b => weigh w (f b)) bytes := by
  induction bytes with
  | nil => rfl
  | cons b rest ih => simp_all [weigh]

theorem escapedBytes_ofList (text : List Char) : escapedBytes (String.ofList text) =
    weigh (fun b => weigh (fun _ => 1) (escapeByte b)) (text.flatMap String.utf8EncodeChar) := by
  rw [escapedBytes, utf8_ofList]

theorem escapedBytes_append (a b : String) : escapedBytes (a ++ b) = escapedBytes a + escapedBytes b := by
  rw [escapedBytes, ← utf8_toList, String.toList_append, flatMap_append, weigh_append, utf8_toList, utf8_toList]
  rfl

theorem escapedBytes_parts {parts : List String} {lengths : List Nat}
    (h : Forall₂ (fun part length => escapedBytes part = length) parts lengths) :
    escapedBytes (parts.foldr (· ++ ·) "") = lengths.sum := by
  induction h with
  | nil => rfl
  | cons hpart _ ih => rw [foldr_cons, escapedBytes_append, hpart, ih, sum_cons]

theorem escapeByte_utf8EncodeChar {c : Char} (h : ¬ c.toNat < 128) :
    (String.utf8EncodeChar c).flatMap escapeByte = String.utf8EncodeChar c := by
  have hkeep (n : Nat) (hlow : 128 ≤ n) (hhigh : n < 256) : escapeByte (UInt8.ofNat n) = [UInt8.ofNat n] := by
    have hn : (UInt8.ofNat n).toNat = n := by
      rw [UInt8.toNat_ofNat']
      omega
    rw [escapeByte, hn, if_neg (by omega)]
  have hval : ¬ c.val.toNat ≤ 127 := by
    change ¬ c.toNat ≤ 127
    omega
  rw [String.utf8EncodeChar.eq_1, if_neg hval]
  split
  · simp only [flatMap_cons, flatMap_nil, append_nil]
    rw [hkeep _ (by omega) (by omega), hkeep _ (by omega) (by omega)]
    rfl
  split
  · simp only [flatMap_cons, flatMap_nil, append_nil]
    rw [hkeep _ (by omega) (by omega), hkeep _ (by omega) (by omega), hkeep _ (by omega) (by omega)]
    rfl
  · simp only [flatMap_cons, flatMap_nil, append_nil]
    rw [hkeep _ (by omega) (by omega), hkeep _ (by omega) (by omega), hkeep _ (by omega) (by omega),
      hkeep _ (by omega) (by omega)]
    rfl

theorem utf8_escapeCode : ∀ n < 128, ((escapeCode n).map Char.ofNat).flatMap String.utf8EncodeChar =
    (String.utf8EncodeChar (Char.ofNat n)).flatMap escapeByte := by
  decide +kernel

theorem utf8_escape (c : Char) :
    (escape c).flatMap String.utf8EncodeChar = (String.utf8EncodeChar c).flatMap escapeByte := by
  unfold escape
  split
  · next h => rw [utf8_escapeCode _ h, Char.ofNat_toNat]
  · next h => simp [escapeByte_utf8EncodeChar h]

end Text

namespace Json

def separated : List (List Char) → List Char
  | [] => []
  | [item] => item
  | item :: rest => item ++ ',' :: separated rest

mutual

def chars : Json → List Char
  | .null => "null".toList
  | .bool true => "true".toList
  | .bool false => "false".toList
  | .number value => value.toString.toList
  | .string value => Text.quoted value
  | .array items => '[' :: separated (itemChars items) ++ [']']
  | .object fields => '\x7b' :: separated (fieldChars fields) ++ ['\x7d']

def itemChars : List Json → List (List Char)
  | [] => []
  | item :: rest => item.chars :: itemChars rest

def fieldChars : List (String × Json) → List (List Char)
  | [] => []
  | (key, value) :: rest => (Text.quoted key ++ ':' :: value.chars) :: fieldChars rest

end

def text (value : Json) : String := String.ofList value.chars

section Weight

variable (w : UInt8 → Nat)

def commas (n : Nat) : Nat := (n - 1) * w 44

def quotedWeight (text : String) : Nat := 2 * w 34 + Text.weigh (fun b => Text.weigh w (Text.escapeByte b)) (Text.utf8 text)

mutual

/-- The weight of the text of a value, without the text. -/
def weigh : Json → Nat
  | .null => Text.weigh w (Text.utf8 "null")
  | .bool true => Text.weigh w (Text.utf8 "true")
  | .bool false => Text.weigh w (Text.utf8 "false")
  | .number value => Text.weigh w (Text.utf8 value.toString)
  | .string value => quotedWeight w value
  | .array items => w 91 + w 93 + commas w items.length + itemsWeight items
  | .object fields => w 123 + w 125 + commas w fields.length + fieldsWeight fields

def itemsWeight : List Json → Nat
  | [] => 0
  | item :: rest => item.weigh + itemsWeight rest

def fieldsWeight : List (String × Json) → Nat
  | [] => 0
  | (key, value) :: rest => quotedWeight w key + w 58 + value.weigh + fieldsWeight rest

end

end Weight

def bytes (value : Json) : Nat := value.weigh fun _ => 1

def quotedBytes (value : Json) : Nat := value.weigh fun b => Text.weigh (fun _ => 1) (Text.escapeByte b)

section Weight

variable (w : UInt8 → Nat)

def charsWeight (text : List Char) : Nat := Text.weigh w (text.flatMap String.utf8EncodeChar)

theorem charsWeight_append (a b : List Char) : charsWeight w (a ++ b) = charsWeight w a + charsWeight w b := by
  rw [charsWeight, flatMap_append, Text.weigh_append]
  rfl

theorem charsWeight_cons (c : Char) (text : List Char) :
    charsWeight w (c :: text) = charsWeight w [c] + charsWeight w text :=
  charsWeight_append w [c] text

theorem charsWeight_toList (text : String) : charsWeight w text.toList = Text.weigh w (Text.utf8 text) := by
  rw [charsWeight, Text.utf8_toList]

theorem charsWeight_separated (items : List (List Char)) :
    charsWeight w (separated items) = commas w items.length + (items.map (charsWeight w)).sum := by
  match items with
  | [] => simp [separated, commas, charsWeight, Text.weigh]
  | [item] => simp [separated, commas]
  | item :: next :: rest =>
    have ih := charsWeight_separated (next :: rest)
    have hcomma : charsWeight w [','] = w 44 := rfl
    rw [separated, charsWeight_append, charsWeight_cons, hcomma, ih]
    · simp only [commas, length_cons, map_cons, sum_cons, Nat.add_sub_cancel, Nat.add_mul, Nat.one_mul]
      omega
    · exact fun h => nomatch h

theorem charsWeight_quoted (text : String) : charsWeight w (Text.quoted text) = quotedWeight w text := by
  have hquote : charsWeight w ['"'] = w 34 := rfl
  have hescaped : (text.toList.flatMap Text.escape).flatMap String.utf8EncodeChar =
      (Text.utf8 text).flatMap Text.escapeByte := by
    rw [← Text.utf8_toList, flatMap_assoc, flatMap_assoc]
    simp only [Text.utf8_escape]
  have hinner : charsWeight w (text.toList.flatMap Text.escape) =
      Text.weigh (fun b => Text.weigh w (Text.escapeByte b)) (Text.utf8 text) := by
    rw [charsWeight, hescaped, Text.weigh_flatMap]
  rw [Text.quoted, charsWeight_append, charsWeight_cons, hinner, hquote, quotedWeight]
  omega

mutual

theorem charsWeight_chars (value : Json) : charsWeight w value.chars = value.weigh w := by
  match value with
  | .null | .bool true | .bool false | .number _ => exact charsWeight_toList w _
  | .string value => exact charsWeight_quoted w value
  | .array items =>
    obtain ⟨hsum, hlength⟩ := charsWeight_itemChars items
    have hopen : charsWeight w ['['] = w 91 := rfl
    have hclose : charsWeight w [']'] = w 93 := rfl
    rw [chars, weigh, charsWeight_append, charsWeight_cons, charsWeight_separated, hsum, hlength, hopen, hclose]
    omega
  | .object fields =>
    obtain ⟨hsum, hlength⟩ := charsWeight_fieldChars fields
    have hopen : charsWeight w ['\x7b'] = w 123 := rfl
    have hclose : charsWeight w ['\x7d'] = w 125 := rfl
    rw [chars, weigh, charsWeight_append, charsWeight_cons, charsWeight_separated, hsum, hlength, hopen, hclose]
    omega

theorem charsWeight_itemChars (items : List Json) :
    ((itemChars items).map (charsWeight w)).sum = itemsWeight w items ∧ (itemChars items).length = items.length := by
  match items with
  | [] => exact ⟨rfl, rfl⟩
  | item :: rest =>
    obtain ⟨hsum, hlength⟩ := charsWeight_itemChars rest
    simp [itemChars, itemsWeight, charsWeight_chars item, hsum, hlength]

theorem charsWeight_fieldChars (fields : List (String × Json)) :
    ((fieldChars fields).map (charsWeight w)).sum = fieldsWeight w fields ∧
      (fieldChars fields).length = fields.length := by
  match fields with
  | [] => exact ⟨rfl, rfl⟩
  | (key, value) :: rest =>
    obtain ⟨hsum, hlength⟩ := charsWeight_fieldChars rest
    have hcolon : charsWeight w [':'] = w 58 := rfl
    refine ⟨?_, by simp [fieldChars, hlength]⟩
    rw [fieldChars, fieldsWeight, map_cons, sum_cons, hsum, charsWeight_append, charsWeight_quoted,
      charsWeight_cons, hcolon, charsWeight_chars value]
    omega

end

theorem weigh_text (value : Json) : Text.weigh w (Text.utf8 value.text) = value.weigh w := by
  rw [text, Text.utf8_ofList]
  exact charsWeight_chars w value

end Weight

theorem weigh_one (bytes : List UInt8) : Text.weigh (fun _ => 1) bytes = bytes.length := by
  simp [Text.weigh]

theorem escapeByte_length_le (b : UInt8) : (Text.escapeByte b).length ≤ 6 := by
  unfold Text.escapeByte
  split
  · unfold Text.escapeCode
    split
    · simp
    split
    · simp
    split
    · simp
    split <;> simp
  · simp

theorem bytes_string_le (text : String) : (Json.string text).bytes ≤ 2 + 6 * Text.bytes text := by
  have hsum : ∀ bytes : List UInt8,
      Text.weigh (fun b => Text.weigh (fun _ => 1) (Text.escapeByte b)) bytes ≤ 6 * bytes.length := by
    intro bytes
    induction bytes with
    | nil => simp [Text.weigh]
    | cons b rest ih =>
      have hb := escapeByte_length_le b
      have hcons : Text.weigh (fun b => Text.weigh (fun _ => 1) (Text.escapeByte b)) (b :: rest) =
          (Text.escapeByte b).length + Text.weigh (fun b => Text.weigh (fun _ => 1) (Text.escapeByte b)) rest := by
        rw [← weigh_one]
        rfl
      rw [hcons, length_cons]
      omega
  exact Nat.add_le_add_left (hsum _) 2

theorem bytes_number_le (value : Number) : (Json.number value).bytes ≤ 4 * value.toString.length := by
  have hbytes : (Json.number value).bytes = Text.bytes value.toString := weigh_one _
  rw [hbytes]
  exact Text.bytes_le _

theorem bytes_ofNat_le {n e : Nat} (he : 0 < e) (hn : n < 10 ^ e) : (Json.ofNat n).bytes ≤ 4 * e := by
  have hlength := Nat.repr_length n e he hn
  have hbytes := bytes_number_le (.posInt n)
  exact hbytes.trans (Nat.mul_le_mul_left 4 hlength)

theorem bytes_ofInt_le {i : Int} {e : Nat} (he : 0 < e) (hi : i.natAbs < 10 ^ e) : (Json.ofInt i).bytes ≤ 4 * (e + 1) := by
  have hlength := Nat.repr_length i.natAbs e he hi
  unfold ofInt
  split
  · rename_i hsign
    have hnat : i.toNat = i.natAbs := by omega
    have hbytes := bytes_number_le (.posInt i.toNat)
    rw [hnat] at hbytes ⊢
    refine hbytes.trans (Nat.mul_le_mul_left 4 ?_)
    exact hlength.trans (Nat.le_succ e)
  · rename_i hsign
    have hbytes := bytes_number_le (.negInt i)
    refine hbytes.trans (Nat.mul_le_mul_left 4 ?_)
    have hrepr : i.repr = "-" ++ i.natAbs.repr := by
      rw [Int.repr_eq_if, if_neg hsign]
      congr 2
      omega
    change i.repr.length ≤ e + 1
    rw [hrepr, String.length_append]
    have hdash : "-".length = 1 := rfl
    omega

theorem escapedBytes_text (value : Json) : Text.escapedBytes value.text = value.quotedBytes :=
  weigh_text _ value

/-- `value[key] = new`: null becomes an object, and no other value than an object takes a field. -/
def assign (key : String) (target new : Json) : Option Json :=
  match target with
  | .null => some (.object [(key, new)])
  | .object fields => some (.object (Table.insert key new fields))
  | _ => none

theorem object_of_index (key : String) {value : Json} (h : value.index key ≠ .null) : ∃ fields, value = .object fields := by
  cases value with
  | object fields => exact ⟨fields, rfl⟩
  | _ => exact absurd rfl h

end Json

/-- The fields of an object, in the order of their keys. -/
abbrev Fields := Table String Json

namespace Fields

def index (key : String) (fields : Fields) : Json := (Table.find fields key).getD .null

def set (key : String) (value : Json) (fields : Fields) : Fields := Table.insert key value fields

theorem index_set (key k : String) (value : Json) (fields : Fields) :
    (fields.set key value).index k = if key = k then value else fields.index k := by
  unfold index set
  rw [Table.find_insert]
  split <;> rfl

end Fields

theorem Json.index_assign {key k : String} {target new value : Json} (h : target.assign key new = some value)
    (hk : k ≠ key) : value.index k = target.index k := by
  cases target with
  | null =>
    cases h
    simp [Json.index, Json.get, Table.find, Ne.symm hk]
  | object fields =>
    cases h
    exact (Fields.index_set key k new fields).trans (if_neg (Ne.symm hk))
  | _ => cases h

end Pluribus.Lib
