import Pluribus.Lib.Slice
import Pluribus.Email.Quoted

namespace Pluribus.Email

open Lib Lib.Slice Pluribus.Core Pluribus.Runtime Option Utf8

section Codec

def isBase64 (c : Char) : Bool := c.isAlphanum || c = '+' || c = '/' || c = '='

/-- Base64 of the standard alphabet; padding is written and need not be read. -/
structure Base64 where
  encode : Bytes → List Char
  decode : List Char → Option Bytes
  decode_encode : ∀ bytes, decode (encode bytes) = some bytes
  alphabet : ∀ bytes, ∀ c ∈ encode bytes, isBase64 c = true
  padded : ∀ bytes, (encode bytes).head? ≠ some '='
  short : ∀ text bytes, decode text = some bytes → bytes.length ≤ text.length

def hexBytes : List Char → Option Bytes
  | [] => some []
  | a :: b :: rest => (hexPair (UInt8.ofNat a.toNat) (UInt8.ofNat b.toNat)).bind fun byte =>
      (hexBytes rest).map (byte :: ·)
  | _ => none

/-- Pairs of digits keep the same rules. -/
instance : Inhabited Base64 where
  default :=
    { encode := fun bytes => bytes.flatMap fun b => [hexDigit (b.toNat / 16), hexDigit (b.toNat % 16)]
      decode := hexBytes
      decode_encode := by
        intro bytes
        have hpair : ∀ n < 256, hexPair (UInt8.ofNat (hexDigit (n / 16)).toNat) (UInt8.ofNat (hexDigit (n % 16)).toNat) =
            some (UInt8.ofNat n) := by
          decide +kernel
        induction bytes with
        | nil => rfl
        | cons b bytes ih =>
          have hb := hpair b.toNat b.toNat_lt
          rw [UInt8.ofNat_toNat] at hb
          simp only [List.flatMap_cons, List.cons_append, List.nil_append, hexBytes, hb, bind_some, ih,
            map_some]
      alphabet := by
        intro bytes c hc
        have hdigit : ∀ n < 16, isBase64 (hexDigit n) = true := by decide +kernel
        obtain ⟨b, -, hmem⟩ := List.mem_flatMap.mp hc
        have hlt := b.toNat_lt
        simp only [List.mem_cons, List.not_mem_nil, or_false] at hmem
        rcases hmem with rfl | rfl <;> exact hdigit _ (by omega)
      padded := by
        intro bytes
        have hdigit : ∀ n < 16, hexDigit n ≠ '=' := by decide +kernel
        cases bytes with
        | nil => exact nofun
        | cons b bytes =>
          have hlt := b.toNat_lt
          exact fun h => hdigit (b.toNat / 16) (by omega) (Option.some.inj h)
      short := by
        intro text
        fun_induction hexBytes text with
        | case1 => exact fun bytes h => Option.some.inj h ▸ Nat.zero_le _
        | case2 a b rest ih =>
          intro bytes h
          obtain ⟨byte, -, hmore⟩ := bind_eq_some_iff.mp h
          obtain ⟨more, hrest, rfl⟩ := map_eq_some_iff.mp hmore
          have := ih more hrest
          simp only [List.length_cons]
          omega
        | case3 => exact nofun }

variable (codec : Base64)

def encodeWord (text : List Char) : List Char :=
  ['=', '?', 'u', 't', 'f', '-', '8', '?', 'B', '?'] ++ codec.encode (Utf8.encode text) ++ ['?', '=']

def chunks (chunk : List Char) : List Char → List (List Char)
  | [] => if chunk.isEmpty then [] else [chunk]
  | c :: rest => if 45 < size chunk + c.utf8Size then chunk :: chunks [c] rest else chunks (chunk ++ [c]) rest

def dropEnds (text : List Char) : List Char := text.filter fun c => c ≠ '\r' && c ≠ '\n'

def isAscii (text : List Char) : Bool := text.all fun c => c.toNat < 128

/-- A header value: ASCII as it stands, anything else as encoded words. -/
def encodeHeader (value : List Char) : List Char :=
  if isAscii (dropEnds value) then dropEnds value
  else List.intercalate [' '] ((chunks [] (dropEnds value)).map (encodeWord codec))

def latin : List String := ["iso-8859-1", "latin1", "iso8859-1", "windows-1252", "us-ascii", "ascii"]

def decodeText (bytes : Bytes) (charset : List Char) : List Char :=
  if String.ofList ((Text.trim charset).map Char.toLower) ∈ latin then bytes.map fun b => Char.ofNat b.toNat
  else Utf8.lossy bytes

def wordFields (inner : List Char) : Option (List Char × List Char × List Char) :=
  (cut ['?'] inner).bind fun (charset, rest) => (cut ['?'] rest).map fun (encoding, payload) => (charset, encoding, payload)

def wordBytes (encoding payload : List Char) : Option Bytes :=
  if '?' ∈ payload then none
  else if encoding.map Char.toUpper = ['B'] then codec.decode payload
  else if encoding.map Char.toUpper = ['Q'] then
    some (decodeQuotedPrintable (Utf8.encode (payload.map fun c => if c = '_' then ' ' else c)))
  else none

/-- The encoded word at the start of a text and its length; no result if a slice is out of order. -/
def encodedWord (tail : List Char) : Option (Option (List Char × Nat)) :=
  match find ['?', '='] tail with
  | none => some none
  | some position =>
    (slice tail 2 position).map fun inner =>
      (wordFields inner).bind fun (charset, encoding, payload) =>
        (wordBytes codec encoding payload).map fun bytes => (decodeText bytes charset, position + 2)

theorem length_encodedWord {codec : Base64} {tail text : List Char} {n : Nat}
    (h : encodedWord codec tail = some (some (text, n))) : 2 ≤ n := by
  unfold encodedWord at h
  split at h
  · cases h
  · obtain ⟨inner, -, hword⟩ := map_eq_some_iff.mp h
    obtain ⟨fields, -, hbytes⟩ := bind_eq_some_iff.mp hword
    obtain ⟨bytes, -, heq⟩ := map_eq_some_iff.mp hbytes
    cases heq
    omega

/-- Decodes the encoded words of a header value; white space between two of them is not part of the text. There is no
result if a slice is out of order. -/
def decodeWords (previous : Bool) (rest : List Char) : Option (List Char) :=
  match find ['=', '?'] rest with
  | none => some rest
  | some start =>
    match _hstart : splitAt start rest with
    | none => none
    | some (before, tail) =>
      let out := if previous && (Text.trim before).isEmpty then [] else before
      match _hword : encodedWord codec tail with
      | none => none
      | some none =>
        match _hrest : splitAt 2 tail with
        | none => none
        | some (_, rest) => (decodeWords false rest).map fun more => out ++ ['=', '?'] ++ more
      | some (some (text, length)) =>
        match _hrest : splitAt length tail with
        | none => none
        | some (_, rest) => (decodeWords true rest).map fun more => out ++ text ++ more
termination_by rest.length
decreasing_by
  · have hshort := length_splitAt _hrest (by decide)
    obtain ⟨rfl, -⟩ := splitAt_some _hstart
    rw [List.length_append]
    omega
  · have htwo := length_encodedWord _hword
    have hshort := length_splitAt _hrest (by omega)
    obtain ⟨rfl, -⟩ := splitAt_some _hstart
    rw [List.length_append]
    omega

end Codec

theorem isAscii_iff {text : List Char} : isAscii text = true ↔ ∀ c ∈ text, c.toNat < 128 := by
  simp [isAscii]

section RoundTrip

variable {codec : Base64} {previous : Bool} {rest before after : List Char}

theorem decodeWords_none (h : cut ['=', '?'] rest = none) : decodeWords codec previous rest = some rest := by
  rw [decodeWords]
  simp [find, h]

theorem decodeWords_cut (h : cut ['=', '?'] rest = some (before, after)) :
    decodeWords codec previous rest =
      (encodedWord codec (['=', '?'] ++ after)).bind fun
        | none => (decodeWords codec false after).map fun more =>
            (if previous && (Text.trim before).isEmpty then [] else before) ++ ['=', '?'] ++ more
        | some (text, length) => (splitAt length (['=', '?'] ++ after)).bind fun r =>
            (decodeWords codec true r.2).map fun more =>
              (if previous && (Text.trim before).isEmpty then [] else before) ++ text ++ more := by
  have hsplit : splitAt (size before) rest = some (before, ['=', '?'] ++ after) := by
    rw [cut_some h, List.append_assoc]
    exact splitAt_size _ _
  have htwo : splitAt 2 (['=', '?'] ++ after) = some (['=', '?'], after) := splitAt_size ['=', '?'] after
  rw [decodeWords]
  simp only [find, h, map_some]
  split
  · rename_i hnone
    rw [hsplit] at hnone
    cases hnone
  · rename_i before' tail hsome
    rw [hsplit] at hsome
    cases hsome
    split
    · rename_i hword
      rw [hword, bind_none]
    · rename_i hword
      rw [hword, bind_some]
      split
      · rename_i hrest
        rw [htwo] at hrest
        cases hrest
      · rename_i hrest
        rw [htwo] at hrest
        cases hrest
        rfl
    · rename_i text length hword
      rw [hword, bind_some]
      split
      · rename_i hrest
        simp only [hrest, bind_none]
      · rename_i hrest
        simp only [hrest, bind_some]

theorem cut_encodeWord (codec : Base64) (text rest : List Char) :
    cut ['?', '='] (encodeWord codec text ++ rest) =
      some (['=', '?', 'u', 't', 'f', '-', '8', '?', 'B', '?'] ++ codec.encode (encode text), rest) := by
  have hplain : '?' ∉ codec.encode (encode text) := fun hmem => absurd (codec.alphabet _ _ hmem) (by decide)
  have hpayload := cut_of_not_mem (c := '?') (p := ['=']) (b := rest) hplain
  have hhead : (codec.encode (encode text) ++ ['?', '='] ++ rest).head? ≠ some '=' := by
    have hpadded := codec.padded (encode text)
    cases hcode : codec.encode (encode text) with
    | nil => exact (by decide : some '?' ≠ some '=')
    | cons c more =>
      rw [hcode] at hpadded
      exact hpadded
  have hwhole : encodeWord codec text ++ rest =
      ['=', '?', 'u', 't', 'f', '-', '8', '?', 'B', '?'] ++ (codec.encode (encode text) ++ ['?', '='] ++ rest) := by
    simp [encodeWord]
  rw [hwhole]
  generalize codec.encode (encode text) ++ ['?', '='] ++ rest = tail at hpayload hhead
  show cut ['?', '='] ('=' :: '?' :: 'u' :: 't' :: 'f' :: '-' :: '8' :: '?' :: 'B' :: '?' :: tail) = _
  rw [cut_skip (.inl (by decide)), cut_skip (.inr (by simp)), cut_skip (.inl (by decide)), cut_skip (.inl (by decide)),
    cut_skip (.inl (by decide)), cut_skip (.inl (by decide)), cut_skip (.inl (by decide)), cut_skip (.inr (by simp)),
    cut_skip (.inl (by decide)), cut_skip (.inr hhead), hpayload]
  rfl

theorem encodedWord_encodeWord (codec : Base64) (text rest : List Char) :
    encodedWord codec (encodeWord codec text ++ rest) = some (some (text, size (encodeWord codec text))) := by
  have hplain : '?' ∉ codec.encode (encode text) := fun hmem => absurd (codec.alphabet _ _ hmem) (by decide)
  have hslice := slice_size ['=', '?'] (['u', 't', 'f', '-', '8', '?', 'B', '?'] ++ codec.encode (encode text)) (['?', '='] ++ rest)
  have hfields : wordFields (['u', 't', 'f', '-', '8', '?', 'B', '?'] ++ codec.encode (encode text)) =
      some (['u', 't', 'f', '-', '8'], ['B'], codec.encode (encode text)) := by
    have hcharset := cut_of_not_mem (c := '?') (p := []) (a := ['u', 't', 'f', '-', '8'])
      (b := ['B', '?'] ++ codec.encode (encode text)) (by decide)
    have hencoding := cut_of_not_mem (c := '?') (p := []) (a := ['B']) (b := codec.encode (encode text)) (by decide)
    rw [wordFields, show ['u', 't', 'f', '-', '8', '?', 'B', '?'] ++ codec.encode (encode text) = ['u', 't', 'f', '-', '8'] ++ '?' :: [] ++
      (['B', '?'] ++ codec.encode (encode text)) from rfl, hcharset, bind_some]
    simp only []
    rw [show ['B', '?'] ++ codec.encode (encode text) = ['B'] ++ '?' :: [] ++ codec.encode (encode text) from rfl,
      hencoding, map_some]
  have hbytes : wordBytes codec ['B'] (codec.encode (encode text)) = some (encode text) := by
    rw [wordBytes, if_neg hplain, if_pos (by decide), codec.decode_encode]
  have htext : decodeText (encode text) ['u', 't', 'f', '-', '8'] = text := by
    rw [decodeText, if_neg (by decide), lossy_encode]
  have hwhole : encodeWord codec text ++ rest =
      ['=', '?'] ++ (['u', 't', 'f', '-', '8', '?', 'B', '?'] ++ codec.encode (encode text)) ++ (['?', '='] ++ rest) := by
    simp [encodeWord]
  have hposition : size (['=', '?', 'u', 't', 'f', '-', '8', '?', 'B', '?'] ++ codec.encode (encode text)) =
      size (['=', '?'] ++ (['u', 't', 'f', '-', '8', '?', 'B', '?'] ++ codec.encode (encode text))) := rfl
  have htwo : size ['=', '?'] = 2 := rfl
  have hsize : size (encodeWord codec text) =
      size (['=', '?'] ++ (['u', 't', 'f', '-', '8', '?', 'B', '?'] ++ codec.encode (encode text))) + 2 := by
    rw [encodeWord, size_append]
    rfl
  rw [encodedWord, find, cut_encodeWord, map_some]
  simp only []
  rw [hposition, hwhole, ← htwo, hslice, map_some, hfields, bind_some]
  simp only [hbytes, htext, map_some, hsize, htwo]

theorem decodeWords_encodeWord (codec : Base64) (text rest : List Char) :
    (∀ previous, decodeWords codec previous (encodeWord codec text ++ rest) =
      (decodeWords codec true rest).map (text ++ ·)) ∧
    decodeWords codec true (' ' :: encodeWord codec text ++ rest) = (decodeWords codec true rest).map (text ++ ·) := by
  obtain ⟨after, hafter⟩ : ∃ after, encodeWord codec text ++ rest = ['=', '?'] ++ after := ⟨_, rfl⟩
  have hword := encodedWord_encodeWord codec text rest
  have hlater := splitAt_size (encodeWord codec text) rest
  have hcut : cut ['=', '?'] (encodeWord codec text ++ rest) = some ([], after) := by
    rw [hafter]
    exact cut_prefix _ _
  rw [hafter] at hword hlater
  constructor
  · intro previous
    rw [decodeWords_cut hcut, hword, bind_some]
    simp only [hlater, bind_some]
    simp
  · have hspace : cut ['=', '?'] (' ' :: encodeWord codec text ++ rest) = some ([' '], after) := by
      rw [List.cons_append, cut_skip (.inl (by decide)), hcut]
      rfl
    have htrim : Text.trim [' '] = [] := rfl
    rw [decodeWords_cut hspace, hword, bind_some]
    simp only [hlater, bind_some, htrim]
    simp

theorem decodeWords_words (codec : Base64) (words : List (List Char)) :
    decodeWords codec true (words.flatMap fun word => ' ' :: encodeWord codec word) = some words.flatten := by
  induction words with
  | nil => exact decodeWords_none rfl
  | cons word words ih =>
    rw [List.flatMap_cons, (decodeWords_encodeWord codec word _).2, ih, map_some, List.flatten_cons]

theorem flatten_chunks (chunk text : List Char) : (chunks chunk text).flatten = chunk ++ text := by
  induction text generalizing chunk with
  | nil =>
    cases chunk <;> simp [chunks]
  | cons c text ih =>
    unfold chunks
    split
    · rw [List.flatten_cons, ih, List.singleton_append]
    · rw [ih, List.append_assoc, List.singleton_append]

theorem decodeWords_encodeHeader (codec : Base64) (value : List Char) (h : isAscii (dropEnds value) = false) :
    decodeWords codec false (encodeHeader codec value) = some (dropEnds value) := by
  have hflatten := flatten_chunks [] (dropEnds value)
  rw [encodeHeader, if_neg (by simp [h])]
  cases hwords : chunks [] (dropEnds value) with
  | nil =>
    rw [hwords] at hflatten
    rw [List.nil_append, List.flatten_nil] at hflatten
    rw [← hflatten] at h
    cases h
  | cons word words =>
    have hjoin : List.intercalate [' '] ((word :: words).map (encodeWord codec)) =
        encodeWord codec word ++ words.flatMap fun word => ' ' :: encodeWord codec word := by
      clear hwords
      induction words generalizing word with
      | nil => simp
      | cons next words ih =>
        rw [List.map_cons, List.map_cons, List.intercalate_cons_cons, ← List.map_cons, ih]
        simp
    rw [hjoin, (decodeWords_encodeWord codec word _).1, decodeWords_words, map_some, ← List.flatten_cons, ← hwords,
      hflatten, List.nil_append]

theorem length_le_size (s : List Char) : s.length ≤ size s := by
  induction s with
  | nil => exact Nat.zero_le _
  | cons c s ih =>
    have hpos := c.utf8Size_pos
    rw [size_cons, List.length_cons]
    omega

theorem length_of_ascii {s : List Char} (h : isAscii s = true) : size s = s.length := by
  induction s with
  | nil => rfl
  | cons c s ih =>
    rw [isAscii, List.all_cons, Bool.and_eq_true, decide_eq_true_eq] at h
    have hone : c.utf8Size = 1 := Char.utf8Size_eq_one_iff.mpr (by rw [UInt32.le_iff_toNat_le]; exact Nat.le_of_lt_succ h.1)
    rw [size_cons, hone, ih h.2, List.length_cons, Nat.add_comm]

theorem length_decodeQuotedPrintable (bytes : Bytes) : (decodeQuotedPrintable bytes).length ≤ bytes.length := by
  fun_induction decodeQuotedPrintable bytes <;> simp_all <;> omega

theorem length_decodeText (bytes : Bytes) (charset : List Char) : (decodeText bytes charset).length ≤ bytes.length := by
  have hlossy : ∀ (n : Nat) (bytes : Bytes), (lossyFrom n bytes).length ≤ n := by
    intro n
    induction n with
    | zero => exact fun _ => Nat.le_refl _
    | succ n ih =>
      intro bytes
      cases bytes with
      | nil => exact Nat.zero_le _
      | cons b bytes =>
        unfold lossyFrom
        split <;> exact Nat.succ_le_succ (ih _)
  unfold decodeText
  split
  · rw [List.length_map]
  · exact hlossy _ _

theorem length_wordBytes {encoding payload : List Char} {bytes : Bytes} (h : wordBytes codec encoding payload = some bytes) :
    bytes.length ≤ size payload := by
  have hspaces : ∀ text : List Char, size (text.map fun c => if c = '_' then ' ' else c) = size text := by
    intro text
    induction text with
    | nil => rfl
    | cons c text ih =>
      rw [List.map_cons, size_cons, size_cons, ih]
      by_cases hc : c = '_' <;> simp [hc, Char.utf8Size]
  unfold wordBytes at h
  split at h
  · cases h
  split at h
  · exact (codec.short _ _ h).trans (length_le_size payload)
  split at h
  · cases h
    exact hspaces payload ▸ length_decodeQuotedPrintable _
  · cases h

/-- An encoded word is longer than what it says. -/
theorem length_lt_encodedWord {tail text : List Char} {n : Nat} (h : encodedWord codec tail = some (some (text, n))) :
    text.length < n := by
  unfold encodedWord at h
  split at h
  · cases h
  · rename_i position hposition
    obtain ⟨inner, hinner, hword⟩ := map_eq_some_iff.mp h
    obtain ⟨⟨charset, encoding, payload⟩, hfields, hbytes⟩ := bind_eq_some_iff.mp hword
    obtain ⟨bytes, hdecoded, heq⟩ := map_eq_some_iff.mp hbytes
    cases heq
    have hwithin : size inner ≤ position := by
      unfold slice at hinner
      split at hinner
      · cases hinner
      · obtain ⟨r, hsplit, hmap⟩ := bind_eq_some_iff.mp hinner
        obtain ⟨⟨marker, rest⟩, hmarker, rfl⟩ := map_eq_some_iff.mp hmap
        have hsize := (splitAt_some hsplit).2
        rw [(splitAt_some hmarker).1, size_append] at hsize
        exact hsize ▸ Nat.le_add_left _ _
    have hpayload : size payload ≤ size inner := by
      obtain ⟨⟨charset, rest⟩, hcharset, hmap⟩ := bind_eq_some_iff.mp hfields
      obtain ⟨⟨encoding, payload⟩, hencoding, heq⟩ := map_eq_some_iff.mp hmap
      cases heq
      rw [cut_some hcharset, cut_some hencoding]
      simp only [size_append]
      omega
    have := length_wordBytes hdecoded
    have := length_decodeText bytes charset
    omega

theorem isAscii_append {a b : List Char} : isAscii (a ++ b) = true ↔ isAscii a = true ∧ isAscii b = true := by
  simp [isAscii, List.all_append]

theorem length_word {n : Nat} {w tail text : List Char} (htail : isAscii tail = true)
    (h : encodedWord codec tail = some (some (text, n))) (hsplit : splitAt n tail = some (w, rest)) :
    isAscii rest = true ∧ text.length + rest.length < tail.length := by
  obtain ⟨rfl, hsize⟩ := splitAt_some hsplit
  obtain ⟨hw, hrest⟩ := isAscii_append.mp htail
  have hlt := length_lt_encodedWord h
  rw [length_of_ascii hw] at hsize
  rw [List.length_append]
  exact ⟨hrest, by omega⟩

theorem length_decodeWords {value out : List Char} (hascii : isAscii value = true)
    (h : decodeWords codec previous value = some out) : out.length ≤ value.length := by
  induction hn : value.length using Nat.strong_induction_on generalizing value previous out with
  | h n ih =>
    subst hn
    cases hcut : cut ['=', '?'] value with
    | none =>
      rw [decodeWords_none hcut] at h
      cases h
      exact Nat.le_refl _
    | some r =>
      obtain ⟨before, after⟩ := r
      obtain rfl := cut_some hcut
      rw [List.append_assoc] at hascii
      have htail := (isAscii_append.mp hascii).2
      have hbefore : (if previous && (Text.trim before).isEmpty then [] else before).length ≤ before.length := by
        split <;> simp
      rw [decodeWords_cut hcut] at h
      obtain ⟨word, hword, hrest⟩ := bind_eq_some_iff.mp h
      simp only [List.length_append, List.length_cons, List.length_nil] at ih ⊢
      cases word with
      | none =>
        obtain ⟨more, hmore, rfl⟩ := map_eq_some_iff.mp hrest
        have := ih after.length (by omega) (isAscii_append.mp htail).2 hmore rfl
        simp only [List.length_append, List.length_cons, List.length_nil]
        omega
      | some word =>
        obtain ⟨r, hsplit, hmap⟩ := bind_eq_some_iff.mp hrest
        obtain ⟨more, hmore, rfl⟩ := map_eq_some_iff.mp hmap
        obtain ⟨hascii, hlt⟩ := length_word htail hword hsplit
        simp only [List.length_append, List.length_cons, List.length_nil] at hlt
        have := ih r.2.length (by omega) hascii hmore rfl
        simp only [List.length_append]
        omega

/-- A marker is the first one or stands after it: it cannot begin with the second character of the first. -/
theorem marker_split {before after a b : List Char}
    (hcut : cut ['=', '?'] (before ++ ['=', '?'] ++ after) = some (before, after))
    (heq : before ++ ['=', '?'] ++ after = a ++ ['=', '?'] ++ b) :
    b = after ∨ ∃ c, after = c ++ ['=', '?'] ++ b := by
  obtain ⟨c, rfl⟩ : ∃ c, a = before ++ c :=
    (List.prefix_of_prefix_length_le ⟨_, rfl⟩ ⟨['=', '?'] ++ b, by rw [← List.append_assoc, ← heq, List.append_assoc]⟩
      (cut_first hcut heq)).imp fun c hc => hc.symm
  rw [List.append_assoc, List.append_assoc, List.append_assoc, List.append_cancel_left_eq] at heq
  match c with
  | [] =>
    cases heq
    exact .inl rfl
  | [x] => cases heq
  | x :: y :: c =>
    cases heq
    exact .inr ⟨c, by simp⟩

/-- An ASCII value is read back just when none of its markers begins an encoded word or makes a slice run out of order. -/
theorem decodeWords_eq_iff {value : List Char} (hascii : isAscii value = true) :
    decodeWords codec false value = some value ↔
      ∀ a b, value = a ++ ['=', '?'] ++ b → encodedWord codec (['=', '?'] ++ b) = some none := by
  induction hn : value.length using Nat.strong_induction_on generalizing value with
  | h n ih =>
    subst hn
    cases hcut : cut ['=', '?'] value with
    | none => exact iff_of_true (decodeWords_none hcut) fun a b heq => absurd ⟨a, b, heq.symm⟩ (cut_none hcut)
    | some r =>
      obtain ⟨before, after⟩ := r
      obtain rfl := cut_some hcut
      rw [List.append_assoc] at hascii
      have htail := (isAscii_append.mp hascii).2
      have hlater := ih after.length (by simp only [List.length_append, List.length_cons]; omega)
        (isAscii_append.mp htail).2 rfl
      rw [decodeWords_cut hcut]
      simp only [Bool.false_and, Bool.false_eq_true, if_false]
      constructor
      · intro h a b heq
        obtain ⟨word, hword, hrest⟩ := bind_eq_some_iff.mp h
        cases word with
        | some word =>
          -- what is decoded is shorter than what it is decoded from
          obtain ⟨r, hsplit, hmap⟩ := bind_eq_some_iff.mp hrest
          obtain ⟨more, hmore, hsame⟩ := map_eq_some_iff.mp hmap
          obtain ⟨hascii, hlt⟩ := length_word htail hword hsplit
          have hle := length_decodeWords hascii hmore
          have hlength := congrArg List.length hsame
          simp only [List.length_append] at hlength hlt
          omega
        | none =>
          obtain ⟨more, hmore, hsame⟩ := map_eq_some_iff.mp hrest
          rw [List.append_cancel_left hsame] at hmore
          rcases marker_split hcut heq with rfl | ⟨c, hc⟩
          · exact hword
          · exact hlater.mp hmore c b hc
      · intro h
        have hmore := hlater.mpr fun a b heq => h (before ++ ['=', '?'] ++ a) b (by rw [heq]; simp)
        rw [h before after rfl, bind_some]
        simp only [hmore, map_some]

end RoundTrip

/-- Quoted-printable text is read back with its line ends normalised just when no CR ends it, its lines keep the limit and
no escape is split; a header value is read back without line ends just when it is not ASCII or no marker in it begins an
encoded word or makes a slice run out of order. -/
theorem encoded_text_survives (codec : Base64) :
    (∀ text, (decodeQuotedPrintable (Utf8.encode (quotedPrintable text)) = Utf8.encode (normalized text) ↔
        text.getLast? ≠ some '\r') ∧
      ∀ line ∈ wireLines (Utf8.encode (quotedPrintable text)), line.length ≤ 76 ∧ wholeLine line = true) ∧
    ∀ value, decodeWords codec false (encodeHeader codec value) = some (dropEnds value) ↔
      ((∀ c ∈ dropEnds value, c.toNat < 128) →
        ∀ a b, dropEnds value = a ++ ['=', '?'] ++ b → encodedWord codec (['=', '?'] ++ b) = some none) := by
  refine ⟨fun text => ⟨decode_quotedPrintable text, fun line hline => ?_⟩, fun value => ?_⟩
  · obtain ⟨lines, hne, heq, hlines⟩ := quotedPrintable_lines text
    rw [heq, wireLines_joined hne fun l hl => (hlines l hl).1] at hline
    exact (hlines line hline).2
  · rw [← isAscii_iff]
    cases hascii : isAscii (dropEnds value) with
    | false => exact iff_of_true (decodeWords_encodeHeader codec value hascii) nofun
    | true =>
      rw [encodeHeader, if_pos hascii, decodeWords_eq_iff hascii]
      exact ⟨fun h _ => h, fun h => h rfl⟩

theorem encoded_text_survives_sample :
    decodeQuotedPrintable (Utf8.encode (quotedPrintable "é= \nb\r\n".toList)) = Utf8.encode "é= \r\nb\r\n".toList ∧
    decodeWords default false (encodeHeader default "é\n".toList) = some "é".toList ∧
    decodeWords default false (encodeHeader default "=?b\n".toList) = some "=?b".toList := by
  obtain ⟨hquoted, hwords⟩ := encoded_text_survives default
  refine ⟨(hquoted _).1.mpr (by decide), (hwords _).mpr fun hascii => absurd (hascii 'é' (by decide)) (by decide),
    (hwords _).mpr fun _ a b heq => ?_⟩
  have hone : a = [] ∧ b = ['b'] := by
    match a, heq with
    | [], heq =>
      cases heq
      exact ⟨rfl, rfl⟩
    | [x], heq => cases heq
    | [x, y], heq => cases heq
    | x :: y :: z :: a, heq => simp [dropEnds] at heq
  rw [hone.2]
  rfl

/-- A marker that ends at once puts a slice out of order, a subject that looks like an encoded word is sent as it is and
read back decoded, and a CR that ends a text is lost. -/
theorem markers_misread :
    decodeWords default false (encodeHeader default ['=', '?', '=']) = none ∧
    decodeWords default false (encodeHeader default ['=', '?', 'x', '?', 'Q', '?', 'a', '?', '=']) = some ['a'] ∧
    decodeQuotedPrintable (Utf8.encode (quotedPrintable ['a', '\r'])) = Utf8.encode ['a'] := by
  refine ⟨?_, ?_, by decide⟩
  · have hcut : cut ['=', '?'] ['=', '?', '='] = some ([], ['=']) := rfl
    rw [show encodeHeader default ['=', '?', '='] = ['=', '?', '='] from rfl, decodeWords_cut hcut]
    rfl
  have hword : encodedWord default ['=', '?', 'x', '?', 'Q', '?', 'a', '?', '='] = some (some (['a'], 9)) := by
    have hslice : slice ['=', '?', 'x', '?', 'Q', '?', 'a', '?', '='] 2 7 = some ['x', '?', 'Q', '?', 'a'] := by decide
    have hbytes : wordBytes default ['Q'] ['a'] = some (encode ['a']) := rfl
    have htext : decodeText (encode ['a']) ['x'] = ['a'] := by
      rw [decodeText, if_neg (by decide), lossy_encode]
    rw [encodedWord, show find ['?', '='] ['=', '?', 'x', '?', 'Q', '?', 'a', '?', '='] = some 7 from rfl]
    simp only [hslice, map_some]
    rw [show wordFields ['x', '?', 'Q', '?', 'a'] = some (['x'], ['Q'], ['a']) from rfl, bind_some]
    simp only [hbytes, map_some, htext]
  have hcut : cut ['=', '?'] ['=', '?', 'x', '?', 'Q', '?', 'a', '?', '='] = some ([], ['x', '?', 'Q', '?', 'a', '?', '=']) :=
    rfl
  rw [show encodeHeader default ['=', '?', 'x', '?', 'Q', '?', 'a', '?', '='] = ['=', '?', 'x', '?', 'Q', '?', 'a', '?', '=']
    from rfl, decodeWords_cut hcut, List.cons_append, List.cons_append, List.nil_append, hword, bind_some]
  simp only [show splitAt 9 ['=', '?', 'x', '?', 'Q', '?', 'a', '?', '='] =
    some (['=', '?', 'x', '?', 'Q', '?', 'a', '?', '='], []) by decide, bind_some,
    decodeWords_none (show cut ['=', '?'] [] = none from rfl)]
  rfl

end Pluribus.Email
