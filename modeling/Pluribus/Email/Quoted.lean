import Pluribus.Email.Framer

namespace Pluribus.Email

open Lib Pluribus.Core Pluribus.Runtime List Utf8

def stripCr (line : List Char) : List Char := if line.getLast? = some '\r' then line.dropLast else line

def textLines (text : List Char) : List (List Char) := (Text.split '\n' text).map stripCr

def crlfText (text : List Char) : List Char := List.intercalate ['\r', '\n'] (textLines text)

theorem split_ne_nil (c : Char) (text : List Char) : Text.split c text ≠ [] := by
  cases text with
  | nil => exact cons_ne_nil _ _
  | cons d text =>
    unfold Text.split
    split
    · exact cons_ne_nil _ _
    · split <;> exact cons_ne_nil _ _

theorem mem_of_mem_split {c d : Char} {text part : List Char} (h : part ∈ Text.split c text) (hd : d ∈ part) :
    d ∈ text := by
  induction text generalizing part with
  | nil => simp_all [Text.split]
  | cons e text ih =>
    unfold Text.split at h
    split at h
    · rcases mem_cons.mp h with rfl | h
      · cases hd
      · exact mem_cons_of_mem _ (ih h hd)
    · split at h
      · rename_i hnil
        exact absurd hnil (split_ne_nil c text)
      · rename_i first others hsplit
        rcases mem_cons.mp h with rfl | h
        · rcases mem_cons.mp hd with rfl | hd
          · exact mem_cons_self
          · exact mem_cons_of_mem _ (ih (hsplit ▸ mem_cons_self) hd)
        · exact mem_cons_of_mem _ (ih (hsplit ▸ mem_cons_of_mem _ h) hd)

theorem encode_intercalate (separator : List Char) (parts : List (List Char)) :
    encode (intercalate separator parts) = intercalate (encode separator) (parts.map encode) := by
  induction parts with
  | nil => rfl
  | cons part parts ih =>
    cases parts with
    | nil => simp
    | cons next parts =>
      rw [intercalate_cons_cons, map_cons, map_cons, intercalate_cons_cons, encode_append,
        encode_append, ih]
      rfl

theorem encode_crlfText (text : List Char) : encode (crlfText text) = joined ((textLines text).map encode) :=
  encode_intercalate _ _

/-- A text with every line end as CRLF. -/
def normalized : List Char → List Char
  | [] => []
  | '\r' :: '\n' :: rest => '\r' :: '\n' :: normalized rest
  | '\n' :: rest => '\r' :: '\n' :: normalized rest
  | c :: rest => c :: normalized rest

theorem crlfText_end (text : List Char) : crlfText ('\n' :: text) = '\r' :: '\n' :: crlfText text := by
  obtain ⟨first, others, hsplit⟩ := exists_cons_of_ne_nil (split_ne_nil '\n' text)
  simp [crlfText, textLines, Text.split, hsplit, stripCr]

theorem getLast?_cons_of {c : Char} (h : c ≠ '\r') (text : List Char) :
    (c :: text).getLast? = some '\r' ↔ text.getLast? = some '\r' := by
  cases text with
  | nil => simpa using h
  | cons d text => rw [getLast?_cons_cons]

/-- The lines are joined to the normalised text, less a CR that ends it. -/
theorem normalized_eq (text : List Char) :
    normalized text = crlfText text ++ if text.getLast? = some '\r' then ['\r'] else [] := by
  fun_induction normalized text with
  | case1 => rfl
  | case2 rest ih =>
    have hcut : crlfText ('\r' :: '\n' :: rest) = crlfText ('\n' :: rest) := by
      simp [crlfText, textLines, Text.split, stripCr]
    rw [ih, hcut, crlfText_end, getLast?_cons_cons]
    simp only [getLast?_cons_of (show '\n' ≠ '\r' by decide), cons_append]
  | case3 rest ih =>
    rw [ih, crlfText_end]
    simp only [getLast?_cons_of (show '\n' ≠ '\r' by decide), cons_append]
  | case4 c rest hpair hfeed ih =>
    obtain ⟨first, others, hsplit⟩ := exists_cons_of_ne_nil (split_ne_nil '\n' rest)
    have hc : c ≠ '\n' := fun heq => hfeed heq
    have hstrip : stripCr (c :: first) = (if c = '\r' ∧ first = [] then [] else c :: stripCr first) := by
      cases first with
      | nil => by_cases hr : c = '\r' <;> simp [stripCr, hr]
      | cons d first => by_cases hlast : (d :: first).getLast? = some '\r' <;> simp_all [stripCr]
    have hcut : crlfText (c :: rest) = stripCr (c :: first) ++ (crlfText rest).drop (stripCr first).length := by
      cases others <;> simp [crlfText, textLines, Text.split, hc, hsplit]
    by_cases hlone : c = '\r' ∧ first = []
    · -- only the end of the text can follow a CR that no LF follows
      obtain ⟨rfl, rfl⟩ := hlone
      cases rest with
      | nil => rfl
      | cons d rest =>
        refine absurd hsplit ?_
        rw [Text.split, if_neg fun heq : d = '\n' => hpair rest rfl (by rw [heq])]
        split <;> simp
    · have hfirst : crlfText rest = stripCr first ++ (crlfText rest).drop (stripCr first).length := by
        cases others <;> simp [crlfText, textLines, hsplit]
      have hlast : (c :: rest).getLast? = some '\r' ↔ rest.getLast? = some '\r' := by
        by_cases hr : c = '\r'
        · cases rest with
          | nil => exact absurd ⟨hr, (cons.inj hsplit).1.symm⟩ hlone
          | cons d rest => rw [getLast?_cons_cons]
        · exact getLast?_cons_of hr rest
      rw [ih, hcut, hstrip, if_neg hlone, cons_append, ← hfirst]
      simp only [hlast, cons_append]

def hexDigit (n : Nat) : Char := Char.ofNat (if n < 10 then 48 + n else 55 + n)

/-- Whether a byte is written as an escape; white space is when it ends its line. -/
def escapes (b : UInt8) (last : Bool) : Bool :=
  if b = 32 || b = 9 then last else b = 61 || !(0x21 ≤ b && b ≤ 0x7e)

def quotedByte (b : UInt8) (last : Bool) : List Char :=
  if escapes b last then ['=', hexDigit (b.toNat / 16), hexDigit (b.toNat % 16)] else [Char.ofNat b.toNat]

/-- One line of the text from a column on; 76 includes the `=` a soft break adds. -/
def encodeLine (column : Nat) : Bytes → List Char
  | [] => []
  | b :: rest =>
    let quoted := quotedByte b rest.isEmpty
    if 75 < column + quoted.length then ['=', '\r', '\n'] ++ quoted ++ encodeLine quoted.length rest
    else quoted ++ encodeLine (column + quoted.length) rest

def quotedPrintable (text : List Char) : List Char :=
  List.intercalate ['\r', '\n'] ((textLines text).map fun line => encodeLine 0 (Utf8.encode line))

def hexValue (b : UInt8) : Option UInt8 :=
  if 48 ≤ b && b ≤ 57 then some (b - 48)
  else if 65 ≤ b && b ≤ 70 then some (b - 55)
  else if 97 ≤ b && b ≤ 102 then some (b - 87)
  else none

/-- `u8::from_str_radix` of two characters, the first of which may be a plus sign. -/
def hexPair (a b : UInt8) : Option UInt8 :=
  if a = 43 then hexValue b
  else
    match hexValue a, hexValue b with
    | some high, some low => some (16 * high + low)
    | _, _ => none

def decodeQuotedPrintable : Bytes → Bytes
  | [] => []
  | 61 :: 13 :: 10 :: rest => decodeQuotedPrintable rest
  | 61 :: 10 :: rest => decodeQuotedPrintable rest
  | 61 :: a :: b :: rest =>
    match hexPair a b with
    | some byte => byte :: decodeQuotedPrintable rest
    | none => 61 :: decodeQuotedPrintable (a :: b :: rest)
  | b :: rest => b :: decodeQuotedPrintable rest

/-- A line of bytes that stand for themselves and whole escapes; one `=` may end it. -/
def wholeLine : Bytes → Bool
  | [] => true
  | [61] => true
  | 61 :: a :: b :: rest => (hexPair a b).isSome && wholeLine rest
  | b :: rest => b ≠ 61 && wholeLine rest

section

variable (b : UInt8) (last : Bool)

include b last

theorem encode_quotedByte :
    (∃ high low, encode (quotedByte b last) = [61, high, low] ∧ hexPair high low = some b ∧ Plain [high, low]) ∨
      encode (quotedByte b last) = [b] ∧ b ≠ 61 ∧ Plain [b] := by
  have hescape : ∀ n < 256, encode ['=', hexDigit (n / 16), hexDigit (n % 16)] =
      [61, UInt8.ofNat (hexDigit (n / 16)).toNat, UInt8.ofNat (hexDigit (n % 16)).toNat] ∧
      hexPair (UInt8.ofNat (hexDigit (n / 16)).toNat) (UInt8.ofNat (hexDigit (n % 16)).toNat) = some (UInt8.ofNat n) ∧
      Plain [UInt8.ofNat (hexDigit (n / 16)).toNat, UInt8.ofNat (hexDigit (n % 16)).toNat] := by
    decide +kernel
  have hself : ∀ n < 256, ∀ last : Bool, escapes (UInt8.ofNat n) last = false →
      encode [Char.ofNat n] = [UInt8.ofNat n] ∧ UInt8.ofNat n ≠ 61 ∧ Plain [UInt8.ofNat n] := by
    decide +kernel
  unfold quotedByte
  split
  · have hb := hescape b.toNat b.toNat_lt
    rw [UInt8.ofNat_toNat] at hb
    exact .inl ⟨_, _, hb⟩
  · rename_i hescapes
    have hb := hself b.toNat b.toNat_lt last
    rw [UInt8.ofNat_toNat] at hb
    exact .inr (hb (Bool.eq_false_iff.mpr hescapes))

theorem decode_quotedByte (rest : Bytes) :
    decodeQuotedPrintable (encode (quotedByte b last) ++ rest) = b :: decodeQuotedPrintable rest := by
  rcases encode_quotedByte b last with ⟨high, low, hcode, hpair, hplain⟩ | ⟨hcode, hb, -⟩
  · have hhigh : high ≠ 13 ∧ high ≠ 10 := by
      simp only [Plain, mem_cons, not_or] at hplain
      exact ⟨fun h => hplain.1.1 h.symm, fun h => hplain.2.1 h.symm⟩
    rw [hcode]
    simp only [cons_append, nil_append]
    rw [decodeQuotedPrintable, hpair]
    · exact fun h _ => hhigh.1 h
    · exact hhigh.2
  · rw [hcode, singleton_append, decodeQuotedPrintable]
    all_goals simp [hb]

theorem length_quotedByte : (encode (quotedByte b last)).length = (quotedByte b last).length := by
  have hall : ∀ n < 256, ∀ last : Bool, (encode (quotedByte (UInt8.ofNat n) last)).length =
      (quotedByte (UInt8.ofNat n) last).length := by
    decide +kernel
  have hb := hall b.toNat b.toNat_lt last
  rwa [UInt8.ofNat_toNat] at hb

theorem quotedByte_le : (quotedByte b last).length ≤ 3 := by
  unfold quotedByte
  split <;> simp

theorem whole_quotedByte (rest : Bytes) : wholeLine (encode (quotedByte b last) ++ rest) = wholeLine rest := by
  rcases encode_quotedByte b last with ⟨high, low, hcode, hpair, -⟩ | ⟨hcode, hb, -⟩
  · rw [hcode]
    simp [wholeLine, hpair]
  · rw [hcode, singleton_append, wholeLine]
    all_goals simp [hb]

theorem plain_quotedByte : Plain (encode (quotedByte b last)) := by
  rcases encode_quotedByte b last with ⟨high, low, hcode, -, hplain⟩ | ⟨hcode, -, hplain⟩
  · rw [hcode]
    exact plain_append.mpr ⟨(by decide : Plain [61]), hplain⟩
  · rw [hcode]
    exact hplain

end

/-- What comes of one line of the text, after what its first line already has: lines within the limit, none of which
ends within an escape. -/
theorem encodeLine_lines {column : Nat} {bytes line : Bytes} (hplain : Plain line) (hlength : line.length = column)
    (hcolumn : column ≤ 75) (hwhole : ∀ rest, wholeLine (line ++ rest) = wholeLine rest) :
    ∃ lines, lines ≠ [] ∧ line ++ encode (encodeLine column bytes) = joined lines ∧
      ∀ l ∈ lines, Plain l ∧ l.length ≤ 76 ∧ wholeLine l = true := by
  induction bytes generalizing column line with
  | nil =>
    have hend := hwhole []
    rw [append_nil] at hend
    refine ⟨[line], cons_ne_nil _ _, by simp [encodeLine, joined, encode], fun l hl => ?_⟩
    rw [mem_singleton.mp hl]
    exact ⟨hplain, by omega, hend⟩
  | cons b bytes ih =>
    have hbyte := plain_quotedByte b bytes.isEmpty
    have hlen := length_quotedByte b bytes.isEmpty
    have hle := quotedByte_le b bytes.isEmpty
    unfold encodeLine
    by_cases hbreak : 75 < column + (quotedByte b bytes.isEmpty).length
    · -- a soft break ends the line, and the byte begins the next one
      obtain ⟨lines, hne, heq, hlines⟩ := ih hbyte hlen (by omega) fun rest => whole_quotedByte b _ rest
      refine ⟨(line ++ [61]) :: lines, cons_ne_nil _ _, ?_, fun l hl => ?_⟩
      · obtain ⟨next, lines, rfl⟩ := exists_cons_of_ne_nil hne
        simp only [hbreak, if_true, encode_append]
        rw [joined_cons, ← heq]
        simp [crlf]
        rfl
      · rcases mem_cons.mp hl with rfl | hl
        · refine ⟨plain_append.mpr ⟨hplain, by decide⟩, by simp only [length_append, length_singleton]; omega, ?_⟩
          rw [hwhole]
          rfl
        · exact hlines l hl
    · simp only [hbreak, if_false, encode_append, ← append_assoc]
      refine ih (plain_append.mpr ⟨hplain, hbyte⟩) ?_ (by omega) fun rest => ?_
      · rw [length_append, hlen, hlength]
      · rw [append_assoc, hwhole, whole_quotedByte]

theorem decode_encodeLine (column : Nat) (bytes rest : Bytes) :
    decodeQuotedPrintable (encode (encodeLine column bytes) ++ rest) = bytes ++ decodeQuotedPrintable rest := by
  induction bytes generalizing column with
  | nil => rfl
  | cons b bytes ih =>
    unfold encodeLine
    by_cases hbreak : 75 < column + (quotedByte b bytes.isEmpty).length
    · have hsoft : ∀ rest, decodeQuotedPrintable (encode ['=', '\r', '\n'] ++ rest) = decodeQuotedPrintable rest :=
        fun rest => by rw [show encode ['=', '\r', '\n'] = [61, 13, 10] by decide]; simp [decodeQuotedPrintable]
      simp only [hbreak, if_true, encode_append, append_assoc]
      rw [hsoft, decode_quotedByte, ih, cons_append]
    · simp only [hbreak, if_false, encode_append, append_assoc]
      rw [decode_quotedByte, ih, cons_append]

theorem encode_quotedPrintable (text : List Char) : encode (quotedPrintable text) =
    joined ((textLines text).map fun line => encode (encodeLine 0 (encode line))) := by
  rw [quotedPrintable, encode_intercalate, map_map]
  rfl

theorem joined_of_joined {P : Bytes → Prop} {parts : List Bytes} (hne : parts ≠ [])
    (h : ∀ part ∈ parts, ∃ lines, lines ≠ [] ∧ part = joined lines ∧ ∀ l ∈ lines, P l) :
    ∃ lines, lines ≠ [] ∧ joined parts = joined lines ∧ ∀ l ∈ lines, P l := by
  induction parts with
  | nil => exact absurd rfl hne
  | cons part parts ih =>
    obtain ⟨lines, hlines, heq, hall⟩ := h part mem_cons_self
    cases parts with
    | nil => exact ⟨lines, hlines, by simpa [joined] using heq, hall⟩
    | cons next parts =>
      obtain ⟨later, hlater, heq', hall'⟩ := ih (cons_ne_nil _ _) fun part hmem => h part (mem_cons_of_mem _ hmem)
      refine ⟨lines ++ later, fun hnil => hlines (append_eq_nil_iff.mp hnil).1, ?_, fun l hl => ?_⟩
      · rw [joined_cons, heq', heq, joined_append hlines hlater]
      · exact (mem_append.mp hl).elim (hall l) (hall' l)

theorem quotedPrintable_lines (text : List Char) : ∃ lines, lines ≠ [] ∧
    encode (quotedPrintable text) = joined lines ∧ ∀ l ∈ lines, Plain l ∧ l.length ≤ 76 ∧ wholeLine l = true := by
  rw [encode_quotedPrintable]
  refine joined_of_joined ?_ fun part hpart => ?_
  · simpa [textLines] using split_ne_nil '\n' text
  · obtain ⟨line, -, rfl⟩ := mem_map.mp hpart
    exact encodeLine_lines (by decide : Plain []) rfl (Nat.zero_le _) fun _ => rfl

theorem decode_joined (lines : List Bytes) :
    decodeQuotedPrintable (joined (lines.map fun line => encode (encodeLine 0 line))) = joined lines := by
  induction lines with
  | nil => rfl
  | cons line lines ih =>
    cases lines with
    | nil => simpa [joined, decodeQuotedPrintable] using decode_encodeLine 0 line []
    | cons next lines =>
      have hend : ∀ rest, decodeQuotedPrintable (crlf ++ rest) = crlf ++ decodeQuotedPrintable rest :=
        fun rest => by simp [crlf, decodeQuotedPrintable]
      rw [map_cons] at ih
      rw [map_cons, map_cons, joined_cons, joined_cons, append_assoc, decode_encodeLine, hend, ih,
        append_assoc]

theorem decode_quotedPrintable (text : List Char) :
    decodeQuotedPrintable (encode (quotedPrintable text)) = encode (normalized text) ↔ text.getLast? ≠ some '\r' := by
  have hlines := decode_joined ((textLines text).map encode)
  rw [map_map] at hlines
  have hback : decodeQuotedPrintable (encode (quotedPrintable text)) = encode (crlfText text) := by
    rw [encode_quotedPrintable, encode_crlfText]
    exact hlines
  rw [hback, normalized_eq, encode_append, self_eq_append_right]
  split <;> simp_all [encode]

end Pluribus.Email
