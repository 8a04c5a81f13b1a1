import Pluribus.Email.Fetch

namespace Pluribus.Email

open Lib Pluribus.Core Pluribus.Runtime List Utf8 Scan

section Reads

variable {bytes : Bytes}

/-- Bytes inside a list that are read as tokens, whatever comes before and after. -/
def Reads (bytes : Bytes) (tokens : List Token) : Prop :=
  ∀ rest items outer rounds, rest.head? = some 32 ∨ rest.head? = some 41 →
    Scan.run (rounds + tokens.length) ⟨bytes ++ rest, items :: outer⟩ = Scan.run rounds ⟨rest, (items ++ tokens) :: outer⟩

theorem Reads.append {a b : Bytes} {s t : List Token} (ha : Reads a s) (hb : Reads b t) (hsep : b.head? = some 32) :
    Reads (a ++ b) (s ++ t) := by
  intro rest items outer rounds hrest
  obtain ⟨b, hcons⟩ := head?_eq_some_iff.mp hsep
  rw [append_assoc, length_append, Nat.add_comm s.length, ← Nat.add_assoc,
    ha _ _ _ _ (.inl (by rw [hcons]; rfl)), hb _ _ _ _ hrest, append_assoc]

theorem next_space (bytes : Bytes) (stack : List (List Token)) :
    next ⟨32 :: bytes, stack⟩ = next ⟨bytes, stack⟩ := by
  unfold Scan.next
  simp

theorem Reads.space {bytes : Bytes} {token : Token} {tokens : List Token} (h : Reads bytes (token :: tokens)) :
    Reads (32 :: bytes) (token :: tokens) := by
  intro rest items outer rounds hrest
  rw [← h rest items outer rounds hrest, length_cons, ← Nat.add_assoc, cons_append, run, run,
    next_space]

theorem reads_of_next {token : Token} (h : ∀ rest items outer, rest.head? = some 32 ∨ rest.head? = some 41 →
      next ⟨bytes ++ rest, items :: outer⟩ = .more ⟨rest, (items ++ [token]) :: outer⟩) : Reads bytes [token] := by
  intro rest items outer rounds hrest
  rw [length_singleton, run, h rest items outer hrest]

theorem reads_atom (hne : bytes ≠ []) (hatom : ∀ b ∈ bytes, isAtomByte b = true) :
    Reads bytes [.atom (lossy bytes)] := by
  refine reads_of_next fun rest items outer hrest => ?_
  obtain ⟨b, more, rfl⟩ := exists_cons_of_ne_nil hne
  have hb := hatom b mem_cons_self
  have hother : b ≠ 32 ∧ b ≠ 40 ∧ b ≠ 41 ∧ b ≠ 34 ∧ b ≠ 123 := by
    refine ⟨?_, ?_, ?_, ?_, ?_⟩ <;> rintro rfl <;> exact absurd hb (by decide)
  have hstop : ∀ c, rest.head? = some c → isAtomByte c = false := by
    intro c hc
    rcases hrest with h | h <;> rw [h] at hc <;> cases hc <;> rfl
  have htake : (b :: more ++ rest).takeWhile isAtomByte = b :: more := by
    rw [takeWhile_append_of_pos hatom]
    cases rest with
    | nil => simp
    | cons c rest => rw [takeWhile_cons_of_neg (by simp [hstop c rfl]), append_nil]
  have hdrop : (b :: more ++ rest).dropWhile isAtomByte = rest := by
    rw [dropWhile_append_of_pos hatom]
    cases rest with
    | nil => rfl
    | cons c rest => rw [dropWhile_cons_of_neg (by simp [hstop c rfl])]
  have hspaces : (b :: more ++ rest).dropWhile (· = 32) = b :: more ++ rest := by
    rw [cons_append, dropWhile_cons_of_neg (by simpa using hother.1)]
  unfold Scan.next
  simp only [hspaces]
  rw [cons_append] at htake hdrop ⊢
  simp only [hother.2.1, hother.2.2.1, hother.2.2.2.1, hother.2.2.2.2, if_false, decide_false, Bool.false_and,
    Bool.false_eq_true, htake, hdrop, put]

def quote (text : List Char) : Bytes :=
  text.flatMap fun c => if c = '"' ∨ c = '\\' then [92, UInt8.ofNat c.toNat] else [UInt8.ofNat c.toNat]

theorem quotedText_quote {text : List Char} (htext : ∀ c ∈ text, c.toNat < 256) (rest : Bytes) :
    quotedText (quote text ++ 34 :: rest) = some (text, rest) := by
  induction text with
  | nil => rfl
  | cons c text ih =>
    have hcode : (UInt8.ofNat c.toNat).toNat = c.toNat := by
      have := htext c mem_cons_self
      rw [UInt8.toNat_ofNat']
      omega
    have hrest := ih fun d hd => htext d (mem_cons_of_mem _ hd)
    by_cases hescaped : c = '"' ∨ c = '\\'
    · have hquote : quote (c :: text) ++ 34 :: rest = 92 :: UInt8.ofNat c.toNat :: (quote text ++ 34 :: rest) := by
        simp [quote, hescaped]
      rw [hquote, quotedText, hrest]
      simp [hcode, Char.ofNat_toNat]
    · have hquote : quote (c :: text) ++ 34 :: rest = UInt8.ofNat c.toNat :: (quote text ++ 34 :: rest) := by
        simp [quote, hescaped]
      have hne : ∀ d : Char, d.toNat < 256 → c ≠ d → UInt8.ofNat c.toNat ≠ UInt8.ofNat d.toNat := by
        intro d hd hcd heq
        have := congrArg UInt8.toNat heq
        rw [hcode, UInt8.toNat_ofNat', Nat.mod_eq_of_lt hd] at this
        exact hcd (Char.toNat_inj.mp this)
      have hbackslash : UInt8.ofNat c.toNat ≠ 92 := hne '\\' (by decide) fun h => hescaped (.inr h)
      have hend : UInt8.ofNat c.toNat ≠ 34 := hne '"' (by decide) fun h => hescaped (.inl h)
      rw [hquote, quotedText, hrest]
      · simp [hcode, Char.ofNat_toNat]
      · exact fun h _ => hbackslash h
      · exact fun _ _ h _ => hbackslash h
      · exact hend

theorem reads_quoted {text : List Char} (htext : ∀ c ∈ text, c.toNat < 256) :
    Reads (34 :: (quote text ++ [34])) [.quoted text] := by
  refine reads_of_next fun rest items outer _ => ?_
  have hquoted := quotedText_quote htext rest
  unfold Scan.next
  simp [hquoted, put]

theorem reads_literal (plus : Bool) (h : bytes.length ≤ 4294967295) :
    Reads (123 :: (digits bytes.length ++ (if plus then [43, 125] else [125])) ++ bytes) [.literal bytes] := by
  refine reads_of_next fun rest items outer _ => ?_
  have hplain : ∀ b : UInt8, isDigit b = false → b ∉ digits bytes.length :=
    fun b hb hmem => Bool.false_ne_true (hb.symm.trans (isDigit_of_mem_digits hmem))
  have hread : literalBytes (digits bytes.length ++ (if plus then [43, 125] else [125]) ++ bytes ++ rest) =
      .ok (bytes, rest) := by
    have hcount : ∃ count, cut [125] (digits bytes.length ++ (if plus then [43, 125] else [125]) ++ bytes ++ rest) =
        some (count, bytes ++ rest) ∧ stripPlus count = digits bytes.length := by
      cases plus with
      | true =>
        refine ⟨digits bytes.length ++ [43], ?_, by simp [stripPlus]⟩
        have hcut := cut_of_not_mem (c := 125) (p := []) (a := digits bytes.length ++ [43]) (b := bytes ++ rest) (by
          simp [hplain 125 rfl])
        simpa using hcut
      | false =>
        refine ⟨digits bytes.length, ?_, ?_⟩
        · have hcut := cut_of_not_mem (c := 125) (p := []) (a := digits bytes.length) (b := bytes ++ rest) (hplain 125 rfl)
          simpa using hcut
        · exact if_neg fun hlast => hplain 43 rfl (mem_of_getLast? hlast)
    obtain ⟨count, hcut, hstrip⟩ := hcount
    rw [literalBytes, hcut]
    simp [hstrip, parseUsize_digits h]
  unfold Scan.next
  rw [cons_append, cons_append, dropWhile_cons_of_neg (by decide)]
  simp only [hread, show (123 : UInt8) ≠ 40 by decide, show (123 : UInt8) ≠ 34 by decide, if_false, if_true, put]

end Reads

section Items

/-- What a reply to FETCH tells of a message; the body comes as a literal. -/
inductive Item where
  | uid (n : Nat)
  | date (text : List Char)
  | body (part : List Char) (bytes : Bytes) (plus : Bool)

def Item.head : Item → Bytes
  | .uid n => Utf8.encode "UID".toList ++ 32 :: digits n
  | .date text => Utf8.encode "INTERNALDATE".toList ++ 32 :: 34 :: (quote text ++ [34])
  | .body part _ _ => Utf8.encode ("BODY[".toList ++ part ++ "]".toList) ++ [32]

/-- The lines and literals of the items, after what the line already has. -/
def arrange (text : Bytes) : List Item → Reply
  | [] => ⟨[], text ++ [41]⟩
  | .body part bytes plus :: items =>
    let rest := arrange (if items.isEmpty then [] else [32]) items
    ⟨⟨text ++ (Item.body part bytes plus).head, bytes, plus⟩ :: rest.pieces, rest.last⟩
  | item :: items => arrange (text ++ item.head ++ if items.isEmpty then [] else [32]) items

def fetchReply (number : Nat) (items : List Item) : Reply :=
  arrange (Utf8.encode "* ".toList ++ digits number ++ Utf8.encode " FETCH (".toList) items

def Item.tokens : Item → List Token
  | .uid n => [.atom "UID".toList, .atom n.repr.toList]
  | .date text => [.atom "INTERNALDATE".toList, .quoted text]
  | .body part bytes _ => [.atom ("BODY[".toList ++ part ++ "]".toList), .literal bytes]

def Item.bytes : Item → Bytes
  | .body part bytes plus => (⟨(Item.body part bytes plus).head, bytes, plus⟩ : Piece).line ++ bytes
  | item => item.head

/-- Numbers of 64 bits, dates of bytes without line ends, the names of parts without a delimiter. -/
def Item.Ok : Item → Prop
  | .uid n => n ≤ u64Max
  | .date text => ∀ c ∈ text, c.toNat < 256 ∧ c ≠ '\r' ∧ c ≠ '\n'
  | .body part bytes _ => (∀ b ∈ Utf8.encode part, isAtomByte b = true) ∧ bytes.length ≤ 4294967295

def Item.set (item : Item) (fetched : FetchItems) : FetchItems :=
  match item with
  | .uid n => { fetched with uid := some n }
  | .date text => { fetched with internalDate := some (String.ofList text) }
  | .body _ bytes _ => { fetched with body := some bytes }

theorem reads_pair {name value : Bytes} {token : Token} (hne : name ≠ []) (hname : ∀ b ∈ name, isAtomByte b = true)
    (hvalue : Reads value [token]) : Reads (name ++ 32 :: value) [.atom (lossy name), token] :=
  (reads_atom hne hname).append hvalue.space rfl

variable {item : Item}

theorem reads_item (h : item.Ok) : Reads item.bytes item.tokens := by
  cases item with
  | uid uid =>
    have hdigits : ∀ b ∈ digits uid, isAtomByte b = true := by
      intro b hb
      have hdigit := isDigit_of_mem_digits hb
      by_contra hatom
      have hlist : b ∈ [(32 : UInt8), 40, 41, 34, 123, 13, 10] := by
        rw [isAtomByte, Bool.not_eq_true', Bool.not_eq_false, contains_iff_mem] at hatom
        exact hatom
      have hno := all_eq_true.mp (by decide : [(32 : UInt8), 40, 41, 34, 123, 13, 10].all (!isDigit ·) = true) b hlist
      rw [hdigit] at hno
      cases hno
    have hvalue := reads_atom (digits_ne_nil uid) hdigits
    rw [digits, lossy_encode, ← digits] at hvalue
    exact reads_pair (by decide : encode "UID".toList ≠ []) (all_eq_true.mp (by decide)) hvalue
  | date text =>
    exact reads_pair (by decide : encode "INTERNALDATE".toList ≠ []) (all_eq_true.mp (by decide))
      (reads_quoted fun c hc => (h c hc).1)
  | body part bytes plus =>
    have hname : ∀ b ∈ encode ("BODY[".toList ++ part ++ "]".toList), isAtomByte b = true := by
      have hopen : ∀ b ∈ encode "BODY[".toList, isAtomByte b = true := all_eq_true.mp (by decide)
      have hclose : ∀ b ∈ encode "]".toList, isAtomByte b = true := all_eq_true.mp (by decide)
      intro b hb
      rw [encode_append, encode_append, mem_append, mem_append] at hb
      rcases hb with (hb | hb) | hb
      · exact hopen b hb
      · exact h.1 b hb
      · exact hclose b hb
    have hne : encode ("BODY[".toList ++ part ++ "]".toList) ≠ [] := by
      intro hnil
      rw [encode_append, encode_append, append_eq_nil_iff] at hnil
      exact absurd hnil.2 (by decide)
    have hpair := reads_pair hne hname (reads_literal plus h.2)
    rw [lossy_encode] at hpair
    simpa [Item.bytes, Piece.line, Item.head, Item.tokens] using hpair

def listing (items : List Item) : Bytes := List.intercalate [32] (items.map Item.bytes)

theorem listing_cons (item : Item) (items : List Item) :
    listing (item :: items) = item.bytes ++ (if items.isEmpty then [] else [32]) ++ listing items := by
  cases items <;> simp [listing]

theorem bytes_arrange (text : Bytes) (items : List Item) : (arrange text items).bytes = text ++ listing items ++ [41] := by
  induction items generalizing text with
  | nil => simp [arrange, Reply.bytes, listing]
  | cons item items ih =>
    rw [listing_cons]
    cases item with
    | body part bytes plus =>
      have hrest := ih (if items.isEmpty then [] else [32])
      simp only [arrange, Reply.bytes, flatMap_cons, append_assoc] at hrest ⊢
      rw [hrest]
      simp [Item.bytes, Piece.line]
    | _ => simp [arrange, ih, Item.bytes]

variable {items : List Item}

theorem reads_listing (h : ∀ item ∈ items, item.Ok) : Reads (listing items) (items.flatMap Item.tokens) := by
  induction items with
  | nil =>
    intro rest items outer rounds _
    simp [listing]
  | cons item items ih =>
    have hitem := reads_item (h item mem_cons_self)
    have hitems := ih fun item hmem => h item (mem_cons_of_mem _ hmem)
    rw [listing_cons, flatMap_cons]
    cases items with
    | nil => simpa [listing] using hitem
    | cons next items =>
      have hspace : Reads (32 :: listing (next :: items)) ((next :: items).flatMap Item.tokens) := by
        cases next <;> exact @Reads.space _ _ (_ :: _) hitems
      simpa using hitem.append hspace rfl

theorem read_item (h : item.Ok) (fetched : FetchItems) (rest : List Token) :
    fetched.read (item.tokens ++ rest) = (item.set fetched).read rest := by
  cases item with
  | uid uid =>
    have hparse := parseU64_repr h
    simp only [Item.tokens, Item.set, cons_append, nil_append, FetchItems.read, FetchItems.set, hparse]
    rfl
  | date text =>
    simp [Item.tokens, Item.set, FetchItems.read, FetchItems.set]
  | body part bytes plus =>
    have hname : ("BODY[".toList.map Char.toUpper) = "BODY[".toList := by decide
    have hprefix : "BODY[".toList.isPrefixOf (("BODY[".toList ++ part ++ "]".toList).map Char.toUpper) = true := by
      rw [map_append, map_append, hname, isPrefixOf_iff_prefix, append_assoc]
      exact prefix_append _ _
    simp only [Item.tokens, Item.set, cons_append, nil_append, FetchItems.read, FetchItems.set, hprefix,
      Bool.true_or, if_true]

theorem read_tokens (h : ∀ item ∈ items, item.Ok) (fetched : FetchItems) :
    fetched.read (items.flatMap Item.tokens) = items.foldl (fun fetched item => item.set fetched) fetched := by
  induction items generalizing fetched with
  | nil => rfl
  | cons item items ih =>
    rw [flatMap_cons, read_item (h item mem_cons_self), foldl_cons,
      ih fun item hmem => h item (mem_cons_of_mem _ hmem)]

theorem fetchList_reply (number : Nat) (items : List Item) :
    fetchList (fetchReply number items).bytes = some (40 :: (listing items ++ [41])) := by
  have hbytes : (fetchReply number items).bytes = encode "* ".toList ++
      (encode (number.repr.toList ++ " FETCH ".toList) ++ 40 :: [] ++ (listing items ++ [41])) := by
    rw [fetchReply, bytes_arrange, encode_append]
    simp [digits, encode]
    rfl
  have hcut := cut_of_not_mem (c := 40) (p := []) (a := encode (number.repr.toList ++ " FETCH ".toList))
    (b := listing items ++ [41]) (by
      intro hmem
      have hchar := mem_encode (by decide) hmem
      rcases mem_append.mp hchar with hdigit | hword
      · exact absurd (toNat_of_mem_repr hdigit) (by decide)
      · exact absurd hword (by decide))
  have hwithin : (cut "FETCH".toList ((number.repr.toList ++ " FETCH ".toList).map Char.toUpper)).isSome = true := by
    rw [cut_isSome_iff]
    refine ⟨number.repr.toList.map Char.toUpper ++ [' '], [' '], ?_⟩
    simp
  rw [fetchList, hbytes, if_pos (by simp)]
  simp only [show (encode "* ".toList ++ (encode (number.repr.toList ++ " FETCH ".toList) ++ 40 :: [] ++
    (listing items ++ [41]))).drop 2 = encode (number.repr.toList ++ " FETCH ".toList) ++ 40 :: [] ++
    (listing items ++ [41]) from rfl, hcut, lossy_encode, hwithin, if_true]

theorem parseFetch_reply (number : Nat) (h : ∀ item ∈ items, item.Ok) (rounds : Nat) :
    parseFetch (rounds + (items.flatMap Item.tokens).length + 2) (fetchReply number items).bytes =
      some (.ok (some (items.foldl (fun fetched item => item.set fetched) ⟨none, none, none, none⟩))) := by
  have hopen : ∀ n, run (n + 1) ⟨40 :: (listing items ++ [41]), []⟩ = run n ⟨listing items ++ [41], [[]]⟩ :=
    fun n => rfl
  have hclose : run (rounds + 1) ⟨[41], [items.flatMap Item.tokens]⟩ =
      some (.ok (.list (items.flatMap Item.tokens))) := rfl
  have hrun : run (rounds + (items.flatMap Item.tokens).length + 2) ⟨40 :: (listing items ++ [41]), []⟩ =
      some (.ok (.list (items.flatMap Item.tokens))) := by
    rw [hopen, Nat.add_right_comm, reads_listing h [41] [] [] (rounds + 1) (.inr rfl)]
    exact hclose
  rw [parseFetch, fetchList_reply]
  simp only [hrun, Option.map_some, Except.map, read_tokens h]

theorem plain_quote {text : List Char} (h : ∀ c ∈ text, c.toNat < 256 ∧ c ≠ '\r' ∧ c ≠ '\n') : Plain (quote text) := by
  have hbyte : ∀ d : Char, d.toNat < 128 → d ≠ '\\' → (∀ c ∈ text, c ≠ d) → UInt8.ofNat d.toNat ∉ quote text := by
    intro d hd hslash hall hmem
    obtain ⟨c, hc, hin⟩ := mem_flatMap.mp hmem
    have heq : UInt8.ofNat d.toNat = UInt8.ofNat c.toNat ∨ UInt8.ofNat d.toNat = UInt8.ofNat '\\'.toNat := by
      split at hin
      · rcases mem_cons.mp hin with heq | hin
        · exact .inr heq
        · exact .inl (mem_singleton.mp hin)
      · exact .inl (mem_singleton.mp hin)
    rcases heq with heq | heq
    · have hnat := congrArg UInt8.toNat heq
      have hcode := (h c hc).1
      rw [UInt8.toNat_ofNat', UInt8.toNat_ofNat', Nat.mod_eq_of_lt hcode, Nat.mod_eq_of_lt (by omega)] at hnat
      exact hall c hc (Char.toNat_inj.mp hnat.symm)
    · have hnat := congrArg UInt8.toNat heq
      rw [UInt8.toNat_ofNat', UInt8.toNat_ofNat', Nat.mod_eq_of_lt (by omega), Nat.mod_eq_of_lt (by decide)] at hnat
      exact hslash (Char.toNat_inj.mp hnat)
  exact ⟨hbyte '\r' (by decide) (by decide) fun c hc => (h c hc).2.1,
    hbyte '\n' (by decide) (by decide) fun c hc => (h c hc).2.2⟩

theorem plain_digits (n : Nat) : Plain (digits n) :=
  ⟨fun hmem => absurd (isDigit_of_mem_digits hmem) (by decide), fun hmem => absurd (isDigit_of_mem_digits hmem) (by decide)⟩

theorem plain_head (h : item.Ok) : Plain item.head := by
  cases item with
  | uid n => exact plain_append.mpr ⟨plain_encode (by decide), plain_append.mpr ⟨(by decide : Plain [32]), plain_digits n⟩⟩
  | date text =>
    exact plain_append.mpr ⟨plain_encode (by decide),
      plain_append.mpr ⟨(by decide : Plain [32, 34]), plain_append.mpr ⟨plain_quote h, (by decide)⟩⟩⟩
  | body part bytes plus =>
    have hpart : Plain (encode part) :=
      ⟨fun hmem => absurd (h.1 13 hmem) (by decide), fun hmem => absurd (h.1 10 hmem) (by decide)⟩
    rw [Item.head, encode_append, encode_append, plain_append, plain_append, plain_append]
    exact ⟨⟨⟨plain_encode (by decide), hpart⟩, plain_encode (by decide)⟩, by decide⟩

theorem arrange_plain (h : ∀ item ∈ items, item.Ok) {text : Bytes} (htext : Plain text) :
    (∀ piece ∈ (arrange text items).pieces, Plain piece.text) ∧ Plain (arrange text items).last ∧
      (arrange text items).last.getLast? = some 41 := by
  have hspace (items : List Item) : Plain (if items.isEmpty then [] else [32]) := by
    split <;> decide
  induction items generalizing text with
  | nil => exact ⟨by simp [arrange], plain_append.mpr ⟨htext, by decide⟩, by simp [arrange]⟩
  | cons item items ih =>
    have hhead := plain_head (h item mem_cons_self)
    have hitems : ∀ item ∈ items, item.Ok := fun item hmem => h item (mem_cons_of_mem _ hmem)
    cases item with
    | body part bytes plus =>
      obtain ⟨hpieces, hlast⟩ := ih hitems (hspace items)
      refine ⟨fun piece hmem => ?_, hlast⟩
      rcases mem_cons.mp hmem with rfl | hmem
      · exact plain_append.mpr ⟨htext, hhead⟩
      · exact hpieces piece hmem
    | _ => exact ih hitems (plain_append.mpr ⟨plain_append.mpr ⟨htext, hhead⟩, hspace items⟩)

theorem literalLength_bracket {line : Bytes} (h : line.getLast? = some 41) : literalLength line = none := by
  obtain ⟨before, rfl⟩ := getLast?_eq_some_iff.mp h
  simp [literalLength]

theorem fetchReply_fits {number : Nat} (h : ∀ item ∈ items, item.Ok)
    (hresponse : (fetchReply number items).bytes.length ≤ MAX_RESPONSE)
    (hbuffered : (fetchReply number items).wire.length ≤ MAX_BUFFERED) : (fetchReply number items).Fits := by
  have hplain : Plain (encode "* ".toList ++ digits number ++ encode " FETCH (".toList) :=
    plain_append.mpr ⟨plain_append.mpr ⟨by decide, plain_digits number⟩, by decide⟩
  obtain ⟨htexts, hlast, hends⟩ := arrange_plain h hplain
  exact ⟨htexts, hlast, literalLength_bracket hends, hresponse, hbuffered⟩

theorem length_le_listing (h : item ∈ items) : item.bytes.length ≤ (listing items).length := by
  induction items with
  | nil => cases h
  | cons first items ih =>
    rw [listing_cons, length_append, length_append]
    rcases mem_cons.mp h with rfl | h
    · omega
    · have := ih h
      omega

end Items

/-- The framer yields the responses whatever the cuts, if the last line of each announces no literal; a reply to FETCH is
read back to its UID, its date and its body, byte for byte. -/
theorem framing_exact :
    (∀ (replies : List Reply) (chunks : List Bytes), (∀ reply ∈ replies, reply.Fits) →
      chunks.flatten = replies.flatMap Reply.wire →
      Framer.new.receive chunks = .ok (replies.map Reply.bytes, .new)) ∧
    ∀ (number uid : Nat) (date part : List Char) (body : Bytes) (plus : Bool) (items : List Item) (chunks : List Bytes),
      items.Perm [.uid uid, .date date, .body part body plus] → uid ≤ u64Max →
      (∀ c ∈ date, c.toNat < 256 ∧ c ≠ '\r' ∧ c ≠ '\n') → (∀ b ∈ Utf8.encode part, isAtomByte b = true) →
      (fetchReply number items).bytes.length ≤ MAX_RESPONSE → (fetchReply number items).wire.length ≤ MAX_BUFFERED →
      chunks.flatten = (fetchReply number items).wire →
      Framer.new.receive chunks = .ok ([(fetchReply number items).bytes], .new) ∧
      ∃ rounds, ∀ more, parseFetch (more + rounds) (fetchReply number items).bytes =
        some (.ok (some ⟨some uid, none, some (String.ofList date), some body⟩)) := by
  have hyields : ∀ (replies : List Reply) (chunks : List Bytes), (∀ reply ∈ replies, reply.Fits) →
      chunks.flatten = replies.flatMap Reply.wire → Framer.new.receive chunks = .ok (replies.map Reply.bytes, .new) := by
    intro replies chunks hfits hwire
    refine receive_replies hfits ?_ hwire
    cases replies with
    | nil => exact .inl ⟨rfl, rfl⟩
    | cons reply later => exact .inr ⟨reply, later, reply.wire, rfl, by simp [Reply.wire, crlf], rfl⟩
  refine ⟨hyields, ?_⟩
  · intro number uid date part body plus items chunks hperm huid hdate hpart hresponse hbuffered hwire
    have hbody : body.length ≤ 4294967295 := by
      have hmem : Item.body part body plus ∈ items := hperm.mem_iff.mpr (by simp)
      have hlength := length_le_listing hmem
      have hle : (fetchReply number items).bytes.length ≤ 8388608 := hresponse
      rw [fetchReply, bytes_arrange] at hle
      simp only [Item.bytes, length_append] at hlength hle
      omega
    have hok : ∀ item ∈ items, item.Ok := by
      intro item hmem
      have hitem := hperm.mem_iff.mp hmem
      simp only [mem_cons, not_mem_nil, or_false] at hitem
      rcases hitem with rfl | rfl | rfl
      · exact huid
      · exact hdate
      · exact ⟨hpart, hbody⟩
    have hset : items.foldl (fun fetched item => item.set fetched) (⟨none, none, none, none⟩ : FetchItems) =
        ⟨some uid, none, some (String.ofList date), some body⟩ := by
      refine (hperm.foldl_eq' ?_ _).trans rfl
      intro a ha b hb fetched
      have ha := hperm.mem_iff.mp ha
      have hb := hperm.mem_iff.mp hb
      simp only [mem_cons, not_mem_nil, or_false] at ha hb
      rcases ha with rfl | rfl | rfl <;> rcases hb with rfl | rfl | rfl <;> rfl
    refine ⟨?_, (items.flatMap Item.tokens).length + 2, fun more => ?_⟩
    · refine hyields [fetchReply number items] chunks (fun reply hmem => ?_) (by simpa using hwire)
      rw [mem_singleton.mp hmem]
      exact fetchReply_fits hok hresponse hbuffered
    · rw [← hset]
      exact parseFetch_reply number hok more

/-- A message with a line that looks like the end of the reply. -/
def sampleItems : List Item :=
  [.date "17-Jul-1996 02:44:25 -0700".toList, .body "HEADER".toList (Utf8.encode "a\r\n)\r\n".toList) false, .uid 7]

theorem framing_exact_body :
    let reply := fetchReply 1 sampleItems
    Framer.new.receive [reply.wire.take 60, reply.wire.drop 60] = .ok ([reply.bytes], .new) ∧
      ∃ rounds, parseFetch rounds reply.bytes = some (.ok (some
        ⟨some 7, none, some (String.ofList "17-Jul-1996 02:44:25 -0700".toList), some (Utf8.encode "a\r\n)\r\n".toList)⟩)) := by
  intro reply
  obtain ⟨hframed, rounds, hparsed⟩ := framing_exact.2 1 7 _ _ _ false sampleItems [reply.wire.take 60, reply.wire.drop 60]
    (.trans (.cons _ (.swap _ _ _)) (.swap _ _ _)) (by decide) (by simp) (by decide +kernel) (by decide +kernel) (by decide +kernel)
    (by simp [reply])
  exact ⟨hframed, _, hparsed 0⟩

/-- A response whose last line ends like the announcement of a literal is not yielded: the framer waits for more. -/
theorem announcement_waits :
    let reply : Reply := ⟨[], Utf8.encode "* OK \x7b1\x7d".toList⟩
    Plain reply.last ∧ reply.bytes.length ≤ MAX_RESPONSE ∧ reply.wire.length ≤ MAX_BUFFERED ∧
      Framer.new.receive [reply.wire] = .ok ([], ⟨reply.wire⟩) := by
  intro reply
  have hwaits : takeFrom [] reply.wire = .ok none := by
    rw [takeFrom]
    rfl
  have hdrain : Framer.drain ⟨reply.wire⟩ = .ok ([], ⟨reply.wire⟩) := drain_none hwaits
  refine ⟨by decide, by decide, by decide, ?_⟩
  have hpush : Framer.new.push reply.wire = .ok ⟨reply.wire⟩ := rfl
  simp only [Framer.receive, hpush, hdrain]
  rfl

end Pluribus.Email
