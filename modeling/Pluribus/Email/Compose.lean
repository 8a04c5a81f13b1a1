import Mathlib.Data.List.Forall2
import Mathlib.Data.List.TakeWhile
import Pluribus.Email.Words

namespace Pluribus.Email

open Lib Lib.Slice Pluribus.Core Pluribus.Runtime List Utf8

structure Outgoing where
  messageId : List Char
  date : List Char
  from_ : List Char
  displayName : Option (List Char)
  to_ : List (List Char)
  cc : List (List Char)
  subject : List Char
  inReplyTo : Option (List Char)
  references : List (List Char)
  text : List Char

inductive WriteError where
  | headerTooLong
deriving DecidableEq, Repr

/-- The tokens of a value from a column on, where the name and its colon take `start` columns. -/
def foldTokens (start column : Nat) : List (List Char) → Except WriteError (List Char)
  | [] => .ok []
  | token :: tokens =>
    if 997 < size token || (column = start && 998 < column + 1 + size token) then .error .headerTooLong
    else if 78 < column + 1 + size token && start < column then
      (foldTokens start (1 + size token) tokens).map fun rest => ['\r', '\n', ' '] ++ token ++ rest
    else (foldTokens start (column + 1 + size token) tokens).map fun rest => ' ' :: token ++ rest

def fold (name value : List Char) : Except WriteError (List Char) :=
  if (Text.trim value).isEmpty then .ok (name ++ [':', '\r', '\n'])
  else
    (foldTokens (size name + 1) (size name + 1) (Text.split ' ' (Text.trim value))).map fun rest =>
      name ++ ':' :: rest ++ ['\r', '\n']

def escapeQuoted (name : List Char) : List Char :=
  (dropEnds name).flatMap fun c => if c = '"' || c = '\\' then ['\\', c] else [c]

def mailbox (codec : Base64) (displayName : Option (List Char)) (address : List Char) : List Char :=
  match displayName.filter fun name => !(Text.trim name).isEmpty with
  | none => address
  | some name =>
    if isAscii name then '"' :: escapeQuoted name ++ ['"', ' ', '<'] ++ address ++ ['>']
    else encodeHeader codec name ++ [' ', '<'] ++ address ++ ['>']

def addressList (addresses : List (List Char)) : List Char := List.intercalate [',', ' '] addresses

def trimEnd (p : Char → Bool) (text : List Char) : List Char := (text.reverse.dropWhile p).reverse

def angle (id : List Char) : List Char :=
  let trimmed := Text.trim (trimEnd (· = '>') ((Text.trim id).dropWhile (· = '<')))
  '<' :: (trimmed.filter fun c => !Text.isSpace c && c ≠ '<' && c ≠ '>' && c ≠ '\r' && c ≠ '\n') ++ ['>']

def headers (codec : Base64) (m : Outgoing) : List (List Char × List Char) :=
  [("Date".toList, m.date), ("From".toList, mailbox codec m.displayName m.from_), ("To".toList, addressList m.to_)] ++
    (if m.cc.isEmpty then [] else [("Cc".toList, addressList m.cc)]) ++
    [("Subject".toList, encodeHeader codec m.subject), ("Message-Id".toList, angle m.messageId)] ++
    (m.inReplyTo.map fun parent => ("In-Reply-To".toList, angle parent)).toList ++
    (if m.references.isEmpty then [] else [("References".toList, List.intercalate [' '] (m.references.map angle))])

def isSevenBit (text : List Char) : Bool :=
  (textLines text).all fun line => size line ≤ 78 && !(line.getLast? = some ' ' || line.getLast? = some '\t') &&
    line.all fun c => c = '\t' || (0x20 ≤ c.toNat && c.toNat ≤ 0x7e)

def bodyHeaders (text : List Char) : List (List Char) :=
  ["MIME-Version: 1.0".toList, "Content-Type: text/plain; charset=\"utf-8\"".toList,
    if isSevenBit text then "Content-Transfer-Encoding: 7bit".toList
    else "Content-Transfer-Encoding: quoted-printable".toList]

def bodyText (text : List Char) : List Char := if isSevenBit text then crlfText text else quotedPrintable text

def write (codec : Base64) (m : Outgoing) : Except WriteError Bytes := do
  let folded ← (headers codec m).mapM fun field => fold field.1 field.2
  let out := folded.flatten ++ (bodyHeaders m.text).flatMap (· ++ ['\r', '\n']) ++ ['\r', '\n'] ++ bodyText m.text
  return Utf8.encode (if ['\r', '\n'].isSuffixOf out then out else out ++ ['\r', '\n'])

def validAddress (value : List Char) : Bool :=
  match cut ['@'] value with
  | none => false
  | some (local', domain) =>
    if '@' ∈ domain || 320 < size value || local'.isEmpty || size domain < 3 then false
    else !(value.any fun c => Text.isSpace c || c.toNat < 32 || (127 ≤ c.toNat && c.toNat < 160) || 128 ≤ c.toNat ||
        c ∈ ['<', '>', ',', ';', ':', '"', '\\', '(', ')']) &&
      '.' ∈ domain && domain.head? ≠ some '.' && domain.getLast? ≠ some '.'

/-- The proleptic Gregorian date so many days after 1970-01-01. -/
def civilFromDays (days : Int) : Int × Nat × Nat :=
  let shifted := days + 719468
  let era := shifted / 146097
  let dayOfEra := shifted % 146097
  let yearOfEra := (dayOfEra - dayOfEra.tdiv 1460 + dayOfEra.tdiv 36524 - dayOfEra.tdiv 146096).tdiv 365
  let dayOfYear := dayOfEra - (365 * yearOfEra + yearOfEra.tdiv 4 - yearOfEra.tdiv 100)
  let shiftedMonth := (5 * dayOfYear + 2).tdiv 153
  let day := dayOfYear - (153 * shiftedMonth + 2).tdiv 5 + 1
  let month := if shiftedMonth < 10 then shiftedMonth + 3 else shiftedMonth - 9
  (yearOfEra + era * 400 + if month ≤ 2 then 1 else 0, month.toNat, day.toNat)

def twoDigits (n : Nat) : List Char := if n < 10 then '0' :: n.repr.toList else n.repr.toList

def dateText (weekday name : String) (year : Int) (day hour minute second : Nat) : List Char :=
  weekday.toList ++ [',', ' '] ++ day.repr.toList ++ [' '] ++ name.toList ++ [' '] ++ (toString year).toList ++ [' '] ++
    twoDigits hour ++ [':'] ++ twoDigits minute ++ [':'] ++ twoDigits second ++ " +0000".toList

def weekdays : List String := ["Thu", "Fri", "Sat", "Sun", "Mon", "Tue", "Wed"]

def months : List String := ["Jan", "Feb", "Mar", "Apr", "May", "Jun", "Jul", "Aug", "Sep", "Oct", "Nov", "Dec"]

/-- The date of an epoch millisecond; there is none where an index is out of range. -/
def rfc5322Date (ms : Int) : Option (List Char) :=
  let days := ms / 86400000
  let rest := (ms % 86400000).toNat / 1000
  let (year, month, day) := civilFromDays days
  weekdays[(days % 7).toNat]?.bind fun weekday =>
    months[month - 1]?.map fun name => dateText weekday name year day (rest / 3600) (rest / 60 % 60) (rest % 60)

def dotStuff (message : Bytes) : Bytes :=
  let body := if crlf.isSuffixOf message then message.take (message.length - 2) else message
  (wireLines body).flatMap (fun line => (if line.head? = some 46 then [46] else []) ++ line ++ crlf) ++ [46, 13, 10]

/-- What the endpoint reads: the lines up to the one that is a dot, each without the dot it begins with. -/
def unstuff : List Bytes → Option (List Bytes)
  | [] => none
  | line :: lines =>
    if line = [46] then some []
    else (unstuff lines).map ((if line.head? = some 46 then line.tail else line) :: ·)

/-- What a header says: its name, a colon, and its value after one space if there is one. -/
def unfolded (name value : List Char) : List Char :=
  name ++ ':' :: if (Text.trim value).isEmpty then [] else ' ' :: Text.trim value

/-- A line that begins with a space goes on with the field before it. -/
def addLine (fields : List Bytes) (line : Bytes) : List Bytes :=
  if line.head? = some 32 then fields.dropLast ++ [fields.getLastD [] ++ line] else fields ++ [line]

def headerFields (message : Bytes) : List Bytes := ((wireLines message).takeWhile (!·.isEmpty)).foldl addLine []

def unfoldText : Bytes → Bytes
  | [] => []
  | 13 :: 10 :: 32 :: rest => 32 :: unfoldText rest
  | b :: rest => b :: unfoldText rest

def Folds (lines : List Bytes) (field : Bytes) : Prop :=
  ∃ first rest, lines = first :: rest ∧ first.head?.any (· ≠ 32) = true ∧ (∀ line ∈ rest, line.head? = some 32) ∧
    first ++ rest.flatten = field

theorem foldl_addLine {lines : List Bytes} {field : Bytes} (h : Folds lines field) (fields : List Bytes) :
    lines.foldl addLine fields = fields ++ [field] := by
  obtain ⟨first, rest, rfl, hfirst, hrest, rfl⟩ := h
  have hstart : addLine fields first = fields ++ [first] := by
    refine if_neg fun hhead => ?_
    rw [hhead] at hfirst
    exact absurd hfirst (by decide)
  have hmore : ∀ line, rest.foldl addLine (fields ++ [line]) = fields ++ [line ++ rest.flatten] := by
    induction rest with
    | nil => simp
    | cons next rest ih =>
      intro line
      have hnext : addLine (fields ++ [line]) next = fields ++ [line ++ next] := by
        rw [addLine, if_pos (hrest next mem_cons_self)]
        simp
      rw [foldl_cons, hnext, ih fun l hl => hrest l (mem_cons_of_mem _ hl)]
      simp
  rw [foldl_cons, hstart, hmore]

theorem unfoldText_plain {line : Bytes} (h : Plain line) (rest : Bytes) :
    unfoldText (line ++ rest) = line ++ unfoldText rest := by
  induction line with
  | nil => rfl
  | cons b line ih =>
    have hb : b ≠ 13 := fun heq => h.1 (heq ▸ mem_cons_self)
    rw [cons_append, unfoldText,
      ih ⟨fun hmem => h.1 (mem_cons_of_mem _ hmem), fun hmem => h.2 (mem_cons_of_mem _ hmem)⟩, cons_append]
    exact fun _ heq _ => hb heq

theorem unfoldText_rest {rest : List Bytes} (hrest : ∀ line ∈ rest, line.head? = some 32)
    (hplain : ∀ line ∈ rest, Plain line) : unfoldText (crlf ++ terminated rest) = rest.flatten ++ crlf := by
  induction rest with
  | nil => rfl
  | cons next rest ih =>
    obtain ⟨more, rfl⟩ := head?_eq_some_iff.mp (hrest next mem_cons_self)
    have hnext : Plain more := (plain_append.mp (hplain ([32] ++ more) mem_cons_self)).2
    have hstep := unfoldText_plain hnext (crlf ++ terminated rest)
    rw [ih (fun l hl => hrest l (mem_cons_of_mem _ hl)) fun l hl => hplain l (mem_cons_of_mem _ hl)] at hstep
    have hcons : crlf ++ terminated ((32 :: more) :: rest) = 13 :: 10 :: 32 :: (more ++ (crlf ++ terminated rest)) := by
      simp [terminated, crlf]
    rw [hcons, unfoldText, hstep, flatten_cons]
    simp

theorem unfoldText_folds {lines : List Bytes} {field : Bytes} (h : Folds lines field) (hplain : ∀ line ∈ lines, Plain line) :
    unfoldText (terminated lines) = field ++ crlf := by
  obtain ⟨first, rest, rfl, -, hrest, rfl⟩ := h
  rw [terminated, flatMap_cons, ← terminated, append_assoc, unfoldText_plain (hplain first mem_cons_self),
    unfoldText_rest hrest fun l hl => hplain l (mem_cons_of_mem _ hl), append_assoc]

/-- From a column on, no token is put beyond the limit on a line that is shorter than the name and its colon. -/
def fits (start column : Nat) : List (List Char) → Bool
  | [] => true
  | token :: tokens =>
    if 78 < column + 1 + size token && start < column then fits start (1 + size token) tokens
    else (start ≤ column || column + 1 + size token ≤ 998) && fits start (column + 1 + size token) tokens

section Folding

theorem mem_trim {c : Char} {value : List Char} (h : c ∈ Text.trim value) : c ∈ value := by
  have hend := (dropWhile_sublist _).subset (mem_reverse.mp h)
  exact (dropWhile_sublist _).subset (mem_reverse.mp hend)

theorem encode_split (value : List Char) :
    (Text.split ' ' value).flatMap (fun token => 32 :: encode token) = 32 :: encode value := by
  induction value with
  | nil => rfl
  | cons c value ih =>
    unfold Text.split
    split
    · rename_i hspace
      rw [flatMap_cons, ih, hspace]
      rfl
    · split
      · rename_i hnil
        exact absurd hnil (split_ne_nil ' ' value)
      · rename_i first others hsplit
        rw [hsplit, flatMap_cons, cons_append, cons_inj_right] at ih
        rw [flatMap_cons, encode_cons, encode_cons, cons_append, append_assoc, ih]

variable {start : Nat} {tokens : List (List Char)} {text : List Char}

/-- How tokens are laid out after what their first line already has: the rest of this line and the lines after it, which
begin with a space, and within the limit just when the tokens fit. -/
structure Laid (start : Nat) (line : Bytes) (tokens : List (List Char)) (text : List Char) (more : Bytes)
    (rest : List Bytes) : Prop where
  wire : line ++ encode text ++ crlf = terminated ((line ++ more) :: rest)
  plain : ∀ l ∈ (line ++ more) :: rest, Plain l
  spaced : ∀ l ∈ rest, l.head? = some 32
  flat : more ++ rest.flatten = tokens.flatMap (fun token => 32 :: encode token)
  limit : line.length ≤ 998 →
    ((∀ l ∈ (line ++ more) :: rest, l.length ≤ 998) ↔ fits start line.length tokens = true)

namespace Laid

variable {line more : Bytes} {rest : List Bytes} {token : List Char}

theorem nil (hline : Plain line) : Laid start line [] [] [] [] where
  wire := by simp [terminated, encode]
  plain := by simpa using hline
  spaced := nofun
  flat := rfl
  limit hshort := iff_of_true (by simpa using hshort) rfl

/-- The token begins the next line. -/
theorem folded (hline : Plain line) (hsize : size token ≤ 997)
    (hfold : 78 < line.length + 1 + size token && start < line.length)
    (h : Laid start (32 :: encode token) tokens text more rest) :
    Laid start line (token :: tokens) (['\r', '\n', ' '] ++ token ++ text) [] ((32 :: encode token ++ more) :: rest) where
  wire := by
    have hbytes : encode (['\r', '\n', ' '] ++ token ++ text) = crlf ++ (32 :: encode token ++ encode text) := by
      rw [encode_append, encode_append]
      rfl
    rw [hbytes, append_nil, terminated, flatMap_cons, ← terminated, ← h.wire]
    simp
  plain := by
    rw [append_nil, forall_mem_cons]
    exact ⟨hline, h.plain⟩
  spaced := forall_mem_cons.mpr ⟨rfl, h.spaced⟩
  flat := by
    rw [flatMap_cons, ← h.flat]
    simp
  limit hshort := by
    have hlength : (32 :: encode token).length = 1 + size token := by rw [length_cons, size, Nat.add_comm]
    rw [fits, if_pos hfold, ← hlength, ← h.limit (by omega), append_nil, forall_mem_cons]
    exact and_iff_right hshort

/-- The token stays on the line; only one that is shorter than the name can get too long by it. -/
theorem kept (hfold : ¬ (78 < line.length + 1 + size token && start < line.length) = true)
    (hstart : line.length = start → line.length + 1 + size token ≤ 998)
    (h : Laid start (line ++ 32 :: encode token) tokens text more rest) :
    Laid start line (token :: tokens) (' ' :: token ++ text) (32 :: encode token ++ more) rest where
  wire := by
    have hbytes : encode (' ' :: token ++ text) = 32 :: encode token ++ encode text := by
      rw [encode_append]
      rfl
    rw [hbytes, ← append_assoc, ← append_assoc, ← h.wire]
  plain := by
    rw [← append_assoc]
    exact h.plain
  spaced := h.spaced
  flat := by
    rw [flatMap_cons, ← h.flat]
    simp
  limit hshort := by
    have hlength : (line ++ 32 :: encode token).length = line.length + 1 + size token := by
      rw [length_append, length_cons, size]
      omega
    rw [← append_assoc, fits, if_neg hfold, Bool.and_eq_true, ← hlength]
    by_cases hroom : line.length + 1 + size token ≤ 998
    · rw [h.limit (by omega)]
      exact (and_iff_right (by simp [hlength, hroom])).symm
    · refine iff_of_false (fun hall => ?_) fun hfit => ?_
      · have hfirst := hall _ mem_cons_self
        rw [length_append] at hfirst
        omega
      · have hbefore := hfit.1
        simp only [Bool.or_eq_true, Bool.and_eq_true, decide_eq_true_eq] at hbefore hfold
        omega

end Laid

theorem foldTokens_laid {line : Bytes} (h : foldTokens start line.length tokens = .ok text)
    (htokens : ∀ token ∈ tokens, Unbroken token) (hline : Plain line) :
    ∃ more rest, Laid start line tokens text more rest := by
  induction tokens generalizing line text with
  | nil =>
    cases h
    exact ⟨[], [], .nil hline⟩
  | cons token tokens ih =>
    have hspaced : Plain (32 :: encode token) :=
      plain_append.mpr ⟨(by decide : Plain [32]), (htokens token mem_cons_self).plain⟩
    have hlater : ∀ token ∈ tokens, Unbroken token := fun token hmem => htokens token (mem_cons_of_mem _ hmem)
    have hlength : (32 :: encode token).length = 1 + size token := by rw [length_cons, size, Nat.add_comm]
    unfold foldTokens at h
    split at h
    · cases h
    rename_i hsize
    simp only [Bool.or_eq_true, decide_eq_true_eq, Bool.and_eq_true, not_or, not_and, not_lt] at hsize
    split at h
    · rename_i hfold
      obtain ⟨text, hrest, rfl⟩ := except_map_ok.mp h
      rw [← hlength] at hrest
      obtain ⟨more, rest, hlaid⟩ := ih hrest hlater hspaced
      exact ⟨_, _, .folded hline hsize.1 hfold hlaid⟩
    · rename_i hfold
      obtain ⟨text, hrest, rfl⟩ := except_map_ok.mp h
      rw [Nat.add_assoc, ← hlength, ← length_append] at hrest
      obtain ⟨more, rest, hlaid⟩ := ih hrest hlater (plain_append.mpr ⟨hline, hspaced⟩)
      exact ⟨_, _, .kept hfold hsize.2 hlaid⟩

/-- A name of a field: one short line that does not begin with a space. -/
def NameOk (name : List Char) : Prop :=
  Unbroken name ∧ (Utf8.encode name).head?.any (· ≠ 32) = true ∧ size name < 998

instance (name : List Char) : Decidable (NameOk name) := inferInstanceAs (Decidable (_ ∧ _))

/-- The value of a field fits as the field is laid out. -/
def Fits (name value : List Char) : Prop :=
  Text.trim value = [] ∨ fits (size name + 1) (size name + 1) (Text.split ' ' (Text.trim value)) = true

instance (name value : List Char) : Decidable (Fits name value) := inferInstanceAs (Decidable (_ ∨ _))

theorem fold_lines {name value : List Char} (h : fold name value = .ok text) (hname : NameOk name)
    (hvalue : Unbroken value) :
    ∃ lines, encode text = terminated lines ∧ (∀ line ∈ lines, Plain line) ∧
      Folds lines (encode (unfolded name value)) ∧
      ((∀ line ∈ lines, line.length ≤ 998) ↔ Fits name value) := by
  obtain ⟨hname, hfirst, hshort⟩ := hname
  have hstart : ∀ more, ((encode name ++ [58]) ++ more).head?.any (· ≠ 32) = true := by
    intro more
    cases hcode : encode name with
    | nil => rw [hcode] at hfirst; cases hfirst
    | cons b rest => rw [hcode] at hfirst; exact hfirst
  have hline : Plain (encode name ++ [58]) := plain_append.mpr ⟨hname.plain, by decide⟩
  have hsize : (encode name ++ [58]).length = size name + 1 := by simp [size]
  unfold fold at h
  split at h
  · rename_i hempty
    cases h
    refine ⟨[encode name ++ [58]], ?_, ?_, ⟨_, [], rfl, by simpa using hstart [], by simp, ?_⟩, ?_⟩
    · rw [encode_append]
      simp [terminated]
      rfl
    · simpa using hline
    · rw [unfolded, if_pos hempty, encode_append]
      simp
      rfl
    · refine iff_of_true (fun line hmem => ?_) (.inl (isEmpty_iff.mp hempty))
      rw [mem_singleton.mp hmem]
      omega
  · rename_i hsome
    obtain ⟨rest, hrest, heq⟩ := except_map_ok.mp h
    have htokens : ∀ token ∈ Text.split ' ' (Text.trim value), Unbroken token := fun token hmem c hc =>
      hvalue c (mem_trim (mem_of_mem_split hmem hc))
    obtain ⟨more, others, hlaid⟩ := foldTokens_laid (hsize ▸ hrest) htokens hline
    refine ⟨_, ?_, hlaid.plain, ⟨_, others, rfl, hstart more, hlaid.spaced, ?_⟩, ?_⟩
    · rw [← hlaid.wire, ← heq, encode_append, encode_append]
      simp [encode_cons]
      rfl
    · rw [append_assoc, hlaid.flat, encode_split, unfolded, if_neg hsome, encode_append, append_assoc]
      rfl
    · rw [hlaid.limit (by omega), hsize]
      exact (or_iff_right fun hnil => hsome (isEmpty_iff.mpr hnil)).symm

end Folding

section Fields

variable {codec : Base64} {m : Outgoing}

theorem unbroken_intercalate {separator : List Char} {parts : List (List Char)} (hsep : Unbroken separator)
    (hparts : ∀ part ∈ parts, Unbroken part) : Unbroken (intercalate separator parts) := by
  induction parts with
  | nil => exact nofun
  | cons part parts ih =>
    cases parts with
    | nil => simpa using hparts
    | cons next parts =>
      rw [intercalate_cons_cons]
      exact unbroken_append (unbroken_append (hparts part mem_cons_self) hsep)
        (ih fun part hmem => hparts part (mem_cons_of_mem _ hmem))

theorem unbroken_dropEnds (text : List Char) : Unbroken (dropEnds text) := by
  intro c hc
  simpa using (mem_filter.mp hc).2

theorem unbroken_encodeHeader (value : List Char) : Unbroken (encodeHeader codec value) := by
  unfold encodeHeader
  split
  · exact unbroken_dropEnds value
  · refine unbroken_intercalate (by decide) fun word hword => ?_
    obtain ⟨text, -, rfl⟩ := mem_map.mp hword
    refine unbroken_append (unbroken_append (by decide) fun c hc => ?_) (by decide)
    have halphabet := codec.alphabet _ c hc
    exact ⟨fun h => absurd (h ▸ halphabet) (by decide), fun h => absurd (h ▸ halphabet) (by decide)⟩

theorem unbroken_mailbox {name : Option (List Char)} {address : List Char} (h : Unbroken address) :
    Unbroken (mailbox codec name address) := by
  unfold mailbox
  split
  · exact h
  split
  · refine unbroken_append (unbroken_append (unbroken_append ?_ (by decide)) h) (by decide)
    refine unbroken_append (a := ['"']) (by decide) fun c hc => ?_
    obtain ⟨d, hd, hmem⟩ := mem_flatMap.mp hc
    have hplain := unbroken_dropEnds _ d hd
    split at hmem
    · rcases mem_cons.mp hmem with rfl | hmem
      · decide
      · rwa [mem_singleton.mp hmem]
    · rwa [mem_singleton.mp hmem]
  · exact unbroken_append (unbroken_append (unbroken_append (unbroken_encodeHeader _) (by decide)) h) (by decide)

theorem unbroken_angle (id : List Char) : Unbroken (angle id) := by
  refine unbroken_append (unbroken_append (a := ['<']) (by decide) fun c hc => ?_) (by decide)
  have hkept := (mem_filter.mp hc).2
  simp only [Bool.and_eq_true, decide_eq_true_eq] at hkept
  exact ⟨hkept.1.2, hkept.2⟩

theorem headers_unbroken (hdate : Unbroken m.date) (hfrom : Unbroken m.from_) (hto : ∀ a ∈ m.to_, Unbroken a)
    (hcc : ∀ a ∈ m.cc, Unbroken a) : ∀ field ∈ headers codec m, NameOk field.1 ∧ Unbroken field.2 := by
  intro field hfield
  simp only [headers, mem_append, mem_cons, not_mem_nil, or_false, Option.mem_toList,
    Option.map_eq_some_iff] at hfield
  have hlist : ∀ {addresses : List (List Char)}, (∀ a ∈ addresses, Unbroken a) → Unbroken (addressList addresses) :=
    unbroken_intercalate (by decide)
  rcases hfield with (((((rfl | rfl | rfl) | hfield) | rfl | rfl) | ⟨parent, -, rfl⟩) | hfield)
  · exact ⟨(by decide : NameOk "Date".toList), hdate⟩
  · exact ⟨(by decide : NameOk "From".toList), unbroken_mailbox hfrom⟩
  · exact ⟨(by decide : NameOk "To".toList), hlist hto⟩
  · split at hfield
    · cases hfield
    · rw [mem_singleton.mp hfield]
      exact ⟨(by decide : NameOk "Cc".toList), hlist hcc⟩
  · exact ⟨(by decide : NameOk "Subject".toList), unbroken_encodeHeader _⟩
  · exact ⟨(by decide : NameOk "Message-Id".toList), unbroken_angle _⟩
  · exact ⟨(by decide : NameOk "In-Reply-To".toList), unbroken_angle _⟩
  · split at hfield
    · cases hfield
    · rw [mem_singleton.mp hfield]
      refine ⟨(by decide : NameOk "References".toList), unbroken_intercalate (by decide) fun part hpart => ?_⟩
      obtain ⟨id, -, rfl⟩ := mem_map.mp hpart
      exact unbroken_angle id

end Fields

/-- A text in a header: ASCII without its line ends, anything else as encoded words that together say it. -/
inductive Says (codec : Base64) (text : List Char) : List Char → Prop
  | ascii : (∀ c ∈ text, c.toNat < 128) → Says codec text (text.filter fun c => c ≠ '\r' && c ≠ '\n')
  | words (words : List (List Char)) : (∃ c ∈ text, 128 ≤ c.toNat) →
      words.flatten = text.filter (fun c => c ≠ '\r' && c ≠ '\n') →
      Says codec text (List.intercalate [' '] (words.map fun word =>
        "=?utf-8?B?".toList ++ codec.encode (Utf8.encode word) ++ "?=".toList))

/-- Who sends: the address, after a name that is not blank in brackets and the name in quotes or encoded words. -/
inductive Sender (codec : Base64) (address : List Char) : Option (List Char) → List Char → Prop
  | bare : Sender codec address none address
  | blank (name : List Char) : (∀ c ∈ name, Text.isSpace c = true) → Sender codec address (some name) address
  | quoted (name : List Char) : (∃ c ∈ name, Text.isSpace c = false) → (∀ c ∈ name, c.toNat < 128) →
      Sender codec address (some name) ('"' :: (name.flatMap fun c =>
        if c = '\r' || c = '\n' then [] else if c = '"' || c = '\\' then ['\\', c] else [c]) ++ "\" <".toList ++ address ++ ['>'])
  | words (name value : List Char) : (∃ c ∈ name, Text.isSpace c = false) → (∃ c ∈ name, 128 ≤ c.toNat) →
      Says codec name value → Sender codec address (some name) (value ++ " <".toList ++ address ++ ['>'])

/-- An identifier in brackets, without spaces and brackets of its own. -/
def identifier (id : List Char) : List Char :=
  '<' :: (id.filter fun c => !Text.isSpace c && c ≠ '<' && c ≠ '>') ++ ['>']

/-- The fields a message should have, in their order. -/
def fieldsOf (m : Outgoing) (sender subject : List Char) : List (List Char × List Char) :=
  [("Date".toList, m.date), ("From".toList, sender), ("To".toList, List.intercalate ", ".toList m.to_)] ++
    (if m.cc = [] then [] else [("Cc".toList, List.intercalate ", ".toList m.cc)]) ++
    [("Subject".toList, subject), ("Message-Id".toList, identifier m.messageId)] ++
    (match m.inReplyTo with
      | none => []
      | some parent => [("In-Reply-To".toList, identifier parent)]) ++
    (if m.references = [] then [] else [("References".toList, List.intercalate [' '] (m.references.map identifier))])

/-- What the header block says: these fields, and what the text is and how it is encoded. -/
def intended (m : Outgoing) (sender subject : List Char) : List Bytes :=
  (fieldsOf m sender subject).map (fun field => Utf8.encode (unfolded field.1 field.2)) ++
    [Utf8.encode "MIME-Version: 1.0".toList, Utf8.encode "Content-Type: text/plain; charset=\"utf-8\"".toList,
      Utf8.encode ("Content-Transfer-Encoding: " ++ if isSevenBit m.text then "7bit" else "quoted-printable").toList]

section Intended

variable {codec : Base64}

theorem filter_dropWhile {p q : Char → Bool} (h : ∀ c, q c = true → p c = false) (text : List Char) :
    (text.dropWhile q).filter p = text.filter p := by
  induction text with
  | nil => rfl
  | cons c text ih =>
    by_cases hc : q c = true
    · rw [dropWhile_cons_of_pos hc, ih, filter_cons_of_neg (by simp [h c hc])]
    · rw [dropWhile_cons_of_neg hc]

theorem filter_trim {p : Char → Bool} (h : ∀ c, Text.isSpace c = true → p c = false) (text : List Char) :
    (Text.trim text).filter p = text.filter p := by
  rw [Text.trim, filter_reverse, filter_dropWhile h, filter_reverse, reverse_reverse, filter_dropWhile h]

theorem trim_eq_nil {text : List Char} : Text.trim text = [] ↔ ∀ c ∈ text, Text.isSpace c = true := by
  have hshown := filter_trim (p := fun c => !Text.isSpace c) (by simp) text
  constructor
  · intro htrim
    rw [htrim, filter_nil, eq_comm, filter_eq_nil_iff] at hshown
    simpa using hshown
  · intro h
    have hnone : text.dropWhile Text.isSpace = [] := dropWhile_eq_nil_iff.mpr h
    rw [Text.trim, hnone]
    rfl

theorem angle_eq (id : List Char) : angle id = identifier id := by
  have hkept : (fun c => !Text.isSpace c && decide (c ≠ '<') && decide (c ≠ '>') && decide (c ≠ '\r') && decide (c ≠ '\n')) =
      fun c => !Text.isSpace c && decide (c ≠ '<') && decide (c ≠ '>') := by
    funext c
    by_cases hends : c = '\r' ∨ c = '\n'
    · rcases hends with rfl | rfl <;> decide
    · rw [not_or] at hends
      simp [hends]
  have hspace : ∀ c, Text.isSpace c = true → (!Text.isSpace c && decide (c ≠ '<') && decide (c ≠ '>')) = false := by
    intro c hc
    simp [hc]
  rw [angle, identifier, hkept, filter_trim hspace, trimEnd, filter_reverse, filter_dropWhile (by simp), filter_reverse,
    reverse_reverse, filter_dropWhile (by simp), filter_trim hspace]

theorem isAscii_dropEnds (text : List Char) : isAscii (dropEnds text) = isAscii text := by
  rw [Bool.eq_iff_iff, isAscii_iff, isAscii_iff]
  refine ⟨fun h c hc => ?_, fun h c hc => h c (mem_of_mem_filter hc)⟩
  by_cases hends : c = '\r' ∨ c = '\n'
  · rcases hends with rfl | rfl <;> decide
  · rw [not_or] at hends
    exact h c (mem_filter.mpr ⟨hc, by simp [hends]⟩)

theorem says_encodeHeader (text : List Char) : Says codec text (encodeHeader codec text) := by
  unfold encodeHeader
  rw [isAscii_dropEnds]
  split
  · rename_i hascii
    exact .ascii (isAscii_iff.mp hascii)
  · rename_i hascii
    rw [isAscii_iff] at hascii
    push Not at hascii
    exact .words (chunks [] (dropEnds text)) hascii (flatten_chunks [] _)

theorem sender_mailbox (name : Option (List Char)) (address : List Char) :
    Sender codec address name (mailbox codec name address) := by
  cases name with
  | none => exact .bare
  | some name =>
    by_cases hblank : Text.trim name = []
    · have hfilter : (some name).filter (fun name => !(Text.trim name).isEmpty) = none := by simp [hblank]
      rw [mailbox, hfilter]
      exact .blank name (trim_eq_nil.mp hblank)
    · have hfilter : (some name).filter (fun name => !(Text.trim name).isEmpty) = some name := by simp [hblank]
      have hshown : ∃ c ∈ name, Text.isSpace c = false := by
        rw [trim_eq_nil] at hblank
        push Not at hblank
        simpa using hblank
      rw [mailbox, hfilter]
      simp only []
      split
      · rename_i hascii
        have hescape : escapeQuoted name = name.flatMap fun c =>
            if c = '\r' || c = '\n' then [] else if c = '"' || c = '\\' then ['\\', c] else [c] := by
          rw [escapeQuoted, dropEnds]
          clear * -
          induction name with
          | nil => rfl
          | cons c name ih =>
            rw [flatMap_cons, ← ih, filter_cons]
            by_cases hends : c = '\r' ∨ c = '\n'
            · rcases hends with rfl | rfl <;> rfl
            · rw [not_or] at hends
              simp [hends]
        rw [hescape]
        exact .quoted name hshown (isAscii_iff.mp hascii)
      · rename_i hascii
        rw [isAscii_iff] at hascii
        push Not at hascii
        exact .words name _ hshown hascii (says_encodeHeader name)

theorem headers_eq (codec : Base64) (m : Outgoing) : ∃ sender subject, Sender codec m.from_ m.displayName sender ∧
    Says codec m.subject subject ∧ headers codec m = fieldsOf m sender subject := by
  refine ⟨_, _, sender_mailbox m.displayName m.from_, says_encodeHeader m.subject, ?_⟩
  have hcc : (if m.cc.isEmpty then [] else [("Cc".toList, addressList m.cc)]) =
      if m.cc = [] then [] else [("Cc".toList, List.intercalate ", ".toList m.cc)] := by
    cases m.cc <;> rfl
  have hreferences : (if m.references.isEmpty then [] else
      [("References".toList, List.intercalate [' '] (m.references.map angle))]) =
        if m.references = [] then [] else [("References".toList, List.intercalate [' '] (m.references.map identifier))] := by
    rw [funext angle_eq]
    cases m.references <;> rfl
  rw [headers, fieldsOf, hcc, hreferences, angle_eq]
  cases m.inReplyTo with
  | none => rfl
  | some parent => rw [Option.map_some, angle_eq]; rfl

end Intended

section Message

variable {codec : Base64} {m : Outgoing} {out : Bytes}

theorem folds_ne_nil {lines : List Bytes} {field : Bytes} (h : Folds lines field) : ∀ line ∈ lines, line ≠ [] := by
  obtain ⟨first, rest, rfl, hfirst, hrest, -⟩ := h
  rintro line hline rfl
  rcases mem_cons.mp hline with rfl | hline
  · cases hfirst
  · cases hrest _ hline

theorem folded_lines {fields : List (List Char × List Char)} {folded : List (List Char)}
    (h : Forall₂ (fun field text => fold field.1 field.2 = .ok text) fields folded)
    (hfields : ∀ field ∈ fields, NameOk field.1 ∧ Unbroken field.2) :
    ∃ lines, encode folded.flatten = terminated lines ∧ (∀ line ∈ lines, Plain line ∧ line ≠ []) ∧
      (∀ before, lines.foldl addLine before = before ++ fields.map fun field => encode (unfolded field.1 field.2)) ∧
      ((∀ line ∈ lines, line.length ≤ 998) ↔ ∀ field ∈ fields, Fits field.1 field.2) := by
  induction h with
  | nil => exact ⟨[], rfl, nofun, fun before => (append_nil before).symm, iff_of_true nofun nofun⟩
  | @cons field text fields folded hfold _ ih =>
    obtain ⟨hname, hvalue⟩ := hfields field mem_cons_self
    obtain ⟨lines, hlines, hplain, hfolds, hlimit⟩ := fold_lines hfold hname hvalue
    obtain ⟨later, hlater, hplain', hfolds', hlimit'⟩ := ih fun field hmem => hfields field (mem_cons_of_mem _ hmem)
    refine ⟨lines ++ later, ?_, ?_, ?_, ?_⟩
    · rw [flatten_cons, encode_append, hlines, hlater, terminated_append]
    · intro line hline
      rcases mem_append.mp hline with hline | hline
      · exact ⟨hplain line hline, folds_ne_nil hfolds line hline⟩
      · exact hplain' line hline
    · intro before
      rw [foldl_append, foldl_addLine hfolds, hfolds']
      simp
    · rw [forall_mem_append, hlimit, hlimit', forall_mem_cons]

theorem foldl_addLine_whole {lines : List Bytes} (h : ∀ line ∈ lines, line.head? ≠ some 32) (before : List Bytes) :
    lines.foldl addLine before = before ++ lines := by
  induction lines generalizing before with
  | nil => exact (append_nil before).symm
  | cons line lines ih =>
    rw [foldl_cons, addLine, if_neg (h line mem_cons_self),
      ih fun line hmem => h line (mem_cons_of_mem _ hmem), append_assoc, singleton_append]

theorem bodyHeaders_lines (text : List Char) : ∀ line ∈ (bodyHeaders text).map encode,
    Plain line ∧ line ≠ [] ∧ line.head? ≠ some 32 ∧ line.length ≤ 998 := by
  unfold bodyHeaders
  cases isSevenBit text <;> decide

theorem bodyHeaders_eq (text : List Char) : (bodyHeaders text).map encode =
    [encode "MIME-Version: 1.0".toList, encode "Content-Type: text/plain; charset=\"utf-8\"".toList,
      encode ("Content-Transfer-Encoding: " ++ if isSevenBit text then "7bit" else "quoted-printable").toList] := by
  unfold bodyHeaders
  cases isSevenBit text <;> decide

theorem bodyText_lines (text : List Char) : ∃ lines, lines ≠ [] ∧ encode (bodyText text) = joined lines ∧
    ∀ line ∈ lines, Plain line ∧ line.length ≤ 78 := by
  unfold bodyText
  split
  · rename_i hseven
    refine ⟨(textLines text).map encode, by simpa [textLines] using split_ne_nil '\n' text, encode_crlfText text, ?_⟩
    intro line hline
    obtain ⟨chars, hchars, rfl⟩ := mem_map.mp hline
    have hfits := all_eq_true.mp hseven chars hchars
    simp only [Bool.and_eq_true, decide_eq_true_eq] at hfits
    refine ⟨Unbroken.plain fun c hc => ?_, hfits.1.1⟩
    have hcode := all_eq_true.mp hfits.2 c hc
    exact ⟨fun h => absurd (h ▸ hcode) (by decide), fun h => absurd (h ▸ hcode) (by decide)⟩
  · obtain ⟨lines, hne, heq, hlines⟩ := quotedPrintable_lines text
    exact ⟨lines, hne, heq, fun line hline => ⟨(hlines line hline).1, by have := (hlines line hline).2.1; omega⟩⟩

theorem encode_terminated (texts : List (List Char)) :
    encode (texts.flatMap (· ++ ['\r', '\n'])) = terminated (texts.map encode) := by
  induction texts with
  | nil => rfl
  | cons text texts ih =>
    rw [flatMap_cons, encode_append, encode_append, ih]
    rfl

/-- A text that is given the line end it may lack consists of whole lines. -/
theorem closed_lines {text : List Char} {start body : List Bytes} (hne : body ≠ []) (hbody : ∀ line ∈ body, Plain line)
    (h : encode text = terminated start ++ joined body) :
    ∃ lines, (∀ line ∈ lines, line ∈ body) ∧
      encode (if ['\r', '\n'].isSuffixOf text then text else text ++ ['\r', '\n']) = terminated (start ++ lines) := by
  split
  · -- the text ends with a line end, so its last line is blank
    rename_i hsuffix
    obtain ⟨before, last, rfl⟩ : ∃ before last, body = before ++ [last] := ⟨_, _, (dropLast_append_getLast hne).symm⟩
    rw [joined_concat, ← append_assoc, ← terminated_append] at h
    have hblank : last = [] := by
      obtain ⟨text, htext⟩ := isSuffixOf_iff_suffix.mp hsuffix
      have hend := congrArg getLast? h
      rw [← htext, encode_append, getLast?_append, getLast?_append] at hend
      cases hb : last.getLast? with
      | none => exact getLast?_eq_none_iff.mp hb
      | some b =>
        rw [hb] at hend
        have hfeed : 10 = b := Option.some.inj hend
        exact absurd (hfeed ▸ mem_of_getLast? hb) (hbody last (by simp)).2
    exact ⟨before, fun line hline => mem_append_left _ hline, by rw [h, hblank, append_nil]⟩
  · refine ⟨body, fun line hline => hline, ?_⟩
    rw [encode_append, h, append_assoc, show encode ['\r', '\n'] = crlf from rfl, ← terminated_eq hne, ← terminated_append]

/-- The lines of a written message: those of its header, a blank one, and those of its body. -/
structure Written (codec : Base64) (m : Outgoing) (out : Bytes) (header body : List Bytes) : Prop where
  lines : out = terminated (header ++ [] :: body)
  filled : ∀ line ∈ header, Plain line ∧ line ≠ []
  short : ∀ line ∈ body, Plain line ∧ line.length ≤ 78
  fields : header.foldl addLine [] =
    (headers codec m).map (fun field => encode (unfolded field.1 field.2)) ++ (bodyHeaders m.text).map encode
  limit : (∀ line ∈ header, line.length ≤ 998) ↔ ∀ field ∈ headers codec m, Fits field.1 field.2

theorem Written.plain {header body : List Bytes} (h : Written codec m out header body) :
    ∀ line ∈ header ++ [] :: body, Plain line := by
  rw [forall_mem_append, forall_mem_cons]
  exact ⟨fun line hline => (h.filled line hline).1, by decide, fun line hline => (h.short line hline).1⟩

theorem Written.wireLines {header body : List Bytes} (h : Written codec m out header body) :
    Lib.wireLines out = header ++ [] :: body ++ [[]] := by
  have hwire := wireLines_terminated h.plain []
  rwa [append_nil, ← h.lines] at hwire

theorem write_lines (h : write codec m = .ok out)
    (hfields : ∀ field ∈ headers codec m, NameOk field.1 ∧ Unbroken field.2) :
    ∃ header body, Written codec m out header body := by
  obtain ⟨folded, hfolded, hout⟩ := except_bind_ok.mp h
  obtain ⟨lines, hlines, hplain, hsays, hlimit⟩ := folded_lines (forall₂_of_mapM hfolded) hfields
  obtain ⟨body, hne, hbody, hshort⟩ := bodyText_lines m.text
  have hwhole := bodyHeaders_lines m.text
  have hstart : encode (folded.flatten ++ (bodyHeaders m.text).flatMap (· ++ ['\r', '\n']) ++ ['\r', '\n'] ++
      bodyText m.text) = terminated (lines ++ (bodyHeaders m.text).map encode ++ [[]]) ++ joined body := by
    simp only [encode_append, hlines, hbody, terminated_append, encode_terminated]
    rfl
  obtain ⟨body', hsub, hclosed⟩ := closed_lines hne (fun line hline => (hshort line hline).1) hstart
  refine ⟨lines ++ (bodyHeaders m.text).map encode, body', ?_, ?_, fun line hline => hshort line (hsub line hline), ?_, ?_⟩
  · cases hout
    rw [hclosed, append_assoc _ [[]], singleton_append]
  · rw [forall_mem_append]
    exact ⟨hplain, fun line hline => ⟨(hwhole line hline).1, (hwhole line hline).2.1⟩⟩
  · rw [foldl_append, hsays, foldl_addLine_whole fun line hline => (hwhole line hline).2.2.1, nil_append]
  · rw [forall_mem_append, hlimit]
    exact and_iff_left fun line hline => (hwhole line hline).2.2.2

end Message

theorem wireLines_eq_nil {bytes : Bytes} (h : wireLines bytes = [[]]) : bytes = [] := by
  fun_induction wireLines bytes with
  | case1 => rfl
  | case2 rest => exact absurd (cons.inj h).2 (wireLines_ne_nil rest)
  | case3 b rest hpair =>
    obtain ⟨line, lines, heq⟩ := exists_cons_of_ne_nil (wireLines_ne_nil rest)
    rw [heq] at h
    cases h

def stuffLine (line : Bytes) : Bytes := (if line.head? = some 46 then [46] else []) ++ line

theorem stuffLine_ne (line : Bytes) : stuffLine line ≠ [46] := by
  unfold stuffLine
  split
  · rename_i hdot
    obtain ⟨rest, rfl⟩ := head?_eq_some_iff.mp hdot
    simp
  · rename_i hdot
    rintro rfl
    exact hdot rfl

theorem unstuff_lines (lines rest : List Bytes) : unstuff (lines.map stuffLine ++ [46] :: rest) = some lines := by
  induction lines with
  | nil => rfl
  | cons line lines ih =>
    have hback : (if (stuffLine line).head? = some 46 then (stuffLine line).tail else stuffLine line) = line := by
      unfold stuffLine
      by_cases hdot : line.head? = some 46 <;> simp [hdot]
    rw [map_cons, cons_append, unstuff, if_neg (stuffLine_ne line), hback, ih]
    rfl

theorem dotStuff_terminated {lines : List Bytes} (hne : lines ≠ []) (h : ∀ line ∈ lines, Plain line) :
    dotStuff (terminated lines) = terminated (lines.map stuffLine ++ [[46]]) := by
  have hbody : (if crlf.isSuffixOf (terminated lines) then (terminated lines).take ((terminated lines).length - 2)
      else terminated lines) = joined lines := by
    rw [terminated_eq hne, if_pos (by simp)]
    simp [crlf]
  rw [dotStuff, hbody]
  simp only [wireLines_joined hne h]
  simp [terminated, flatMap_map, stuffLine, crlf]

theorem unstuff_dotStuff {lines : List Bytes} (hne : lines ≠ []) (h : ∀ line ∈ lines, Plain line) :
    (unstuff (wireLines (dotStuff (terminated lines)))).map terminated = some (terminated lines) ∧
      ∀ a b, dotStuff (terminated lines) = a ++ [13, 10, 46, 13, 10] ++ b → b = [] := by
  have hplain : ∀ line ∈ lines.map stuffLine ++ [[46]], Plain line := by
    intro line hline
    rcases mem_append.mp hline with hline | hline
    · obtain ⟨line, hmem, rfl⟩ := mem_map.mp hline
      refine plain_append.mpr ⟨?_, h line hmem⟩
      split <;> decide
    · rw [mem_singleton.mp hline]
      decide
  have hlines := wireLines_terminated hplain []
  rw [append_nil, append_assoc] at hlines
  rw [dotStuff_terminated hne h]
  constructor
  · rw [hlines, singleton_append, unstuff_lines, Option.map_some]
  · intro a b heq
    have hcut : wireLines (a ++ [13, 10, 46, 13, 10] ++ b) = wireLines a ++ [46] :: wireLines b := by
      have hafter := wireLines_append (by decide : Plain [46]) b
      have hbefore := wireLines_cut a ([46] ++ crlf ++ b)
      rw [hafter] at hbefore
      simpa [crlf] using hbefore
    rw [heq, hcut] at hlines
    refine wireLines_eq_nil ?_
    rcases append_eq_append_iff.mp hlines with ⟨c, hc, hrest⟩ | ⟨c, -, hrest⟩
    · cases c with
      | nil => exact (cons.inj hrest).2
      | cons line c =>
        have hmem : [46] ∈ lines.map stuffLine := by
          rw [hc, ← (cons.inj hrest).1]
          simp
        obtain ⟨line, -, hline⟩ := mem_map.mp hmem
        exact absurd hline (stuffLine_ne line)
    · cases c with
      | nil => exact (cons.inj hrest).2.symm
      | cons line c => cases c <;> simp [wireLines] at hrest

section Results

variable {codec : Base64} {m : Outgoing}

theorem unbroken_repr (n : Nat) : Unbroken n.repr.toList := by
  intro c hc
  have hdigit := toNat_of_mem_repr hc
  exact ⟨fun h => absurd (h ▸ hdigit.1) (by decide), fun h => absurd (h ▸ hdigit.1) (by decide)⟩

theorem unbroken_dateText {weekday name : String} (hweekday : Unbroken weekday.toList) (hname : Unbroken name.toList)
    (year : Int) (day hour minute second : Nat) : Unbroken (dateText weekday name year day hour minute second) := by
  have hint : Unbroken (toString year).toList := by
    cases year with
    | ofNat n => exact unbroken_repr n
    | negSucc n =>
      have htext : (toString (Int.negSucc n)).toList = ['-'] ++ (n + 1).repr.toList := by
        simp [toString, Int.repr]
      rw [htext]
      exact unbroken_append (by decide) (unbroken_repr _)
  have htwo (n : Nat) : Unbroken (twoDigits n) := by
    unfold twoDigits
    split
    · exact unbroken_append (a := ['0']) (by decide) (unbroken_repr n)
    · exact unbroken_repr n
  have hspace : Unbroken [' '] := by decide
  have hcolon : Unbroken [':'] := by decide
  have hdate := unbroken_append (unbroken_append hweekday (by decide : Unbroken [',', ' '])) (unbroken_repr day)
  have hyear := unbroken_append (unbroken_append (unbroken_append (unbroken_append hdate hspace) hname) hspace) hint
  exact unbroken_append (unbroken_append (unbroken_append (unbroken_append (unbroken_append (unbroken_append
    (unbroken_append hyear hspace) (htwo _)) hcolon) (htwo _)) hcolon) (htwo _)) (by decide)

theorem unbroken_date {ms : Int} {date : List Char} (h : rfc5322Date ms = some date) : Unbroken date := by
  have hday : ∀ w ∈ weekdays, Unbroken w.toList := by decide
  have hmonth : ∀ w ∈ months, Unbroken w.toList := by decide
  obtain ⟨weekday, hweekday, h⟩ := Option.bind_eq_some_iff.mp h
  obtain ⟨name, hname, rfl⟩ := Option.map_eq_some_iff.mp h
  exact unbroken_dateText (hday weekday (mem_of_getElem? hweekday)) (hmonth name (mem_of_getElem? hname)) _ _ _ _ _

theorem validAddress_unbroken {address : List Char} (h : validAddress address = true) : Unbroken address := by
  unfold validAddress at h
  split at h
  · cases h
  split at h
  · cases h
  intro c hc
  simp only [Bool.and_eq_true, Bool.not_eq_true', any_eq_false] at h
  have hok := h.1.1.1 c hc
  exact ⟨fun heq => hok (heq ▸ rfl), fun heq => hok (heq ▸ rfl)⟩

end Results

/-- Outgoing mail is not injected into: whatever the subject, the display name, the identifiers and the text are, line ends
stand in pairs, the header has the fields it should have, and the message ends where it should on the wire. -/
theorem outgoing_not_injected (codec : Base64) :
    (∀ ms date, rfc5322Date ms = some date → Unbroken date) ∧
    ∀ (m : Outgoing) (out : Bytes), Unbroken m.date → validAddress m.from_ = true →
      (∀ a ∈ m.to_ ++ m.cc, validAddress a = true) → write codec m = .ok out →
      (∀ line ∈ wireLines out, Plain line) ∧
      (∃ sender subject, Sender codec m.from_ m.displayName sender ∧ Says codec m.subject subject ∧
        headerFields out = intended m sender subject) ∧
      (∀ a b, dotStuff out = a ++ [13, 10, 46, 13, 10] ++ b → b = []) ∧
      (unstuff (wireLines (dotStuff out))).map terminated = some out := by
  refine ⟨fun _ _ => unbroken_date, fun m out hdate hfrom hall hwrite => ?_⟩
  · have hto : ∀ a ∈ m.to_, Unbroken a := fun a ha => validAddress_unbroken (hall a (mem_append_left _ ha))
    have hcc : ∀ a ∈ m.cc, Unbroken a := fun a ha => validAddress_unbroken (hall a (mem_append_right _ ha))
    obtain ⟨header, body, hlines⟩ :=
      write_lines hwrite (headers_unbroken hdate (validAddress_unbroken hfrom) hto hcc)
    obtain ⟨hback, hend⟩ := unstuff_dotStuff (by simp) hlines.plain
    rw [← hlines.lines] at hback hend
    refine ⟨?_, ?_, hend, hback⟩
    · rw [hlines.wireLines, forall_mem_append]
      exact ⟨hlines.plain, by decide⟩
    · obtain ⟨sender, subject, hsender, hsubject, hfields⟩ := headers_eq codec m
      refine ⟨sender, subject, hsender, hsubject, ?_⟩
      rw [headerFields, hlines.wireLines, append_assoc, takeWhile_append_of_pos (fun line hline => by
        simpa using (hlines.filled line hline).2), intended, ← hfields, ← bodyHeaders_eq]
      simpa using hlines.fields

/-- Every text of this message tries to end its field, and the text of the body to end the message. -/
def injection : Outgoing :=
  ⟨"a\r\nX: y".toList, ['d'], "a@b.co".toList, some "x\" <\r\nBcc: c@d.co".toList, ["c@d.co".toList], [],
    "hi\r\nBcc: c@d.co\r\n\r\nhi".toList, some "b\r\n\r\n".toList, [], "a\r\n.\r\nQUIT".toList⟩

theorem outgoing_not_injected_attempt : ∃ out, write default injection = .ok out ∧
    (∀ line ∈ wireLines out, Plain line) ∧ (headerFields out).length = 9 ∧
    (∀ a b, dotStuff out = a ++ [13, 10, 46, 13, 10] ++ b → b = []) := by
  have hok : (write default injection).isOk = true := by decide +kernel
  cases hout : write default injection with
  | error error =>
    rw [hout] at hok
    cases hok
  | ok out =>
    obtain ⟨hplain, ⟨sender, subject, -, -, hfields⟩, hend, -⟩ := (outgoing_not_injected default).2 injection out
      (by decide) (by decide +kernel) (by decide +kernel) hout
    exact ⟨out, rfl, hplain, hfields ▸ rfl, hend⟩

/-- A message respects the wire: its lines keep the limit, and every header unfolds to its name, a colon, one space and
its trimmed value. -/
structure Respects (codec : Base64) (m : Outgoing) (out : Bytes) : Prop where
  limit : ∀ line ∈ wireLines out, line.length ≤ 998
  unfolds : ∃ folded rest, out = Utf8.encode folded.flatten ++ rest ∧ List.Forall₂ (fun field text =>
    fold field.1 field.2 = .ok text ∧
      unfoldText (Utf8.encode text) = Utf8.encode (field.1 ++ [':', ' '] ++ Text.trim field.2) ++ crlf) (headers codec m) folded

theorem unfolds_iff {name value text : List Char} (h : fold name value = .ok text) (hname : NameOk name)
    (hvalue : Unbroken value) :
    unfoldText (encode text) = encode (name ++ [':', ' '] ++ Text.trim value) ++ crlf ↔ Text.trim value ≠ [] := by
  obtain ⟨lines, hlines, hplain, hfolds, -⟩ := fold_lines h hname hvalue
  rw [hlines, unfoldText_folds hfolds hplain, append_left_inj, unfolded]
  constructor
  · intro hsame hblank
    have hlength := congrArg length hsame
    rw [hblank, isEmpty_nil, if_pos rfl, append_nil, encode_append, encode_append, length_append, length_append] at hlength
    exact absurd (Nat.add_left_cancel hlength) (by decide)
  · intro hvalue
    rw [if_neg (by simpa using hvalue)]
    simp

/-- Outgoing headers respect the wire just when no value is blank and every value fits. -/
theorem headers_unfold (codec : Base64) (m : Outgoing) (out : Bytes) (hdate : Unbroken m.date) (hfrom : Unbroken m.from_)
    (haddresses : ∀ a ∈ m.to_ ++ m.cc, Unbroken a) (hwrite : write codec m = .ok out) :
    (∃ sender subject, Sender codec m.from_ m.displayName sender ∧ Says codec m.subject subject ∧
      headers codec m = fieldsOf m sender subject) ∧
    (Respects codec m out ↔ ∀ field ∈ headers codec m, Text.trim field.2 ≠ [] ∧ Fits field.1 field.2) := by
  refine ⟨headers_eq codec m, ?_⟩
  have hfields : ∀ field ∈ headers codec m, NameOk field.1 ∧ Unbroken field.2 :=
    headers_unbroken hdate hfrom (fun a ha => haddresses a (mem_append_left _ ha)) fun a ha =>
      haddresses a (mem_append_right _ ha)
  have hlimit : (∀ line ∈ wireLines out, line.length ≤ 998) ↔ ∀ field ∈ headers codec m, Fits field.1 field.2 := by
    obtain ⟨header, body, hlines⟩ := write_lines hwrite hfields
    rw [hlines.wireLines, forall_mem_append, forall_mem_append, forall_mem_cons, hlines.limit]
    refine ⟨fun h => h.1.1, fun h => ⟨⟨h, by decide, fun line hline => ?_⟩, by decide⟩⟩
    have := (hlines.short line hline).2
    omega
  constructor
  · rintro ⟨hlines, folded, -, -, hall⟩ field hfield
    refine ⟨?_, hlimit.mp hlines field hfield⟩
    have hshown := ((forall₂_and_left _ _).mpr ⟨hfields, hall⟩).imp fun field text h =>
      (⟨(unfolds_iff h.2.1 h.1.1 h.1.2).mp h.2.2, h.2.1⟩ : Text.trim field.2 ≠ [] ∧ fold field.1 field.2 = .ok text)
    exact ((forall₂_and_left _ _).mp hshown).1 field hfield
  · intro hgood
    refine ⟨hlimit.mpr fun field hfield => (hgood field hfield).2, ?_⟩
    obtain ⟨folded, hfolded, hout⟩ := except_bind_ok.mp hwrite
    have hstart : ∃ rest, out = encode folded.flatten ++ rest := by
      cases hout
      split <;> simp only [append_assoc, encode_append] <;> exact ⟨_, rfl⟩
    obtain ⟨rest, hrest⟩ := hstart
    refine ⟨folded, rest, hrest, ?_⟩
    refine ((forall₂_and_left _ _).mpr ⟨fun field hmem => And.intro (hgood field hmem).1 (hfields field hmem),
      forall₂_of_mapM hfolded⟩).imp fun field text h => ?_
    exact ⟨h.2, (unfolds_iff h.2 h.1.2.1 h.1.2.2).mpr h.1.1⟩

/-- A message with this subject. -/
def mailAbout (subject : List Char) : Outgoing :=
  ⟨['i'], ['d'], "a@b.co".toList, none, ["c@d.co".toList], [], subject, none, [], []⟩

def foldedSubject : List Char :=
  List.replicate 70 'x' ++ [' '] ++ List.replicate 20 'a' ++ [' '] ++ List.replicate 997 'y'

theorem headers_unfold_sample : ∃ out, write default (mailAbout foldedSubject) = .ok out ∧
    Respects default (mailAbout foldedSubject) out := by
  have hok : (write default (mailAbout foldedSubject)).isOk = true := by decide +kernel
  cases hout : write default (mailAbout foldedSubject) with
  | error error =>
    rw [hout] at hok
    cases hok
  | ok out =>
    exact ⟨out, rfl, (headers_unfold default _ out (by decide) (by decide) (by decide) hout).2.mpr (by decide +kernel)⟩

def longSubject : List Char := List.replicate 70 'x' ++ [' ', 'a', ' '] ++ List.replicate 997 'y'

/-- A token after a short beginning of a line goes beyond the limit. -/
theorem long_line_written : ∃ out, write default (mailAbout longSubject) = .ok out ∧
    (∃ line ∈ wireLines out, line.length = 1000) ∧ ¬ Respects default (mailAbout longSubject) out := by
  have hcheck : (match write default (mailAbout longSubject) with
      | .ok out => (wireLines out).any (·.length = 1000)
      | .error _ => false) = true := by
    decide +kernel
  split at hcheck
  · rename_i out hout
    obtain ⟨line, hline, hlength⟩ := any_eq_true.mp hcheck
    rw [decide_eq_true_eq] at hlength
    refine ⟨out, hout, ⟨line, hline, hlength⟩, fun h => ?_⟩
    have := h.limit line hline
    omega
  · cases hcheck

end Pluribus.Email
