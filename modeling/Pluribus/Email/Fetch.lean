import Pluribus.Email.Framer

namespace Pluribus.Email

open Lib Pluribus.Core Pluribus.Runtime List Utf8

inductive Token where
  | atom (text : List Char)
  | quoted (text : List Char)
  | literal (bytes : Bytes)
  | list (items : List Token)

/-- The bytes that are left, and the items so far of the lists that are open, of the innermost first. -/
structure Scan where
  rest : Bytes
  stack : List (List Token)

inductive Scanned where
  | more (scan : Scan)
  | done (result : Except HostError Token)

def Scan.put (token : Token) (rest : Bytes) : List (List Token) → Scanned
  | [] => .done (.ok token)
  | items :: outer => .more ⟨rest, (items ++ [token]) :: outer⟩

def quotedText : Bytes → Option (List Char × Bytes)
  | [] => none
  | 92 :: [] => none
  | 92 :: b :: rest => (quotedText rest).map fun r => (Char.ofNat b.toNat :: r.1, r.2)
  | 34 :: rest => some ([], rest)
  | b :: rest => (quotedText rest).map fun r => (Char.ofNat b.toNat :: r.1, r.2)

def literalBytes (rest : Bytes) : Except HostError (Bytes × Bytes) :=
  match cut [125] rest with
  | none => .error (unavailable "endpoint sent an unterminated literal")
  | some (count, after) =>
    match parseUsize (stripPlus count) with
    | none => .error (unavailable "endpoint sent a malformed literal length")
    | some length =>
      if after.length < length then .error (unavailable "endpoint sent a truncated literal")
      else .ok (after.take length, after.drop length)

/-- The bytes an atom does not end at: no space, bracket, quote, brace or line end. -/
def isAtomByte (b : UInt8) : Bool := !List.contains [32, 40, 41, 34, 123, 13, 10] b

/-- One round: a list is opened or closed, or a token is read. -/
def Scan.next (s : Scan) : Scanned :=
  match s.rest.dropWhile (· = 32) with
  | [] =>
    if s.stack.isEmpty then .done (.error (unavailable "endpoint sent an empty response"))
    else .done (.error (unavailable "endpoint sent an unterminated list"))
  | b :: rest =>
    if b = 40 then .more ⟨rest, [] :: s.stack⟩
    else if b = 34 then
      match quotedText rest with
      | none => .done (.error (unavailable "endpoint sent an unterminated string"))
      | some (text, rest) => Scan.put (.quoted text) rest s.stack
    else if b = 123 then
      match literalBytes rest with
      | .error error => .done (.error error)
      | .ok (bytes, rest) => Scan.put (.literal bytes) rest s.stack
    else if b = 41 && !s.stack.isEmpty then Scan.put (.list (s.stack.headD [])) rest s.stack.tail
    else Scan.put (.atom (Utf8.lossy ((b :: rest).takeWhile isAtomByte))) ((b :: rest).dropWhile isAtomByte) s.stack

/-- So many rounds of `parse_token`; `none` if they are not enough. -/
def Scan.run : Nat → Scan → Option (Except HostError Token)
  | 0, _ => none
  | rounds + 1, s =>
    match s.next with
    | .done result => some result
    | .more s => s.run rounds

def FetchItems.set (fetched : FetchItems) (name : List Char) (value : Token) : FetchItems :=
  let name := name.map Char.toUpper
  match value with
  | .atom text =>
    if name = "UID".toList then { fetched with uid := Text.parseU64 text }
    else if name = "RFC822.SIZE".toList then { fetched with size := Text.parseU64 text }
    else if "BODY[".toList.isPrefixOf name || name = "RFC822".toList then { fetched with body := some (Utf8.encode text) }
    else fetched
  | .quoted text =>
    if name = "INTERNALDATE".toList then { fetched with internalDate := some (String.ofList text) }
    else if "BODY[".toList.isPrefixOf name || name = "RFC822".toList then { fetched with body := some (Utf8.encode text) }
    else fetched
  | .literal bytes =>
    if "BODY[".toList.isPrefixOf name || name = "RFC822".toList then { fetched with body := some bytes } else fetched
  | .list _ =>
    if "BODY[".toList.isPrefixOf name || name = "RFC822".toList then { fetched with body := some [] } else fetched

def FetchItems.read (fetched : FetchItems) : List Token → FetchItems
  | [] => fetched
  | [_] => fetched
  | .atom name :: value :: rest => (fetched.set name value).read rest
  | _ :: rest => fetched.read rest

def fetchList (bytes : Bytes) : Option Bytes :=
  if (Utf8.encode "* ".toList).isPrefixOf bytes then
    match cut [40] (bytes.drop 2) with
    | none => none
    | some (before, after) =>
      if (cut "FETCH".toList ((Utf8.lossy before).map Char.toUpper)).isSome then some (40 :: after) else none
  else none

def parseFetch (rounds : Nat) (bytes : Bytes) : Option (Except HostError (Option FetchItems)) :=
  match fetchList bytes with
  | none => some (.ok none)
  | some list =>
    (Scan.run rounds ⟨list, []⟩).map fun result => result.map fun
      | .list items => some (FetchItems.read ⟨none, none, none, none⟩ items)
      | _ => none

section Progress

variable {rest : Bytes}

/-- With so many lists open, the scan comes to a line end where a token should begin. -/
inductive Meets : Nat → Bytes → Prop where
  | here {depth : Nat} {b : UInt8} {rest : Bytes} (h : b = 13 ∨ b = 10) : Meets (depth + 1) (b :: rest)
  | space {depth : Nat} {rest : Bytes} (h : Meets depth rest) : Meets depth (32 :: rest)
  | opening {depth : Nat} {rest : Bytes} (h : Meets (depth + 1) rest) : Meets depth (40 :: rest)
  | closing {depth : Nat} {rest : Bytes} (h : Meets (depth + 1) rest) : Meets (depth + 2) (41 :: rest)
  | quoted {depth : Nat} {rest rest' : Bytes} {text : List Char} (htext : quotedText rest = some (text, rest'))
      (h : Meets (depth + 1) rest') : Meets (depth + 1) (34 :: rest)
  | literal {depth : Nat} {rest rest' bytes : Bytes} (hbytes : literalBytes rest = .ok (bytes, rest'))
      (h : Meets (depth + 1) rest') : Meets (depth + 1) (123 :: rest)
  | atom {depth : Nat} {b : UInt8} {rest : Bytes} (hb : isAtomByte b = true)
      (h : Meets (depth + 1) ((b :: rest).dropWhile isAtomByte)) : Meets (depth + 1) (b :: rest)

theorem meets_spaces {depth : Nat} {bytes : Bytes} : Meets depth (bytes.dropWhile (· = 32)) ↔ Meets depth bytes := by
  induction bytes with
  | nil => rfl
  | cons b rest ih =>
    by_cases hspace : b = 32
    · subst hspace
      rw [dropWhile_cons_of_pos (by decide), ih]
      constructor
      · exact .space
      · intro h
        cases h with
        | here h => exact absurd h (by decide)
        | space h => exact h
        | atom hb => exact absurd hb (by decide)
    · rw [dropWhile_cons_of_neg (by simpa using hspace)]

theorem length_quotedText {rest' : Bytes} {text : List Char} (h : quotedText rest = some (text, rest')) :
    rest'.length < rest.length ∧ (encode text).length ≤ 2 * (rest.length - rest'.length - 1) := by
  have hsize : ∀ b : UInt8, (String.utf8EncodeChar (Char.ofNat b.toNat)).length ≤ 2 := by
    intro b
    have hall : ∀ n < 256, (String.utf8EncodeChar (Char.ofNat n)).length ≤ 2 := by decide +kernel
    exact hall b.toNat b.toNat_lt
  fun_induction quotedText rest generalizing text with
  | case1 | case2 => cases h
  | case3 b rest ih | case5 b rest _ _ _ ih =>
    obtain ⟨⟨text', after⟩, hrest, heq⟩ := Option.map_eq_some_iff.mp h
    cases heq
    obtain ⟨hless, hbytes⟩ := ih hrest
    have := hsize b
    rw [encode_cons, length_append]
    simp only [length_cons] at hless hbytes ⊢
    omega
  | case4 rest =>
    cases h
    simp [encode]

theorem length_literalBytes {rest' bytes : Bytes} (h : literalBytes rest = .ok (bytes, rest')) :
    rest'.length + bytes.length < rest.length := by
  unfold literalBytes at h
  split at h
  · cases h
  rename_i count after hcut
  split at h
  · cases h
  split at h
  · cases h
  · cases h
    have := length_cut (by decide) hcut
    simp only [length_drop, length_take]
    omega

section Outside

variable {b : UInt8} {rest : Bytes}

variable {depth : Nat}

theorem not_meets_nil (depth : Nat) : ¬ Meets depth [] := nofun

theorem meets_opening : Meets depth (40 :: rest) ↔ Meets (depth + 1) rest := by
  constructor
  · intro h
    cases h with
    | here h => exact absurd h (by decide)
    | opening h => exact h
    | atom hb => exact absurd hb (by decide)
  · exact .opening

theorem meets_closing : Meets (depth + 1) (41 :: rest) ↔ 0 < depth ∧ Meets depth rest := by
  constructor
  · intro h
    cases h with
    | here h => exact absurd h (by decide)
    | closing h => exact ⟨Nat.succ_pos _, h⟩
    | atom hb => exact absurd hb (by decide)
  · rintro ⟨hpos, h⟩
    obtain ⟨depth, rfl⟩ := Nat.exists_eq_succ_of_ne_zero hpos.ne'
    exact .closing h

theorem meets_quoted :
    Meets depth (34 :: rest) ↔ 0 < depth ∧ ∃ text rest', quotedText rest = some (text, rest') ∧ Meets depth rest' := by
  constructor
  · intro h
    cases h with
    | here h => exact absurd h (by decide)
    | quoted htext h => exact ⟨Nat.succ_pos _, _, _, htext, h⟩
    | atom hb => exact absurd hb (by decide)
  · rintro ⟨hpos, text, rest', htext, h⟩
    obtain ⟨depth, rfl⟩ := Nat.exists_eq_succ_of_ne_zero hpos.ne'
    exact .quoted htext h

theorem meets_literal :
    Meets depth (123 :: rest) ↔ 0 < depth ∧ ∃ bytes rest', literalBytes rest = .ok (bytes, rest') ∧ Meets depth rest' := by
  constructor
  · intro h
    cases h with
    | here h => exact absurd h (by decide)
    | literal hbytes h => exact ⟨Nat.succ_pos _, _, _, hbytes, h⟩
    | atom hb => exact absurd hb (by decide)
  · rintro ⟨hpos, bytes, rest', hbytes, h⟩
    obtain ⟨depth, rfl⟩ := Nat.exists_eq_succ_of_ne_zero hpos.ne'
    exact .literal hbytes h

theorem meets_atom (hb : isAtomByte b = true) :
    Meets depth (b :: rest) ↔ 0 < depth ∧ Meets depth ((b :: rest).dropWhile isAtomByte) := by
  constructor
  · intro h
    cases h with
    | here h => rcases h with rfl | rfl <;> exact absurd hb (by decide)
    | atom _ h => exact ⟨Nat.succ_pos _, h⟩
    | _ => exact absurd hb (by decide)
  · rintro ⟨hpos, h⟩
    obtain ⟨depth, rfl⟩ := Nat.exists_eq_succ_of_ne_zero hpos.ne'
    exact .atom hb h

end Outside

/-- A token that is read ends the scan if no list is open, and is otherwise a round that goes on. -/
theorem put_spec {token : Token} {n : Nat} {stack : List (List Token)} {P : Prop} (hless : rest.length < n)
    (hmeets : P ↔ 0 < stack.length ∧ Meets stack.length rest) :
    (∃ result, Scan.put token rest stack = .done result ∧ ¬ P) ∨
    ∃ s', Scan.put token rest stack = .more s' ∧ s'.rest.length < n ∧ (P ↔ Meets s'.stack.length s'.rest) := by
  cases stack with
  | nil => exact .inl ⟨_, rfl, fun h => absurd (hmeets.mp h).1 (Nat.lt_irrefl 0)⟩
  | cons items outer => exact .inr ⟨_, rfl, hless, hmeets.trans (and_iff_right (Nat.succ_pos _))⟩

/-- A round ends the scan before a line end, or goes on with fewer bytes, or is at a line end and stays there. -/
theorem next_spec (s : Scan) :
    (∃ result, s.next = .done result ∧ ¬ Meets s.stack.length s.rest) ∨
    (∃ s', s.next = .more s' ∧ s'.rest.length < s.rest.length ∧
      (Meets s.stack.length s.rest ↔ Meets s'.stack.length s'.rest)) ∨
    ∃ s', s.next = .more s' ∧ Meets s.stack.length s.rest ∧ Meets s'.stack.length s'.rest := by
  obtain ⟨bytes, stack⟩ := s
  have hlength : (bytes.dropWhile (· = 32)).length ≤ bytes.length := (dropWhile_sublist _).length_le
  rw [← meets_spaces]
  have hhead : ∀ rest, bytes.dropWhile (· = 32) ≠ 32 :: rest := by
    intro rest heq
    have := head?_dropWhile_not (fun b : UInt8 => decide (b = 32)) bytes
    simp [heq] at this
  unfold Scan.next
  dsimp only
  generalize bytes.dropWhile (· = 32) = front at hlength hhead ⊢
  cases front with
  | nil =>
    dsimp only
    left
    by_cases hempty : stack.isEmpty = true
    · rw [if_pos hempty]
      exact ⟨_, rfl, not_meets_nil _⟩
    · rw [if_neg hempty]
      exact ⟨_, rfl, not_meets_nil _⟩
  | cons b rest =>
    rw [length_cons] at hlength
    dsimp only
    by_cases hopen : b = 40
    · subst hopen
      rw [if_pos rfl]
      exact .inr (.inl ⟨_, rfl, hlength, meets_opening⟩)
    rw [if_neg hopen]
    by_cases hquote : b = 34
    · subst hquote
      rw [if_pos rfl]
      cases htext : quotedText rest with
      | none => exact .inl ⟨_, rfl, fun h => by simp [meets_quoted, htext] at h⟩
      | some r =>
        obtain ⟨text, rest'⟩ := r
        have hless := (length_quotedText htext).1
        have hmeets : Meets stack.length (34 :: rest) ↔ 0 < stack.length ∧ Meets stack.length rest' := by
          simp [meets_quoted, htext]
        exact (put_spec (n := bytes.length) (by omega) hmeets).imp_right .inl
    rw [if_neg hquote]
    by_cases hbrace : b = 123
    · subst hbrace
      rw [if_pos rfl]
      cases hbytes : literalBytes rest with
      | error error => exact .inl ⟨_, rfl, fun h => by simp [meets_literal, hbytes] at h⟩
      | ok r =>
        obtain ⟨literal, rest'⟩ := r
        have hless := length_literalBytes hbytes
        have hmeets : Meets stack.length (123 :: rest) ↔ 0 < stack.length ∧ Meets stack.length rest' := by
          simp [meets_literal, hbytes]
        exact (put_spec (n := bytes.length) (by omega) hmeets).imp_right .inl
    rw [if_neg hbrace]
    by_cases hclose : (b = 41 && !stack.isEmpty) = true
    · rw [if_pos hclose]
      simp only [Bool.and_eq_true, decide_eq_true_eq, Bool.not_eq_true', isEmpty_eq_false_iff] at hclose
      obtain ⟨rfl, hstack⟩ := hclose
      obtain ⟨items, outer, rfl⟩ := exists_cons_of_ne_nil hstack
      exact (put_spec (n := bytes.length) hlength meets_closing).imp_right .inl
    rw [if_neg hclose]
    by_cases hb : isAtomByte b = true
    · have hless : ((b :: rest).dropWhile isAtomByte).length ≤ rest.length := by
        rw [dropWhile_cons_of_pos hb]
        exact (dropWhile_sublist _).length_le
      exact (put_spec (n := bytes.length) (by omega) (meets_atom hb)).imp_right .inl
    · -- no token begins here: a line end, or a bracket that closes nothing
      rw [dropWhile_cons_of_neg hb]
      cases stack with
      | nil =>
        refine .inl ⟨_, rfl, fun h => ?_⟩
        cases h with
        | space h => exact hhead rest rfl
        | opening h => exact hopen rfl
      | cons items outer =>
        have hend : b = 13 ∨ b = 10 := by
          have hspace : b ≠ 32 := fun heq => hhead rest (heq ▸ rfl)
          simp [isAtomByte, hopen, hquote, hbrace, hspace] at hb hclose
          tauto
        exact .inr (.inr ⟨_, rfl, .here hend, .here hend⟩)

theorem run_of_meets {s : Scan} (h : Meets s.stack.length s.rest) (rounds : Nat) : s.run rounds = none := by
  induction rounds generalizing s with
  | zero => rfl
  | succ rounds ih =>
    unfold Scan.run
    rcases next_spec s with ⟨result, -, hnot⟩ | ⟨s', hnext, -, hiff⟩ | ⟨s', hnext, -, hmeets⟩
    · exact absurd h hnot
    · rw [hnext]
      exact ih (hiff.mp h)
    · rw [hnext]
      exact ih hmeets

end Progress

mutual

def Token.size : Token → Nat
  | .atom text => 1 + (Utf8.encode text).length
  | .quoted text => 1 + (Utf8.encode text).length
  | .literal bytes => 1 + bytes.length
  | .list items => 1 + sizes items

def sizes : List Token → Nat
  | [] => 0
  | token :: rest => token.size + sizes rest

end

def held : List (List Token) → Nat
  | [] => 0
  | items :: outer => 1 + sizes items + held outer

/-- The bytes that so many rounds look at, and one for each round. -/
def Scan.work : Nat → Scan → Nat
  | 0, _ => 0
  | rounds + 1, s =>
    match s.next with
    | .done _ => s.rest.length + 1
    | .more s' => s.rest.length - s'.rest.length + 1 + s'.work rounds

def Scan.peak : Nat → Scan → Nat
  | 0, s => held s.stack
  | rounds + 1, s =>
    match s.next with
    | .done _ => held s.stack
    | .more s' => max (held s.stack) (s'.peak rounds)

theorem sizes_append (items : List Token) (token : Token) : sizes (items ++ [token]) = sizes items + token.size := by
  induction items with
  | nil => simp [sizes]
  | cons item items ih =>
    simp only [cons_append, sizes, ih]
    omega

theorem held_put {token : Token} {rest : Bytes} {stack : List (List Token)} {s' : Scan}
    (h : Scan.put token rest stack = .more s') : s'.rest = rest ∧ held s'.stack = held stack + token.size := by
  cases stack with
  | nil => cases h
  | cons items outer =>
    cases h
    refine ⟨rfl, ?_⟩
    simp only [held, sizes_append]
    omega

theorem held_next {s s' : Scan} (h : s.next = .more s') (hless : s'.rest.length < s.rest.length) :
    held s'.stack + 4 * s'.rest.length ≤ held s.stack + 4 * s.rest.length := by
  have hlength : (s.rest.dropWhile (· = 32)).length ≤ s.rest.length := (dropWhile_sublist _).length_le
  unfold Scan.next at h
  split at h
  · split at h <;> cases h
  rename_i b rest hfront
  rw [hfront, length_cons] at hlength
  split at h
  · cases h
    simp only [held, sizes]
    omega
  split at h
  · split at h
    · cases h
    · rename_i text rest' htext
      obtain ⟨hrest, hheld⟩ := held_put h
      obtain ⟨hshorter, hbytes⟩ := length_quotedText htext
      rw [hrest, hheld, Token.size]
      omega
  split at h
  · split at h
    · cases h
    · rename_i bytes rest' hbytes
      obtain ⟨hrest, hheld⟩ := held_put h
      have hshorter := length_literalBytes hbytes
      rw [hrest, hheld, Token.size]
      omega
  split at h
  · rename_i hclose
    simp only [Bool.and_eq_true, Bool.not_eq_true', isEmpty_eq_false_iff] at hclose
    obtain ⟨items, outer, hstack⟩ := exists_cons_of_ne_nil hclose.2
    obtain ⟨hrest, hheld⟩ := held_put h
    rw [hrest, hheld, hstack, Token.size, headD_cons, tail_cons, held]
    omega
  · obtain ⟨hrest, hheld⟩ := held_put h
    have hatom := length_lossy ((b :: rest).takeWhile isAtomByte)
    have hsplit := congrArg List.length (takeWhile_append_dropWhile (p := isAtomByte) (l := b :: rest))
    rw [length_append, length_cons] at hsplit
    rw [hrest] at hless
    rw [hrest, hheld, Token.size]
    omega

theorem run_linear {s : Scan} (h : ¬ Meets s.stack.length s.rest) {rounds : Nat} (hrounds : s.rest.length < rounds) :
    (s.run rounds).isSome = true ∧ s.work rounds ≤ 2 * s.rest.length + 1 ∧
      s.peak rounds ≤ held s.stack + 4 * s.rest.length := by
  induction rounds generalizing s with
  | zero => omega
  | succ rounds ih =>
    unfold Scan.run Scan.work Scan.peak
    rcases next_spec s with ⟨result, hnext, -⟩ | ⟨s', hnext, hless, hiff⟩ | ⟨s', -, hmeets, -⟩
    · rw [hnext]
      refine ⟨rfl, ?_, ?_⟩
      · dsimp only
        omega
      · exact Nat.le_add_right _ _
    · obtain ⟨hsome, hwork, hpeak⟩ := ih (fun hmeets => h (hiff.mpr hmeets)) (by omega : s'.rest.length < rounds)
      have hheld := held_next hnext hless
      rw [hnext]
      refine ⟨hsome, ?_, ?_⟩
      · dsimp only
        omega
      · dsimp only
        exact max_le (Nat.le_add_right _ _) (hpeak.trans hheld)
    · exact absurd hmeets h

theorem length_fetchList {bytes list : Bytes} (h : fetchList bytes = some list) : list.length ≤ bytes.length := by
  unfold fetchList at h
  split at h
  · split at h
    · cases h
    rename_i before after hcut
    split at h
    · cases h
      have := length_cut (by decide) hcut
      rw [length_drop] at this
      rw [length_cons]
      omega
    · cases h
  · cases h

/-- A response is parsed within a round for each byte, looking at each byte twice at most, with four times its length
held at most. -/
def ParsedLinearly (bytes : Bytes) : Prop :=
  (parseFetch (bytes.length + 1) bytes).isSome = true ∧ ∀ list, fetchList bytes = some list →
    Scan.work (bytes.length + 1) ⟨list, []⟩ ≤ 2 * bytes.length + 1 ∧
    Scan.peak (bytes.length + 1) ⟨list, []⟩ ≤ 4 * bytes.length

/-- A response is parsed in linear time and space if, and only if, the scan of its list comes to no line end outside
of quoted strings and literals. -/
theorem parsed_linearly_iff (bytes : Bytes) :
    ParsedLinearly bytes ↔ ∀ list, fetchList bytes = some list → ¬ Meets 0 list := by
  constructor
  · rintro ⟨hsome, -⟩ list hlist hmeets
    have hnone : parseFetch (bytes.length + 1) bytes = none := by
      rw [parseFetch, hlist]
      exact Option.map_eq_none_iff.mpr (run_of_meets (s := ⟨list, []⟩) hmeets _)
    rw [hnone] at hsome
    cases hsome
  · intro h
    have hlinear : ∀ list, fetchList bytes = some list → (Scan.run (bytes.length + 1) ⟨list, []⟩).isSome = true ∧
        Scan.work (bytes.length + 1) ⟨list, []⟩ ≤ 2 * bytes.length + 1 ∧
        Scan.peak (bytes.length + 1) ⟨list, []⟩ ≤ 4 * bytes.length := by
      intro list hlist
      have hlength := length_fetchList hlist
      obtain ⟨hsome, hwork, hpeak⟩ :=
        @run_linear ⟨list, []⟩ (h list hlist) (bytes.length + 1) (Nat.lt_succ_of_le hlength)
      simp only [held, Nat.zero_add] at hpeak
      dsimp only at hwork hpeak
      exact ⟨hsome, by omega, by omega⟩
    refine ⟨?_, fun list hlist => (hlinear list hlist).2⟩
    unfold parseFetch
    cases hlist : fetchList bytes with
    | none => rfl
    | some list => simpa using (hlinear list hlist).1

/-- A list with a bare line feed is framed as a response, and never parsed. -/
theorem line_feed_never_parsed :
    Framer.receive .new [Utf8.encode "* 1 FETCH (\n)\r\n".toList] =
      .ok ([Utf8.encode "* 1 FETCH (\n)".toList], .new) ∧
    ∀ rounds, parseFetch rounds (Utf8.encode "* 1 FETCH (\n)".toList) = none := by
  constructor
  · have hcut : cut crlf (encode "* 1 FETCH (\n)\r\n".toList) = some (encode "* 1 FETCH (\n)".toList, []) := by
      decide +kernel
    have hlength : literalLength (encode "* 1 FETCH (\n)".toList) = none := by decide +kernel
    have hfits : ¬ MAX_RESPONSE < ([] : Bytes).length + (encode "* 1 FETCH (\n)".toList).length := by decide +kernel
    have htake : takeFrom [] (encode "* 1 FETCH (\n)\r\n".toList) =
        .ok (some (encode "* 1 FETCH (\n)".toList, [])) := by
      rw [takeFrom]
      split
      · rename_i hnone
        rw [hcut] at hnone
        cases hnone
      · rename_i hsome
        rw [hcut] at hsome
        cases hsome
        rw [hlength]
        dsimp only
        rw [if_neg hfits, nil_append]
    have hempty : takeFrom [] [] = .ok none := by
      rw [takeFrom]
      rfl
    have hdrain := drain_some (f := ⟨encode "* 1 FETCH (\n)\r\n".toList⟩) htake
    rw [drain_none (f := ⟨[]⟩) hempty] at hdrain
    have hpush : Framer.new.push (encode "* 1 FETCH (\n)\r\n".toList) =
        .ok ⟨encode "* 1 FETCH (\n)\r\n".toList⟩ := rfl
    unfold Framer.receive
    rw [hpush]
    dsimp only
    rw [hdrain]
    rfl
  · intro rounds
    have hlist : fetchList (encode "* 1 FETCH (\n)".toList) = some [40, 10, 41] := by decide +kernel
    rw [parseFetch, hlist]
    exact Option.map_eq_none_iff.mpr (run_of_meets (s := ⟨[40, 10, 41], []⟩) (.opening (.here (.inr rfl))) rounds)

end Pluribus.Email
