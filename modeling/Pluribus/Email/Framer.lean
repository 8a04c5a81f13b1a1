import Pluribus.Email.Wire
import Pluribus.Lib.Numeral
import Pluribus.Lib.Lines

namespace Pluribus.Email

open Lib Pluribus.Core Pluribus.Runtime List

def MAX_RESPONSE : Nat := 8 * 1024 * 1024
def MAX_BUFFERED : Nat := MAX_RESPONSE + 64 * 1024

def isDigit (b : UInt8) : Bool := 48 ≤ b && b ≤ 57

def parseUsize (text : Bytes) : Option Nat :=
  let digits := if text.head? = some 43 then text.tail else text
  let value := digits.foldl (fun n b => 10 * n + (b.toNat - 48)) 0
  if digits.isEmpty || !digits.all isDigit || 4294967295 < value then none else some value

def stripPlus (digits : Bytes) : Bytes := if digits.getLast? = some 43 then digits.dropLast else digits

/-- The octet count of a literal that the end of a line introduces. -/
def literalLength (line : Bytes) : Option Nat :=
  match line.reverse with
  | 125 :: before =>
    if 123 ∈ before then
      let digits := stripPlus (before.takeWhile (· ≠ 123)).reverse
      if digits.isEmpty || !digits.all isDigit then none else parseUsize digits
    else none
  | _ => none

structure Framer where
  pending : Bytes
deriving DecidableEq, Repr

def Framer.new : Framer := ⟨[]⟩

def Framer.push (f : Framer) (bytes : Bytes) : Except HostError Framer :=
  if MAX_BUFFERED < f.pending.length then
    .error ⟨.resourceExhausted, "endpoint response exceeds the buffer ceiling"⟩
  else .ok ⟨f.pending ++ bytes⟩

/-- The response that `rest` completes after what was read of it, and what comes after. -/
def takeFrom (line rest : Bytes) : Except HostError (Option (Bytes × Bytes)) :=
  match _h : cut crlf rest with
  | none => .ok none
  | some (text, after) =>
    match literalLength text with
    | none =>
      if MAX_RESPONSE < line.length + text.length then
        .error ⟨.resourceExhausted, "endpoint response exceeds the response ceiling"⟩
      else .ok (some (line ++ text, after))
    | some length =>
      if MAX_RESPONSE < line.length + length then
        .error ⟨.resourceExhausted, "endpoint literal exceeds the response ceiling"⟩
      else if after.length < length then .ok none
      else takeFrom (line ++ text ++ after.take length) (after.drop length)
termination_by rest.length
decreasing_by
  have := length_cut (by decide) _h
  simp only [length_drop]
  omega

theorem length_takeFrom {line rest response after : Bytes} (h : takeFrom line rest = .ok (some (response, after))) :
    after.length < rest.length := by
  fun_induction takeFrom line rest with
  | case1 | case2 line rest text after' hcut | case4 | case5 => cases h
  | case3 line rest text after' hcut =>
    cases h
    exact length_cut (by decide) hcut
  | case6 line rest text after' hcut length hlength hfits hthere ih =>
    have := length_cut (by decide) hcut
    have := ih h
    rw [length_drop] at this
    omega

def Framer.takeResponse (f : Framer) : Except HostError (Option (Bytes × Framer)) :=
  (takeFrom [] f.pending).map fun taken => taken.map fun r => (r.1, ⟨r.2⟩)

theorem takeResponse_some {f f' : Framer} {response : Bytes} (h : f.takeResponse = .ok (some (response, f'))) :
    takeFrom [] f.pending = .ok (some (response, f'.pending)) := by
  unfold Framer.takeResponse at h
  cases htake : takeFrom [] f.pending with
  | error error =>
    rw [htake] at h
    cases h
  | ok taken =>
    rw [htake] at h
    obtain ⟨r, hr, heq⟩ := Option.map_eq_some_iff.mp (Except.ok.inj h)
    cases heq
    rw [hr]

def Framer.drain (f : Framer) : Except HostError (List Bytes × Framer) :=
  match _h : f.takeResponse with
  | .error error => .error error
  | .ok none => .ok ([], f)
  | .ok (some (response, f')) => f'.drain.map fun r => (response :: r.1, r.2)
termination_by f.pending.length
decreasing_by exact length_takeFrom (takeResponse_some _h)

def Framer.receive (f : Framer) : List Bytes → Except HostError (List Bytes × Framer)
  | [] => .ok ([], f)
  | chunk :: chunks =>
    match f.push chunk with
    | .error error => .error error
    | .ok f =>
      match f.drain with
      | .error error => .error error
      | .ok (responses, f) => (receive f chunks).map fun r => (responses ++ r.1, r.2)

def digits (n : Nat) : Bytes := Utf8.encode n.repr.toList

theorem digits_eq (n : Nat) : digits n = n.repr.toList.map fun c => UInt8.ofNat c.toNat := by
  refine Utf8.encode_ascii fun c hc => ?_
  exact Nat.lt_of_le_of_lt (toNat_of_mem_repr hc).2 (by decide)

theorem isDigit_of_mem_digits {n : Nat} {b : UInt8} (h : b ∈ digits n) : isDigit b = true := by
  rw [digits_eq] at h
  obtain ⟨c, hc, rfl⟩ := mem_map.mp h
  obtain ⟨hlow, hhigh⟩ := toNat_of_mem_repr hc
  have hcode : (UInt8.ofNat c.toNat).toNat = c.toNat := by
    rw [UInt8.toNat_ofNat']
    omega
  simp only [isDigit, Bool.and_eq_true, decide_eq_true_eq, UInt8.le_iff_toNat_le, hcode]
  exact ⟨hlow, hhigh⟩

theorem digits_ne_nil (n : Nat) : digits n ≠ [] := by
  rw [digits_eq, Nat.toList_repr]
  simp

theorem parseUsize_digits {n : Nat} (h : n ≤ 4294967295) : parseUsize (digits n) = some n := by
  have hplus : (digits n).head? ≠ some 43 := by
    intro hhead
    exact absurd (isDigit_of_mem_digits (mem_of_head? hhead)) (by decide)
  have hvalue : (digits n).foldl (fun n b => 10 * n + (b.toNat - 48)) 0 = n := by
    have hfold : (n.repr.toList.map fun c => UInt8.ofNat c.toNat).foldl (fun n b => 10 * n + (b.toNat - 48)) 0 =
        n.repr.toList.foldl (fun n c => 10 * n + (c.toNat - '0'.toNat)) 0 := by
      rw [foldl_map]
      refine foldl_ext _ _ 0 fun m c hc => ?_
      have hhigh := (toNat_of_mem_repr hc).2
      have hzero : '0'.toNat = 48 := rfl
      rw [UInt8.toNat_ofNat', Nat.mod_eq_of_lt (by omega), hzero]
    rw [digits_eq, hfold, Nat.toList_repr]
    exact Nat.ofDigitChars_ten_toDigits
  have hall : (digits n).all isDigit = true := all_eq_true.mpr fun b hb => isDigit_of_mem_digits hb
  unfold parseUsize
  simp only [hplus, if_false, hvalue, hall, isEmpty_eq_false_iff.mpr (digits_ne_nil n), Bool.not_true,
    Bool.or_self, Bool.false_or, decide_eq_true_eq]
  rw [if_neg (Nat.not_lt.mpr h)]

/-- A part of a line that ends with the marker of a literal, and the literal. -/
structure Piece where
  text : Bytes
  literal : Bytes
  plus : Bool

def Piece.line (piece : Piece) : Bytes :=
  piece.text ++ 123 :: (digits piece.literal.length ++ if piece.plus then [43, 125] else [125])

structure Reply where
  pieces : List Piece
  last : Bytes

def Reply.wire (reply : Reply) : Bytes :=
  reply.pieces.flatMap (fun piece => piece.line ++ crlf ++ piece.literal) ++ reply.last ++ crlf

def Reply.bytes (reply : Reply) : Bytes := reply.pieces.flatMap (fun piece => piece.line ++ piece.literal) ++ reply.last

/-- Its lines are lines, the last one announces no literal, and it keeps the ceilings. -/
structure Reply.Fits (reply : Reply) : Prop where
  texts : ∀ piece ∈ reply.pieces, Plain piece.text
  last : Plain reply.last
  ends : literalLength reply.last = none
  response : reply.bytes.length ≤ MAX_RESPONSE
  buffered : reply.wire.length ≤ MAX_BUFFERED

theorem literalLength_line {piece : Piece} (h : piece.literal.length ≤ 4294967295) :
    literalLength piece.line = some piece.literal.length := by
  have hdigits : ∀ b ∈ (digits piece.literal.length).reverse, b ≠ 123 := by
    rintro b hb rfl
    exact absurd (isDigit_of_mem_digits (mem_reverse.mp hb)) (by decide)
  have hplus : (digits piece.literal.length).getLast? ≠ some 43 := by
    intro hlast
    exact absurd (isDigit_of_mem_digits (mem_of_getLast? hlast)) (by decide)
  have hall : (digits piece.literal.length).all isDigit = true :=
    all_eq_true.mpr fun b hb => isDigit_of_mem_digits hb
  -- the line from its end: the marker, its digits, the opening brace
  have hread : ∀ before : Bytes, before = (digits piece.literal.length).reverse ∨
      before = 43 :: (digits piece.literal.length).reverse →
      stripPlus ((before ++ 123 :: piece.text.reverse).takeWhile (· ≠ 123)).reverse = digits piece.literal.length := by
    rintro before (rfl | rfl)
    · rw [takeWhile_append_of_pos (by simpa using hdigits)]
      simp [stripPlus, hplus]
    · rw [takeWhile_append_of_pos (by simpa using hdigits)]
      simp [stripPlus]
  have hreverse : ∃ before, piece.line.reverse = 125 :: (before ++ 123 :: piece.text.reverse) ∧
      (before = (digits piece.literal.length).reverse ∨ before = 43 :: (digits piece.literal.length).reverse) := by
    unfold Piece.line
    cases piece.plus with
    | false => exact ⟨_, by simp, .inl rfl⟩
    | true => exact ⟨_, by simp, .inr rfl⟩
  obtain ⟨before, hline, hbefore⟩ := hreverse
  unfold literalLength
  rw [hline]
  simp only [mem_append, mem_cons, true_or, or_true, if_true, hread before hbefore, hall,
    isEmpty_eq_false_iff.mpr (digits_ne_nil _), Bool.not_true, Bool.or_self, Bool.false_eq_true, if_false]
  exact parseUsize_digits h

theorem plain_line {piece : Piece} (h : Plain piece.text) : Plain piece.line := by
  have hmarker : ∀ b, b = 13 ∨ b = 10 → b ∉ 123 :: (digits piece.literal.length ++ if piece.plus then [43, 125] else [125]) := by
    intro b hb hmem
    rcases mem_cons.mp hmem with rfl | hrest
    · exact absurd hb (by decide)
    rcases mem_append.mp hrest with hdigit | hend
    · have := isDigit_of_mem_digits hdigit
      rcases hb with rfl | rfl <;> exact absurd this (by decide)
    · split at hend <;> rcases hb with rfl | rfl <;> exact absurd hend (by decide)
  constructor
  · exact fun hmem => (mem_append.mp hmem).elim h.1 (hmarker 13 (.inl rfl))
  · exact fun hmem => (mem_append.mp hmem).elim h.2 (hmarker 10 (.inr rfl))

theorem cut_unended {q tail line : Bytes} (htail : tail ≠ []) (heq : q ++ tail = line ++ crlf) (h : Plain line) :
    cut crlf q = none := by
  obtain ⟨front, last, rfl⟩ := eq_nil_or_concat tail |>.resolve_left htail
  have hlast : q ++ front = line ++ [13] := by
    have : (q ++ front) ++ [last] = (line ++ [13]) ++ [10] := by simpa [crlf] using heq
    exact (append_inj' this rfl).1
  refine cut_eq_none fun hwithin => ?_
  have hmem : (10 : UInt8) ∈ line ++ [13] := hlast ▸ mem_append_left _ (hwithin.subset (by decide))
  rcases mem_append.mp hmem with hline | hcr
  · exact h.2 hline
  · exact absurd hcr (by decide)

theorem takeFrom_wire {pieces : List Piece} {last line rest : Bytes} (htexts : ∀ piece ∈ pieces, Plain piece.text)
    (hlast : Plain last) (hends : literalLength last = none)
    (hsize : line.length + (Reply.bytes ⟨pieces, last⟩).length ≤ MAX_RESPONSE) :
    takeFrom line (Reply.wire ⟨pieces, last⟩ ++ rest) = .ok (some (line ++ Reply.bytes ⟨pieces, last⟩, rest)) := by
  induction pieces generalizing line with
  | nil =>
    have hcut : cut crlf (last ++ crlf ++ rest) = some (last, rest) := cut_of_not_mem hlast.1
    have hfits : ¬ MAX_RESPONSE < line.length + last.length := by simpa [Reply.bytes] using hsize
    have hwire : Reply.wire ⟨[], last⟩ ++ rest = last ++ crlf ++ rest := by simp [Reply.wire]
    rw [hwire, takeFrom]
    split
    · rename_i hnone
      rw [hcut] at hnone
      cases hnone
    · rename_i text after hsome
      rw [hcut] at hsome
      cases hsome
      simp [hends, hfits, Reply.bytes]
  | cons piece pieces ih =>
    have hplain := plain_line (htexts piece mem_cons_self)
    have hwire : Reply.wire ⟨piece :: pieces, last⟩ ++ rest =
        piece.line ++ crlf ++ (piece.literal ++ (Reply.wire ⟨pieces, last⟩ ++ rest)) := by simp [Reply.wire]
    have hbytes : Reply.bytes ⟨piece :: pieces, last⟩ = piece.line ++ piece.literal ++ Reply.bytes ⟨pieces, last⟩ := by
      simp [Reply.bytes]
    have hcut := cut_of_not_mem (p := [10]) (b := piece.literal ++ (Reply.wire ⟨pieces, last⟩ ++ rest)) hplain.1
    rw [hbytes, length_append, length_append] at hsize
    have hlength : literalLength piece.line = some piece.literal.length :=
      literalLength_line (by simp only [MAX_RESPONSE] at hsize; omega)
    rw [hwire, takeFrom]
    split
    · rename_i hnone
      rw [show crlf = [13, 10] from rfl, hcut] at hnone
      cases hnone
    · rename_i text after hsome
      rw [show crlf = [13, 10] from rfl, hcut] at hsome
      cases hsome
      have hfits : ¬ MAX_RESPONSE < line.length + piece.literal.length := by omega
      have hthere : ¬ (piece.literal ++ (Reply.wire ⟨pieces, last⟩ ++ rest)).length < piece.literal.length := by
        rw [length_append]
        omega
      simp only [hlength, if_neg hfits, if_neg hthere, take_left, drop_left]
      rw [ih (fun piece hpiece => htexts piece (mem_cons_of_mem _ hpiece))
        (by simp only [length_append]; omega), hbytes]
      simp

theorem takeFrom_part {pieces : List Piece} {last line q tail : Bytes} (htexts : ∀ piece ∈ pieces, Plain piece.text)
    (hlast : Plain last) (hsize : line.length + (Reply.bytes ⟨pieces, last⟩).length ≤ MAX_RESPONSE)
    (htail : tail ≠ []) (hwire : q ++ tail = Reply.wire ⟨pieces, last⟩) : takeFrom line q = .ok none := by
  induction pieces generalizing line q with
  | nil =>
    have hcut : cut crlf q = none := cut_unended htail (by simpa [Reply.wire] using hwire) hlast
    rw [takeFrom]
    split
    · rfl
    · rename_i hsome
      rw [hcut] at hsome
      cases hsome
  | cons piece pieces ih =>
    have hplain := plain_line (htexts piece mem_cons_self)
    have hcons : q ++ tail = piece.line ++ crlf ++ (piece.literal ++ Reply.wire ⟨pieces, last⟩) := by
      simpa [Reply.wire] using hwire
    have hbytes : Reply.bytes ⟨piece :: pieces, last⟩ = piece.line ++ piece.literal ++ Reply.bytes ⟨pieces, last⟩ := by
      simp [Reply.bytes]
    rw [hbytes, length_append, length_append] at hsize
    by_cases hended : (piece.line ++ crlf).length ≤ q.length
    · obtain ⟨q', rfl⟩ := prefix_of_prefix_length_le ⟨_, hcons.symm⟩ ⟨tail, rfl⟩ hended
      have hrest : q' ++ tail = piece.literal ++ Reply.wire ⟨pieces, last⟩ := by
        rw [append_assoc] at hcons
        exact append_cancel_left hcons
      have hcut := cut_of_not_mem (p := [10]) (b := q') hplain.1
      have hlength : literalLength piece.line = some piece.literal.length :=
        literalLength_line (by simp only [MAX_RESPONSE] at hsize; omega)
      rw [takeFrom]
      split
      · rfl
      · rename_i text after hsome
        rw [show crlf = [13, 10] from rfl, hcut] at hsome
        cases hsome
        have hfits : ¬ MAX_RESPONSE < line.length + piece.literal.length := by omega
        simp only [hlength, if_neg hfits]
        split
        · rfl
        · rename_i hthere
          obtain ⟨q'', rfl⟩ := prefix_of_prefix_length_le ⟨_, hrest.symm⟩ ⟨tail, rfl⟩ (Nat.not_lt.mp hthere)
          rw [append_assoc] at hrest
          simp only [take_left, drop_left]
          exact ih (fun piece hpiece => htexts piece (mem_cons_of_mem _ hpiece))
            (by simp only [length_append]; omega) (append_cancel_left hrest)
    · obtain ⟨more, hline⟩ := prefix_of_prefix_length_le ⟨tail, rfl⟩ ⟨_, hcons.symm⟩ (Nat.le_of_not_le hended)
      have hmore : more ≠ [] := by
        rintro rfl
        rw [append_nil] at hline
        exact hended (hline ▸ le_rfl)
      have hcut : cut crlf q = none := cut_unended hmore hline hplain
      rw [takeFrom]
      split
      · rfl
      · rename_i hsome
        rw [hcut] at hsome
        cases hsome

/-- What is pending is the beginning of a reply, and not all of it. -/
def Waiting (pending : Bytes) (todo : List Reply) : Prop :=
  (todo = [] ∧ pending = []) ∨ ∃ reply later tail, todo = reply :: later ∧ tail ≠ [] ∧ pending ++ tail = reply.wire

theorem drain_none {f : Framer} (h : takeFrom [] f.pending = .ok none) : f.drain = .ok ([], f) := by
  have htake : f.takeResponse = .ok none := by
    rw [Framer.takeResponse, h]
    rfl
  rw [Framer.drain]
  split
  · rename_i herror
    rw [htake] at herror
    cases herror
  · rfl
  · rename_i hsome
    rw [htake] at hsome
    cases hsome

theorem drain_some {f : Framer} {response rest : Bytes} (h : takeFrom [] f.pending = .ok (some (response, rest))) :
    f.drain = (Framer.drain ⟨rest⟩).map fun r => (response :: r.1, r.2) := by
  have htake : f.takeResponse = .ok (some (response, ⟨rest⟩)) := by
    rw [Framer.takeResponse, h]
    rfl
  rw [Framer.drain]
  split
  · rename_i herror
    rw [htake] at herror
    cases herror
  · rename_i hnone
    rw [htake] at hnone
    cases hnone
  · rename_i hsome
    rw [htake] at hsome
    cases hsome
    rfl

theorem drain_replies {replies : List Reply} {pending later : Bytes} (hfits : ∀ reply ∈ replies, reply.Fits)
    (hwire : pending ++ later = replies.flatMap Reply.wire) : ∃ taken todo rest, replies = taken ++ todo ∧
      Framer.drain ⟨pending⟩ = .ok (taken.map Reply.bytes, ⟨rest⟩) ∧ rest ++ later = todo.flatMap Reply.wire ∧
      Waiting rest todo := by
  induction replies generalizing pending with
  | nil =>
    obtain ⟨rfl, rfl⟩ := append_eq_nil_iff.mp hwire
    have htake : takeFrom [] [] = .ok none := by
      rw [takeFrom]
      rfl
    exact ⟨[], [], [], rfl, drain_none htake, rfl, .inl ⟨rfl, rfl⟩⟩
  | cons reply replies ih =>
    obtain ⟨pieces, last⟩ := reply
    have hreply := hfits ⟨pieces, last⟩ mem_cons_self
    have hsize : ([] : Bytes).length + (Reply.bytes ⟨pieces, last⟩).length ≤ MAX_RESPONSE := by
      simpa using hreply.response
    by_cases hwhole : (Reply.wire ⟨pieces, last⟩).length ≤ pending.length
    · obtain ⟨rest, rfl⟩ := prefix_of_prefix_length_le ⟨_, hwire.symm⟩ ⟨later, rfl⟩ hwhole
      rw [append_assoc] at hwire
      obtain ⟨taken, todo, left, rfl, hdrain, hleft, hwaiting⟩ :=
        ih (fun reply hmem => hfits reply (mem_cons_of_mem _ hmem)) (append_cancel_left hwire)
      refine ⟨⟨pieces, last⟩ :: taken, todo, left, rfl, ?_, hleft, hwaiting⟩
      rw [drain_some (takeFrom_wire hreply.texts hreply.last hreply.ends hsize), hdrain]
      rfl
    · obtain ⟨tail, htail⟩ := prefix_of_prefix_length_le ⟨later, rfl⟩ ⟨_, hwire.symm⟩ (Nat.le_of_not_le hwhole)
      have hne : tail ≠ [] := by
        rintro rfl
        rw [append_nil] at htail
        exact hwhole (htail ▸ le_rfl)
      refine ⟨[], ⟨pieces, last⟩ :: replies, pending, rfl, ?_, hwire, .inr ⟨_, replies, tail, rfl, hne, htail⟩⟩
      exact drain_none (takeFrom_part hreply.texts hreply.last hsize hne htail)

theorem receive_replies {chunks : List Bytes} {replies : List Reply} {pending : Bytes}
    (hfits : ∀ reply ∈ replies, reply.Fits) (hwaiting : Waiting pending replies)
    (hwire : pending ++ chunks.flatten = replies.flatMap Reply.wire) :
    Framer.receive ⟨pending⟩ chunks = .ok (replies.map Reply.bytes, .new) := by
  induction chunks generalizing pending replies with
  | nil =>
    rcases hwaiting with ⟨rfl, rfl⟩ | ⟨reply, later, tail, rfl, htail, hreply⟩
    · rfl
    · have hlength := congrArg length hwire
      have hwhole := congrArg length hreply
      have hpos := length_pos_iff.mpr htail
      simp only [flatten_nil, append_nil, flatMap_cons, length_append] at hlength hwhole
      omega
  | cons chunk chunks ih =>
    have hpush : Framer.push ⟨pending⟩ chunk = .ok ⟨pending ++ chunk⟩ := by
      refine if_neg (Nat.not_lt.mpr ?_)
      rcases hwaiting with ⟨-, rfl⟩ | ⟨reply, later, tail, rfl, -, hreply⟩
      · exact Nat.zero_le _
      · have hbuffered := (hfits reply mem_cons_self).buffered
        rw [← hreply, length_append] at hbuffered
        exact Nat.le_of_add_right_le hbuffered
    rw [flatten_cons, ← append_assoc] at hwire
    obtain ⟨taken, todo, rest, rfl, hdrain, hrest, hwaiting'⟩ := drain_replies hfits hwire
    have hlater := ih (fun reply hmem => hfits reply (mem_append_right _ hmem)) hwaiting' hrest
    unfold Framer.receive
    simp only [hpush, hdrain, hlater]
    simp [Except.map]

end Pluribus.Email
