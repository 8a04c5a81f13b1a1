import Pluribus.Lib.JsonText

namespace Pluribus.Lib.Utf8

open List

def encode (s : List Char) : List UInt8 := s.flatMap String.utf8EncodeChar

def first (bytes : List UInt8) : Option Char := bytes.toByteArray.utf8DecodeChar? 0

/-- Whether a byte may come second after the first byte of three or four. -/
def secondOk (lead second : UInt8) : Bool :=
  if lead = 0xE0 then 0xA0 ≤ second && second ≤ 0xBF
  else if lead = 0xED then 0x80 ≤ second && second ≤ 0x9F
  else if lead = 0xF0 then 0x90 ≤ second && second ≤ 0xBF
  else if lead = 0xF4 then 0x80 ≤ second && second ≤ 0x8F
  else 0x80 ≤ second && second ≤ 0xBF

/-- How many bytes one replacement character stands for where no character begins. -/
def brokenLength : List UInt8 → Nat
  | lead :: second :: rest =>
    if 0xE0 ≤ lead && lead ≤ 0xF4 && secondOk lead second then
      if 0xF0 ≤ lead && rest.head?.any (fun third => 0x80 ≤ third && third ≤ 0xBF) then 3 else 2
    else 1
  | _ => 1

def lossyFrom : Nat → List UInt8 → List Char
  | 0, _ => []
  | _, [] => []
  | n + 1, bytes =>
    match first bytes with
    | some c => c :: lossyFrom n (bytes.drop c.utf8Size)
    | none => Char.ofNat 0xFFFD :: lossyFrom n (bytes.drop (brokenLength bytes))

/-- The text of bytes, with replacement characters for what is not UTF-8. -/
def lossy (bytes : List UInt8) : List Char := lossyFrom bytes.length bytes

theorem encode_append (s t : List Char) : encode (s ++ t) = encode s ++ encode t := flatMap_append

theorem encode_cons (c : Char) (s : List Char) : encode (c :: s) = String.utf8EncodeChar c ++ encode s := rfl

theorem first_encode (c : Char) (rest : List UInt8) : first (String.utf8EncodeChar c ++ rest) = some c := by
  rw [first, toByteArray_append]
  exact ByteArray.utf8DecodeChar?_utf8EncodeChar_append

theorem lossyFrom_encode {s : List Char} {n : Nat} (h : (encode s).length ≤ n) : lossyFrom n (encode s) = s := by
  induction s generalizing n with
  | nil => cases n <;> rfl
  | cons c s ih =>
    have hpos := c.utf8Size_pos
    rw [encode_cons, length_append, String.length_utf8EncodeChar] at h
    cases n with
    | zero => omega
    | succ n =>
      have hcons : ∃ b rest, encode (c :: s) = b :: rest := by
        rw [encode_cons]
        exact exists_cons_of_ne_nil (by simp)
      obtain ⟨b, rest, hbytes⟩ := hcons
      rw [hbytes, lossyFrom, ← hbytes, encode_cons, first_encode]
      · dsimp only
        rw [drop_left' (String.length_utf8EncodeChar c), ih (by omega)]
      · nofun

theorem lossy_encode (s : List Char) : lossy (encode s) = s := lossyFrom_encode le_rfl

theorem length_lossyFrom (n : Nat) (bytes : List UInt8) : (encode (lossyFrom n bytes)).length ≤ 3 * bytes.length := by
  induction n generalizing bytes with
  | zero => simp [lossyFrom, encode]
  | succ n ih =>
    cases bytes with
    | nil => simp [lossyFrom, encode]
    | cons b rest =>
      unfold lossyFrom
      cases hfirst : first (b :: rest) with
      | some c =>
        have hle := ByteArray.le_size_of_utf8DecodeChar?_eq_some hfirst
        have hsize : (b :: rest).toByteArray.size = (b :: rest).length := size_toByteArray
        have hrest := ih ((b :: rest).drop c.utf8Size)
        rw [encode_cons, length_append, String.length_utf8EncodeChar]
        rw [length_drop] at hrest
        omega
      | none =>
        have hbroken : 1 ≤ brokenLength (b :: rest) := by
          unfold brokenLength
          split
          · split
            · split <;> omega
            · omega
          · omega
        have hrest := ih ((b :: rest).drop (brokenLength (b :: rest)))
        have hchar : (String.utf8EncodeChar (Char.ofNat 0xFFFD)).length = 3 := by decide
        rw [encode_cons, length_append, hchar]
        rw [length_drop] at hrest
        have hlength : (b :: rest).length = rest.length + 1 := length_cons
        omega

theorem length_lossy (bytes : List UInt8) : (encode (lossy bytes)).length ≤ 3 * bytes.length := length_lossyFrom _ _

theorem encode_ascii {s : List Char} (h : ∀ c ∈ s, c.toNat < 128) : encode s = s.map fun c => UInt8.ofNat c.toNat := by
  induction s with
  | nil => rfl
  | cons c s ih =>
    have hc : c.val.toNat ≤ 127 := Nat.le_of_lt_succ (h c mem_cons_self)
    rw [encode_cons, String.utf8EncodeChar.eq_1, if_pos hc, ih fun d hd => h d (mem_cons_of_mem _ hd)]
    rfl

theorem mem_utf8EncodeChar {c : Char} {b : UInt8} (hb : b.toNat < 128) (h : b ∈ String.utf8EncodeChar c) :
    c.toNat = b.toNat := by
  have hhigh (n : Nat) (hlow : 128 ≤ n) (hlt : n < 256) : b ≠ UInt8.ofNat n := by
    rintro rfl
    rw [UInt8.toNat_ofNat'] at hb
    omega
  rw [String.utf8EncodeChar.eq_1] at h
  split at h
  · rename_i hc
    have hval : c.val.toNat = c.toNat := rfl
    rw [mem_singleton.mp h, UInt8.toNat_ofNat']
    omega
  split at h
  · simp only [mem_cons, not_mem_nil, or_false] at h
    rcases h with h | h <;> exact absurd h (hhigh _ (by omega) (by omega))
  split at h
  · simp only [mem_cons, not_mem_nil, or_false] at h
    rcases h with h | h | h <;> exact absurd h (hhigh _ (by omega) (by omega))
  · simp only [mem_cons, not_mem_nil, or_false] at h
    rcases h with h | h | h | h <;> exact absurd h (hhigh _ (by omega) (by omega))

theorem mem_encode {s : List Char} {b : UInt8} (hb : b.toNat < 128) (h : b ∈ encode s) : Char.ofNat b.toNat ∈ s := by
  obtain ⟨c, hc, hmem⟩ := mem_flatMap.mp h
  have hcode := mem_utf8EncodeChar hb hmem
  rwa [← hcode, Char.ofNat_toNat]

end Pluribus.Lib.Utf8
