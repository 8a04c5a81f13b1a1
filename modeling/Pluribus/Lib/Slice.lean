import Pluribus.Lib.Search
import Pluribus.Lib.Utf8

namespace Pluribus.Lib.Slice

open List

def size (s : List Char) : Nat := (Utf8.encode s).length

/-- A text cut at a byte offset; there is none where a character goes on or after the end. -/
def splitAt : Nat → List Char → Option (List Char × List Char)
  | 0, s => some ([], s)
  | _ + 1, [] => none
  | n + 1, c :: s => if c.utf8Size ≤ n + 1 then (splitAt (n + 1 - c.utf8Size) s).map fun r => (c :: r.1, r.2) else none

def slice (s : List Char) (i j : Nat) : Option (List Char) :=
  if j < i then none else (splitAt j s).bind fun r => (splitAt i r.1).map (·.2)

def find (p s : List Char) : Option Nat := (cut p s).map fun r => size r.1

@[simp] theorem size_nil : size [] = 0 := rfl

@[simp] theorem size_append (s t : List Char) : size (s ++ t) = size s + size t := by
  simp [size, Utf8.encode_append]

@[simp] theorem size_cons (c : Char) (s : List Char) : size (c :: s) = c.utf8Size + size s := by
  simp [size, Utf8.encode_cons]

theorem splitAt_size (s t : List Char) : splitAt (size s) (s ++ t) = some (s, t) := by
  induction s with
  | nil =>
    cases t <;> rfl
  | cons c s ih =>
    have hpos := c.utf8Size_pos
    obtain ⟨n, hn⟩ : ∃ n, c.utf8Size + size s = n + 1 := ⟨c.utf8Size + size s - 1, by omega⟩
    have hrest : n + 1 - c.utf8Size = size s := by omega
    rw [size_cons, hn, cons_append, splitAt, if_pos (by omega), hrest, ih]
    rfl

theorem splitAt_some {n : Nat} {s a b : List Char} (h : splitAt n s = some (a, b)) : s = a ++ b ∧ size a = n := by
  induction s generalizing n a with
  | nil =>
    cases n with
    | zero =>
      cases h
      exact ⟨rfl, rfl⟩
    | succ n => cases h
  | cons c s ih =>
    cases n with
    | zero =>
      cases h
      exact ⟨rfl, rfl⟩
    | succ n =>
      unfold splitAt at h
      split at h
      · obtain ⟨⟨a', b'⟩, hrest, heq⟩ := Option.map_eq_some_iff.mp h
        cases heq
        obtain ⟨rfl, hsize⟩ := ih hrest
        refine ⟨rfl, ?_⟩
        rw [size_cons, hsize]
        omega
      · cases h

theorem length_splitAt {n : Nat} {s a b : List Char} (h : splitAt n s = some (a, b)) (hn : 0 < n) :
    b.length < s.length := by
  obtain ⟨rfl, hsize⟩ := splitAt_some h
  cases a with
  | nil =>
    rw [size_nil] at hsize
    omega
  | cons c a =>
    simp only [cons_append, length_cons, length_append]
    omega

theorem slice_size (a b c : List Char) : slice (a ++ b ++ c) (size a) (size (a ++ b)) = some b := by
  rw [slice, if_neg (by simp), splitAt_size, Option.bind_some, splitAt_size, Option.map_some]

end Pluribus.Lib.Slice
