import Pluribus.Lib.Search
import Pluribus.Lib.Utf8

namespace Pluribus.Lib

open List

variable {lines : List (List UInt8)}

def crlf : List UInt8 := [13, 10]

def Plain (line : List UInt8) : Prop := 13 ∉ line ∧ 10 ∉ line

instance (line : List UInt8) : Decidable (Plain line) := inferInstanceAs (Decidable (_ ∧ _))

theorem plain_append {a b : List UInt8} : Plain (a ++ b) ↔ Plain a ∧ Plain b := by
  simp only [Plain, mem_append, not_or]
  exact and_and_and_comm

theorem plain_encode {text : List Char} (h : '\r' ∉ text ∧ '\n' ∉ text) : Plain (Utf8.encode text) :=
  ⟨fun hmem => h.1 (Utf8.mem_encode (by decide) hmem), fun hmem => h.2 (Utf8.mem_encode (by decide) hmem)⟩

/-- A text of one line. -/
def Unbroken (text : List Char) : Prop := ∀ c ∈ text, c ≠ '\r' ∧ c ≠ '\n'

instance (text : List Char) : Decidable (Unbroken text) := List.decidableBAll _ text

theorem Unbroken.plain {text : List Char} (h : Unbroken text) : Plain (Utf8.encode text) :=
  plain_encode ⟨fun hmem => (h _ hmem).1 rfl, fun hmem => (h _ hmem).2 rfl⟩

theorem unbroken_append {a b : List Char} (ha : Unbroken a) (hb : Unbroken b) : Unbroken (a ++ b) :=
  forall_mem_append.mpr ⟨ha, hb⟩

/-- Bytes cut at every line end; the last piece is what no line end comes after. -/
def wireLines : List UInt8 → List (List UInt8)
  | [] => [[]]
  | 13 :: 10 :: rest => [] :: wireLines rest
  | b :: rest => (wireLines rest).modifyHead (b :: ·)

def terminated (lines : List (List UInt8)) : List UInt8 := lines.flatMap (· ++ crlf)

theorem terminated_append (a b : List (List UInt8)) : terminated (a ++ b) = terminated a ++ terminated b := flatMap_append

theorem wireLines_one {line : List UInt8} (h : ¬ crlf <:+: line) : wireLines line = [line] := by
  induction line with
  | nil => rfl
  | cons b line ih =>
    rw [wireLines, ih fun hlater => h (infix_cons hlater)]
    · rfl
    · rintro rest rfl rfl
      exact h ⟨[], rest, rfl⟩

theorem Plain.one {line : List UInt8} (h : Plain line) : ¬ crlf <:+: line :=
  fun hpair => h.1 (hpair.subset mem_cons_self)

theorem wireLines_plain {line : List UInt8} (h : Plain line) : wireLines line = [line] := wireLines_one h.one

theorem wireLines_ne_nil (bytes : List UInt8) : wireLines bytes ≠ [] := by
  fun_induction wireLines bytes with
  | case1 | case2 => exact cons_ne_nil _ _
  | case3 b rest hpair ih =>
    obtain ⟨line, lines, heq⟩ := exists_cons_of_ne_nil ih
    rw [heq]
    exact cons_ne_nil _ _

theorem wireLines_cut (a rest : List UInt8) : wireLines (a ++ crlf ++ rest) = wireLines a ++ wireLines rest := by
  fun_induction wireLines a with
  | case1 => rfl
  | case2 a ih =>
    show [] :: wireLines (a ++ crlf ++ rest) = _
    rw [ih]
    rfl
  | case3 b a hpair ih =>
    obtain ⟨line, lines, heq⟩ := exists_cons_of_ne_nil (wireLines_ne_nil a)
    rw [cons_append, cons_append, wireLines, ih, heq]
    · rfl
    · intro later hb hlater
      cases a with
      | nil => cases hlater
      | cons c a =>
        exact hpair a hb (by rw [(List.cons.inj hlater).1])

theorem wireLines_append {line : List UInt8} (h : Plain line) (rest : List UInt8) :
    wireLines (line ++ crlf ++ rest) = line :: wireLines rest := by
  rw [wireLines_cut, wireLines_plain h, singleton_append]

theorem wireLines_terminated (h : ∀ line ∈ lines, Plain line) (rest : List UInt8) :
    wireLines (terminated lines ++ rest) = lines ++ wireLines rest := by
  induction lines with
  | nil => rfl
  | cons line lines ih =>
    have hlines := ih fun line hmem => h line (mem_cons_of_mem _ hmem)
    rw [terminated, flatMap_cons, ← terminated, append_assoc,
      wireLines_append (h line mem_cons_self), hlines, cons_append]

def joined (lines : List (List UInt8)) : List UInt8 := List.intercalate crlf lines

theorem joined_cons (line next : List UInt8) (lines : List (List UInt8)) :
    joined (line :: next :: lines) = line ++ crlf ++ joined (next :: lines) := by
  simp [joined]

theorem joined_append {a b : List (List UInt8)} (ha : a ≠ []) (hb : b ≠ []) : joined (a ++ b) = joined a ++ crlf ++ joined b := by
  induction a with
  | nil => exact absurd rfl ha
  | cons line a ih =>
    cases a with
    | nil =>
      obtain ⟨next, b, rfl⟩ := exists_cons_of_ne_nil hb
      simp [joined]
    | cons next a =>
      rw [cons_append, cons_append, joined_cons, ← cons_append, ih (cons_ne_nil _ _), joined_cons]
      simp

theorem wireLines_joined (hne : lines ≠ []) (h : ∀ line ∈ lines, Plain line) : wireLines (joined lines) = lines := by
  induction lines with
  | nil => exact absurd rfl hne
  | cons line lines ih =>
    have hline := h line mem_cons_self
    cases lines with
    | nil => simpa [joined] using wireLines_plain hline
    | cons next lines =>
      rw [joined_cons, wireLines_append hline,
        ih (cons_ne_nil _ _) fun line hmem => h line (mem_cons_of_mem _ hmem)]

theorem terminated_eq (hne : lines ≠ []) : terminated lines = joined lines ++ crlf := by
  induction lines with
  | nil => exact absurd rfl hne
  | cons line lines ih =>
    cases lines with
    | nil => simp [terminated, joined]
    | cons next lines =>
      have htail := ih (cons_ne_nil _ _)
      rw [terminated, flatMap_cons, ← terminated, htail, joined_cons]
      simp

theorem joined_concat (lines : List (List UInt8)) (last : List UInt8) : joined (lines ++ [last]) = terminated lines ++ last := by
  by_cases hne : lines = []
  · simp [hne, joined, terminated]
  · rw [joined_append hne (cons_ne_nil _ _), terminated_eq hne]
    simp [joined]

end Pluribus.Lib
