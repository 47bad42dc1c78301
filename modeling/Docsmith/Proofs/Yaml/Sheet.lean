/-
Pages of text as the writer of documents fills them: what each piece adds to a page, and the classes
of the characters that stand on one.
-/
import Docsmith.Yaml.Scalar
import Docsmith.Yaml.Writer
import Mathlib.Data.List.TakeDrop

namespace Docsmith.Yaml

/-! ## Characters -/

/-- A text of characters from the space to the tilde and of line ends. -/
def IsPage (cs : List Char) : Prop := ∀ c ∈ cs, isSpecial c = false

@[simp] theorem isPage_nil : IsPage [] := by simp [IsPage]

variable {c : Char} {cs : List Char}

@[simp] theorem isPage_cons : IsPage (c :: cs) ↔ isSpecial c = false ∧ IsPage cs := by simp [IsPage]

@[simp] theorem isPage_append {ds : List Char} : IsPage (cs ++ ds) ↔ IsPage cs ∧ IsPage ds := by
  simp [IsPage, or_imp, forall_and]

theorem isPage_replicate (h : isSpecial c = false) (n : Nat) : IsPage (List.replicate n c) := by
  intro d hd
  rwa [List.eq_of_mem_replicate hd]

theorem beq_of_not_special {d : Char} (h : isSpecial c = false) (hd : isSpecial d = true) :
    (c == d) = false := by
  refine beq_eq_false_iff_ne.2 ?_
  rintro rfl
  rw [h] at hd
  cases hd

theorem isBreak_eq (h : isSpecial c = false) : isBreak c = (c == '\n') := by
  simp [isBreak, beq_of_not_special h (d := '\r') (by decide),
    beq_of_not_special h (d := '\u0085') (by decide),
    beq_of_not_special h (d := '\u2028') (by decide),
    beq_of_not_special h (d := '\u2029') (by decide)]

theorem isValueBreak_eq (h : isSpecial c = false) : isValueBreak c = (c == '\n') := by
  simp [isValueBreak, beq_of_not_special h (d := '\u0085') (by decide),
    beq_of_not_special h (d := '\u2028') (by decide),
    beq_of_not_special h (d := '\u2029') (by decide)]

theorem isBlankChar_eq (h : isSpecial c = false) : isBlankChar c = (c == ' ') := by
  simp [isBlankChar, beq_of_not_special h (d := '\t') (by decide)]

theorem isWordStop_eq (h : isSpecial c = false) : isWordStop c = (c == ' ' || c == '\n') := by
  simp [isWordStop, isGap, isLineStop, isBreak_eq h, beq_of_not_special h (d := '\t') (by decide),
    beq_of_not_special h (d := '\x00') (by decide)]

theorem isFirstSign_of_space (h : isFirstSign c ' ' = false) (next : Char) :
    isFirstSign c next = false := by
  rw [isFirstSign, Bool.or_eq_false_iff] at h ⊢
  have hmark : (c == '?' || c == ':' || c == '-') = false := by
    simpa [isWordStop, isGap] using h.2
  rw [hmark, Bool.false_and]
  exact ⟨h.1, rfl⟩

theorem isAllowed_of_not_special (h : isSpecial c = false) : isAllowed c = true := by
  have hc : (c == '\n' || (' ' ≤ c && c ≤ '~')) = true := (Bool.not_eq_false' _).mp h
  rcases Bool.or_eq_true_iff.1 hc with hc | hc <;> simp [isAllowed, hc]

/-- A text whose first character, if it has one, is no blank and ends no line. -/
def Solid (cs : List Char) : Prop := ∀ c ∈ cs.head?, isWordStop c = false

@[simp] theorem solid_cons : Solid (c :: cs) ↔ isWordStop c = false := by simp [Solid]

theorem Solid.append {ds : List Char} (h : Solid cs) (hd : Solid ds) : Solid (cs ++ ds) := by
  cases cs with
  | nil => exact hd
  | cons c cs => exact solid_cons.2 (solid_cons.1 h)

theorem isWordStop_eq_false :
    isWordStop c = false ↔ c ≠ ' ' ∧ c ≠ '\t' ∧ c ≠ '\x00' ∧ isBreak c = false := by
  simp only [isWordStop, isGap, isLineStop, Bool.or_eq_false_iff, beq_eq_false_iff_ne]
  exact and_left_comm

/-! ## Pages -/

namespace Sheet

def text (s : Sheet) : List Char := s.written.reverse

@[simp] theorem text_put (s : Sheet) (cs : List Char) : (s.put cs).text = s.text ++ cs := by
  simp [text, put]

@[simp] theorem text_sign (s : Sheet) (t : String) (needsBlank keepsMargin : Bool) :
    (s.sign t needsBlank keepsMargin).text =
      s.text ++ (if s.endsBlank || !needsBlank then t.toList else ' ' :: t.toList) := by
  simp only [sign, text, put, List.reverse_append, List.reverse_reverse]

@[simp] theorem isMargin_sign (s : Sheet) (t : String) (needsBlank keepsMargin : Bool) :
    (s.sign t needsBlank keepsMargin).isMargin = (s.isMargin && keepsMargin) := rfl

@[simp] theorem endsBlank_sign (s : Sheet) (t : String) (needsBlank keepsMargin : Bool) :
    (s.sign t needsBlank keepsMargin).endsBlank = false := rfl

theorem toIndent_eq {s : Sheet} {n : Nat} (h : s.isMargin = false ∨ n < s.column) :
    s.toIndent n =
      { s.endLine.put (List.replicate n ' ') with endsBlank := true } := by
  have hline : (!s.isMargin || n < s.column || (s.column == n && !s.endsBlank)) = true := by
    rcases h with h | h <;> simp [h]
  simp only [toIndent, hline, if_true]
  by_cases hn : 0 < n
  · rw [if_pos (by simpa [endLine, endLineWith] using hn)]
    rfl
  · obtain rfl : n = 0 := by omega
    simp [endLine, endLineWith, put]

theorem text_toIndent {s : Sheet} {n : Nat} (h : s.isMargin = false ∨ n < s.column) :
    (s.toIndent n).text = s.text ++ '\n' :: List.replicate n ' ' := by
  rw [toIndent_eq h]
  simp [text, put, endLine, endLineWith]

end Sheet

end Docsmith.Yaml
