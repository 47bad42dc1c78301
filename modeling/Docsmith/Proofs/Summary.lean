/-
What is kept of a C# comment behind its summary.

Whether the lines behind a line stand in the summary is told by the tags of the summary on it
(`goesOn`), and a line with both tags counts as one that opens it. So behind a summary on one line
every line is kept, behind any other no line that starts with a tag.
-/
import Docsmith.Language.CSharp

namespace Docsmith.CSharp

open Text

def bare (line : List Char) : List Char := dropLead ["/// ", "///"] (trim line)

def opensSummary (line : List Char) : Bool := occurs "<summary>".toList (bare line)

def closesSummary (line : List Char) : Bool := occurs "</summary>".toList (bare line)

/-- Whether the lines behind a line stand in the summary. -/
def goesOn (inside : Bool) (line : List Char) : Bool :=
  opensSummary line || inside && !closesSummary line

variable {inside : Bool} {ls : List (List Char)}

theorem keptLines_cons (inside : Bool) (l : List Char) (ls : List (List Char)) :
    keptLines inside (l :: ls) = keptLines inside [l] ++ keptLines (goesOn inside l) ls := by
  rw [keptLines, keptLines, goesOn, opensSummary, closesSummary, bare]
  dsimp only
  split
  next hopen =>
    rw [hopen, Bool.true_or]
    split <;> simp [keptLines]
  next hopen =>
    rw [Bool.eq_false_iff.2 hopen, Bool.false_or]
    split
    next hclose =>
      rw [hclose, Bool.not_true, Bool.and_false]
      split <;> simp [keptLines]
    next hclose =>
      rw [Bool.eq_false_iff.2 hclose, Bool.not_false, Bool.and_true]
      split <;> simp [keptLines]

theorem keptLines_append (inside : Bool) (ls rest : List (List Char)) :
    keptLines inside (ls ++ rest) =
      keptLines inside ls ++ keptLines (ls.foldl goesOn inside) rest := by
  induction ls generalizing inside with
  | nil => rfl
  | cons l ls ih =>
    rw [List.cons_append, keptLines_cons, ih, keptLines_cons inside l ls, List.foldl_cons,
      List.append_assoc]

/-- Lines without tags of the summary are kept as they are, outside it those that start with no tag. -/
theorem keptLines_plain (h : ∀ l ∈ ls, opensSummary l = false ∧ closesSummary l = false) :
    keptLines inside ls =
      if inside then ls.map bare else (ls.map bare).filter (·.head? != some '<') := by
  induction ls with
  | nil => cases inside <;> rfl
  | cons l ls ih =>
    obtain ⟨⟨hopen, hclose⟩, hls⟩ := List.forall_mem_cons.1 h
    rw [opensSummary, bare] at hopen
    rw [closesSummary, bare] at hclose
    rw [keptLines, hopen, hclose, ih hls, List.map_cons, List.filter_cons, bare]
    cases inside <;> rfl

theorem goesOn_plain (h : ∀ l ∈ ls, opensSummary l = false ∧ closesSummary l = false) :
    ls.foldl goesOn inside = inside := by
  induction ls with
  | nil => rfl
  | cons l ls ih =>
    obtain ⟨⟨hopen, hclose⟩, hls⟩ := List.forall_mem_cons.1 h
    rw [List.foldl_cons, goesOn, hopen, hclose, Bool.not_false, Bool.and_true]
    exact ih hls

/-- **Behind the end of a summary** and before its next tag, the lines that start with no tag are
kept, and the others too exactly if the summary starts on the line on which it ends. -/
theorem cleanComment_behind_summary {raw closing : List Char} {front after rest : List (List Char)}
    (hraw : cut '\n' (trim raw) = front ++ closing :: (after ++ rest))
    (hclosing : closesSummary closing = true)
    (hafter : ∀ l ∈ after, opensSummary l = false ∧ closesSummary l = false) :
    ∃ kept, cleanComment raw = String.ofList (trim (joinWith "\n"
        (keptLines false (front ++ [closing]) ++ kept ++ keptLines (opensSummary closing) rest))) ∧
      kept = (if opensSummary closing then after.map bare
        else (after.map bare).filter (·.head? != some '<')) ∧
      (kept = (after.map bare).filter (·.head? != some '<') ↔
        opensSummary closing = false ∨ ∀ l ∈ after, (bare l).head? ≠ some '<') := by
  have hstate : (front ++ [closing]).foldl goesOn false = opensSummary closing := by
    rw [List.foldl_append, List.foldl_cons, List.foldl_nil, goesOn, hclosing, Bool.not_true,
      Bool.and_false, Bool.or_false]
  have hsplit : front ++ closing :: (after ++ rest) = front ++ [closing] ++ (after ++ rest) := by
    simp
  refine ⟨_, ?_, rfl, ?_⟩
  · rw [cleanComment, hraw, hsplit, keptLines_append false (front ++ [closing]), hstate,
      keptLines_append _ after, goesOn_plain hafter, keptLines_plain hafter, List.append_assoc]
  · cases opensSummary closing with
    | false => simp
    | true =>
      rw [if_pos rfl, eq_comm, List.filter_eq_self]
      simp

theorem cleanComment_oneLine :
    cleanComment "/// <summary>Adds.</summary>\n/// <param name=\"a\">A.</param>".toList =
      "Adds.\n<param name=\"a\">A.</param>" := by
  have hlines :
      cut '\n' (trim "/// <summary>Adds.</summary>\n/// <param name=\"a\">A.</param>".toList) =
      [] ++ "/// <summary>Adds.</summary>".toList ::
        (["/// <param name=\"a\">A.</param>".toList] ++ []) := by decide
  obtain ⟨kept, hclean, rfl, -⟩ := cleanComment_behind_summary hlines (by decide) (by decide)
  exact hclean.trans (by decide)

end Docsmith.CSharp
