/-
New comments in groups.

The new comments of a text are grouped where their lines follow each other. A run of comments that
is divided from what comes next is one block (`blocks_append`). So the blocks are the maximal runs,
in order (`blocks_flatten`), and joined they are all the comments (`joinWith_block`).
-/
import Mathlib.Data.List.SplitBy
import Docsmith.Assistant.Suggestion
import Docsmith.Proofs.Text

namespace Docsmith.Assistant

open List Text

variable {old new : List Char} {a : Nat × List Char} {q r : List (Nat × List Char)}
  {rs : List (List (Nat × List Char))}

/-- A line that is a comment, with more to it than a mark, and not in the text `old`. -/
structure IsNewComment (old line : List Char) : Prop where
  isNew : line ∉ lines old
  notBlank : trim line ≠ []
  marked : ∃ m ∈ commentMarks, m.toList <+: trim line
  notBare : String.ofList (trim line) ∉ bareMarks

theorem mem_newComments : a ∈ newComments old new ↔
    ∃ i line, (lines new)[i]? = some line ∧ IsNewComment old line ∧ a = (i + 1, trim line) := by
  simp only [newComments, mem_filterMap, Prod.exists, mk_mem_zipIdx_iff_getElem?, isComment,
    Option.ite_none_right_eq_some, Option.some.injEq, Bool.and_eq_true, Bool.not_eq_true',
    any_eq_true, isPrefixOf_iff_prefix, contains_eq_mem, decide_eq_false_iff_not,
    isEmpty_eq_false_iff]
  grind [IsNewComment]

theorem ascending_newComments : (newComments old new).Pairwise fun a b => a.1 < b.1 := by
  have hindex : (lines new).zipIdx.Pairwise fun a b => a.2 < b.2 := by
    rw [← pairwise_map, zipIdx_map_snd]
    exact pairwise_lt_range'
  refine pairwise_filterMap.2 (hindex.imp fun hlt a ha b hb => ?_)
  grind

/-! ## Runs -/

def follows (a b : Nat × List Char) : Bool := b.1 == a.1 + 1

def Divided (r s : List (Nat × List Char)) : Prop :=
  ∀ a ∈ r.getLast?, ∀ b ∈ s.head?, follows a b = false

/-- Runs of comments whose lines follow each other, where no run starts on the line that follows the
last line of the run before. -/
structure AreMaximalRuns (rs : List (List (Nat × List Char))) : Prop where
  ne_nil : [] ∉ rs
  follow : ∀ r ∈ rs, r.IsChain fun a b => follows a b
  divided : rs.IsChain Divided

theorem areMaximalRuns_splitBy : AreMaximalRuns (q.splitBy follows) where
  ne_nil := nil_notMem_splitBy follows q
  follow _ := isChain_of_mem_splitBy
  divided := by
    refine (isChain_getLast_head_splitBy follows q).imp ?_
    rintro r s ⟨hr, hs, h⟩ a ha b hb
    rwa [← getLast_of_mem_getLast? ha, ← head_of_mem_head? hb]

/-- The number of the first line, and the lines joined. -/
def block (r : List (Nat × List Char)) : Nat × List Char :=
  ((r.headD (0, [])).1, joinWith "\n" (r.map Prod.snd))

theorem blocks_append (hne : r ≠ []) (hfollow : r.IsChain fun a b => follows a b)
    (hdivided : Divided r q) : blocks (r ++ q) = block r :: blocks q := by
  -- Along the run: `q` begins a block of its own behind the last comment, and any other comment
  -- extends the block of those behind it.
  induction r with
  | nil => exact absurd rfl hne
  | cons a r ih =>
    cases r with
    | nil =>
      have hself : block [a] = a := by simp [block, joinWith]
      have hgap (b : Nat × List Char) (hb : q.head? = some b) : b.1 ≠ a.1 + 1 := by
        simpa [follows] using hdivided a rfl b hb
      rw [hself, cons_append, nil_append, blocks.eq_def]
      dsimp only
      split
      next heq => rw [if_neg (hgap _ rfl), heq]
      next => rfl
    | cons b r =>
      obtain ⟨hab, hr⟩ := isChain_cons_cons.1 hfollow
      have hrest := ih (cons_ne_nil b r) hr hdivided
      refine (blocks.eq_2 _ _ _ _ _ _ _ _ hrest).trans ?_
      rw [if_pos (beq_iff_eq.1 hab)]
      simp [block, joinWith]

theorem blocks_flatten (h : AreMaximalRuns rs) : blocks rs.flatten = rs.map block := by
  induction rs with
  | nil => rfl
  | cons r rs ih =>
    obtain ⟨hr, hrs⟩ := not_or.1 (mem_cons.not.1 h.ne_nil)
    obtain ⟨hrun, hruns⟩ := forall_mem_cons.1 h.follow
    obtain ⟨hhead, htail⟩ := isChain_cons.1 h.divided
    have hrest : Divided r rs.flatten := by
      cases rs with
      | nil => simp [Divided]
      | cons s rs =>
        rw [flatten_cons, Divided, head?_append_of_ne_nil _ (ne_of_not_mem_cons hrs).symm]
        exact hhead s rfl
    rw [flatten_cons, blocks_append (Ne.symm hr) hrun hrest, ih ⟨hrs, hruns, htail⟩, map_cons]

theorem joinWith_block (hne : [] ∉ rs) :
    joinWith "\n" (rs.map fun r => (block r).2) = joinWith "\n" (rs.flatten.map Prod.snd) := by
  have hlines : unlines (rs.map fun r => (block r).2) = unlines (rs.flatten.map Prod.snd) := by
    induction rs with
    | nil => rfl
    | cons r rs ih =>
      obtain ⟨hr, hrs⟩ := not_or.1 (mem_cons.not.1 hne)
      have hrun : unlines (r.map Prod.snd) = (block r).2 ++ ['\n'] :=
        unlines_eq (by simpa using Ne.symm hr)
      rw [map_cons, unlines_cons, ih hrs, flatten_cons, map_append, unlines_append, hrun,
        append_assoc, singleton_append]
  cases rs with
  | nil => rfl
  | cons r rs =>
    have hr : r ≠ [] := (ne_of_not_mem_cons hne).symm
    rw [unlines_eq (by simp), unlines_eq (by simp [hr])] at hlines
    exact append_cancel_right hlines

/-- **Suggestions are the runs of new comments.** Of the new comments, in the order of their lines,
each maximal run is one suggestion, with the number of its first line and its lines joined. All
suggestions joined are the new comments joined. -/
theorem newBlocks_maximal_runs (old new : List Char) (language : String) :
    (newComments old new).Pairwise (fun a b => a.1 < b.1) ∧
      (∀ a, a ∈ newComments old new ↔ ∃ i line, (lines new)[i]? = some line ∧
        IsNewComment old line ∧ a = (i + 1, trim line)) ∧
      ∃ runs, AreMaximalRuns runs ∧ runs.flatten = newComments old new ∧
        newBlocks old new language = runs.map (fun r =>
          ⟨language ++ "_doc", "doc_comment", (block r).1, String.ofList (block r).2⟩) ∧
        joinWith "\n" ((newBlocks old new language).map (·.text.toList)) =
          joinWith "\n" ((newComments old new).map Prod.snd) := by
  have hruns := areMaximalRuns_splitBy (q := newComments old new)
  have hflatten := flatten_splitBy follows (newComments old new)
  have hblocks := blocks_flatten hruns
  have hjoin := joinWith_block hruns.ne_nil
  rw [hflatten] at hblocks hjoin
  refine ⟨ascending_newComments, fun _ => mem_newComments, _, hruns, hflatten, ?_, ?_⟩
  · rw [newBlocks, hblocks, map_map]
    rfl
  · rw [← hjoin, newBlocks, hblocks]
    simp [Function.comp_def]

end Docsmith.Assistant
