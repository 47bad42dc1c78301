/-
Where the body of a Ruby class ends.

A body is read line by line. A line goes one block deeper if its first word opens a block and it does
not end in `end` (`counts`), and a line `end` goes one block up. So a block that is opened by a `do`
behind something else is ended without having been counted, and the class is over at its `end`. The
body is read whole exactly if every block in it is counted (`exists_bodyLines_nested`).
-/
import Docsmith.Proofs.Bodies

namespace Docsmith.Ruby

open List Pattern

/-! ## Lines -/

/-- Whether the first word of a line opens a block. -/
def startsBlock (line : List Char) : Bool := (openerPattern.matchAt (.ofText line)).isSome

/-- Whether a line ends in `do`, or in `do` and parameters between bars. -/
def endsInDo (line : List Char) : Bool :=
  let bare := Text.trim line
  let front :=
    if bare.getLast? = some '|' then ((Text.cutLast? '|' bare.dropLast).map Prod.fst).getD bare
    else bare
  (Text.lastWord? front).any fun x => x.2 == "do".toList

def opens (line : List Char) : Bool := startsBlock line || endsInDo line

def ends (line : List Char) : Bool := endsBlock (Text.trim line)

def counts (line : List Char) : Bool :=
  startsBlock line && !"end".toList.isSuffixOf (Text.trim line)

variable {line last : List Char} {lines : List (List Char)}

theorem opens_of_counts (h : counts line = true) : opens line = true := by
  rw [opens, (Bool.and_eq_true_iff.1 h).1, Bool.true_or]

theorem counts_of_ends (h : ends line = true) : counts line = false := by
  obtain ⟨t, ht⟩ : ∃ t, Text.trim line = 'e' :: t := by
    simp only [ends, endsBlock, Bool.or_eq_true, beq_iff_eq, isPrefixOf_iff_prefix] at h
    rcases h with (h | ⟨t, h⟩) | ⟨t, h⟩
    · exact ⟨_, h⟩
    all_goals exact ⟨_, h.symm⟩
  have hopening : 'e' ∈ opening line := by
    have hinitial : Text.trim line <+: line.dropWhile Text.isBlank := by
      rw [Text.trim, Text.trimWhile, ← reverse_suffix, Text.dropEndWhile, reverse_reverse]
      exact dropWhile_suffix _
    obtain ⟨u, hu⟩ := hinitial
    rw [opening, ← hu, ht]
    simp
  rw [counts, Bool.and_eq_false_iff, startsBlock, ← Bool.not_eq_true, Option.isSome_iff_exists]
  left
  rintro ⟨m, hm⟩
  obtain ⟨t, u, hline, hreads, -⟩ := reads_of_matchAt (b := []) hm
  rw [hline, opening_append_of_exists (hreads.exists_not_isBlank (by decide))] at hopening
  exact hreads.not_mem_opening (by decide) (mem_singleton_self 'e') hopening

theorem bodyLines_cons (depth : Nat) (line : List Char) (lines : List (List Char)) :
    bodyLines (depth + 1) (line :: lines) =
      if ends line then if depth = 0 then [] else line :: bodyLines depth lines
      else line :: bodyLines (depth + (counts line).toNat + 1) lines := by
  have hcounts : ((openerPattern.matchAt (.ofText line)).isSome &&
      !"end".toList.isSuffixOf (Text.trim line)) = counts line := rfl
  rw [bodyLines, hcounts, ← ends]
  cases hend : ends line with
  | true => simp [counts_of_ends hend]
  | false => cases counts line <;> rfl

/-- Of some lines, `kept` is what precedes the first that ends more blocks than are counted before
it, where `depth` of them are open at the start. -/
def Precedes (depth : Nat) (lines kept : List (List Char)) : Prop :=
  ∃ rest, lines = kept ++ rest ∧
    (∀ p, p <+: kept → p.countP ends ≤ p.countP counts + depth) ∧
    (rest = [] ∨ rest.head?.any ends = true ∧ kept.countP ends = kept.countP counts + depth)

theorem Precedes.cons {depth next : Nat} {kept : List (List Char)} (h : Precedes next lines kept)
    (hnext : (ends line).toNat + next = (counts line).toNat + depth) :
    Precedes depth (line :: lines) (line :: kept) := by
  obtain ⟨rest, rfl, hall, hrest⟩ := h
  have hcons (p : List (List Char)) (f : List Char → Bool) :
      (line :: p).countP f = p.countP f + (f line).toNat := by
    rw [countP_cons]
    cases f line <;> rfl
  refine ⟨rest, rfl, fun p hp => ?_, hrest.imp_right (And.imp_right fun hcount => ?_)⟩
  · rcases prefix_cons_iff.1 hp with rfl | ⟨q, rfl, hq⟩
    · simp
    · have := hall q hq
      rw [hcons, hcons]
      omega
  · rw [hcons, hcons]
    omega

/-- Reading a body stops at the first line that ends a block which was not counted. -/
theorem precedes_bodyLines (depth : Nat) (lines : List (List Char)) :
    Precedes depth lines (bodyLines (depth + 1) lines) := by
  induction lines generalizing depth with
  | nil => exact ⟨[], rfl, by simp [bodyLines], .inl rfl⟩
  | cons line lines ih =>
    rw [bodyLines_cons]
    cases hend : ends line with
    | true =>
      cases depth with
      | zero => exact ⟨line :: lines, rfl, by simp, .inr ⟨hend, rfl⟩⟩
      | succ depth => exact (ih depth).cons (by rw [hend, counts_of_ends hend]; simp; omega)
    | false => exact (ih _).cons (by rw [hend]; simp; omega)

/-! ## Blocks -/

/-- Every end ends a block that was opened, and no end is missing. -/
def Nested (lines : List (List Char)) : Prop :=
  (∀ p, p <+: lines → p.countP ends ≤ p.countP opens) ∧ lines.countP ends = lines.countP opens

theorem countP_concat (p : List (List Char)) (hlast : ends last = true) :
    (p ++ [last]).countP ends = p.countP ends + 1 ∧
      (p ++ [last]).countP counts = p.countP counts := by
  rw [countP_append, countP_append, countP_singleton, countP_singleton,
    if_pos hlast, counts_of_ends hlast]
  exact ⟨rfl, rfl⟩

/-- Of blocks with an end behind them, no more than the blocks is read. -/
theorem Precedes.nested {kept after : List (List Char)}
    (hkept : Precedes 0 (lines ++ last :: after) kept) (h : Nested lines) (hlast : ends last = true) :
    ∃ rest, lines = kept ++ rest ∧ rest.head?.all ends = true ∧
      kept.countP ends = kept.countP counts := by
  obtain ⟨rest, hlines, hall, hrest⟩ := hkept
  obtain ⟨unread, rfl⟩ : kept <+: lines := by
    have hinitial : lines ++ [last] <+: lines ++ last :: after := ⟨after, by simp⟩
    -- With the last end, more blocks are ended than are opened.
    have hover : ¬ lines ++ [last] <+: kept := fun hover => by
      have hle := hall _ hover
      have hmono : lines.countP counts ≤ lines.countP opens :=
        countP_mono_left fun _ _ => opens_of_counts
      rw [(countP_concat lines hlast).1, (countP_concat lines hlast).2, h.2] at hle
      omega
    rcases prefix_or_prefix_of_prefix ⟨rest, hlines.symm⟩ hinitial with hinit | hinit
    · rcases prefix_concat_iff.1 hinit with heq | hinit
      · exact absurd (heq ▸ prefix_refl _) hover
      · exact hinit
    · exact absurd hinit hover
  obtain rfl : rest = unread ++ last :: after := by simpa using hlines.symm
  obtain ⟨hend, hcount⟩ := hrest.resolve_left (by simp)
  refine ⟨unread, rfl, ?_, hcount⟩
  cases unread with
  | nil => rfl
  | cons => exact hend

theorem exists_bodyLines_nested (h : Nested lines) (hlast : ends last = true)
    (after : List (List Char)) :
    ∃ kept rest, lines = kept ++ rest ∧ bodyLines 1 (lines ++ last :: after) = kept ∧
      rest.head?.all ends = true ∧
      (rest = [] ↔ ∀ line ∈ lines, opens line = true → counts line = true) := by
  obtain ⟨rest, hlines, hend, hcount⟩ :=
    (precedes_bodyLines 0 (lines ++ last :: after)).nested h hlast
  generalize bodyLines 1 (lines ++ last :: after) = kept at hlines hcount ⊢
  refine ⟨kept, rest, hlines, rfl, hend, ?_, fun hcounted => ?_⟩
  · rintro rfl line hline hopens
    rw [append_nil] at hlines
    subst hlines
    have hsub : (lines.filter counts).Sublist (lines.filter opens) :=
      monotone_filter_right _ fun _ => opens_of_counts
    have heq := hsub.eq_of_length (by
      rw [← countP_eq_length_filter, ← countP_eq_length_filter, ← h.2, hcount])
    exact (mem_filter.1 (heq ▸ mem_filter.2 ⟨hline, hopens⟩)).2
  · subst hlines
    cases rest with
    | nil => rfl
    | cons line rest =>
      have hend : ends line = true := hend
      have hle := h.1 (kept ++ [line]) ⟨rest, by simp⟩
      have heq : (kept ++ [line]).countP opens = (kept ++ [line]).countP counts :=
        countP_congr fun x hx =>
          ⟨hcounted x (IsPrefix.subset ⟨rest, by simp⟩ hx), opens_of_counts⟩
      rw [heq, (countP_concat kept hend).1, (countP_concat kept hend).2] at hle
      omega

/-! ## Classes -/

/-- **Bodies of classes.** Of a class whose lines are blocks with their ends, the body is read whole
exactly if every block is opened by the first word of a line that does not end in `end`. Otherwise it
is cut off before the end of one of its blocks, and the methods behind that are not found. -/
theorem document_classBodies (ep : Bool) (path : Path) (source : List Char) :
    ∃ (modules : List TypeDecl) (type : Match → TypeDecl),
      (document ep path source).types = modules ++
        ((classPattern.findAll source).filter fun m => keepsName ep (m.group 1)).map type ∧
      (∀ t ∈ modules, t.methods = []) ∧
      ∀ m ∈ classPattern.findAll source, ∀ head lines last after,
        Text.cut '\n' m.stop.rest = head :: (lines ++ last :: after) → Nested lines →
        ends last = true →
        ∃ kept rest, lines = kept ++ rest ∧ body m.stop.rest = Text.joinWith "\n" kept ∧
          rest.head?.all ends = true ∧
          (rest = [] ↔ ∀ line ∈ lines, opens line = true → counts line = true) ∧
          (type m).name = m.name 1 ∧
          (type m).methods.map Callable.name =
            ((methodPattern.findAll (Text.joinWith "\n" kept)).filter fun f =>
              keepsName ep (f.group 1)).map (·.name 1) ∧
          methodPattern.Lists (Text.joinWith "\n" kept)
            (methodPattern.findAll (Text.joinWith "\n" kept)) := by
  refine ⟨_, _, rfl, ?_, fun m _ head lines last after hcut hnested hlast => ?_⟩
  · simp only [mem_map]
    rintro _ ⟨m, -, rfl⟩
    rfl
  · obtain ⟨kept, rest, hlines, hkept, hrest, hwhole⟩ := exists_bodyLines_nested hnested hlast after
    have hbody : body m.stop.rest = Text.joinWith "\n" kept := by
      rw [body, hcut, tail_cons, hkept]
    refine ⟨kept, rest, hlines, hbody, hrest, hwhole, rfl, ?_, lists_findAll (by decide) _⟩
    rw [← hbody, methods, map_map]
    rfl

/-- A class in which a block is opened at the end of a line, before a method. -/
def eachDo : List Char := "class A\n  xs.each do |x|\n  end\n  def f\n  end\nend\n".toList

def eachDoLines : List (List Char) :=
  ["  xs.each do |x|", "  end", "  def f", "  end"].map String.toList

theorem document_classBodies_eachDo :
    (document false (.ofString "a.rb") eachDo).types.map
      (fun t => (t.name, t.methods.map Callable.name)) = [("A", [])] ∧
    Nested eachDoLines ∧ ∃ m ∈ classPattern.findAll eachDo,
      Text.cut '\n' m.stop.rest = [] :: (eachDoLines ++ ["end".toList, []]) ∧
      ∃ kept rest, eachDoLines = kept ++ rest ∧ body m.stop.rest = Text.joinWith "\n" kept ∧
        rest ≠ [] := by
  have hfacts : (document false (.ofString "a.rb") eachDo).types.map
        (fun t => (t.name, t.methods.map Callable.name)) = [("A", [])] ∧
      (classPattern.findAll eachDo).map (fun m => Text.cut '\n' m.stop.rest) =
        [[] :: (eachDoLines ++ ["end".toList, []])] ∧
      (∀ n < 5, (eachDoLines.take n).countP ends ≤ (eachDoLines.take n).countP opens) ∧
      eachDoLines.countP ends = eachDoLines.countP opens ∧
      ¬ ∀ line ∈ eachDoLines, opens line = true → counts line = true := by decide +kernel
  obtain ⟨htypes, hfound, hinits, hcount, huncounted⟩ := hfacts
  have hnested : Nested eachDoLines := by
    refine ⟨fun p hp => ?_, hcount⟩
    rw [prefix_iff_eq_take.1 hp]
    exact hinits _ (Nat.lt_succ_of_le hp.length_le)
  obtain ⟨m, hm, hcut⟩ := mem_map.1 (hfound ▸ mem_cons_self)
  obtain ⟨_, _, -, -, hclasses⟩ := document_classBodies false (.ofString "a.rb") eachDo
  obtain ⟨kept, rest, hlines, hbody, -, hwhole, -⟩ := hclasses m hm [] _ _ _ hcut hnested (by decide)
  exact ⟨htypes, hnested, m, hm, hcut, kept, rest, hlines, hbody, fun h => huncounted (hwhole.1 h)⟩

end Docsmith.Ruby
