/-
When a Python file can still be read after docstrings were put into it.

Without the blocks that were put in, the file has the tree it had. With them it need not be well
formed: a null character in a reply makes it unreadable, and so does a function or class that is the
first statement of the file with its body on the same line, whatever the replies are, because the
block then stands in front of the declaration and the file starts with an indentation
(`fillDocstrings_tree`).
-/
import Docsmith.Proofs.Insertion

namespace Docsmith.Syntax

open List

/-! ## Files that start with an indentation -/

theorem Grammar.run_file_indent (n : Nat) (block : Passage (List Stmt)) (shape : Phrase Shape)
    (line endLine : Nat) (isComposed : Bool) (ts : List Token) :
    ((upTo n).file block shape).run (⟨.indent, line, endLine, isComposed⟩ :: ts) = none := by
  cases n <;> rfl

/-- A line without a token: blanks, and perhaps a comment. -/
def IsBare (l : List Char) : Prop :=
  ∃ blanks tail, l = blanks ++ (tail ++ ['\n']) ∧ (∀ c ∈ blanks, c = ' ' ∨ c = '\t' ∨ c = '\x0c') ∧
    (tail = [] ∨ tail.head? = some '#') ∧ '\n' ∉ tail

namespace Scan

theorem margin_blanks {blanks : List Char} (h : ∀ c ∈ blanks, c = ' ' ∨ c = '\t' ∨ c = '\x0c')
    {x : Char} (hx : x = '#' ∨ x = '\n') (col : Columns) (n : Nat) (cs : List Char) :
    ∃ col', margin col 0 n (blanks ++ x :: cs) = some (col', n, x :: cs) := by
  induction blanks generalizing col with
  | nil => rcases hx with rfl | rfl <;> exact ⟨col, by simp [margin]⟩
  | cons c blanks ih =>
    obtain ⟨hc, hblanks⟩ := forall_mem_cons.1 h
    rcases hc with rfl | rfl | rfl <;> exact ih hblanks _

theorem margin_replicate (k i j n : Nat) (cs : List Char) :
    margin ⟨i, j⟩ 0 n (replicate k ' ' ++ '"' :: cs) = some (⟨i + k, j + k⟩, n, '"' :: cs) := by
  induction k generalizing i j with
  | zero => simp [margin]
  | succ k ih =>
    rw [replicate_succ, cons_append, margin, ih]
    simp only [Nat.add_assoc, Nat.add_comm 1 k]

theorem step_bare {l : List Char} (h : IsBare l) (n : Nat) (rest : List Char) :
    step { line := n, rest := l ++ rest } = some ([], { line := n + 1, rest }) := by
  obtain ⟨blanks, tail, rfl, hblanks, htail, hfeed⟩ := h
  rcases htail with rfl | hhead
  · obtain ⟨col, hcol⟩ := margin_blanks hblanks (.inr rfl) {} n rest
    simp [step, hcol]
  · obtain ⟨tail, rfl⟩ := head?_eq_some_iff.1 hhead
    obtain ⟨col, hcol⟩ := margin_blanks hblanks (.inl rfl) {} n (tail ++ '\n' :: rest)
    have hpos : ∀ c ∈ tail, (!decide (c = '\n')) = true := by
      intro c hc
      have hne : c ≠ '\n' := fun heq => hfeed (mem_cons_of_mem _ (heq ▸ hc))
      simp [hne]
    simp [step, hcol, dropWhile_append_of_pos hpos]

theorem step_block (k n : Nat) (cs : List Char) :
    step { line := n, rest := replicate (k + 1) ' ' ++ '"' :: cs } =
      some ([.on n .indent], ⟨false, n, [], [⟨k + 1, k + 1⟩], '"' :: cs⟩) := by
  simp [step, margin_replicate, indentation, maxIndents]

/-- The first token behind bare lines and in front of a block is an indentation. -/
theorem tokensFrom_block {ls : List (List Char)} (h : ∀ l ∈ ls, IsBare l) {k n room : Nat}
    {cs : List Char} {ts : List Token} (hend : EndsLine ('"' :: cs))
    (hts : tokensFrom room []
      { line := n, rest := ls.flatten ++ (replicate (k + 1) ' ' ++ '"' :: cs) } = some ts) :
    ∃ line out, ts = .on line .indent :: out := by
  induction ls generalizing n room with
  | nil =>
    cases room with
    | zero => cases hts
    | succ room =>
      rw [tokensFrom, if_neg (by simp), flatten_nil, nil_append, step_block] at hts
      obtain ⟨out, rfl, -⟩ := follows_tokensFrom hend hts
      exact ⟨n, out, rfl⟩
  | cons l ls ih =>
    obtain ⟨hl, h⟩ := forall_mem_cons.1 h
    cases room with
    | zero => cases hts
    | succ room =>
      rw [tokensFrom, if_neg (by simp), flatten_cons, append_assoc, step_bare hl] at hts
      exact ih h hts

end Scan

/-- A block in front of everything but bare lines makes a file unreadable. -/
theorem parse_block {ls : List (List Char)} (h : ∀ l ∈ ls, IsBare l) {k : Nat} {cs text : List Char}
    (htext : text = ls.flatten ++ (replicate (k + 1) ' ' ++ '"' :: cs)) : parse text = none := by
  obtain ⟨cs', hcompleted, hend⟩ : ∃ cs', completed text =
      ls.flatten ++ (replicate (k + 1) ' ' ++ '"' :: cs') ∧ Scan.EndsLine ('"' :: cs') := by
    have hends := endsLine_completed text
    rw [completed] at hends ⊢
    split at hends
    next hlast => exact ⟨cs, (if_pos hlast).trans htext, hends.of_suffix
        (htext ▸ (suffix_append _ _).trans (suffix_append _ _))⟩
    next hlast =>
      have hsuffix : '"' :: (cs ++ ['\n']) <:+ text ++ ['\n'] :=
        ⟨ls.flatten ++ replicate (k + 1) ' ', by simp [htext]⟩
      exact ⟨cs ++ ['\n'], by rw [if_neg hlast]; simp [htext], hends.of_suffix hsuffix⟩
  rw [parse]
  split
  · rfl
  · cases hts : tokensOf text with
    | none => rfl
    | some ts =>
      have htokens := hts
      rw [tokensOf] at htokens
      change Scan.tokensFrom _ [] { rest := completed _ } = some ts at htokens
      rw [hcompleted] at htokens
      obtain ⟨line, out, rfl⟩ := Scan.tokensFrom_block h hend htokens
      have hfails : Grammar.wholeFile.run (.on line .indent :: out) = none :=
        Grammar.run_file_indent _ _ _ _ _ _ out
      exact congrArg (Option.map Prod.fst) hfails

end Docsmith.Syntax

namespace Docsmith.Assistant

open List Syntax

/-! ## Files with docstrings put in -/

theorem exists_blockOf (lines : List (List Char)) (c : Choice) :
    ∃ k cs, blockOf lines c = replicate (k + 1) ' ' ++ '"' :: cs := by
  rw [blockOf, docBlock]
  split <;> simp only [append_assoc, cons_append] <;> exact ⟨_, _, rfl⟩

theorem mem_of_mem_joinWith {x : Char} (hx : x ≠ '\n') {ls : List (List Char)}
    (h : x ∈ Text.joinWith "\n" ls) : ∃ l ∈ ls, x ∈ l := by
  rw [Text.joinWith] at h
  induction ls with
  | nil => cases h
  | cons l ls ih =>
    cases ls with
    | nil => exact ⟨l, mem_cons_self, by simpa using h⟩
    | cons l' ls =>
      have hcases : x ∈ l ∨ x ∈ "\n".toList.intercalate (l' :: ls) := by
        simpa [intercalate_cons_cons, hx] using h
      rcases hcases with h | h
      · exact ⟨l, mem_cons_self, h⟩
      · obtain ⟨y, hy, hxy⟩ := ih h
        exact ⟨y, mem_cons_of_mem _ hy, hxy⟩

theorem mem_docBlock {x : Char} (hx : x ≠ '\n') {doc : List Char} (h : x ∈ doc) (n : Nat) :
    x ∈ docBlock n doc := by
  have hjoin : Text.joinWith "\n" (Text.cut '\n' doc) = doc := by
    rw [Text.cut_eq_splitOn]
    exact intercalate_splitOn '\n'
  obtain ⟨l, hl, hmem⟩ := mem_of_mem_joinWith hx (hjoin.symm ▸ h)
  rw [docBlock]
  split
  · simp [h]
  · simp [h]
  next first rest _ hcut =>
    rw [hcut] at hl
    rcases mem_cons.1 hl with rfl | hl
    · simp [hmem]
    · simp only [mem_append, mem_cons, mem_flatMap]
      exact .inl (.inl (.inl (.inr (.inr ⟨l, hl, .inl (.inr hmem)⟩))))

section Filled

variable {lines : List (List Char)} {cs : List Choice} {n : Nat}

theorem block_mem_woven {blocks : Nat → List (List Char)} {b : List Char} {m : Nat}
    (hb : b ∈ blocks m) (hm : n ≤ m) (hlen : m < n + lines.length) :
    .block b ∈ woven blocks n lines := by
  induction lines generalizing n with
  | nil => simp at hlen; omega
  | cons l ls ih =>
    rw [woven]
    by_cases heq : m = n
    · subst heq
      exact mem_append_left _ (mem_map_of_mem hb)
    · exact mem_append_right _ (mem_cons_of_mem _ (ih (by omega) (by
        rw [length_cons] at hlen
        omega)))

def filled (lines : List (List Char)) (cs : List Choice) : List Char :=
  ((woven (blocksAt lines cs) 1 lines).map Part.text).flatten

theorem mem_filled (h : Descends lines.length cs) {c : Choice} (hc : c ∈ cs) {x : Char}
    (hx : x ≠ '\n') (hmem : x ∈ c.2.text.toList) : x ∈ filled lines cs := by
  have hblock : blockOf lines c ∈ blocksAt lines cs c.1.bodyLine :=
    mem_map_of_mem (mem_filter.2 ⟨hc, by simp⟩)
  obtain ⟨hpos, hbody, hlen⟩ := h.1 c hc
  have hpart : .block (blockOf lines c) ∈ woven (blocksAt lines cs) 1 lines :=
    block_mem_woven hblock (hpos.trans hbody) (by omega)
  have htext := mem_map_of_mem (f := Part.text) hpart
  exact mem_flatten.2 ⟨_, htext, mem_docBlock hx hmem _⟩

/-- Where the body of a declaration starts on a line above which there are bare lines only, the file
has a block there. -/
theorem exists_filled (h : Descends lines.length cs) {c : Choice} (hc : c ∈ cs)
    (hbare : ∀ l ∈ lines.take (c.1.bodyLine - 1), IsBare l) :
    ∃ (ls : List (List Char)) (k : Nat) (rest : List Char), (∀ l ∈ ls, IsBare l) ∧
      filled lines cs = ls.flatten ++ (replicate (k + 1) ' ' ++ '"' :: rest) := by
  -- The topmost block stands no further down.
  obtain ⟨top, cs, rfl⟩ := exists_cons_of_ne_nil (ne_nil_of_mem hc)
  obtain ⟨hbefore, -⟩ := pairwise_cons.1 h.2
  have hwithin := h.1
  have hle : ∀ c ∈ top :: cs, top.1.bodyLine ≤ c.1.bodyLine := by
    intro c hc
    rcases mem_cons.1 hc with rfl | hmem
    · exact Nat.le_refl _
    · exact (hbefore c hmem).2.trans (hwithin c hc).2.1
  obtain ⟨hpos, hbody, hlen⟩ := hwithin top mem_cons_self
  obtain ⟨k, hk⟩ : ∃ k, top.1.bodyLine = 1 + k := ⟨top.1.bodyLine - 1, by omega⟩
  have hnone : ∀ m, 1 ≤ m → m < 1 + k → blocksAt lines (top :: cs) m = [] := by
    intro m _ hm
    refine blocksAt_eq_nil fun c hc => ?_
    have := hle c hc
    omega
  obtain ⟨l, ls, hdrop⟩ : ∃ l ls, lines.drop k = l :: ls :=
    exists_cons_of_ne_nil (by simp; omega)
  have hfirst : blocksAt lines (top :: cs) (1 + k) =
      blockOf lines top :: ((cs.filter fun c => c.1.bodyLine = 1 + k).map (blockOf lines)) := by
    simp [blocksAt, hk]
  obtain ⟨tail, htail⟩ : ∃ tail, filled lines (top :: cs) =
      (lines.take k).flatten ++ (blockOf lines top ++ tail) := by
    rw [filled, map_woven_skip hnone, hdrop, woven, hfirst, flatten_append]
    exact ⟨_, rfl⟩
  obtain ⟨j, rest, hblock⟩ := exists_blockOf lines top
  refine ⟨lines.take k, j, rest ++ tail, fun l hl => hbare l ?_, ?_⟩
  · have hsub : k ≤ c.1.bodyLine - 1 := by
      have := hle c hc
      omega
    exact (take_prefix_take_left hsub).subset hl
  · rw [htail, hblock, append_assoc, cons_append]

end Filled

/-- **What filling does to the tree of a file.** If there is nothing to suggest, no file changes.
Otherwise the suggestions are for declarations of the file, and without the blocks put in for them
it has the tree it had. With them it is not well formed if one holds a null character, and neither
if one is for a declaration above whose body there are no lines but bare ones. -/
theorem fillDocstrings_tree {a : Assistant} {p : Path} {w w' : World} {source : List Char}
    {body : List Stmt} {ss : List Suggestion} (hread : (Action.readText p).exec w = (.ok source, w))
    (hparse : parse source = some body)
    (hplain : ∀ c ∈ source, Text.isLineEnd c = true → c = '\n')
    (hrun : (a.fillDocstrings p false).exec w = (.ok ss, w')) :
    (ss = [] → w'.files = w.files) ∧
    (ss ≠ [] → ∃ cs : List Choice, (cs.map Prod.snd).Perm ss ∧
      (∀ c ∈ cs, c.1 ∈ declarations body ∧ c.2.IsFor c.1) ∧
      let parts := woven (blocksAt (Text.linesWithEnds source) cs) 1 (Text.linesWithEnds source)
      let text := (parts.map Part.text).flatten
      w'.files.find? p = some (.file (String.ofList text).toUTF8.toList) ∧
        parse (parts.filterMap Part.line?).flatten = some body ∧
        ((∃ c ∈ cs, '\x00' ∈ c.2.text.toList) → parse text = none) ∧
        ((∃ c ∈ cs, ∀ l ∈ (Text.linesWithEnds source).take (c.1.bodyLine - 1), IsBare l) →
          parse text = none)) := by
  refine ⟨?_, fun hne => ?_⟩
  · rintro rfl
    obtain ⟨text, w₁, hplan, hput⟩ := fillDocstrings_ok hread hrun
    rw [carryOut_nil] at hput
    cases hput
    have hfiles := (talks_docstringsFor a source).files w
    rwa [hplan] at hfiles
  · obtain ⟨cs, hperm, hfor, hdescends, hfile⟩ := find?_fillDocstrings hread hparse hplain hrun hne
    refine ⟨cs, hperm, hfor, hfile, ?_, ?_, ?_⟩
    · rwa [filterMap_woven, flatten_linesWithEnds]
    · rintro ⟨c, hc, hnull⟩
      exact if_pos (contains_iff_mem.2 (mem_filled hdescends hc (by decide) hnull))
    · rintro ⟨c, hc, hbare⟩
      obtain ⟨ls, k, rest, hls, htext⟩ := exists_filled hdescends hc hbare
      exact parse_block hls htext

/-- A function on one line, behind a comment. -/
def headed : List Char := "# F\ndef f(): pass\n".toList

/-- The file cannot be read any more; it can where the body stands on a line of its own. -/
theorem fillDocstrings_tree_headed :
    (∃ ss w' text, (keyed.fillDocstrings (.ofString "/w/a.py") false).exec
        (oneFile headed [.text "Of f."]) = (.ok ss, w') ∧
      ss.length = 1 ∧ (parse headed).isSome = true ∧
      w'.files.find? (.ofString "/w/a.py") = some (.file (String.ofList text).toUTF8.toList) ∧
      parse text = none) ∧
    ∃ text, ((keyed.fillDocstrings (.ofString "/w/a.py") false).exec
        (oneFile "def f():\n    pass\n".toList [.text "Of f."])).2.files.find? (.ofString "/w/a.py") =
        some (.file (String.ofList text).toUTF8.toList) ∧ (parse text).isSome = true := by
  refine ⟨?_, "def f():\n    \"\"\"Of f.\"\"\"\n    pass\n".toList, by decide +kernel⟩
  obtain ⟨hparse, hlines⟩ :
      ((parse headed).any fun body => (declarations body).all fun d => d.bodyLine == 2) = true ∧
      (Text.linesWithEnds headed).take 1 = ["# F\n".toList] := by decide +kernel
  obtain ⟨body, hbody, hdecls⟩ := (Option.any_eq_true _ _).1 hparse
  obtain ⟨hread, hplain, ss, w', hexec, hlen⟩ := exists_fill_oneFile headed [.text "Of f."] 1
    (by decide +kernel) (by decide +kernel)
  obtain ⟨cs, hperm, hfor, hfile, -, -, hbreaks⟩ :=
    (fillDocstrings_tree hread hbody hplain hexec).2 (by rintro rfl; cases hlen)
  refine ⟨ss, w', _, hexec, hlen, by rw [hbody]; rfl, hfile, hbreaks ?_⟩
  have hpos : 0 < cs.length := by
    have := hperm.length_eq
    rw [length_map] at this
    omega
  obtain ⟨c, hc⟩ := exists_mem_of_length_pos hpos
  have hline : c.1.bodyLine = 2 := eq_of_beq (all_eq_true.1 hdecls _ (hfor c hc).1)
  refine ⟨c, hc, fun l hl => ?_⟩
  rw [hline, hlines, mem_singleton] at hl
  exact ⟨[], "# F".toList, hl, by simp, .inr rfl, by decide⟩

end Docsmith.Assistant
