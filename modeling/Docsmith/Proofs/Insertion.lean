/-
How docstrings get into a Python file: although they are put in one after another, from the last
declaration to the first, the outcome is as if they had all been put in at once. Each stands in front
of the line that its declaration's body starts on, indented by the line that the declaration starts
on, and all the lines are still there.
-/
import Docsmith.Proofs.Assistant
import Docsmith.Proofs.Placement
import Docsmith.Proofs.Utf8
import Mathlib.Data.List.Basic
import Mathlib.Data.List.Pairwise

namespace Docsmith.Assistant

open Syntax Text Action List

/-- A part of a text: a line that was there, or a block that was put in. -/
inductive Part where
  | line (cs : List Char)
  | block (cs : List Char)

namespace Part

def text : Part → List Char
  | line cs => cs
  | block cs => cs

def line? : Part → Option (List Char)
  | line cs => some cs
  | block _ => none

end Part

/-- Lines from number `n` on, each behind the blocks for it. -/
def woven (blocks : Nat → List (List Char)) (n : Nat) : List (List Char) → List Part
  | [] => []
  | l :: ls => (blocks n).map .block ++ .line l :: woven blocks (n + 1) ls

variable {blocks blocks' : Nat → List (List Char)} {lines : List (List Char)} {n k : Nat}

theorem filterMap_woven (blocks : Nat → List (List Char)) (n : Nat) (lines : List (List Char)) :
    (woven blocks n lines).filterMap Part.line? = lines := by
  induction lines generalizing n with
  | nil => rfl
  | cons l ls ih =>
    rw [woven, filterMap_append, filterMap_map, filterMap_cons, ih]
    simp [Function.comp_def, Part.line?]

theorem woven_congr (h : ∀ m, n ≤ m → blocks m = blocks' m) :
    woven blocks n lines = woven blocks' n lines := by
  induction lines generalizing n with
  | nil => rfl
  | cons l ls ih => rw [woven, woven, h n (Nat.le_refl n), ih fun m hm => h m (by omega)]

theorem woven_skip (h : ∀ m, n ≤ m → m < n + k → blocks m = []) :
    woven blocks n lines = (lines.take k).map .line ++ woven blocks (n + k) (lines.drop k) := by
  induction k generalizing n lines with
  | zero => rfl
  | succ k ih =>
    cases lines with
    | nil => rfl
    | cons l ls =>
      rw [woven, h n (Nat.le_refl n) (by omega), ih fun m hm hk => h m (by omega) (by omega)]
      simp [Nat.add_right_comm, Nat.add_assoc]

/-! ## One insertion after another -/

/-- A declaration with the suggestion for it. -/
abbrev Choice := Declaration × Suggestion

/-- The block for a choice: its text, four columns further in than the line of the declaration. -/
def blockOf (lines : List (List Char)) (c : Choice) : List Char :=
  let opening := lines.getD (c.1.line - 1) []
  docBlock (opening.length - (trimStart opening).length + 4) c.2.text.toList

/-- The blocks for a line: those of the choices whose body starts there. -/
def blocksAt (lines : List (List Char)) (cs : List Choice) (n : Nat) : List (List Char) :=
  (cs.filter fun c => c.1.bodyLine = n).map (blockOf lines)

/-- Choices from the top to the bottom of a file, each of which starts, body and all, before the next
one does. -/
def Descends (top : Nat) (cs : List Choice) : Prop :=
  (∀ c ∈ cs, 1 ≤ c.1.line ∧ c.1.line ≤ c.1.bodyLine ∧ c.1.bodyLine ≤ top) ∧
    cs.Pairwise fun c c' => c.1.line < c'.1.line ∧ c.1.bodyLine ≤ c'.1.line

variable {cs : List Choice} {source : List Char} {d : Declaration} {w w' : World}
  {ds : List Declaration}

theorem blocksAt_eq_nil (h : ∀ c ∈ cs, c.1.bodyLine ≠ n) : blocksAt lines cs n = [] := by
  rw [blocksAt, filter_eq_nil_iff.2 (by simpa using h), map_nil]

theorem map_woven_skip (h : ∀ m, 1 ≤ m → m < 1 + k → blocks m = []) :
    (woven blocks 1 lines).map Part.text =
      lines.take k ++ (woven blocks (1 + k) (lines.drop k)).map Part.text := by
  rw [woven_skip h]
  simp [Function.comp_def, Part.text]

theorem getD_woven (h : ∀ m, 1 ≤ m → m < 1 + k → blocks m = []) (hn : n < k) (hk : k ≤ lines.length) :
    ((woven blocks 1 lines).map Part.text).getD n [] = lines.getD n [] := by
  have hlt : n < (lines.take k).length := by rw [length_take]; omega
  rw [map_woven_skip h, getD_eq_getElem?_getD, getElem?_append_left hlt,
    getElem?_take_of_lt hn, getD_eq_getElem?_getD]

/-- Choices that are put in from the bottom to the top are all put in at once. -/
theorem foldr_insertDoc (h : Descends lines.length cs) :
    cs.foldr (fun c ls => insertDoc ls c.1 c.2.text.toList) lines =
      (woven (blocksAt lines cs) 1 lines).map Part.text := by
  induction cs with
  | nil =>
    have hnone : ∀ m, 1 ≤ m → m < 1 + lines.length → blocksAt lines [] m = [] := fun _ _ _ => rfl
    rw [map_woven_skip hnone, take_length, drop_length]
    exact (append_nil _).symm
  | cons c cs ih =>
    obtain ⟨hwithin, hpair⟩ := h
    obtain ⟨⟨hpos, hbody, hlen⟩, hwithin⟩ := forall_mem_cons.1 hwithin
    obtain ⟨hbefore, hpair⟩ := pairwise_cons.1 hpair
    obtain ⟨k, hk⟩ : ∃ k, c.1.bodyLine = 1 + k := ⟨c.1.bodyLine - 1, by omega⟩
    -- no block of a later choice stands above the body of this one, nor at its first line
    have hlater : ∀ c' ∈ cs, c.1.line < c'.1.bodyLine ∧ 1 + k ≤ c'.1.bodyLine := by
      intro c' hc'
      have := hbefore c' hc'
      have := hwithin c' hc'
      omega
    have hopening : ∀ m, 1 ≤ m → m < 1 + c.1.line → blocksAt lines cs m = [] :=
      fun m _ hm => blocksAt_eq_nil fun c' hc' => by have := hlater c' hc'; omega
    have hskip : ∀ m, 1 ≤ m → m < 1 + k → blocksAt lines cs m = [] :=
      fun m _ hm => blocksAt_eq_nil fun c' hc' => by have := hlater c' hc'; omega
    have hskip' : ∀ m, 1 ≤ m → m < 1 + k → blocksAt lines (c :: cs) m = [] := fun m _ hm =>
      blocksAt_eq_nil (forall_mem_cons.2
        ⟨by omega, fun c' hc' => by have := hlater c' hc'; omega⟩)
    obtain ⟨l, ls, hdrop⟩ := exists_cons_of_ne_nil (l := lines.drop k) (by simp; omega)
    have hblocks : blocksAt lines (c :: cs) (1 + k) =
        blockOf lines c :: blocksAt lines cs (1 + k) := by
      rw [blocksAt, filter_cons_of_pos (by simp [hk]), map_cons, blocksAt]
    have hbelow : woven (blocksAt lines (c :: cs)) (1 + k + 1) ls =
        woven (blocksAt lines cs) (1 + k + 1) ls :=
      woven_congr fun m hm => by rw [blocksAt, filter_cons_of_neg (by simp; omega), blocksAt]
    have htake : (lines.take k).length = k := by rw [length_take]; omega
    rw [foldr_cons, ih ⟨hwithin, hpair⟩, insertDoc, getD_woven hopening (by omega) (by omega),
      map_woven_skip hskip, map_woven_skip hskip', hdrop, woven, woven, hblocks, hbelow,
      show c.1.bodyLine - 1 = k by omega, take_left' htake, drop_left' htake]
    rfl

/-! ## The lines of a file -/

theorem flatten_linesWithEndsFrom (line cs : List Char) :
    (linesWithEndsFrom line cs).flatten = line.reverse ++ cs := by
  fun_induction linesWithEndsFrom line cs with
  | case1 line h => simp [isEmpty_iff.1 h]
  | case2 line h => simp
  | case3 line cs ih => simp [ih]
  | case4 line c cs _ h ih => simp [ih]
  | case5 line c cs _ h ih => simp [ih]

theorem flatten_linesWithEnds (source : List Char) : (linesWithEnds source).flatten = source :=
  flatten_linesWithEndsFrom [] source

theorem length_linesWithEndsFrom {line cs : List Char}
    (h : ∀ c ∈ cs, isLineEnd c = true → c = '\n') :
    (linesWithEndsFrom line cs).length =
      cs.count '\n' + if cs.getLast? = some '\n' ∨ cs = [] ∧ line = [] then 0 else 1 := by
  fun_induction linesWithEndsFrom line cs with
  | case1 line hline => simp [isEmpty_iff.1 hline]
  | case2 line hline => simp [List.isEmpty_iff] at hline; simp [hline]
  | case3 line cs ih => exact absurd (h '\r' (by simp) (by decide)) (by decide)
  | case4 line c cs _ hc ih =>
    obtain rfl := h c (by simp) hc
    rw [length_cons, ih fun c hc => h c (by simp [hc])]
    cases cs with
    | nil => simp
    | cons d cs =>
      simp only [getLast?_cons_cons, count_cons_self, reduceCtorEq, false_and, or_false]
      omega
  | case5 line c cs _ hc ih =>
    have hne : c ≠ '\n' := by rintro rfl; exact hc (by decide)
    rw [ih fun c hc => h c (by simp [hc]), count_cons_of_ne hne]
    cases cs <;> simp [getLast?_cons_cons, hne]

/-- A text that is not empty has as many lines as its completion has line feeds, if nothing else ends
a line. -/
theorem length_linesWithEnds (hne : source ≠ [])
    (h : ∀ c ∈ source, isLineEnd c = true → c = '\n') :
    (linesWithEnds source).length = (completed source).count '\n' := by
  rw [linesWithEnds, length_linesWithEndsFrom h, completed]
  split <;> simp_all

/-! ## Suggestions for declarations -/

/-- A suggestion that is made for a declaration. -/
def Suggestion.IsFor (s : Suggestion) (d : Declaration) : Prop :=
  s.name = d.name ∧ s.kind = (if d.isType then "class" else "function") ∧ s.line = d.line

theorem isFor_of_suggest {a : Assistant} {ls : List (List Char)} {o : Option Suggestion}
    (h : (a.suggest ls d).exec w = (.ok o, w')) : ∀ s ∈ o, s.IsFor d := by
  obtain ⟨text, w₁, -, h⟩ := exec_bind_ok.1 h
  obtain ⟨doc, w₂, -, h⟩ := exec_bind_ok.1 h
  cases h
  intro s hs
  split at hs
  · cases hs
  · cases hs
    exact ⟨rfl, rfl, rfl⟩

theorem exists_choices {a : Assistant} {ls : List (List Char)}
    {found : List (Option Suggestion)} (h : (ds.mapM (a.suggest ls)).exec w = (.ok found, w')) :
    ∃ cs : List Choice, cs.map Prod.snd = found.filterMap id ∧ (cs.map Prod.fst).Sublist ds ∧
      ∀ c ∈ cs, c.2.IsFor c.1 := by
  induction ds generalizing w found with
  | nil =>
    cases h
    exact ⟨[], rfl, .slnil, by simp⟩
  | cons d ds ih =>
    rw [mapM_cons] at h
    obtain ⟨o, w₁, ho, h⟩ := exec_bind_ok.1 h
    obtain ⟨rest, w₂, hrest, h⟩ := exec_bind_ok.1 h
    cases h
    obtain ⟨cs, hcs, hsub, hfor⟩ := ih hrest
    cases o with
    | none => exact ⟨cs, hcs, hsub.cons d, hfor⟩
    | some s =>
      refine ⟨(d, s) :: cs, congrArg (s :: ·) hcs, hsub.cons_cons d, ?_⟩
      exact forall_mem_cons.2 ⟨isFor_of_suggest ho s rfl, hfor⟩

theorem find?_line (hds : ds.Pairwise Apart) (hd : d ∈ ds) {n : Int} (hn : n = d.line) :
    (ds.reverse.find? fun e => (e.line : Int) = n) = some d := by
  subst hn
  cases hfind : ds.reverse.find? fun e => (e.line : Int) = d.line with
  | none => simpa using find?_eq_none.1 hfind d (mem_reverse.2 hd)
  | some e =>
    have hline := find?_some hfind
    simp only [decide_eq_true_eq, Int.natCast_inj] at hline
    have he := mem_reverse.1 (mem_of_find?_eq_some hfind)
    by_contra hne
    rcases hds.forall he hd fun h => hne (by rw [h]) with hlt | hlt <;> omega

theorem insertDocs_eq (hds : ds.Pairwise Apart)
    (hsub : (cs.map Prod.fst).Sublist ds) (hfor : ∀ c ∈ cs, c.2.IsFor c.1)
    (hwithin : ∀ d ∈ ds, 1 ≤ d.line ∧ d.line ≤ d.bodyLine ∧
      d.bodyLine ≤ (linesWithEnds source).length) :
    ∃ cs' : List Choice, cs'.Perm cs ∧ Descends (linesWithEnds source).length cs' ∧
      insertDocs source ds (cs.map Prod.snd) =
        ((woven (blocksAt (linesWithEnds source) cs') 1 (linesWithEnds source)).map
          Part.text).flatten := by
  have hmem : ∀ c ∈ cs, c.1 ∈ ds := fun c hc => hsub.subset (mem_map_of_mem hc)
  let sorted := cs.mergeSort fun a b => decide (b.2.line ≤ a.2.line)
  have hperm : sorted.Perm cs := mergeSort_perm _ _
  have hapart : sorted.Pairwise fun a b => Apart a.1 b.1 :=
    (pairwise_map.1 (hds.sublist hsub)).perm hperm.symm Or.symm
  have hlines : sorted.Pairwise fun a b => b.2.line ≤ a.2.line := by
    refine (pairwise_mergeSort (fun a b c hab hbc => ?_) (fun a b => ?_) cs).imp of_decide_eq_true
    · simp only [decide_eq_true_eq] at *
      omega
    · simp only [Bool.or_eq_true, decide_eq_true_eq]
      omega
  have hsorted : sorted.Pairwise fun a b => b.1.line < a.1.line ∧ b.1.bodyLine ≤ a.1.line := by
    refine (hapart.and hlines).imp_of_mem fun {a b} ha hb hab => ?_
    have hla := (hfor a (hperm.mem_iff.1 ha)).2.2
    have hlb := (hfor b (hperm.mem_iff.1 hb)).2.2
    rcases hab with ⟨hlt | hlt, hle⟩ <;> omega
  have hdescends : Descends (linesWithEnds source).length sorted.reverse :=
    ⟨fun c hc => hwithin _ (hmem c (hperm.mem_iff.1 (mem_reverse.1 hc))),
      pairwise_reverse.2 hsorted⟩
  refine ⟨sorted.reverse, sorted.reverse_perm.trans hperm, hdescends, ?_⟩
  rw [← foldr_insertDoc hdescends, foldr_reverse, insertDocs]
  have hmap : sorted.map Prod.snd =
      (cs.map Prod.snd).mergeSort fun a b => decide (b.line ≤ a.line) :=
    map_mergeSort fun _ _ _ _ => rfl
  rw [← hmap, foldl_map]
  refine congrArg flatten (foldl_ext _ _ _ fun ls c hc => ?_)
  have hc := hperm.mem_iff.1 hc
  rw [find?_line hds (hmem c hc) (hfor c hc).2.2]

theorem plain_of_mem_openers {word : String} (h : word ∈ d.openers) :
    word.toList.getLast? ≠ some '\n' ∧ word.toList ≠ [] := by
  have hall : ∀ word ∈ ["class", "def", "async"],
      word.toList.getLast? ≠ some '\n' ∧ word.toList ≠ [] := by decide
  refine hall word ?_
  rw [Declaration.openers] at h
  split at h <;> simp_all

theorem standsIn_of_mem {body : List Stmt} (hparse : parse source = some body)
    (hd : d ∈ declarations body) : ∃ word ∈ d.openers, Scan.StandsIn source 1 word d.line := by
  obtain ⟨ts, hts, hspread⟩ := spread_parse hparse
  obtain ⟨t, ht, hline, word, hword, hlex⟩ := hspread.opened d hd
  obtain ⟨hlast, hne⟩ := plain_of_mem_openers hword
  exact ⟨word, hword, hline ▸ exists_keyword_at hts ht hlex hlast hne⟩

theorem within_of_parse {body : List Stmt} (hparse : parse source = some body)
    (hplain : ∀ c ∈ source, isLineEnd c = true → c = '\n') :
    ∀ d ∈ declarations body, 1 ≤ d.line ∧ d.line ≤ d.bodyLine ∧
      d.bodyLine ≤ (linesWithEnds source).length := by
  intro d hd
  obtain ⟨word, hword, before, after, hsource, -⟩ := standsIn_of_mem hparse hd
  have hne : source ≠ [] := by
    rintro rfl
    have hnil := append_eq_nil_iff.1 (append_eq_nil_iff.1 hsource.symm).1
    exact (plain_of_mem_openers hword).2 hnil.2
  obtain ⟨ts, -, hspread⟩ := spread_parse hparse
  have hwithin := hspread.within d hd
  rw [length_linesWithEnds hne hplain]
  omega

theorem find?_carryOut {p : Path} {ss : List Suggestion} {text : List Char}
    (hne : ss ≠ []) (h : (carryOut p false (ss, text)).exec w = (.ok ss, w')) :
    w'.files.find? p = some (.file (String.ofList text).toUTF8.toList) := by
  simp only [carryOut] at h
  rw [if_pos (by simpa using hne)] at h
  obtain ⟨u, w₁, hwrite, hpure⟩ := exec_bind_ok.1 h
  obtain ⟨t, ht, rfl⟩ := exec_changeFiles_ok.1 hwrite
  cases hpure
  exact FileTree.find?_of_writeBytes ht

section Filling

variable {a : Assistant} {p : Path} {w w' : World} {source : List Char} {body : List Stmt}
  {ss : List Suggestion}

theorem fillDocstrings_ok (hread : (readText p).exec w = (.ok source, w))
    (hrun : (a.fillDocstrings p false).exec w = (.ok ss, w')) :
    ∃ text w₁, (a.docstringsFor source).exec w = (.ok (ss, text), w₁) ∧
      (carryOut p false (ss, text)).exec w₁ = (.ok ss, w') := by
  rw [fillDocstrings_eq] at hrun
  obtain ⟨⟨ss', text⟩, w₁, hplan, hput⟩ := exec_bind_ok.1 hrun
  obtain rfl : ss' = ss := carryOut_ok hput
  obtain ⟨source', w₀, hread', hplan⟩ := exec_bind_ok.1 hplan
  rw [hread] at hread'
  cases hread'
  exact ⟨text, w₁, hplan, hput⟩

/-- The file that the assistant writes: the lines with a block for each suggestion. -/
theorem find?_fillDocstrings (hread : (readText p).exec w = (.ok source, w))
    (hparse : parse source = some body)
    (hplain : ∀ c ∈ source, isLineEnd c = true → c = '\n')
    (hrun : (a.fillDocstrings p false).exec w = (.ok ss, w')) (hne : ss ≠ []) :
    ∃ cs : List Choice, (cs.map Prod.snd).Perm ss ∧
      (∀ c ∈ cs, c.1 ∈ declarations body ∧ c.2.IsFor c.1) ∧
      Descends (linesWithEnds source).length cs ∧
      w'.files.find? p = some (.file (String.ofList
        ((woven (blocksAt (linesWithEnds source) cs) 1
          (linesWithEnds source)).map Part.text).flatten).toUTF8.toList) := by
  obtain ⟨text, w₁, hplan, hput⟩ := fillDocstrings_ok hread hrun
  have htree : readTree source = .ok (some body) := congrArg Except.ok hparse
  simp only [docstringsFor, htree, Action.ofExcept, pure_bind] at hplan
  obtain ⟨found, w₂, hfound, hplan⟩ := exec_bind_ok.1 hplan
  cases hplan
  obtain ⟨cs, hss, hsub, hfor⟩ := exists_choices hfound
  obtain ⟨ts, -, hspread⟩ := spread_parse hparse
  obtain ⟨cs', hperm, hdescends, htext⟩ := insertDocs_eq hspread.apart
    (hsub.trans filter_sublist) hfor (within_of_parse hparse hplain)
  refine ⟨cs', hss ▸ hperm.map _, fun c hc => ?_, hdescends, ?_⟩
  · have hc := hperm.mem_iff.1 hc
    exact ⟨(hsub.trans filter_sublist).subset (mem_map_of_mem hc), hfor c hc⟩
  · rw [← htext, hss]
    exact find?_carryOut hne hput

/-- **Docstrings are put in all at once.** Where the assistant fills a Python file, in which nothing
but a line feed ends a line, the file then holds its lines with a block for each suggestion: the block
stands in front of the line on which the first statement of the body of the declaration starts, in
the order of the declarations where the line is the same, indented by the line that its own
declaration starts on. The lines are the same as before. -/
theorem fillDocstrings_woven (hread : (Action.readText p).exec w = (.ok source, w))
    (hparse : parse source = some body)
    (hplain : ∀ c ∈ source, isLineEnd c = true → c = '\n')
    (hrun : (a.fillDocstrings p false).exec w = (.ok ss, w')) (hne : ss ≠ []) :
    ∃ cs : List Choice, (cs.map Prod.snd).Perm ss ∧
      (∀ c ∈ cs, c.1 ∈ declarations body ∧ c.2.IsFor c.1) ∧
      Descends (linesWithEnds source).length cs ∧
      let parts := woven (blocksAt (linesWithEnds source) cs) 1 (linesWithEnds source)
      w'.files.find? p = some (.file (String.ofList (parts.map Part.text).flatten).toUTF8.toList) ∧
        (parts.filterMap Part.line?).flatten = source := by
  obtain ⟨cs, hperm, hfor, hdescends, hfile⟩ := find?_fillDocstrings hread hparse hplain hrun hne
  exact ⟨cs, hperm, hfor, hdescends, hfile, by rw [filterMap_woven, flatten_linesWithEnds]⟩

end Filling

section OneFile

def keyed : Assistant := { key := .str "k" }

/-- A folder with one Python file, and the replies of the service. -/
def oneFile (source : List Char) (replies : List Reply) : World where
  files := ⟨.ofString "/w", [(["w"], .folder),
    (["w", "a.py"], .file (String.ofList source).toUTF8.toList)]⟩
  replies

theorem exists_fill_oneFile (source : List Char) (replies : List Reply) (n : Nat)
    (hplain : (source.all fun c => !isLineEnd c || c == '\n') = true)
    (hrun : (((keyed.fillDocstrings (.ofString "/w/a.py") false).exec
      (oneFile source replies)).1.toOption.any fun ss => ss.length == n) = true) :
    (readText (.ofString "/w/a.py")).exec (oneFile source replies) =
        (.ok source, oneFile source replies) ∧
      (∀ c ∈ source, isLineEnd c = true → c = '\n') ∧
      ∃ ss w', (keyed.fillDocstrings (.ofString "/w/a.py") false).exec (oneFile source replies) =
        (.ok ss, w') ∧ ss.length = n := by
  have hends : ∀ c ∈ source, isLineEnd c = true → c = '\n' := by
    simpa [or_iff_not_imp_left] using hplain
  refine ⟨?_, hends, ?_⟩
  · have hbytes : (oneFile source replies).files.readBytes (.ofString "/w/a.py") =
      .ok (String.ofList source).toUTF8.toList := rfl
    have hreturn : '\r' ∉ (String.ofList source).toList := by
      rw [String.toList_ofList]
      exact fun hmem => absurd (hends _ hmem rfl) (by decide)
    rw [readText, exec_ofFiles, FileTree.readText_eq hbytes hreturn, String.toList_ofList]
  · rcases hexec : (keyed.fillDocstrings (.ofString "/w/a.py") false).exec
      (oneFile source replies) with ⟨_ | ss, w'⟩
    · rw [hexec] at hrun
      cases hrun
    · rw [hexec] at hrun
      exact ⟨ss, w', rfl, eq_of_beq hrun⟩

end OneFile

/-- A class whose first statement is a function on one line: both bodies start on that line. -/
def layered : List Char := "class A:\n    def f(x): pass\n".toList

/-- Both blocks stand in front of the second line, that of the class first. -/
theorem fillDocstrings_woven_layered : ∃ ss w', ∃ cs : List Choice,
    (keyed.fillDocstrings (.ofString "/w/a.py") false).exec
      (oneFile layered [.text "Of A.", .text "Of f."]) = (.ok ss, w') ∧
    ss.length = 2 ∧ (cs.map Prod.snd).Perm ss ∧ Descends 2 cs ∧
    let parts := woven (blocksAt (linesWithEnds layered) cs) 1 (linesWithEnds layered)
    w'.files.find? (.ofString "/w/a.py") =
        some (.file (String.ofList (parts.map Part.text).flatten).toUTF8.toList) ∧
      (parts.filterMap Part.line?).flatten = layered := by
  obtain ⟨hparse, hlines⟩ : (parse layered).isSome = true ∧
      (linesWithEnds layered).length = 2 := by decide +kernel
  obtain ⟨body, hbody⟩ := Option.isSome_iff_exists.1 hparse
  obtain ⟨hread, hplain, ss, w', hexec, hlen⟩ := exists_fill_oneFile layered
    [.text "Of A.", .text "Of f."] 2 (by decide +kernel) (by decide +kernel)
  obtain ⟨cs, hperm, -, hdescends, hfile, hsource⟩ :=
    fillDocstrings_woven hread hbody hplain hexec (by rintro rfl; cases hlen)
  exact ⟨ss, w', cs, hexec, hlen, hperm, hlines ▸ hdescends, hfile, hsource⟩

end Docsmith.Assistant
