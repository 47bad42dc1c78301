/-
What a Go file as a formatter lays it out documents: exactly the functions and structures that it
declares, each structure with the methods of its type, with parameters, results, comments and the
numbers of the lines (`SourceFile.documentFile_text`).

The patterns of the language go through such a file line by line. `Spot` is a declaration where it
stands; each pattern reads the declarations of its kind (`Spot.Read`) and nothing else.
-/
import Docsmith.Proofs.Comments
import Docsmith.Proofs.GoSource
import Docsmith.Proofs.Utf8

namespace Docsmith.Go

open Pattern List
open Cursor (between)
open Text

/-! ## Pieces of a line -/

variable {b t r : List Char} {gs hs : List Capture} {n : Nat}

theorem takes_word {x : List Char} (hne : x ≠ []) (hx : x.all isWord = true)
    (hr : r.head?.any isWord = false) : word.Takes b x r gs gs :=
  takes_chars hx hr (length_pos_iff.2 hne)

theorem only_blank (hr : r.head?.any isBlank = false) : blanks1.Only b [' '] r gs gs :=
  only_chars (t := [' ']) rfl hr

theorem takes_noBlank (hr : r.head?.any isBlank = false) : blanks.Takes b [] r gs gs :=
  takes_chars rfl hr (Nat.zero_le _)

def opening : Pattern := blanks ++ lit "\x7b"

theorem takes_opening : opening.Takes b [' ', '\x7b'] r gs gs :=
  (takes_chars (t := [' ']) rfl rfl (Nat.zero_le _)).seq (only_lit "\x7b").takes

theorem rejects_opening (h : (r.dropWhile isBlank).head? ≠ some '\x7b') :
    opening.Rejects b r := by
  rw [← takeWhile_append_dropWhile (p := isBlank) (l := r)]
  refine rejects_chars_seq all_takeWhile (head?_dropWhile _ r) fun t₁ t₂ ht _ => ?_
  refine rejects_lit fun hprefix => ?_
  cases t₂ with
  | nil =>
    obtain ⟨u, hu⟩ := hprefix
    rw [nil_append] at hu
    rw [← hu] at h
    exact h rfl
  | cons c t₂ =>
    have hc : isBlank c = true := mem_takeWhile_imp (ht ▸ mem_append_right _ mem_cons_self)
    obtain ⟨rfl, -⟩ := cons_prefix_cons.1 hprefix
    cases hc

/-- Behind a blank, results in parentheses need one of these. -/
theorem rejects_results {c : Char} (hblank : isBlank c = false) (hc : c ≠ '(') :
    (blanks ++ parens n).Rejects b (' ' :: c :: r) := by
  refine rejects_chars_seq (t := [' ']) rfl hblank fun t₁ t₂ ht _ => ?_
  have hother : (lit "(").Rejects (b ++ t₁) (t₂ ++ c :: r) := by
    refine rejects_lit fun hprefix => ?_
    match t₁, t₂, ht with
    | [], [_], rfl => cases (cons_prefix_cons.1 hprefix).1
    | [_], [], _ => exact hc (cons_prefix_cons.1 hprefix).1.symm
  exact hother.seq.seq

/-- A result as `resultPattern` reads it where there are no parentheses. -/
def plainResult (n : Nat) : Pattern :=
  blanks1 ++ group n (one (!isBlank ·) ++ chars (except "\x7b\n") 0 false)

/-- Without a result, the brace is not taken for one: another brace would have to follow. -/
theorem rejects_plainResult (hr : (r.dropWhile isBlank).head? ≠ some '\x7b') :
    (plainResult n ++ opening).Rejects b (' ' :: '\x7b' :: '\n' :: r) := by
  have hrest : opening.Rejects (b ++ [' '] ++ ['\x7b']) ('\n' :: r) := by
    refine rejects_opening ?_
    rw [dropWhile_cons_of_pos rfl]
    exact hr
  intro β gs k
  rw [run_seq, plainResult, run_seq]
  refine (only_blank rfl β _).trans ?_
  rw [run_group, run_seq]
  refine (only_one rfl β _).trans ?_
  refine (run_chars (t := []) (b := b ++ [' '] ++ ['\x7b']) (r := '\n' :: r) rfl rfl
    (Nat.zero_le _) fun t₁ c t₂ h _ => by simp at h).trans ?_
  rw [append_nil]
  exact hrest β _ k

theorem takes_noResult (hr : (r.dropWhile isBlank).head? ≠ some '\x7b') :
    (resultPattern n ++ opening).Takes b [' ', '\x7b'] ('\n' :: r) gs gs := by
  have hresults : (blanks ++ parens n).Rejects b (' ' :: '\x7b' :: '\n' :: r) :=
    rejects_results rfl (by decide)
  exact Takes.alt_seq_right (hresults.seq.alt_seq (rejects_plainResult hr)) takes_opening

theorem takes_plainResult (x : TypeText) :
    (plainResult n ++ opening).Takes b (' ' :: x.text.toList ++ [' ', '\x7b']) r gs
      (.held n (b ++ [' ']) x.text.toList (' ' :: '\x7b' :: r) :: gs) := by
  obtain ⟨c, cs, hcs⟩ := x.exists_cons
  have hblank (y : Char) (hy : y ∈ c :: cs) : isBlank y = false :=
    x.isBlank (by rw [hcs]; exact hy)
  have hbrace : '\x7b' ∉ c :: cs := by rw [← hcs]; exact x.not_mem rfl rfl
  have hline : '\n' ∉ c :: cs := by rw [← hcs]; exact x.not_mem rfl rfl
  have hall : cs.all (except "\x7b\n") = true := by
    rw [all_eq_true]
    intro y hy
    have h1 : y ≠ '\x7b' := fun h => hbrace (h ▸ mem_cons_of_mem _ hy)
    have h2 : y ≠ '\n' := fun h => hline (h ▸ mem_cons_of_mem _ hy)
    simp [except, h1, h2]
  rw [hcs]
  intro β k hk
  rw [run_seq, plainResult, run_seq]
  refine (only_blank (r := c :: cs ++ [' ', '\x7b'] ++ r)
    (hblank c mem_cons_self) β _).trans ?_
  rw [run_group, run_seq]
  refine (only_one (c := c) (r := cs ++ [' ', '\x7b'] ++ r)
    (by rw [hblank c mem_cons_self]; rfl) β _).trans ?_
  rw [append_assoc cs]
  have hheld : (⟨n, between (b ++ [' ']) (c :: cs ++ [' ', '\x7b'] ++ r),
      (between (b ++ [' '] ++ [c] ++ cs) ([' ', '\x7b'] ++ r)).pos⟩ : Capture) =
      .held n (b ++ [' ']) (c :: cs) (' ' :: '\x7b' :: r) := by
    simp [Capture.held, between]
  have hend : b ++ (' ' :: (c :: cs) ++ [' ', '\x7b']) =
      b ++ [' '] ++ [c] ++ cs ++ [' ', '\x7b'] := by simp
  rw [hend] at hk ⊢
  have hopen := takes_opening β k hk
  rw [← hheld] at hopen hk ⊢
  refine (run_reluctant hall ?_ ?_).trans hopen
  · intro t₁ y t₂ ht
    have hy : y ∈ c :: cs := by rw [ht]; simp
    refine rejects_opening ?_ β _ k
    rw [cons_append, dropWhile_cons_of_neg (by rw [hblank y hy]; decide)]
    intro h
    cases h
    exact hbrace hy
  · exact (congrArg Option.isSome hopen).trans hk

theorem takes_result (x : TypeText) :
    (resultPattern n ++ opening).Takes b (' ' :: x.text.toList ++ [' ', '\x7b']) r gs
      (.held (n + 1) (b ++ [' ']) x.text.toList (' ' :: '\x7b' :: r) :: gs) := by
  refine Takes.alt_seq (Takes.alt_seq_right (Rejects.seq ?_) (takes_plainResult x))
  obtain ⟨c, cs, hcs⟩ := x.exists_cons
  have hc : c ∈ x.text.toList := by rw [hcs]; exact mem_cons_self
  rw [hcs]
  refine rejects_results (x.isBlank hc) fun h => ?_
  exact x.not_mem (c := '(') rfl rfl (h ▸ hc)

/-! ## Signatures -/

namespace Signature

theorem not_mem_paramText (p : Name × TypeText) {c : Char} (hword : isWord c = false)
    (hc : among " .*[]" c = false) : c ∉ paramText p := by
  simp only [paramText, mem_append, mem_cons, not_or]
  refine ⟨p.1.not_mem hword, ?_, p.2.not_mem hword ?_⟩
  · rintro rfl
    cases hc
  · simp [among] at hc ⊢
    simp [hc]

theorem not_mem_paramsText (s : Signature) : ')' ∉ s.paramsText := by
  intro h
  rcases mem_intercalate h with h | ⟨l, hl, h⟩
  · exact absurd h (by decide)
  · obtain ⟨p, -, rfl⟩ := mem_map.1 hl
    exact not_mem_paramText p rfl rfl h

theorem param?_paramText (p : Name × TypeText) :
    param? (paramText p) = some ⟨p.1.text, p.2.text, ""⟩ := by
  have htype : p.2.text.toList ≠ [] := fun h => p.2.nonempty (String.toList_eq_nil_iff.1 h)
  rw [param?, paramText, words_cons p.1.ne_nil (fun _ => p.1.isBlank) rfl,
    words_word htype fun _ => p.2.isBlank]
  simp

theorem params_paramsText (s : Signature) :
    Go.params s.paramsText = s.params.map fun p => ⟨p.1.text, p.2.text, ""⟩ := by
  rw [paramsText]
  cases s.params with
  | nil => rfl
  | cons p ps =>
    have hcommas : ∀ x ∈ paramText p :: ps.map paramText, ',' ∉ x := by
      rw [← map_cons]
      intro x hx
      obtain ⟨p, -, rfl⟩ := mem_map.1 hx
      exact not_mem_paramText p rfl rfl
    have hblank (p : Name × TypeText) :
        param? (' ' :: paramText p) = some ⟨p.1.text, p.2.text, ""⟩ := by
      rw [param?, words_blank rfl]
      exact param?_paramText p
    rw [Go.params, map_cons, cut_commas hcommas, filterMap_cons, param?_paramText,
      map_map, filterMap_map, map_cons]
    simp only [Function.comp_def, hblank]
    simp

theorem takes_resultText (s : Signature) (hr : (r.dropWhile isBlank).head? ≠ some '\x7b') :
    ∃ is, (resultPattern n ++ opening).Takes b (s.resultText ++ [' ', '\x7b']) ('\n' :: r) gs
        (is ++ gs) ∧ ((is = [] ∧ s.result = none) ∨ ∃ type b r, s.result = some type ∧
          is = [.held (n + 1) b type.text.toList r]) := by
  rw [resultText]
  cases s.result with
  | none => exact ⟨[], takes_noResult hr, .inl ⟨rfl, rfl⟩⟩
  | some type => exact ⟨_, takes_result type, .inr ⟨type, _, _, rfl, rfl⟩⟩

theorem groups_eq (s : Signature) {m : Match} {is : List Capture} {b₁ r₁ b₂ r₂ : List Char}
    (his : (is = [] ∧ s.result = none) ∨ ∃ type b r, s.result = some type ∧
      is = [.held (n + 3) b type.text.toList r])
    (hm : m.groups = is ++ .held (n + 1) b₁ s.paramsText r₁ ::
      .held n b₂ s.name.text.toList r₂ :: hs)
    (hhs : ∀ g ∈ hs, g.group < n) :
    m.group n = s.name.text.toList ∧ m.group (n + 1) = s.paramsText ∧
      Go.result m (n + 2) = (s.result.map (·.text)).getD "" := by
  have hnone (i : Nat) (hi : n ≤ i) : hs.find? (fun g => g.group == i) = none := by
    refine find?_eq_none.2 fun g hg => ?_
    have := hhs g hg
    simp only [beq_iff_eq]
    omega
  have h2 := hnone (n + 2) (by omega)
  have h3 := hnone (n + 3) (by omega)
  rcases his with ⟨rfl, hres⟩ | ⟨type, _, _, hres, rfl⟩
  · have htrim : trim [] = [] := rfl
    simp [Match.group, Match.group?, Go.result, hm, hres, h2, h3, htrim, Nat.add_assoc]
  · simp [Match.group, Match.group?, Go.result, hm, hres, h2, type.trim_eq]

/-- A function or method is read up to its brace, and the groups from `n` on hold its parts. -/
theorem takes (s : Signature) {p : Pattern} (hp : p.Takes b t (s.line ++ '\n' :: r) gs hs)
    (hhs : ∀ g ∈ hs, g.group < n) (hr : (r.dropWhile isBlank).head? ≠ some '\x7b') :
    ∃ is, (p ++ group n word ++ blanks ++ parens (n + 1) ++ resultPattern (n + 2) ++ blanks ++
        lit "\x7b").Takes b (t ++ s.line) ('\n' :: r) gs (is ++ hs) ∧ (∀ g ∈ is, n ≤ g.group) ∧
      ∀ m : Match, m.groups = is ++ hs → m.group n = s.name.text.toList ∧
        m.group (n + 1) = s.paramsText ∧ Go.result m (n + 2) = (s.result.map (·.text)).getD "" := by
  have hline : t ++ s.line = t ++ s.name.text.toList ++ ('(' :: s.paramsText ++ [')']) ++
      (s.resultText ++ [' ', '\x7b']) := by
    rw [line_eq]
    simp only [append_assoc]
  rw [line_eq, append_assoc, append_assoc] at hp
  have hname := hp.seq ((takes_word s.name.ne_nil s.name.isWord rfl).group n)
  have hparams := (hname.seq_nil (takes_noBlank rfl)).seq
    (takes_parens (n + 1) s.not_mem_paramsText)
  obtain ⟨is, hresult, his⟩ := s.takes_resultText hr
  have hall := hparams.seq hresult
  rw [← hline] at hall
  refine ⟨is ++ [_, _], by rw [append_assoc]; exact hall, ?_, fun m hm => ?_⟩
  · rcases his with ⟨rfl, -⟩ | ⟨type, _, _, -, rfl⟩ <;> simp [Nat.add_assoc]
  · rw [append_assoc] at hm
    exact s.groups_eq his hm hhs

end Signature

/-! ## Declarations -/

theorem only_keyword (w : String) (hb : b.getLast?.all (· == '\n') = true)
    (hr : r.head?.any isBlank = false) :
    (lineStart ++ lit w ++ blanks1).Only b (w.toList ++ [' ']) r gs gs :=
  ((only_lineStart hb).only_seq (only_lit w)).seq (only_blank hr)

theorem keyed_function : functionPattern.Keyed 'f' := (keyed_lit rfl).seq.seq.seq.seq.seq.seq.seq

theorem keyed_method : methodPattern.Keyed 'f' :=
  (keyed_lit rfl).seq.seq.seq.seq.seq.seq.seq.seq.seq.seq.seq.seq.seq.seq

theorem keyed_type (kind : String) : (typePattern kind).Keyed 't' :=
  (keyed_lit rfl).seq.seq.seq.seq.seq.seq

theorem Signature.startsWord (s : Signature) : (s.line ++ r).head?.any isBlank = false := by
  rw [line_eq, append_assoc]
  exact s.name.startsWord _

namespace Spot

/-- A match of `p` reads a declaration: it starts and ends with its line. -/
structure Read (s : Spot) (p : Pattern) (m : Match) : Prop where
  found : p.matchAt s.cursor = some m
  start : m.start.pos = s.before.length
  stop : m.stop.pos = (s.before ++ s.decl.head.line).length

/-- What follows the line of a declaration. -/
abbrev below (s : Spot) : List Char := '\n' :: (unlines s.decl.bodyLines ++ s.after)

variable {s : Spot} {p : Pattern}

theorem read_of_takes (h : p.Takes s.before s.decl.head.line s.below [] hs) :
    ∃ m, s.Read p m ∧ m.groups = hs :=
  ⟨_, ⟨h.matchAt, rfl, rfl⟩, rfl⟩

variable (hline : s.before.getLast?.all (· == '\n') = true)
include hline

theorem read_function {sig : Signature} (h : s.decl.head = .function sig) :
    ∃ m, s.Read functionPattern m ∧ m.group 1 = sig.name.text.toList ∧
      m.group 2 = sig.paramsText ∧ result m 3 = (sig.result.map (·.text)).getD "" := by
  have htext : "func".toList ++ [' '] ++ sig.line = s.decl.head.line := by
    simp [h, Head.line, Signature.functionLine_eq]
  have hfunc : (lineStart ++ lit "func" ++ blanks1).Only s.before ("func".toList ++ [' '])
      (sig.line ++ s.below) [] [] :=
    only_keyword "func" hline sig.startsWord
  obtain ⟨is, htakes, -, hgroups⟩ :=
    sig.takes (n := 1) hfunc.takes (by simp) (s.decl.head?_body s.after)
  rw [htext] at htakes
  obtain ⟨m, hread, hm⟩ := read_of_takes htakes
  exact ⟨m, hread, hgroups m hm⟩

theorem read_method {receiver type : Name} {sig : Signature}
    (h : s.decl.head = .method receiver type sig) :
    ∃ m, s.Read methodPattern m ∧ m.group 2 = type.text.toList ∧
      m.group 3 = sig.name.text.toList ∧ m.group 4 = sig.paramsText ∧
      result m 5 = (sig.result.map (·.text)).getD "" := by
  have htext : "func".toList ++ [' '] ++ "(".toList ++ receiver.text.toList ++ [' '] ++
      "*".toList ++ type.text.toList ++ ")".toList ++ [' '] ++ sig.line = s.decl.head.line := by
    simp [h, Head.line, Signature.methodLine_eq]
  have hfunc : (lineStart ++ lit "func" ++ blanks1).Only s.before ("func".toList ++ [' '])
      ("(".toList ++ (receiver.text.toList ++ ([' '] ++ ("*".toList ++ (type.text.toList ++
        (")".toList ++ ([' '] ++ (sig.line ++ s.below)))))))) [] [] :=
    only_keyword "func" hline rfl
  have hreceiver := (hfunc.takes.seq (only_lit "(").takes).seq
    ((takes_word receiver.ne_nil receiver.isWord rfl).group 1)
  have hstar := (hreceiver.seq (only_blank rfl).takes).seq (q := opt (lit "*"))
    (only_lit "*").takes.alt
  have htype := (hstar.seq ((takes_word type.ne_nil type.isWord rfl).group 2)).seq
    (only_lit ")").takes
  have hstart := htype.seq (only_blank sig.startsWord).takes
  obtain ⟨is, htakes, his, hgroups⟩ :=
    sig.takes (n := 3) hstart (by simp) (s.decl.head?_body s.after)
  rw [htext] at htakes
  obtain ⟨m, hread, hm⟩ := read_of_takes htakes
  refine ⟨m, hread, ?_, hgroups m hm⟩
  have hnone : is.find? (fun g => g.group == 2) = none := by
    refine find?_eq_none.2 fun g hg => ?_
    have := his g hg
    simp only [beq_iff_eq]
    omega
  simp [Match.group, Match.group?, hm, hnone]

theorem read_struct {name : ExportedName} (h : s.decl.head = .struct name) :
    ∃ m, s.Read (typePattern "struct") m ∧ m.group 1 = name.text.toList := by
  have htext : "type".toList ++ [' '] ++ name.text.toList ++ [' '] ++ "struct".toList ++
      [' ', '\x7b'] = s.decl.head.line := by
    simp [h, Head.line, ExportedName.structLine_eq]
  have hword : (lineStart ++ lit "type" ++ blanks1).Only s.before ("type".toList ++ [' '])
      (name.text.toList ++ ([' '] ++ ("struct".toList ++ ([' ', '\x7b'] ++ s.below)))) [] [] :=
    only_keyword "type" hline (name.startsWord _)
  have hname := hword.takes.seq ((takes_word name.ne_nil name.isWord rfl).group 1)
  have hkind := (hname.seq (only_blank rfl).takes).seq (only_lit "struct").takes
  have hall := (hkind.seq takes_opening).assoc
  rw [htext] at hall
  obtain ⟨m, hread, hm⟩ := read_of_takes hall
  refine ⟨m, hread, ?_⟩
  simp [Match.group, Match.group?, hm]

theorem function_none (h : ∀ sig, s.decl.head ≠ .function sig) :
    functionPattern.matchAt s.cursor = none := by
  rw [cursor]
  cases hhead : s.decl.head with
  | function sig => exact absurd hhead (h sig)
  | struct name =>
    exact (keyed_function.rejects (by simp [Head.line, ExportedName.structLine_eq])).matchAt
  | method receiver type sig =>
    have hword : (group 1 word).Rejects (s.before ++ ("func".toList ++ [' ']))
        ('(' :: receiver.text.toList ++ ' ' :: '*' :: type.text.toList ++ ')' :: ' ' :: sig.line ++
          s.below) :=
      (rejects_chars rfl).group 1
    have hrejects := Only.rejects (fun _ => only_keyword "func" hline rfl) hword
    refine Rejects.matchAt ?_
    simpa [below, Head.line, Signature.methodLine_eq, functionPattern] using
      hrejects.seq.seq.seq.seq.seq

theorem method_none (h : ∀ receiver type sig, s.decl.head ≠ .method receiver type sig) :
    methodPattern.matchAt s.cursor = none := by
  rw [cursor]
  cases hhead : s.decl.head with
  | function sig =>
    have hparen : (lit "(").Rejects (s.before ++ ("func".toList ++ [' ']))
        (sig.line ++ s.below) := by
      refine rejects_lit fun ⟨u, hu⟩ => ?_
      rw [sig.line_eq, append_assoc] at hu
      obtain ⟨c, hc, hhead⟩ := sig.name.head?_append _
      rw [← hu] at hhead
      cases hhead
      exact sig.name.not_mem (c := '(') rfl hc
    have hrejects := Only.rejects (fun _ => only_keyword "func" hline sig.startsWord) hparen
    refine Rejects.matchAt ?_
    simpa [below, Head.line, Signature.functionLine_eq, methodPattern] using
      hrejects.seq.seq.seq.seq.seq.seq.seq.seq.seq.seq.seq.seq
  | struct name =>
    exact (keyed_method.rejects (by simp [Head.line, ExportedName.structLine_eq])).matchAt
  | method receiver type sig => exact absurd hhead (h receiver type sig)

omit hline in
theorem type_none (kind : String) (h : ∀ name, s.decl.head ≠ .struct name) :
    (typePattern kind).matchAt s.cursor = none := by
  rw [cursor]
  cases hhead : s.decl.head with
  | function sig =>
    exact ((keyed_type _).rejects (by simp [Head.line, Signature.functionLine_eq])).matchAt
  | struct name => exact absurd hhead (h name)
  | method receiver type sig =>
    exact ((keyed_type _).rejects (by simp [Head.line, Signature.methodLine_eq])).matchAt

theorem interface_none : (typePattern "interface").matchAt s.cursor = none := by
  by_cases h : ∃ name, s.decl.head = .struct name
  · obtain ⟨name, hhead⟩ := h
    rw [cursor]
    -- the word may end early, but only the whole name has a blank behind it
    have hword : (group 1 word ++ (blanks1 ++ lit "interface")).Rejects
        (s.before ++ ("type".toList ++ [' '])) (name.text.toList ++ ([' '] ++ ("struct".toList ++
          ([' ', '\x7b'] ++ s.below)))) := by
      intro β gs k
      rw [run_seq, run_group]
      refine run_chars_none name.isWord rfl fun t₁ t₂ ht _ => ?_
      cases t₂ with
      | nil =>
        have hkind : (lit "interface").Rejects (s.before ++ ("type".toList ++ [' ']) ++ t₁ ++ [' '])
            ("struct".toList ++ ([' ', '\x7b'] ++ s.below)) :=
          rejects_lit fun h => by cases (cons_prefix_cons.1 h).1
        exact Only.rejects (fun _ => only_blank rfl) hkind β _ k
      | cons c t₂ =>
        have hc : isBlank c = false := name.isBlank (by rw [ht]; simp)
        have hblanks : blanks1.Rejects (s.before ++ ("type".toList ++ [' ']) ++ t₁)
            (c :: t₂ ++ ([' '] ++ ("struct".toList ++ ([' ', '\x7b'] ++ s.below)))) := rejects_chars hc
        exact hblanks.seq β _ k
    have hrejects := Only.rejects (fun _ => only_keyword "type" hline (name.startsWord _)) hword
    refine Rejects.matchAt ?_
    have hall : (typePattern "interface").Rejects _ _ := hrejects.seq.seq
    simpa [below, hhead, Head.line, ExportedName.structLine_eq] using hall
  · exact type_none _ fun name hname => h ⟨name, hname⟩

end Spot

/-! ## Files -/

/-- A pattern for the lines of declarations is found at these only. -/
theorem matchesFrom_decls {p : Pattern} {x : Char} (hp : p.Keyed x) (hx : x = 'f' ∨ x = 't')
    (hread : ∀ s : Spot, s.before.getLast?.all (· == '\n') = true →
      p.matchAt s.cursor = none ∨ ∃ m, s.Read p m) (b : List Char) (ds : List Decl) :
    p.matchesFrom b (declsText ds) = (spots b ds).filterMap fun s => p.matchAt s.cursor := by
  induction ds generalizing b with
  | nil =>
    have hnone : p.matchAt ⟨b.getLast?, [], b.length⟩ = none := (hp.rejects (by simp)).matchAt
    simp [matchesFrom, declsText, scan, hnone, spots]
  | cons d ds ih =>
    have hdocs : ∀ l ∈ [] :: d.docLines, '\n' ∉ l ∧ (l ++ ['\n']).head? ≠ some x := by
      intro l hl
      obtain ⟨hline, h | h⟩ := d.head?_docLines l hl <;>
        exact ⟨hline, by rw [h]; rcases hx with rfl | rfl <;> decide⟩
    have hbody : ∀ l ∈ d.bodyLines, '\n' ∉ l ∧ (l ++ ['\n']).head? ≠ some x := by
      intro l hl
      obtain ⟨hline, h | h⟩ := d.head?_bodyLines l hl <;>
        exact ⟨hline, by rw [h]; rcases hx with rfl | rfl <;> decide⟩
    have hend : b ++ unlines ([] :: d.docLines) ++ d.head.line ++ ['\n'] ++ unlines d.bodyLines =
        b ++ unlines ([] :: d.lines) := by
      simp [Decl.lines]
    have hline : '\n' ∉ d.head.line := d.head.not_mem_line rfl
    have hne : d.head.line ≠ [] := by
      intro h
      rcases d.head?_line with h' | h' <;> rw [h] at h' <;> cases h'
    have hstart : (b ++ unlines ([] :: d.docLines)).getLast?.all (· == '\n') = true := by
      rw [getLast?_unlines _ (cons_ne_nil _ _)]
      rfl
    rw [declsText_cons, hp.matchesFrom_lines hdocs, spots, filterMap_cons]
    rcases hread ⟨b ++ unlines ([] :: d.docLines), d, declsText ds⟩ hstart with hm | ⟨m, hm⟩
    · rw [hm, hp.anchored.matchesFrom_none hline hm, hp.matchesFrom_lines hbody, hend, ih]
    · rw [hm.found, hp.anchored.matchesFrom_some hline hne hm.found (Nat.le_of_eq hm.stop),
        hp.matchesFrom_lines hbody, hend, ih]

theorem functions_decls (b : List Char) (ds : List Decl) :
    functionPattern.matchesFrom b (declsText ds) =
      (spots b ds).filterMap fun s => functionPattern.matchAt s.cursor := by
  refine matchesFrom_decls keyed_function (.inl rfl) (fun s hline => ?_) b ds
  cases hhead : s.decl.head with
  | function sig => exact .inr ((s.read_function hline hhead).imp fun _ h => h.1)
  | _ => exact .inl (s.function_none hline (by simp [hhead]))

theorem methods_decls (b : List Char) (ds : List Decl) :
    methodPattern.matchesFrom b (declsText ds) =
      (spots b ds).filterMap fun s => methodPattern.matchAt s.cursor := by
  refine matchesFrom_decls keyed_method (.inl rfl) (fun s hline => ?_) b ds
  cases hhead : s.decl.head with
  | method receiver type sig => exact .inr ((s.read_method hline hhead).imp fun _ h => h.1)
  | _ => exact .inl (s.method_none hline (by simp [hhead]))

theorem structs_decls (b : List Char) (ds : List Decl) :
    (typePattern "struct").matchesFrom b (declsText ds) =
      (spots b ds).filterMap fun s => (typePattern "struct").matchAt s.cursor := by
  refine matchesFrom_decls (keyed_type _) (.inr rfl) (fun s hline => ?_) b ds
  cases hhead : s.decl.head with
  | struct name => exact .inr ((s.read_struct hline hhead).imp fun _ h => h.1)
  | _ => exact .inl (s.type_none _ (by simp [hhead]))

theorem interfaces_decls (b : List Char) (ds : List Decl) :
    (typePattern "interface").matchesFrom b (declsText ds) = [] := by
  rw [matchesFrom_decls (keyed_type _) (.inr rfl) (fun s hline => .inl (s.interface_none hline))]
  exact filterMap_eq_nil_iff.2 fun s hs => s.interface_none (s.before_lineStart hs)

/-! ## Comments -/

theorem DocText.ne_nil (t : DocText) : t.text.toList ≠ [] :=
  fun h => t.nonempty (String.toList_eq_nil_iff.1 h)

theorem DocText.trim_line (t : DocText) :
    trim ("//".toList ++ ' ' :: t.text.toList) = "//".toList ++ ' ' :: t.text.toList := by
  have hlast := (trim_eq_self.1 t.trimmed).2
  rw [getLast?_eq_some_getLast t.ne_nil] at hlast
  rw [trim_eq_self, append_cons, getLast?_append,
    getLast?_eq_some_getLast t.ne_nil]
  exact ⟨rfl, hlast⟩

theorem Decl.cleanComment_docLines (d : Decl) (hne : d.docs ≠ []) :
    cleanComment (unlines d.docLines) = d.doc := by
  have hlines : d.docLines ≠ [] := by simpa [docLines] using hne
  have htrim : trim (joinWith "\n" d.docLines) = joinWith "\n" d.docLines := by
    refine trim_joinWith "\n" fun l hl => ?_
    obtain ⟨t, -, rfl⟩ := mem_map.1 hl
    exact ⟨cons_ne_nil _ _, t.trim_line⟩
  have hcut : cut '\n' (trim (unlines d.docLines)) = d.docLines := by
    rw [unlines_eq hlines, trim_concat rfl, htrim,
      cut_lines hlines fun l hl => (d.not_mem_lines l (mem_append_left _ hl)).1]
  have hdrop (t : DocText) : dropLead ["// ", "//"]
      (trim ("//".toList ++ ' ' :: t.text.toList)) = t.text.toList := by
    rw [t.trim_line]
    rfl
  have hdocs : trim (joinWith "\n" (d.docs.map (·.text.toList))) =
      joinWith "\n" (d.docs.map (·.text.toList)) := by
    refine trim_joinWith "\n" fun l hl => ?_
    obtain ⟨t, -, rfl⟩ := mem_map.1 hl
    exact ⟨t.ne_nil, t.trimmed⟩
  rw [cleanComment, Comment.cleanLines, Comment.cleaned, hcut, docLines, filterMap_map]
  simp only [Function.comp_def, hdrop, filterMap_eq_map', hdocs]
  rw [← String.toList_inj, doc, String.toList_ofList, String.toList_intercalate, map_map]
  rfl

/-! ## The theorem -/

namespace SourceFile

variable (f : SourceFile)

def packageText : List Char := unlines ["package".toList ++ ' ' :: f.package.text.toList]

theorem toList_text : f.text.toList = f.packageText ++ declsText f.decls := by
  simp [text, lines, packageText, declsText]

def spots : List Spot := Go.spots f.packageText f.decls

theorem not_mem_package {l : List Char}
    (hl : l ∈ ["package".toList ++ ' ' :: f.package.text.toList]) : '\n' ∉ l := by
  have hname : '\n' ∉ f.package.text.toList := f.package.not_mem rfl
  rw [mem_singleton.1 hl]
  simpa using hname

theorem findAll_eq {p : Pattern} {x : Char} (hp : p.Keyed x) (hx : x ≠ 'p') :
    p.findAll f.text.toList = p.matchesFrom f.packageText (declsText f.decls) := by
  have hpackage : ∀ l ∈ ["package".toList ++ ' ' :: f.package.text.toList],
      '\n' ∉ l ∧ (l ++ ['\n']).head? ≠ some x := by
    intro l hl
    refine ⟨f.not_mem_package hl, ?_⟩
    rw [mem_singleton.1 hl]
    exact fun h => hx (Option.some.inj h).symm
  rw [toList_text, Pattern.findAll_eq, packageText, hp.matchesFrom_lines hpackage, nil_append]

theorem map_spots : f.spots.map (fun s => (s.before.count '\n' + 1, s.decl)) = f.numbered := by
  have hcount : f.packageText.count '\n' = 1 := count_unlines fun _ => f.not_mem_package
  rw [spots, Go.map_spots, hcount, numbered]

variable {f}

theorem textAt_eq {s : Spot} (h : s ∈ f.spots) :
    (comments f.text.toList).textAt s.before.length = s.decl.doc := by
  obtain ⟨front, hfront, hbefore⟩ := s.before_eq h
  have htext : f.text.toList = s.before ++ s.cursor.rest := by rw [toList_text, s.text_eq h]
  rw [packageText, ← unlines_append] at hbefore
  have hlines : ∀ l ∈ ["package".toList ++ ' ' :: f.package.text.toList] ++
      (front ++ [] :: s.decl.docLines), '\n' ∉ l := by
    intro l hl
    rcases mem_append.1 hl with hl | hl
    · exact f.not_mem_package hl
    · rcases mem_append.1 hl with hl | hl
      · exact hfront l hl
      · exact (s.decl.head?_docLines l hl).1
  have hcode : lineStyle.isRemark s.cursor.rest = false := by
    rw [Spot.cursor, between, LineStyle.isRemark_append]
    cases s.decl.head <;> rfl
  have hdocs : ∀ l ∈ s.decl.docLines, lineStyle.isRemark l = true := by
    intro l hl
    obtain ⟨t, -, rfl⟩ := mem_map.1 hl
    rfl
  have habove := LineStyle.textAt_lines (b := []) rfl hlines hcode
  rw [← append_assoc, LineStyle.rtakeWhile_of_not rfl, rtakeWhile_eq_self_iff.2 hdocs,
    append_assoc, nil_append, ← hbefore, ← htext] at habove
  refine Eq.trans habove ?_
  by_cases hnone : s.decl.docs = []
  · simp [LineStyle.textOf, Decl.docLines, Decl.doc, hnone]
  · rw [LineStyle.textOf, if_neg (by simpa [Decl.docLines] using hnone)]
    exact s.decl.cleanComment_docLines hnone

theorem lineAt_eq (h : s ∈ f.spots) :
    lineAt f.text.toList s.before.length = s.before.count '\n' + 1 := by
  rw [toList_text, lineAt, s.text_eq h, take_left]

/-- What is found at the declarations, read as `read` does, is what `given` says of each. -/
theorem filterMap_spots {α : Type} {p : Pattern} {shown : Match → Bool} {read : Match → α}
    {given : Nat × Decl → Option α}
    (h : ∀ s ∈ f.spots, ((p.matchAt s.cursor).filter shown).map read =
      given (s.before.count '\n' + 1, s.decl)) :
    ((f.spots.filterMap fun s => p.matchAt s.cursor).filter shown).map read =
      f.numbered.filterMap given := by
  rw [filter_filterMap, map_filterMap, ← map_spots, filterMap_map]
  exact filterMap_congr h

theorem functions_eq (ep : Bool) :
    ((functionPattern.findAll f.text.toList).filter fun m =>
        keepsName ep (m.group 1) && isExported (m.group 1)).map (fun m =>
      { name := m.name 1
        params := params (m.group 2)
        result := result m 3
        doc := (comments f.text.toList).textAt m.start.pos
        line := lineAt f.text.toList m.start.pos }) = f.functions := by
  rw [f.findAll_eq keyed_function (by decide), functions_decls, functions]
  refine filterMap_spots fun s hs => ?_
  have hline := s.before_lineStart hs
  cases hhead : s.decl.head with
  | function sig =>
    obtain ⟨m, hread, hname, hparams, hresult⟩ := s.read_function hline hhead
    obtain ⟨hkeeps, hexported⟩ := sig.name.shown ep
    simp only [hread.found, hhead, Option.filter_some, hname, hkeeps, hexported, Bool.and_self,
      if_true, Option.map_some, Match.name, String.ofList_toList, hparams, sig.params_paramsText,
      hresult, hread.start, textAt_eq hs, lineAt_eq hs]
    rfl
  | _ =>
    simp only [s.function_none hline (by simp [hhead]), hhead, Option.filter_none, Option.map_none]

theorem methods_eq (name : ExportedName) :
    methods f.text.toList name.text.toList = f.methodsOf name.text := by
  rw [methods, f.findAll_eq keyed_method (by decide), methods_decls, methodsOf]
  refine filterMap_spots fun s hs => ?_
  have hline := s.before_lineStart hs
  cases hhead : s.decl.head with
  | method receiver type sig =>
    obtain ⟨m, hread, htype, hname, hparams, hresult⟩ := s.read_method hline hhead
    have hexported := (sig.name.shown true).2
    by_cases hsame : type.text = name.text
    · simp only [hread.found, hhead, Option.filter_some, htype, hname, hexported, hsame,
        beq_self_eq_true, Bool.and_self, if_true, Option.map_some, Match.name,
        String.ofList_toList, hparams, sig.params_paramsText, hresult, hread.start, textAt_eq hs,
        lineAt_eq hs]
      rfl
    · have hother : (type.text.toList == name.text.toList) = false :=
        beq_eq_false_iff_ne.2 fun h => hsame (String.toList_inj.1 h)
      simp only [hread.found, hhead, Option.filter_some, htype, hother, Bool.false_and,
        Bool.false_eq_true, if_false, if_neg hsame, Option.map_none]
  | _ =>
    simp only [s.method_none hline (by simp [hhead]), hhead, Option.filter_none, Option.map_none]

theorem structs_eq (ep : Bool) :
    (((typePattern "struct").findAll f.text.toList).filter fun m =>
        keepsName ep (m.group 1) && isExported (m.group 1)).map (fun m =>
      { name := m.name 1
        doc := (comments f.text.toList).textAt m.start.pos
        methods := methods f.text.toList (m.group 1)
        marks := ["struct"]
        line := lineAt f.text.toList m.start.pos }) = f.structs := by
  rw [f.findAll_eq (keyed_type _) (by decide), structs_decls, structs]
  refine filterMap_spots fun s hs => ?_
  have hline := s.before_lineStart hs
  cases hhead : s.decl.head with
  | struct name =>
    obtain ⟨m, hread, hname⟩ := s.read_struct hline hhead
    obtain ⟨hkeeps, hexported⟩ := name.shown ep
    simp only [hread.found, hhead, Option.filter_some, hname, hkeeps, hexported, Bool.and_self,
      if_true, Option.map_some, Match.name, String.ofList_toList, methods_eq, hread.start,
      textAt_eq hs, lineAt_eq hs]
  | _ => simp only [s.type_none _ (by simp [hhead]), hhead, Option.filter_none, Option.map_none]

theorem package_eq : (packagePattern.find? f.text.toList).map (·.name 1) = some f.package.text := by
  have htext : f.text.toList = "package".toList ++ [' '] ++ f.package.text.toList ++
      ('\n' :: declsText f.decls) := by
    rw [toList_text, packageText]
    simp
  have hword : (lineStart ++ lit "package" ++ blanks1).Only [] ("package".toList ++ [' '])
      (f.package.text.toList ++ '\n' :: declsText f.decls) [] [] :=
    only_keyword "package" rfl (f.package.startsWord _)
  have hname := hword.takes.seq ((takes_word f.package.ne_nil f.package.isWord rfl).group 1)
  rw [htext, packagePattern, find?_of_matchAt hname.matchAt]
  simp [Match.name, Match.group, Match.group?]

theorem document_text (ep : Bool) (path : Path) : document ep path f.text.toList =
    if "_test.go".toList.isSuffixOf path.name.toList then none else some (f.module path) := by
  have hinterface : (typePattern "interface").findAll f.text.toList = [] := by
    rw [f.findAll_eq (keyed_type _) (by decide), interfaces_decls]
  rw [document]
  split
  · rfl
  · simp only [package_eq, functions_eq, structs_eq, Option.getD_some, hinterface, filter_nil,
      map_nil, append_nil]
    rfl

theorem not_mem_lines : ∀ l ∈ f.lines, '\n' ∉ l ∧ '\r' ∉ l := by
  intro l hl
  rcases mem_cons.1 hl with rfl | hl
  · have hline : '\n' ∉ f.package.text.toList := f.package.not_mem rfl
    have hreturn : '\r' ∉ f.package.text.toList := f.package.not_mem rfl
    simp [hline, hreturn]
  · obtain ⟨d, -, hl⟩ := mem_flatMap.1 hl
    rcases mem_cons.1 hl with rfl | hl
    · simp
    · exact d.not_mem_lines l hl

theorem readText_text {tree : FileTree} {path : Path}
    (hfile : tree.readBytes path = .ok f.text.toUTF8.toList) :
    tree.readText path = .ok f.text.toList := by
  have hreturn : '\r' ∉ f.text.toList := by
    rw [text, String.toList_ofList]
    intro h
    obtain ⟨l, hl, h⟩ := mem_flatMap.1 h
    rcases mem_append.1 h with h | h
    · exact (f.not_mem_lines l hl).2 h
    · exact absurd h (by decide)
  exact FileTree.readText_eq hfile hreturn

/-- **A formatted file documents what it declares.** The functions and the structures come in their
order, each structure with the methods of its type, all with their parameters, results and comments
and the numbers of their lines. -/
theorem documentFile_text (excludePrivate : Bool) (tree : FileTree) (path : Path)
    (hfile : tree.readBytes path = .ok f.text.toUTF8.toList) :
    Language.go.documentFile excludePrivate tree path =
        .ok (if "_test.go".toList.isSuffixOf path.name.toList then none
          else some (f.module path)) ∧
      f.numbered.map Prod.snd = f.decls ∧
      ∀ e ∈ f.numbered, (Text.cut '\n' f.text.toList)[e.1 - 1]? = some e.2.head.line := by
  refine ⟨?_, map_snd_numberedFrom 2, fun e he => ?_⟩
  · rw [Language.documentFile, if_neg (by simp), readText_text hfile]
    exact congrArg Except.ok (document_text excludePrivate path)
  · have hline := line_of_numberedFrom ["package".toList ++ ' ' :: f.package.text.toList] he
    rw [text, String.toList_ofList, Text.cut_unlines fun l hl => (f.not_mem_lines l hl).1]
    rw [List.getElem?_append_left]
    · exact hline
    · exact (List.getElem?_eq_some_iff.1 hline).1

/-- A structure with a method and a function that makes one. -/
def serverFile : SourceFile where
  package := ⟨"web", rfl, rfl⟩
  decls :=
    [⟨[⟨"Server answers requests.", by decide, by decide, by decide⟩],
        .struct ⟨⟨"Server", rfl, rfl⟩, rfl⟩,
        [⟨"addr string", rfl, by decide⟩]⟩,
      ⟨[⟨"Start serves until it fails,", by decide, by decide, by decide⟩,
          ⟨"on n ports.", by decide, by decide, by decide⟩],
        .method ⟨"s", rfl, rfl⟩ ⟨"Server", rfl, rfl⟩
          ⟨⟨⟨"Start", rfl, rfl⟩, rfl⟩, [(⟨"n", rfl, rfl⟩, ⟨"int", by decide, rfl⟩)],
            some ⟨"error", by decide, rfl⟩⟩,
        [⟨"return nil", rfl, by decide⟩]⟩,
      ⟨[], .function ⟨⟨⟨"New", rfl, rfl⟩, rfl⟩, [], none⟩, []⟩]

def serverTree : FileTree := ⟨⟨"/", []⟩, [(["server.go"], .file serverFile.text.toUTF8.toList)]⟩

theorem documentFile_server :
    serverTree.readBytes (.ofString "/server.go") = .ok serverFile.text.toUTF8.toList ∧
    Language.go.documentFile true serverTree (.ofString "/server.go") =
      .ok (some
        { path := "/server.go"
          name := "web.server"
          functions := [{ name := "New", line := 14 }]
          types := [
            { name := "Server"
              doc := "Server answers requests."
              methods := [
                { name := "Start"
                  params := [⟨"n", "int", ""⟩]
                  result := "error"
                  doc := "Start serves until it fails,\non n ports."
                  isMethod := true
                  line := 10 }]
              marks := ["struct"]
              line := 4 }] }) := by
  have hfile : serverTree.readBytes (.ofString "/server.go") =
      .ok serverFile.text.toUTF8.toList := rfl
  refine ⟨hfile, (documentFile_text true serverTree _ hfile).1.trans (congrArg Except.ok ?_)⟩
  decide +kernel

end SourceFile

end Docsmith.Go
