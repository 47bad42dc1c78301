/-
How comments get into a file of which the assistant is shown the start only.

The answer takes the place of that start, without the blanks and fences around it, and the rest of
the file follows. So an answer that is the start with lines put in is kept as it is only if nothing
is cut off at either end of it: where the start ends in a line end, the line behind it is joined to
the one before.
-/
import Docsmith.Proofs.Insertion

namespace Docsmith

open Text List
open String (ofList toList_ofList)

theorem Text.return_notMem_unifyLineEnds (cs : List Char) : '\r' ∉ unifyLineEnds cs := by
  fun_induction unifyLineEnds cs with
  | case1 => exact not_mem_nil
  | case2 cs ih => simpa using ih
  | case3 c cs _ ih =>
    rw [mem_cons, not_or]
    refine ⟨?_, ih⟩
    split
    · decide
    · rename_i h
      exact fun hc => h hc.symm

theorem FileTree.return_notMem {t : FileTree} {p : Path} {cs : List Char}
    (h : t.readText p = .ok cs) : '\r' ∉ cs := by
  obtain ⟨_, cs, -, -, rfl⟩ := FileTree.readText_ok.1 h
  exact return_notMem_unifyLineEnds cs

theorem FileTree.exists_writeText {t : FileTree} {p : Path} {cs : List Char}
    (hread : t.readText p = .ok cs) (s : String) :
    ∃ t', t.writeText p s = .ok t' ∧ t'.find? p = some (.file s.toUTF8.toList) := by
  obtain ⟨bytes, _, hfind, -⟩ := FileTree.readText_ok.1 hread
  have hwrite : t.writeText p s = .ok (t.put (t.place p) (.file s.toUTF8.toList)) := by
    rw [FileTree.writeText, FileTree.writeBytes, hfind]
  exact ⟨_, hwrite, FileTree.find?_of_writeBytes hwrite⟩

namespace Assistant

def fence : List Char := ['`', '`', '`']

variable {text result : List Char}

/-! ## Answers that are kept -/

theorem length_trimEnd_le (cs : List Char) : (trimEnd cs).length ≤ cs.length := by
  rw [trimEnd, dropEndWhile, length_reverse]
  exact (dropWhile_sublist _).length_le.trans_eq length_reverse

theorem length_trim_le (cs : List Char) : (trim cs).length ≤ cs.length :=
  (length_trimEnd_le _).trans (dropWhile_sublist _).length_le

def unclosed (cs : List Char) : List Char :=
  if fence.isSuffixOf cs then trimEnd (cs.take (cs.length - 3)) else cs

theorem unclosed_eq_or_lt (cs : List Char) :
    unclosed cs = cs ∧ ¬ fence <:+ cs ∨ (unclosed cs).length < cs.length := by
  rw [unclosed]
  split
  next h =>
    have hlong := (isSuffixOf_iff_suffix.1 h).length_le
    have hshort := length_trimEnd_le (cs.take (cs.length - 3))
    simp only [fence, length_cons, length_nil, length_take] at hlong hshort
    exact .inr (by omega)
  next h => exact .inl ⟨rfl, fun hend => h (isSuffixOf_iff_suffix.2 hend)⟩

theorem unfenced_of_not (h : ¬ fence <+: text) : unfenced text = .ok (unclosed text) := by
  have hfence : ['`', '`', '`'].isPrefixOf text = false :=
    Bool.eq_false_iff.2 fun hpre => h <| isPrefixOf_iff_prefix.1 hpre
  rw [unfenced, hfence]
  rfl

/-- What is taken from an answer that starts with a fence is shorter. -/
theorem length_unfenced (h : fence <+: text) (hresult : unfenced text = .ok result) :
    result.length < text.length := by
  have hfence : ['`', '`', '`'].isPrefixOf text = true := isPrefixOf_iff_prefix.2 h
  rw [unfenced, hfence] at hresult
  cases hcut : cutFirst? '\n' text with
  | none => rw [hcut] at hresult; cases hresult
  | some cut =>
    rw [hcut] at hresult
    obtain rfl := Except.ok.inj hresult
    have hrest : cut.2.length < text.length := by
      rw [cutFirst?] at hcut
      have hsub := (dropWhile_sublist (· != '\n') (l := text)).length_le
      split at hcut
      · cases hcut
      next hdrop =>
        obtain rfl := Option.some.inj hcut
        rw [hdrop, length_cons] at hsub
        exact hsub
    rcases unclosed_eq_or_lt cut.2 with ⟨heq, -⟩ | hlt
    · exact (congrArg length heq).trans_lt hrest
    · exact hlt.trans hrest

theorem unfenced_trim_eq_iff : unfenced (trim text) = .ok text ↔
    trim text = text ∧ ¬ fence <+: text ∧ ¬ fence <:+ text := by
  have hle := length_trim_le text
  constructor
  · intro h
    have hopen : ¬ fence <+: trim text := fun hopen =>
      absurd (length_unfenced hopen h) (Nat.not_lt.2 hle)
    rw [unfenced_of_not hopen] at h
    have htext := Except.ok.inj h
    rcases unclosed_eq_or_lt (trim text) with ⟨htrim, hclose⟩ | hlt
    · rw [htext] at htrim
      rw [← htrim] at hopen hclose
      exact ⟨htrim.symm, hopen, hclose⟩
    · rw [htext] at hlt
      omega
  · rintro ⟨htrim, hopen, hclose⟩
    rw [htrim, unfenced_of_not hopen, unclosed,
      if_neg fun h => hclose (isSuffixOf_iff_suffix.1 h)]

theorem blocks_eq_nil {ls : List (Nat × List Char)} : blocks ls = [] ↔ ls = [] := by
  cases ls with
  | nil => simp [blocks]
  | cons l ls =>
    simp only [reduceCtorEq, iff_false]
    unfold blocks
    split
    · split <;> simp
    · simp

/-! ## What is written -/

variable {a : Assistant} {p : Path} {w : World} {source : List Char} {reply : String}
  {more : List Reply}

theorem exec_ask {system user : String} {limit : Value} {temperature : Double}
    (hclient : w.missing.contains .chatClient = false) (hreply : w.replies = .text reply :: more) :
    ∃ w₁, (a.ask system user limit temperature).exec w = (.ok (some reply.toList), w₁) ∧
      w₁.files = w.files := by
  simp only [ask, Action.exec_bind, Action.exec_get, hclient, nextReply, hreply]
  exact ⟨_, rfl, rfl⟩

/-- An answer gives `result` for the start of a file, with comments that the file lacks. -/
structure Gives (source reply result : List Char) : Prop where
  taken : unfenced (trim reply) = .ok result
  other : trim result ≠ trim source
  fresh : newComments source result ≠ []

/-- A file can be filled if its language is known and it is not blank. -/
def Fillable (p : Path) (source : List Char) : Prop :=
  (docStyles.lookup (ofList (foldCase p.suffix.toList))).isSome = true ∧
    trim source ≠ []

/-- What becomes of a file that is answered: the answer and the rest of the file, or nothing. -/
theorem fillComments_cases (hread : w.files.readText p = .ok source)
    (hclient : w.missing.contains .chatClient = false) (hreply : w.replies = .text reply :: more) :
    (∃ result, Fillable p source ∧ Gives source reply.toList result ∧
      ((a.fillComments p false).exec w).2.files.find? p =
        some (.file (ofList (result ++ source.drop fileLimit)).toUTF8.toList)) ∨
    ((a.fillComments p false).exec w).2.files = w.files ∧
      ∀ result, Fillable p source → ¬ Gives source reply.toList result := by
  delta fillComments
  cases hstyle : docStyles.lookup (ofList (foldCase p.suffix.toList)) with
  | none => exact .inr ⟨rfl, fun _ h => by simp [Fillable, hstyle] at h⟩
  | some style =>
    dsimp only
    rw [Action.exec_bind, Action.readText, Action.exec_ofFiles, hread]
    dsimp only
    by_cases hblank : (trim source).isEmpty = true
    · rw [if_pos hblank]
      exact .inr ⟨rfl, fun _ h => absurd (isEmpty_iff.1 hblank) h.2⟩
    · obtain ⟨w₁, hask, hfiles⟩ := exec_ask hclient hreply
      rw [if_neg hblank, Action.exec_bind, hask]
      dsimp only
      rw [Action.exec_bind, Action.exec_ofExcept]
      cases htaken : unfenced (trim reply.toList) with
      | error e =>
        exact .inr ⟨hfiles, fun _ _ h => by simpa [htaken] using h.taken⟩
      | ok result =>
        have hsame {result' : List Char} (h : Gives source reply.toList result') :
            result' = result := (Except.ok.inj (htaken.symm.trans h.taken)).symm
        dsimp only
        by_cases htrim : trim result = trim source
        · rw [if_pos htrim]
          exact .inr ⟨hfiles, fun _ _ h => h.other (hsame h ▸ htrim)⟩
        · rw [if_neg htrim]
          by_cases hfresh : newComments source result = []
          · have hnone : newBlocks source result style.language = [] := by
              rw [newBlocks, hfresh]
              rfl
            rw [hnone]
            exact .inr ⟨hfiles, fun _ _ h => h.fresh (hsame h ▸ hfresh)⟩
          · have hsome : (!false && !(newBlocks source result style.language).isEmpty) = true := by
              simpa [newBlocks, blocks_eq_nil] using hfresh
            rw [← hfiles] at hread
            obtain ⟨t, hwrite, hfind⟩ := FileTree.exists_writeText hread
              (ofList (result ++ source.drop fileLimit))
            rw [if_pos hsome, Action.exec_bind, Action.writeText, Action.exec_changeFiles, hwrite]
            exact .inl ⟨result, ⟨by rw [hstyle]; rfl, fun h => hblank (isEmpty_iff.2 h)⟩,
              ⟨htaken, htrim, hfresh⟩, hfind⟩

/-- An answer other than the start of the file is kept only if the file is filled with it. -/
theorem find?_fillComments_iff (hread : w.files.readText p = .ok source)
    (hclient : w.missing.contains .chatClient = false)
    (hreply : w.replies = .text (ofList text) :: more)
    (hplain : '\r' ∉ text ++ source.drop fileLimit) (hne : text ≠ source.take fileLimit) :
    ((a.fillComments p false).exec w).2.files.find? p =
        some (.file (ofList (text ++ source.drop fileLimit)).toUTF8.toList) ↔
      Fillable p source ∧ Gives source text text := by
  rcases fillComments_cases (a := a) hread hclient hreply with
    ⟨result, hfill, hgives, hfind⟩ | ⟨hfiles, hnone⟩
  · rw [toList_ofList] at hgives
    rw [hfind]
    constructor
    · intro h
      have hbytes := Text.Utf8.toUTF8_toList_inj (Entry.file.inj (Option.some.inj h))
      obtain rfl := append_cancel_right (String.ofList_injective hbytes)
      exact ⟨hfill, hgives⟩
    · rintro ⟨-, hself⟩
      rw [Except.ok.inj (hgives.taken.symm.trans hself.taken)]
  · rw [toList_ofList] at hnone
    rw [hfiles]
    refine ⟨fun h => ?_, fun h => absurd h.2 (hnone text h.1)⟩
    have hbytes : w.files.readBytes p =
        .ok (ofList (text ++ source.drop fileLimit)).toUTF8.toList := by
      rw [FileTree.readBytes, h]
    have hsame := FileTree.readText_eq hbytes (by rwa [toList_ofList])
    rw [toList_ofList, hread] at hsame
    have hcut := (take_append_drop fileLimit source).trans (Except.ok.inj hsame)
    exact absurd (append_cancel_right hcut).symm hne

theorem gives_self_iff : Gives source text text ↔
    (text.head?.any isBlank = false ∧ text.getLast?.any isBlank = false) ∧
      ¬ fence <+: text ∧ ¬ fence <:+ text ∧ text ≠ trim source ∧
        newComments source text ≠ [] := by
  rw [← trim_eq_self]
  constructor
  · rintro ⟨htaken, hother, hfresh⟩
    obtain ⟨htrim, hopen, hclose⟩ := unfenced_trim_eq_iff.1 htaken
    exact ⟨htrim, hopen, hclose, fun h => hother (htrim.trans h), hfresh⟩
  · rintro ⟨htrim, hopen, hclose, hother, hfresh⟩
    exact ⟨unfenced_trim_eq_iff.2 ⟨htrim, hopen, hclose⟩, fun h => hother (htrim.symm.trans h),
      hfresh⟩

/-! ## The start of a file with lines put in -/

/-- The start that the assistant is shown of a file, with blocks put in before its lines. -/
def commented (blocks : Nat → List (List Char)) (source : List Char) : List Char :=
  ((woven blocks 1 (linesWithEnds (source.take fileLimit))).map Part.text).flatten

variable {blocks : Nat → List (List Char)} {lines : List (List Char)} {n : Nat}

theorem mem_woven {c : Char} (h : c ∈ ((woven blocks n lines).map Part.text).flatten) :
    c ∈ lines.flatten ∨ ∃ m, ∃ l ∈ blocks m, c ∈ l := by
  induction lines generalizing n with
  | nil => cases h
  | cons l ls ih =>
    simp only [woven, map_append, map_cons, flatten_append, flatten_cons,
      mem_append, mem_flatten, mem_map] at h
    rcases h with ⟨_, ⟨_, ⟨l', hl', rfl⟩, rfl⟩, hc⟩ | h | h
    · exact .inr ⟨n, l', hl', hc⟩
    · exact .inl (mem_append_left _ h)
    · exact (ih (by simpa using h)).imp_left fun h => mem_append_right _ h

theorem getLast?_woven (hlines : [] ∉ lines) :
    ((woven blocks n lines).map Part.text).flatten.getLast? = lines.flatten.getLast? := by
  induction lines generalizing n with
  | nil => rfl
  | cons l ls ih =>
    rw [mem_cons, not_or] at hlines
    have hl : l ≠ [] := fun h => hlines.1 h.symm
    rw [woven, map_append, map_cons, flatten_append, flatten_cons,
      getLast?_append, getLast?_append, ih hlines.2, flatten_cons,
      getLast?_append, Part.text, getLast?_eq_some_getLast hl]
    cases ls.flatten.getLast? <;> rfl

theorem nil_notMem_linesWithEndsFrom (line cs : List Char) :
    [] ∉ linesWithEndsFrom line cs := by
  fun_induction linesWithEndsFrom line cs with
  | case1 line h => exact not_mem_nil
  | case2 line h => simpa using h
  | case3 line cs ih => simpa using ih
  | case4 line c cs _ h ih => simpa using ih
  | case5 line c cs _ h ih => exact ih

theorem getLast?_commented (blocks : Nat → List (List Char)) (source : List Char) :
    (commented blocks source).getLast? = (source.take fileLimit).getLast? := by
  have hlines : [] ∉ linesWithEnds (source.take fileLimit) :=
    nil_notMem_linesWithEndsFrom [] _
  rw [commented, getLast?_woven hlines, flatten_linesWithEnds]

/-- Where the assistant is answered with the start of a file and lines put in before its lines, the
file then holds the whole text with these lines put in exactly if the language is known, the answer
starts with no blank and no fence and ends with no fence, the start that was shown ends with no
blank, and the answer is not the file itself and has comments that the file lacks. -/
theorem fillComments_keeps_iff (hread : w.files.readText p = .ok source)
    (hclient : w.missing.contains .chatClient = false)
    (hblocks : ∀ m, ∀ l ∈ blocks m, '\r' ∉ l)
    (hreply : w.replies = .text (ofList (commented blocks source)) :: more)
    (hne : commented blocks source ≠ source.take fileLimit) :
    ((woven blocks 1 (linesWithEnds (source.take fileLimit))).filterMap
      Part.line?).flatten ++ source.drop fileLimit = source ∧
    (((a.fillComments p false).exec w).2.files.find? p =
        some (.file (ofList (commented blocks source ++
          source.drop fileLimit)).toUTF8.toList) ↔
      (docStyles.lookup (ofList (foldCase p.suffix.toList))).isSome = true ∧
        (commented blocks source).head?.any isBlank = false ∧
        (source.take fileLimit).getLast?.any isBlank = false ∧
        ¬ fence <+: commented blocks source ∧ ¬ fence <:+ commented blocks source ∧
        commented blocks source ≠ trim source ∧
        newComments source (commented blocks source) ≠ []) := by
  refine ⟨by rw [filterMap_woven, flatten_linesWithEnds, take_append_drop], ?_⟩
  have hplain : '\r' ∉ commented blocks source ++ source.drop fileLimit := by
    have hsource := FileTree.return_notMem hread
    intro hmem
    rcases mem_append.1 hmem with hmem | hmem
    · rcases mem_woven hmem with h | ⟨m, l, hl, h⟩
      · rw [flatten_linesWithEnds] at h
        exact hsource (mem_of_mem_take h)
      · exact hblocks m l hl h
    · exact hsource (mem_of_mem_drop hmem)
  have hlast := getLast?_commented blocks source
  -- A file that is all blank has a start that ends in a blank, or none.
  have hblank (h : (source.take fileLimit).getLast?.any isBlank = false) :
      trim source ≠ [] := by
    intro htrim
    cases hhead : (source.take fileLimit).getLast? with
    | none =>
      rw [hhead] at hlast
      rw [getLast?_eq_none_iff] at hhead hlast
      exact hne (hlast.trans hhead.symm)
    | some c =>
      have hall : source.all isBlank = true := by rw [← all_isBlank_trim, htrim]; rfl
      have hc := mem_of_mem_take (mem_of_getLast? hhead)
      rw [hhead, Option.any_some, all_eq_true.1 hall c hc] at h
      cases h
  rw [find?_fillComments_iff hread hclient hreply hplain hne, gives_self_iff, Fillable, hlast]
  exact ⟨fun h => ⟨h.1.1, h.2.1.1, h.2.1.2, h.2.2⟩,
    fun h => ⟨⟨h.1, hblank h.2.2.1⟩, ⟨h.2.1, h.2.2.1⟩, h.2.2.2⟩⟩

/-- The same line over and over. -/
def copies (n : Nat) (line : List Char) : List Char := (replicate n line).flatten

theorem length_copies (n : Nat) (line : List Char) :
    (copies n line).length = n * line.length := by
  simp [copies]

theorem getLast?_copies {line : List Char} {c : Char} (n : Nat) (h : line.getLast? = some c) :
    (copies (n + 1) line).getLast? = some c := by
  simp [copies, replicate_succ', h]

def longFile : List Char := copies 600 "var a int\n".toList ++ "var b int\n".toList

def firstLine (n : Nat) : List (List Char) := if n = 1 then ["// All.\n".toList] else []

def longWorld : World where
  files := ⟨.ofString "/w", [(["w"], .folder),
    (["w", "a.go"], .file (ofList longFile).toUTF8.toList)]⟩
  replies := [.text (ofList (commented firstLine longFile))]

theorem fillComments_keeps_iff_longFile :
    ((({ key := .str "k" } : Assistant).fillComments (.ofString "/w/a.go") false).exec
      longWorld).2.files.find? (.ofString "/w/a.go") ≠
        some (.file (ofList (commented firstLine longFile ++
          longFile.drop fileLimit)).toUTF8.toList) ∧
    (longFile.take fileLimit).getLast? = some '\n' ∧
    longFile.drop fileLimit = "var b int\n".toList := by
  have hplain : '\r' ∉ longFile := by
    intro hmem
    rcases mem_append.1 hmem with hmem | hmem
    · obtain ⟨l, hl, hmem⟩ := mem_flatten.1 hmem
      obtain rfl := eq_of_mem_replicate hl
      simp at hmem
    · simp at hmem
  have hread : longWorld.files.readText (.ofString "/w/a.go") = .ok longFile := by
    have hbytes : longWorld.files.readBytes (.ofString "/w/a.go") =
      .ok (ofList longFile).toUTF8.toList := rfl
    rw [FileTree.readText_eq hbytes (by rwa [toList_ofList]), toList_ofList]
  have hlength : (copies 600 "var a int\n".toList).length = fileLimit := length_copies _ _
  have hlast : (longFile.take fileLimit).getLast? = some '\n' := by
    rw [longFile, take_left' hlength]
    exact getLast?_copies 599 rfl
  have hne : commented firstLine longFile ≠ longFile.take fileLimit := by
    intro h
    have hhead : some '/' = some 'v' := congrArg head? h
    cases hhead
  have hblocks : ∀ m, ∀ l ∈ firstLine m, '\r' ∉ l := by
    intro m l hl
    rw [firstLine] at hl
    split at hl
    · simp [mem_singleton.1 hl]
    · cases hl
  refine ⟨fun h => ?_, hlast, drop_left' hlength⟩
  have hkeeps := ((fillComments_keeps_iff hread rfl hblocks rfl hne).2.1 h).2.2.1
  rw [hlast] at hkeeps
  cases hkeeps

end Assistant

end Docsmith
