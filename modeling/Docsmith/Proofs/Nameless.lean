/-
Files that cannot be documented: Python that nests too deep for the machine, and files with a
parameter from which no name can be read. In Java these are parameters of nothing but annotations,
in C# those with a default value and nothing before it that names them. A file that is not documented
keeps its whole project from being documented.
-/
import Docsmith.Project
import Docsmith.Proofs.Pattern
import Docsmith.Proofs.Unnamed

namespace Docsmith

open Text Pattern List

/-! ## A keyword and blanks -/

namespace Pattern

variable {b s bl : List Char} {gs : List Capture} {d : Char} {w v : String} {ws : List String}

theorem not_isWord_of_isBlank (hd : isBlank d = true) : isWord d = false := by
  rw [Bool.eq_false_iff]
  intro hword
  rw [isBlank_of_isWord hword] at hd
  cases hd

theorem not_isBlank_of_all_isWord {cs : List Char} (h : cs.all isWord = true) (hd : d ∈ cs) :
    isBlank d = false :=
  isBlank_of_isWord (all_eq_true.1 h d hd)

theorem rejects_other_word (hv : v.toList.all isWord = true)
    (hw : w.toList.all isWord = true) (hne : v ≠ w) (hd : isBlank d = true) :
    (lit v ++ blanks1).Rejects b (w.toList ++ d :: s) := by
  by_cases hprefix : v.toList <+: w.toList ++ d :: s
  · obtain ⟨u, hu⟩ := hprefix
    rw [← hu]
    refine Only.rejects (fun gs => only_lit v) (rejects_chars ?_)
    rcases append_eq_append_iff.1 hu with ⟨rest, hrest, rfl⟩ | ⟨rest, hrest, hds⟩
    · cases rest with
      | nil => exact absurd (String.toList_inj.1 (by simpa using hrest.symm)) hne
      | cons x rest => exact not_isBlank_of_all_isWord (hrest ▸ hw) (by simp)
    · cases rest with
      | nil => exact absurd (String.toList_inj.1 (by simpa using hrest)) hne
      | cons x rest =>
        obtain rfl : d = x := (cons.inj hds).1
        rw [not_isBlank_of_all_isWord (hrest ▸ hv) (by simp)] at hd
        cases hd
  · exact (rejects_lit hprefix).seq

theorem takes_keyword (hws : ∀ v ∈ ws, v.toList.all isWord = true) (hw : w ∈ ws)
    (hbl : bl.all isBlank = true) (hne : bl ≠ []) (hs : s.head?.any isBlank = false) :
    (keyword ws).Takes b (w.toList ++ bl) s gs gs := by
  have hblanks : blanks1.Takes (b ++ w.toList) bl s gs gs :=
    takes_chars hbl hs (length_pos_iff.2 hne)
  have hlit : (lit w ++ blanks1).Takes b (w.toList ++ bl) s gs gs := (only_lit w).takes.seq hblanks
  rw [keyword]
  fun_induction oneOf ws with
  | case1 => cases hw
  | case2 v =>
    obtain rfl : w = v := mem_singleton.1 hw
    exact hlit
  | case3 v ws _ ih =>
    by_cases hvw : v = w
    · subst hvw
      exact hlit.alt_seq
    · obtain ⟨d, bl, rfl⟩ := exists_cons_of_ne_nil hne
      have hd : isBlank d = true := all_eq_true.1 hbl d mem_cons_self
      refine .alt_seq_right ?_ (ih (fun u hu => hws u (mem_cons_of_mem _ hu))
        ((mem_cons.1 hw).resolve_left fun h => hvw h.symm))
      rw [append_assoc]
      exact rejects_other_word (hws v mem_cons_self) (hws w hw) hvw hd

theorem rejects_keyword {r : List Char}
    (h : ∀ w ∈ ws, ∀ u, r = w.toList ++ u → u.head?.any isBlank = false) :
    (keyword ws).Rejects b r := by
  have hlit (w : String) (hw : w ∈ ws) : (lit w ++ blanks1).Rejects b r := by
    by_cases hprefix : w.toList <+: r
    · obtain ⟨u, rfl⟩ := hprefix
      exact Only.rejects (fun gs => only_lit w) (rejects_chars (h w hw u rfl))
    · exact (rejects_lit hprefix).seq
  clear h
  rw [keyword]
  fun_induction oneOf ws with
  | case1 => exact (rejects_one (by cases r <;> rfl)).seq
  | case2 w => exact hlit w mem_cons_self
  | case3 w ws _ ih =>
    exact (hlit w mem_cons_self).alt_seq (ih fun v hv => hlit v (mem_cons_of_mem _ hv))

end Pattern

/-! ## Annotations alone -/

namespace Java

/-- A text of nothing but annotations and blanks. -/
inductive OnlyMarks : List Char → Prop where
  | nil : OnlyMarks []
  | blank {c : Char} {cs : List Char} : isBlank c = true → OnlyMarks cs → OnlyMarks (c :: cs)
  | mark {w cs : List Char} : w ≠ [] → w.all isWord = true → OnlyMarks cs →
    OnlyMarks ('@' :: (w ++ cs))

variable {b r s bl w : List Char} {c : Char}

theorem OnlyMarks.head (h : OnlyMarks (c :: r)) :
    isBlank c = true ∧ OnlyMarks r ∨ c = '@' ∧ ∃ w s, w ≠ [] ∧ w.all isWord = true ∧
      r = w ++ s ∧ OnlyMarks s := by
  generalize hcs : c :: r = cs at h
  cases h with
  | nil => cases hcs
  | blank hc h =>
    obtain ⟨rfl, rfl⟩ := cons.inj hcs
    exact .inl ⟨hc, h⟩
  | mark hne hw h =>
    obtain ⟨rfl, rfl⟩ := cons.inj hcs
    exact .inr ⟨rfl, _, _, hne, hw, rfl, h⟩

theorem onlyMarks_blank (hc : isBlank c = true) : OnlyMarks (c :: r) ↔ OnlyMarks r := by
  refine ⟨fun h => ?_, .blank hc⟩
  rcases h.head with ⟨-, h⟩ | ⟨rfl, -⟩
  · exact h
  · cases hc

theorem onlyMarks_blanks (hbl : bl.all isBlank = true) :
    OnlyMarks (bl ++ s) ↔ OnlyMarks s := by
  induction bl with
  | nil => rfl
  | cons c bl ih =>
    rw [all_cons, Bool.and_eq_true] at hbl
    rw [cons_append, onlyMarks_blank hbl.1, ih hbl.2]

theorem not_onlyMarks (hc : isBlank c = false) (h : c = '@' → r.head?.any isWord = false) :
    ¬ OnlyMarks (c :: r) := by
  intro hmarks
  rcases hmarks.head with ⟨hblank, -⟩ | ⟨hat, w, s, hne, hw, rfl, -⟩
  · rw [hc] at hblank
    cases hblank
  · obtain ⟨x, w, rfl⟩ := exists_cons_of_ne_nil hne
    rw [all_cons, Bool.and_eq_true] at hw
    have hx := h hat
    rw [cons_append, head?_cons, Option.any_some, hw.1] at hx
    cases hx

theorem OnlyMarks.head_not_word (h : OnlyMarks r) : r.head?.any isWord = false := by
  cases h with
  | nil => rfl
  | blank hc _ => exact not_isWord_of_isBlank hc
  | mark _ _ _ => exact (by decide : isWord '@' = false)

theorem onlyMarks_mark (hne : w ≠ []) (hw : w.all isWord = true)
    (hs : s.head?.any isWord = false) : OnlyMarks ('@' :: (w ++ s)) ↔ OnlyMarks s := by
  refine ⟨fun h => ?_, .mark hne hw⟩
  rcases h.head with ⟨hblank, -⟩ | ⟨-, w', s', -, hw', heq, h⟩
  · cases hblank
  · obtain ⟨-, rfl⟩ := run_unique hw hs hw' h.head_not_word heq
    exact h

theorem rejects_mark (h : c = '@' → r.head?.any isWord = false) :
    markPattern.Rejects b (c :: r) := by
  refine .seq ?_
  by_cases hc : c = '@'
  · subst hc
    exact Only.rejects (t := ['@']) (fun gs => only_lit "@")
      (rejects_chars (h rfl))
  · refine (rejects_lit ?_).seq
    rintro ⟨u, hu⟩
    exact hc (cons.inj hu).1.symm

theorem takes_mark (hne : w ≠ []) (hw : w.all isWord = true) (hbl : bl.all isBlank = true)
    (hword : (bl ++ s).head?.any isWord = false) (hs : s.head?.any isBlank = false) :
    markPattern.Takes b ('@' :: w ++ bl) s [] [] := by
  have hmark : (lit "@" ++ word).Takes b ('@' :: w) (bl ++ s) [] [] :=
    (only_lit "@").takes.seq
      (takes_chars hw hword (length_pos_iff.2 hne))
  exact hmark.seq (takes_chars hbl hs (Nat.zero_le _))

/-- Without its annotations a text is blank exactly if it has nothing else. -/
theorem all_isBlank_remains (b r : List Char) :
    (markPattern.remains b r).all isBlank = true ↔ OnlyMarks r := by
  induction hn : r.length using Nat.strongRecOn generalizing b r with | _ n ih
  subst hn
  cases r with
  | nil => exact ⟨fun _ => .nil, fun _ => rfl⟩
  | cons c r =>
    by_cases h : c = '@' → r.head?.any isWord = false
    · rw [(rejects_mark h).remains, all_cons, Bool.and_eq_true, ih r.length (by simp) _ r rfl]
      cases hc : isBlank c with
      | true => simp [onlyMarks_blank hc]
      | false => simp [not_onlyMarks hc h]
    · -- The longest word behind the sign, and the blanks behind that, go with it.
      obtain ⟨rfl, hr⟩ := Classical.not_imp.1 h
      obtain ⟨w, u, rfl, hw, hu⟩ := exists_run isWord r
      obtain ⟨bl, s, rfl, hbl, hs⟩ := exists_run isBlank u
      have hne : w ≠ [] := by
        rintro rfl
        exact hr hu
      have htakes := (takes_mark (b := b) hne hw hbl hu hs).remains (by simp)
      have hshorter : s.length < ('@' :: (w ++ (bl ++ s))).length := by
        simp only [length_cons, length_append]
        omega
      rw [onlyMarks_mark hne hw hu, onlyMarks_blanks hbl, ← ih s.length hshorter _ s rfl, ← htakes,
        cons_append, cons_append, append_assoc]

/-- The parameters of a list, as they stand between the commas. -/
def parts (raw : List Char) : List (List Char) :=
  ((cut ',' raw).map trim).filter (!·.isEmpty)

theorem isOk_param {part : List Char} : (param part).isOk = true ↔ ¬ OnlyMarks part := by
  have hwords : words (subst "...".toList "[]".toList
      (trim (markPattern.erase part))) = [] ↔ OnlyMarks part := by
    rw [words_eq_nil, all_isBlank_subst (by decide) (by decide), all_isBlank_trim,
      erase_eq, all_isBlank_remains]
  rw [← hwords, param]
  generalize words _ = ws
  cases hrev : ws.reverse with
  | nil => simp [reverse_eq_nil_iff.1 hrev, Except.isOk, Except.toBool]
  | cons name type =>
    have hne : ws ≠ [] := fun h => by simp [h] at hrev
    simp [hne, Except.isOk, Except.toBool]

theorem isOk_params {raw : List Char} :
    (params raw).isOk = true ↔ ∀ part ∈ parts raw, ¬ OnlyMarks part := by
  simp only [params, isOk_mapM_iff, isOk_param, parts]

end Java

/-! ## A default value alone -/

namespace CSharp

def passingWords : List String := ["ref", "out", "in", "params", "this"]

/-- A parameter with a default value and nothing before it but a word for how it is passed. -/
inductive OnlyDefault : List Char → Prop where
  | bare {v : List Char} : '=' ∉ v → OnlyDefault ('=' :: v)
  | passed {w : String} {bl v : List Char} : w ∈ passingWords → bl ≠ [] →
    bl.all isBlank = true → '=' ∉ v → OnlyDefault (w.toList ++ bl ++ '=' :: v)

variable {b r s bl raw : List Char} {w : String}

theorem isWord_passing : ∀ w ∈ passingWords, w.toList.all isWord = true := by decide

theorem ne_nil_passing : ∀ w ∈ passingWords, w.toList ≠ [] := by decide

theorem rejects_passing (hb : b ≠ []) : passingPattern.Rejects b r := by
  intro β gs k
  have hbefore : (Cursor.between b r).before.isNone = false := by
    simp [Cursor.between, hb]
  exact if_neg (by simp [hbefore])

theorem remains_passing (hb : b ≠ []) : passingPattern.remains b r = r := by
  induction r generalizing b with
  | nil => rfl
  | cons c r ih => rw [(rejects_passing hb).remains, ih (by simp)]

theorem erase_passing (hw : w ∈ passingWords) (hne : bl ≠ []) (hbl : bl.all isBlank = true)
    (hs : s.head?.any isBlank = false) :
    passingPattern.erase (w.toList ++ bl ++ s) = s := by
  have hstart : textStart.Only [] [] (w.toList ++ bl ++ s) [] [] := fun β k => rfl
  have htakes : passingPattern.Takes [] (w.toList ++ bl) s [] [] :=
    hstart.takes_seq (takes_keyword isWord_passing hw hbl hne hs)
  rw [erase_eq, htakes.remains (by simp [hne]), remains_passing (by simp [hne])]

theorem erase_not_passing
    (h : ∀ w ∈ passingWords, ∀ u, raw = w.toList ++ u → u.head?.any isBlank = false) :
    passingPattern.erase raw = raw := by
  have hstart (gs : List Capture) : textStart.Only [] [] raw gs gs := fun β k => rfl
  have hrejects : passingPattern.Rejects [] raw :=
    Only.rejects hstart (rejects_keyword h)
  rw [erase_eq]
  cases raw with
  | nil => rfl
  | cons c raw => rw [hrejects.remains, remains_passing (by simp)]

/-- No name is left before the last sign of a default value exactly if the text starts with it. -/
theorem lastWord?_typed (htrim : trim s = s) (hne : s ≠ []) :
    lastWord? (trim ((cutLast? '=' s).getD (s, [])).1) = none ↔
      ∃ v, '=' ∉ v ∧ s = '=' :: v := by
  obtain ⟨x, s, rfl⟩ := exists_cons_of_ne_nil hne
  have hx : isBlank x = false := (trim_eq_self.1 htrim).1
  have hsolid (l : List Char) : (x :: l).all isBlank ≠ true := by simp [hx]
  rw [lastWord?_eq_none, all_isBlank_trim]
  by_cases hmem : '=' ∈ x :: s
  · obtain ⟨t, v, hs, hv⟩ := exists_last hmem
    rw [hs, cutLast?_append hv, Option.getD_some]
    cases t with
    | nil => exact ⟨fun _ => ⟨v, hv, rfl⟩, fun _ => rfl⟩
    | cons y t =>
      obtain ⟨rfl, -⟩ := cons.inj hs
      refine ⟨fun h => absurd h (hsolid _), ?_⟩
      rintro ⟨u, hu, h⟩
      exact absurd (by simp [← (cons.inj h).2]) hu
  · rw [cutLast?_of_not_mem hmem, Option.getD_none]
    refine ⟨fun h => absurd h (hsolid _), ?_⟩
    rintro ⟨v, -, h⟩
    exact absurd (h ▸ mem_cons_self) hmem

theorem head_blanks (hne : bl ≠ []) (hbl : bl.all isBlank = true) :
    (bl ++ s).head?.any isWord = false := by
  obtain ⟨d, bl, rfl⟩ := exists_cons_of_ne_nil hne
  rw [all_cons, Bool.and_eq_true] at hbl
  exact not_isWord_of_isBlank hbl.1

theorem onlyDefault_passed (hw : w ∈ passingWords) (hne : bl ≠ [])
    (hbl : bl.all isBlank = true) (hs : s.head?.any isBlank = false) :
    OnlyDefault (w.toList ++ bl ++ s) ↔ ∃ v, '=' ∉ v ∧ s = '=' :: v := by
  constructor
  · intro h
    generalize hraw : w.toList ++ bl ++ s = raw at h
    cases h with
    | @bare v hv =>
      obtain ⟨x, xs, hx⟩ := exists_cons_of_ne_nil (ne_nil_passing w hw)
      have hword := all_eq_true.1 (isWord_passing w hw) x (hx ▸ mem_cons_self)
      obtain rfl : x = '=' := by
        rw [hx] at hraw
        exact (cons.inj hraw).1
      cases hword
    | @passed w' bl' v hw' hne' hbl' hv =>
      rw [append_assoc, append_assoc] at hraw
      obtain ⟨-, hrest⟩ := run_unique (isWord_passing w hw) (head_blanks hne hbl)
        (isWord_passing w' hw') (head_blanks hne' hbl') hraw
      obtain ⟨-, rfl⟩ := run_unique hbl hs hbl' rfl hrest
      exact ⟨v, hv, rfl⟩
  · rintro ⟨v, hv, rfl⟩
    exact .passed hw hne hbl hv

theorem onlyDefault_not_passed
    (h : ∀ w ∈ passingWords, ∀ u, raw = w.toList ++ u → u.head?.any isBlank = false) :
    OnlyDefault raw ↔ ∃ v, '=' ∉ v ∧ raw = '=' :: v := by
  constructor
  · intro hraw
    cases hraw with
    | bare hv => exact ⟨_, hv, rfl⟩
    | @passed w bl v hw hne hbl hv =>
      obtain ⟨d, bl, rfl⟩ := exists_cons_of_ne_nil hne
      have hd := h w hw (d :: bl ++ '=' :: v) (append_assoc ..)
      rw [all_cons, Bool.and_eq_true] at hbl
      rw [cons_append, head?_cons, Option.any_some, hbl.1] at hd
      cases hd
  · rintro ⟨v, hv, rfl⟩
    exact .bare hv

theorem isOk_param_iff (herase : passingPattern.erase raw = s) (htrim : trim s = s)
    (hne : s ≠ []) : (param raw).isOk = true ↔ ¬ ∃ v, '=' ∉ v ∧ s = '=' :: v := by
  rw [← lastWord?_typed htrim hne, param, herase, htrim]
  dsimp only
  cases lastWord? (trim ((cutLast? '=' s).getD (s, [])).1) with
  | none => simp [Except.isOk, Except.toBool]
  | some p => simp [Except.isOk, Except.toBool]

theorem isOk_param (htrim : trim raw = raw) (hne : raw ≠ []) :
    (param raw).isOk = true ↔ ¬ OnlyDefault raw := by
  by_cases h : ∀ w ∈ passingWords, ∀ u, raw = w.toList ++ u → u.head?.any isBlank = false
  · rw [onlyDefault_not_passed h, isOk_param_iff (erase_not_passing h) htrim hne]
  · simp only [Classical.not_forall, Bool.not_eq_false] at h
    obtain ⟨w, hw, u, rfl, hu⟩ := h
    obtain ⟨bl, s, rfl, hbl, hs⟩ := exists_run isBlank u
    have hbl' : bl ≠ [] := by
      rintro rfl
      rw [nil_append, hs] at hu
      cases hu
    have hend := (trim_eq_self.1 htrim).2
    rw [← append_assoc] at hend
    have hs' : s ≠ [] := by
      rintro rfl
      obtain ⟨bs, d, rfl⟩ := (eq_nil_or_concat bl).resolve_left hbl'
      have hd : isBlank d = true := all_eq_true.1 hbl d (by simp)
      simp [hd] at hend
    rw [getLast?_append, getLast?_eq_some_getLast hs', Option.some_or,
      ← getLast?_eq_some_getLast] at hend
    have htrim' : trim s = s := trim_eq_self.2 ⟨hs, hend⟩
    rw [← append_assoc, onlyDefault_passed hw hbl' hbl hs,
      isOk_param_iff (erase_passing hw hbl' hbl hs) htrim' hs']

/-- The parameters of a list, as they stand between the commas outside brackets. -/
def parts (raw : List Char) : List (List Char) :=
  ((splitTop "<(\x7b[" ">)\x7d]" raw).map trim).filter (!·.isEmpty)

theorem isOk_params : (params raw).isOk = true ↔ ∀ part ∈ parts raw, ¬ OnlyDefault part := by
  simp only [params, splitParams, isOk_mapM_iff, parts]
  refine forall₂_congr fun part hpart => ?_
  obtain ⟨hmem, hne⟩ := mem_filter.1 hpart
  obtain ⟨piece, -, rfl⟩ := mem_map.1 hmem
  exact isOk_param (trim_trim piece) (by simpa using hne)

end CSharp

/-! ## Files and projects -/

namespace Java

variable {ep : Bool} {path : Path} {source : List Char}

def shownParts (ep : Bool) (source : List Char) : List (List Char) :=
  ((classPattern.findAll source).filter fun c => keepsName ep (c.group 1)).flatMap fun c =>
    ((methodPattern.findAll (braceBody c.stop.rest)).filter fun m =>
      keepsName ep (m.group 2)).flatMap fun m => parts (m.group 3)

theorem isOk_document_iff : (document ep path source).isOk = true ↔
    ∀ part ∈ shownParts ep source, ¬ OnlyMarks part := by
  simp only [document, isOk_bind_pure, isOk_mapM_iff, isOk_methods, isOk_params, shownParts,
    forall_mem_flatMap, mem_filter, and_imp]

end Java

namespace CSharp

variable {ep : Bool} {path : Path} {source : List Char}

def shownParts (ep : Bool) (source : List Char) : List (List Char) :=
  ((classPattern.findAll source ++ structPattern.findAll source).filter fun c =>
    keepsName ep (c.group 1)).flatMap fun c =>
      ((methodPattern.findAll (braceBody (source.drop c.stop.pos))).filter fun m =>
        !reserved.contains (m.name 2) && keepsName ep (m.group 2)).flatMap fun m =>
          parts (m.group 3)

theorem isOk_document_iff : (document ep path source).isOk = true ↔
    ∀ part ∈ shownParts ep source, ¬ OnlyDefault part := by
  rw [document, isOk_bind fun _ => isOk_bind_pure]
  simp only [Bool.and_eq_true, Bool.not_eq_true', isOk_mapM_iff, isOk_bind_pure, isOk_methods,
    isOk_params, shownParts, forall_mem_flatMap, mem_filter, mem_append, or_and_right,
    or_imp, forall_and, and_imp]

end CSharp

namespace Language

/-- The parameters of the methods that are shown, in the languages that look at them one by one. -/
def shownParts (ep : Bool) : Language → List Char → List (List Char)
  | java, source => Java.shownParts ep source
  | csharp, source => CSharp.shownParts ep source
  | _, _ => []

/-- A parameter from which no name can be read. -/
def Nameless : Language → List Char → Prop
  | java, part => Java.OnlyMarks part
  | csharp, part => CSharp.OnlyDefault part
  | _, _ => False

theorem isOk_map {α β : Type} {r : Except Fault α} {f : α → β} : (r.map f).isOk = r.isOk := by
  cases r <;> rfl

theorem eq_error_of_map {α β : Type} {r : Except Fault α} {f : α → β} {e : Fault}
    (h : r.map f = .error e) : r = .error e := by
  cases r with
  | error e' => cases h; rfl
  | ok a => cases h

section Machine

variable [Machine]

/-- A file that is a text which nests too deep for the machine, if it is Python, or in which a method
that is shown has a parameter without a name. -/
def Blocked (lang : Language) (ep : Bool) (tree : FileTree) (path : Path) : Prop :=
  ∃ source, tree.readText path = .ok source ∧
    (lang = python ∧ path.suffix = ".py" ∧ (Machine.overflow? source).isSome = true ∨
      ∃ part ∈ lang.shownParts ep source, lang.Nameless part)

/-- What the documentation of a file can fail with. -/
def Fails (lang : Language) (tree : FileTree) (path : Path) (e : Fault) : Prop :=
  e = .unnamedParam ∨ lang = python ∧ ∃ source what, tree.readText path = .ok source ∧
    Machine.overflow? source = some what ∧ e = .overflow what

variable {lang : Language} {ep : Bool} {tree : FileTree} {path : Path} {source : List Char} {e : Fault}

theorem python_document (ep : Bool) (path : Path) (source : List Char) :
    (∃ d, Python.document ep path source = .ok d) ∧ Machine.overflow? source = none ∨
      ∃ what, Machine.overflow? source = some what ∧
        Python.document ep path source = .error (.overflow what) := by
  rw [Python.document, Syntax.readTree]
  cases Machine.overflow? source with
  | none => exact .inl ⟨⟨_, rfl⟩, rfl⟩
  | some what => exact .inr ⟨what, rfl, rfl⟩

theorem isOk_document_iff : (lang.document ep path source).isOk = true ↔
    ¬ (lang = python ∧ (Machine.overflow? source).isSome = true ∨
      ∃ part ∈ lang.shownParts ep source, lang.Nameless part) := by
  cases lang with
  | java => rw [document, isOk_map, Java.isOk_document_iff]; simp [shownParts, Nameless]
  | csharp => rw [document, isOk_map, CSharp.isOk_document_iff]; simp [shownParts, Nameless]
  | python =>
    rcases python_document ep path source with ⟨⟨d, hd⟩, hnone⟩ | ⟨what, hsome, he⟩
    · simp [document, hd, hnone, shownParts, Except.isOk, Except.toBool]
    · simp [document, he, hsome, Except.isOk, Except.toBool]
  | _ => simp [document, shownParts, Except.isOk, Except.toBool]

theorem isOk_documentFile_iff :
    (lang.documentFile ep tree path).isOk = true ↔ ¬ lang.Blocked ep tree path := by
  rw [documentFile, Blocked]
  split
  next h =>
    obtain ⟨rfl, hsuffix⟩ := h
    simp [shownParts, hsuffix, Except.isOk, Except.toBool]
  next h =>
    have hsuffix : lang = python → path.suffix = ".py" := fun hlang =>
      Classical.byContradiction fun hne => h ⟨hlang, hne⟩
    cases tree.readText path with
    | error e => simp [Except.isOk, Except.toBool]
    | ok source =>
      simp only [isOk_document_iff, Except.ok.injEq, exists_eq_left']
      refine not_congr (or_congr_left ⟨fun ⟨hlang, hdeep⟩ => ⟨hlang, hsuffix hlang, hdeep⟩, ?_⟩)
      exact fun ⟨hlang, _, hdeep⟩ => ⟨hlang, hdeep⟩

theorem documentFile_error (h : lang.documentFile ep tree path = .error e) :
    lang.Fails tree path e := by
  rw [documentFile] at h
  split at h
  · cases h
  · split at h
    next source hread =>
      cases lang with
      | java => exact .inl (Java.document_error (eq_error_of_map h))
      | csharp => exact .inl (CSharp.document_error (eq_error_of_map h))
      | python =>
        rcases python_document ep path source with ⟨⟨d, hd⟩, -⟩ | ⟨what, hsome, he⟩
        · cases hd.symm.trans h
        · cases he.symm.trans h
          exact .inr ⟨rfl, source, what, hread, hsome, rfl⟩
      | _ => cases h
    next => cases h

end Machine

end Language

namespace Project

section Machine

variable [Machine] {exts : List (String × Language)} {lang : Language} {ep : Bool}
  {tree : FileTree} {dir file : Path} {out : List String}

theorem isOk_moduleOf :
    (moduleOf lang ep tree dir file).isOk = (lang.documentFile ep tree file).isOk := by
  rw [moduleOf]
  rcases lang.documentFile ep tree file with e | _ | m <;> rfl

theorem isOk_read : (read exts ep tree dir out).isOk = true ↔
    ∀ e ∈ exts, ∀ f ∈ filesWith tree dir out e.1, (e.2.documentFile ep tree f).isOk = true := by
  simp only [read, isOk_bind_pure, isOk_mapM_iff, isOk_moduleOf]

/-- **A file is documented exactly if it is not blocked**: unless it is Python that nests too deep for
the machine, or a method that is shown has a parameter without a name. There is no other fault,
whatever the bytes of the file. One file that is not documented keeps a whole project from being
documented, and nothing else does. -/
theorem documents_unless_blocked (lang : Language) (ep : Bool) (tree : FileTree) (path : Path) :
    ((lang.documentFile ep tree path).isOk = true ↔ ¬ lang.Blocked ep tree path) ∧
    (∀ e, lang.documentFile ep tree path = .error e → lang.Fails tree path e) ∧
    ∀ exts dir out, (read exts ep tree dir out).isOk = true ↔
      ∀ e ∈ exts, ∀ f ∈ filesWith tree dir out e.1, ¬ e.2.Blocked ep tree f := by
  refine ⟨Language.isOk_documentFile_iff, fun e => Language.documentFile_error, ?_⟩
  intro exts dir out
  simp only [isOk_read, Language.isOk_documentFile_iff]

end Machine

/-- A Java file and a C# file whose parameters have no name, a Java file with an annotated parameter
that has one, and a file of another language. -/
def mixedParams : FileTree :=
  ⟨⟨"/", []⟩,
    [(["a"], .folder),
      (["a", "A.java"], .file "class A \x7b\n    void f(@X) \x7b\x7d\n\x7d\n".toUTF8.toList),
      (["a", "b.py"], .file "\"B.\"\n".toUTF8.toList),
      (["c"], .folder),
      (["c", "C.cs"], .file
        "class C \x7b\n    void F(ref = 5) \x7b\x7d\n\x7d\n".toUTF8.toList),
      (["d"], .folder),
      (["d", "D.java"], .file
        "class D \x7b\n    void f(@X int a, int) \x7b\x7d\n\x7d\n".toUTF8.toList)]⟩

/-- A machine that is too small for any text. -/
abbrev cramped : Machine := ⟨fun _ => some .stack⟩

theorem runs_mixedParams :
    (Language.java.documentFile false mixedParams (.ofString "/a/A.java")).isOk = false ∧
    (Language.csharp.documentFile false mixedParams (.ofString "/c/C.cs")).isOk = false ∧
    (Language.java.documentFile false mixedParams (.ofString "/d/D.java")).isOk = true ∧
    (@Language.documentFile cramped .python false mixedParams (.ofString "/a/b.py")).isOk = false ∧
    (ofAll false mixedParams (.ofString "/a") (excluded [])).isOk = false ∧
    (ofLanguage .python false mixedParams (.ofString "/a") (excluded [])).isOk = true ∧
    (ofAll false mixedParams (.ofString "/d") (excluded [])).isOk = true := by
  decide +kernel

/-- The annotation alone and the default value alone block their files and so their projects; the
annotation before a parameter does not. Python is blocked where there is no room for it. -/
theorem blocked_mixedParams :
    Language.java.Blocked false mixedParams (.ofString "/a/A.java") ∧
    Language.csharp.Blocked false mixedParams (.ofString "/c/C.cs") ∧
    ¬ Language.java.Blocked false mixedParams (.ofString "/d/D.java") ∧
    @Language.Blocked cramped .python false mixedParams (.ofString "/a/b.py") ∧
    (ofAll false mixedParams (.ofString "/a") (excluded [])).isOk = false := by
  obtain ⟨hjava, hcsharp, hnamed, hpython, hproject, -⟩ := runs_mixedParams
  have hblocked (m : Machine) (lang : Language) (path : Path)
      (h : (lang.documentFile false mixedParams path).isOk = false) :
      lang.Blocked false mixedParams path := by
    refine Classical.byContradiction fun hnot => ?_
    rw [(documents_unless_blocked lang false mixedParams path).1.2 hnot] at h
    cases h
  exact ⟨hblocked _ .java _ hjava, hblocked _ .csharp _ hcsharp,
    (documents_unless_blocked .java false mixedParams _).1.1 hnamed,
    hblocked cramped .python _ hpython, hproject⟩

end Project

end Docsmith
