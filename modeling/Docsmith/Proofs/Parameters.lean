/-
Parameters read from the text that declares them.

A declared parameter is a name with a type and a default value that are terms (`IsTerm`), and its
text is one again, so that the parameters of a list are read one by one (`filterMap_splitTop`).
-/
import Docsmith.Proofs.Nameless
import Docsmith.Proofs.Splitting

namespace Docsmith

open Text Brackets List

def Text.signs : List Char := dividers ++ ":=?*& ".toList

/-- A name: not empty, without blanks and signs. Every identifier is one. -/
def Text.IsName (cs : List Char) : Prop :=
  cs ≠ [] ∧ cs.any (fun c => isBlank c || signs.contains c) = false

section

variable {cs : List Char} {c : Char}

theorem Text.IsName.not_isBlank (h : IsName cs) (hc : c ∈ cs) : isBlank c = false := by
  have := any_eq_false.1 h.2 c hc
  simp_all

theorem Text.IsName.not_mem (h : IsName cs) (hc : c ∈ signs) : c ∉ cs := by
  intro hmem
  have := any_eq_false.1 h.2 c hmem
  simp_all

end

namespace Brackets

variable {b : Brackets} {xs ys m cs : List Char}

/-- A type, a default value or a whole parameter: one part without blanks around it. -/
structure IsTerm (b : Brackets) (cs : List Char) : Prop extends b.IsPart cs where
  ne_nil : cs ≠ []
  trimmed : trim cs = cs

theorem IsTerm.head?_append (hx : b.IsTerm xs) (ys : List Char) :
    (xs ++ ys).head?.any isBlank = false := by
  rw [List.head?_append, List.head?_eq_some_head hx.ne_nil, Option.some_or,
    ← head?_eq_some_head]
  exact (trim_eq_self.1 hx.trimmed).1

theorem IsTerm.append (hx : b.IsTerm xs) (hm : m.any dividers.contains = false)
    (hy : b.IsTerm ys) : b.IsTerm (xs ++ (m ++ ys)) where
  toIsPart := hx.toIsPart.append ((isPart_of_plain hm).append hy.toIsPart)
  ne_nil := append_ne_nil_of_left_ne_nil hx.ne_nil _
  trimmed := by
    rw [← append_assoc, trim_append hy.ne_nil hy.trimmed,
      dropWhile_eq_self.2 (hx.head?_append m)]

theorem isTerm_name (h : IsName cs) : b.IsTerm cs where
  toIsPart := isPart_of_plain (any_eq_false.2 fun _ hc hmem =>
    h.not_mem (mem_append_left _ (contains_iff_mem.1 hmem)) hc)
  ne_nil := h.1
  trimmed := trimWhile_of_none fun _ hc => h.not_isBlank hc

theorem filterMap_splitTop {α β : Type} {f : List Char → Option β} {text : α → List Char}
    {read : α → β} (hf : ∀ cs, f (trim cs) = f cs) (htext : ∀ p, b.IsTerm (text p))
    (hread : ∀ p, f (text p) = some (read p)) (ps : List α) :
    (splitTop b.opening b.closing (joinWith ", " (ps.map text))).filterMap f = ps.map read := by
  have hsplit := map_trim_splitTop
    (forall_mem_map.2 fun p (_ : p ∈ ps) => ⟨(htext p).toIsPart, (htext p).ne_nil⟩)
  have hf' : f = f ∘ trim := funext fun cs => (hf cs).symm
  have hread' : f ∘ text = some ∘ read := funext hread
  rw [hf', ← filterMap_map, hsplit, filterMap_map, ← hf', filterMap_map, hread',
    filterMap_eq_map]

end Brackets

namespace TypeScript

/-- A parameter as it may be declared; the type and the default value may be missing. -/
structure Declared where
  name : List Char
  isOptional : Bool
  type : List Char
  default : List Char
  isName : IsName name
  isTerm : ∀ cs ∈ [type, default], cs = [] ∨ brackets.IsTerm cs
  noMark : ∀ cs ∈ [type, default], '?' ∉ cs
  noEquals : '=' ∉ type

def behind (sign : String) (cs : List Char) : List Char :=
  if cs = [] then [] else sign.toList ++ cs

namespace Declared

variable (p : Declared)

def text : List Char :=
  p.name ++ (if p.isOptional then ['?'] else []) ++ behind ": " p.type ++ behind " = " p.default

def param : Param where
  name := String.ofList p.name
  hint := String.ofList
    (if p.isOptional ∧ p.type ≠ [] ∧ ¬ "| undefined".toList <:+ p.type then
      p.type ++ " | undefined".toList else p.type)
  default := String.ofList p.default

theorem isTerm_text : brackets.IsTerm p.text := by
  have hbehind {xs cs : List Char} {sign : String} (hx : brackets.IsTerm xs)
      (hsign : sign.toList.any dividers.contains = false) (hcs : cs ∈ [p.type, p.default]) :
      brackets.IsTerm (xs ++ behind sign cs) := by
    rw [behind]
    rcases p.isTerm cs hcs with rfl | h
    · simpa using hx
    · rw [if_neg h.ne_nil]
      exact hx.append hsign h
  refine hbehind (hbehind ?_ (by decide) (by simp)) (by decide) (by simp)
  split
  · exact (isTerm_name p.isName).append (m := []) rfl
      ⟨isPart_of_plain (by decide), by decide, by decide⟩
  · rw [append_nil]
    exact isTerm_name p.isName

theorem not_mem_behind : '?' ∉ behind ": " p.type ++ behind " = " p.default := by
  have htype := p.noMark p.type (by simp)
  have hdefault := p.noMark p.default (by simp)
  rw [behind, behind]
  split <;> split <;> simp [htype, hdefault]

theorem clean_text : p.text.filter (· != '?') =
    p.name ++ behind ": " p.type ++ behind " = " p.default := by
  have hself {cs : List Char} (h : '?' ∉ cs) : cs.filter (· != '?') = cs :=
    filter_eq_self.2 (bne_of_not_mem h)
  rw [text, append_assoc, filter_append, filter_append,
    hself (p.isName.not_mem (by decide)), hself p.not_mem_behind, append_assoc]
  cases p.isOptional <;> simp

theorem mark_text : (((cutFirst? ':' p.text).map Prod.fst).getD p.text).contains '?' =
    p.isOptional := by
  have hcolon : ∀ c ∈ p.name ++ if p.isOptional then ['?'] else [], (c != ':') = true := by
    refine bne_of_not_mem ?_
    split <;> simp [p.isName.not_mem (by decide : ':' ∈ signs)]
  have hrest := fun h => p.not_mem_behind (takeWhile_subset (· != ':') h)
  have hname : '?' ∉ p.name := p.isName.not_mem (by decide)
  rw [Option.getD_map Prod.fst (p.text, []), getD_cutFirst?, text, append_assoc,
    takeWhile_append_of_pos hcolon, Bool.eq_iff_iff, contains_iff_mem]
  cases p.isOptional <;> simp_all

theorem param?_text : param? p.text = some p.param := by
  have hempty : p.text.isEmpty = false := isEmpty_eq_false_iff.2 p.isTerm_text.ne_nil
  have hhead {c : Char} (hc : c ∈ signs) : (p.text.head? == some c) = false := by
    obtain ⟨x, xs, hname⟩ := exists_cons_of_ne_nil p.isName.1
    have hne : x ≠ c := fun h => p.isName.not_mem hc (by rw [hname, h]; exact mem_cons_self)
    simp [text, hname, hne]
  have hequals : ∀ c ∈ p.name ++ behind ": " p.type, (c != '=') = true := by
    refine bne_of_not_mem ?_
    rw [behind]
    split <;> simp [p.isName.not_mem (by decide : '=' ∈ signs), p.noEquals]
  have hcolon : ∀ c ∈ p.name, (c != ':') = true := bne_of_not_mem (p.isName.not_mem (by decide))
  have hgap : (behind " = " p.default).takeWhile (· != '=') = [] ∨
      (behind " = " p.default).takeWhile (· != '=') = [' '] := by
    rw [behind]
    split
    · exact .inl rfl
    · exact .inr rfl
  have hdefault : trim ((behind " = " p.default).dropWhile (· != '=')).tail = p.default := by
    rcases p.isTerm p.default (by simp) with h | h
    · rw [h]; rfl
    · rw [behind, if_neg h.ne_nil]
      exact (trim_cons rfl).trans h.trimmed
  have hmiss : (p.isOptional && !p.type.isEmpty && !"| undefined".toList.isSuffixOf p.type) = true ↔
      p.isOptional = true ∧ p.type ≠ [] ∧ ¬ "| undefined".toList <:+ p.type := by
    simp only [Bool.and_eq_true, Bool.not_eq_true', Bool.eq_false_iff, ne_eq, List.isEmpty_iff,
      isSuffixOf_iff_suffix, and_assoc]
  have hcuts : trim ((p.name ++ behind ": " p.type ++ (behind " = " p.default).takeWhile
        (· != '=')).takeWhile (· != ':')) = p.name ∧
      trim ((p.name ++ behind ": " p.type ++ (behind " = " p.default).takeWhile
        (· != '=')).dropWhile (· != ':')).tail = p.type := by
    generalize (behind " = " p.default).takeWhile (· != '=') = gap at hgap
    have htrim (cs : List Char) : trim (cs ++ gap) = trim cs := by
      rcases hgap with rfl | rfl
      · rw [append_nil]
      · exact trim_concat rfl
    have hname := (brackets.isTerm_name p.isName).trimmed
    rw [append_assoc, takeWhile_append_of_pos hcolon,
      dropWhile_append_of_pos hcolon]
    rcases p.isTerm p.type (by simp) with h | h
    · have hplain : gap.takeWhile (· != ':') = gap ∧ gap.dropWhile (· != ':') = [] := by
        rcases hgap with rfl | rfl <;> exact ⟨rfl, rfl⟩
      rw [h, behind, if_pos rfl, nil_append, hplain.1, hplain.2, htrim]
      exact ⟨hname, rfl⟩
    · rw [behind, if_neg h.ne_nil]
      refine ⟨?_, (htrim _).trans ((trim_cons rfl).trans h.trimmed)⟩
      exact (congrArg trim (append_nil _)).trans hname
  simp only [param?, p.isTerm_text.trimmed, hempty, hhead (by decide : '{' ∈ signs),
    hhead (by decide : '[' ∈ signs), p.mark_text, p.clean_text, getD_cutFirst?,
    takeWhile_append_of_pos hequals, dropWhile_append_of_pos hequals, hdefault, hcuts,
    hmiss, Bool.or_false, Bool.false_eq_true, if_false]
  rfl

end Declared

/-- **Parameters are read as they are declared**, with the mark of an optional one taken into its
type. -/
theorem params_declared (ps : List Declared) :
    params (joinWith ", " (ps.map Declared.text)) = ps.map Declared.param := by
  have hread := brackets.filterMap_splitTop (fun cs => by rw [param?, param?, trim_trim])
    Declared.isTerm_text Declared.param?_text ps
  rw [params, trim_joinWith _ (forall_mem_map.2 fun p _ =>
    ⟨p.isTerm_text.ne_nil, p.isTerm_text.trimmed⟩)]
  split
  next hempty =>
    rw [← hread, isEmpty_iff.1 hempty]
    rfl
  next => exact hread

theorem params_declared_optional : params "cb?: Map<string, number> = f(a, b)".toList =
    [{ name := "cb", hint := "Map<string, number> | undefined", default := "f(a, b)" }] := by
  have hterm : ∀ cs ∈ ["Map<string, number>".toList, "f(a, b)".toList], brackets.IsTerm cs := by
    simp only [forall_mem_cons]
    exact ⟨⟨by decide, by decide, by decide⟩, ⟨by decide, by decide, by decide⟩, by simp⟩
  exact params_declared [⟨"cb".toList, true, _, _, ⟨by decide, by decide⟩,
    fun cs h => .inr (hterm cs h), by decide, by decide⟩]

end TypeScript

namespace Rust

open Pattern (among)

structure Declared where
  isMut : Bool
  name : List Char
  type : List Char
  isName : IsName name
  isTerm : three.IsTerm type

namespace Declared

variable (p : Declared)

/-- What stands before the colon. -/
def head : List Char := (if p.isMut then "mut ".toList else []) ++ p.name

def text : List Char := p.head ++ (": ".toList ++ p.type)

theorem isTerm_head : three.IsTerm p.head := by
  have hname : three.IsTerm p.name := isTerm_name p.isName
  have hmut : three.IsTerm "mut".toList := isTerm_name ⟨by decide, by decide⟩
  rw [head]
  split
  · exact hmut.append (m := [' ']) (by decide) hname
  · exact hname

theorem param?_text : param? p.text = some
    { name := String.ofList (p.name.dropWhile (among "mut ")), hint := String.ofList p.type } := by
  have htext : three.IsTerm p.text := p.isTerm_head.append (by decide) p.isTerm
  have hcolon : ':' ∉ p.head := by
    rw [head]
    split <;> simp [p.isName.not_mem (by decide : ':' ∈ _)]
  have hself : ["self", "&self", "&mut self"].contains (String.ofList p.text) = false := by
    have hnone : ∀ s ∈ ["self", "&self", "&mut self"], ':' ∉ s.toList := by decide
    exact Bool.eq_false_iff.2 fun h => hnone _ (contains_iff_mem.1 h) (by simp [text])
  have hcut : cutFirst? ':' p.text = some (p.head, ' ' :: p.type) := cutFirst?_append hcolon
  have hdrop : p.head.dropWhile (among "mut ") = p.name.dropWhile (among "mut ") := by
    rw [head, dropWhile_append_of_pos]
    split <;> exact all_eq_true.1 (by decide)
  have hname : trim (p.name.dropWhile (among "mut ")) = p.name.dropWhile (among "mut ") :=
    trimWhile_of_none fun _ hc => p.isName.not_isBlank ((dropWhile_sublist _).subset hc)
  simp only [param?, htext.trimmed, isEmpty_eq_false_iff.2 htext.ne_nil, hself, Bool.or_false,
    Bool.false_eq_true, if_false, hcut, p.isTerm_head.trimmed, hdrop, hname,
    trim_cons (c := ' ') rfl, p.isTerm.trimmed]

end Declared

/-- **Names lose letters.** Each parameter is read with its type, and with its name less the letters
of `mut` that it starts with, so as it is declared exactly if it starts with none of them. -/
theorem params_stripped (ps : List Declared) :
    params (joinWith ", " (ps.map Declared.text)) = ps.map (fun p =>
      { name := String.ofList (p.name.dropWhile (among "mut ")), hint := String.ofList p.type }) ∧
    (params (joinWith ", " (ps.map Declared.text)) = ps.map (fun p =>
      { name := String.ofList p.name, hint := String.ofList p.type }) ↔
        ∀ p ∈ ps, p.name.head?.any (among "mut ") = false) := by
  have hread : params (joinWith ", " (ps.map Declared.text)) = _ :=
    three.filterMap_splitTop (fun cs => by rw [param?, param?, trim_trim])
      (fun p => p.isTerm_head.append (by decide) p.isTerm) Declared.param?_text ps
  refine ⟨hread, ?_⟩
  rw [hread, map_inj_left]
  simp only [Param.mk.injEq, String.ofList_inj, dropWhile_eq_self, and_true]

theorem params_stripped_total :
    params "total: i32".toList = [{ name := "otal", hint := "i32" }] :=
  (params_stripped [⟨false, "total".toList, "i32".toList, ⟨by decide, by decide⟩,
    isTerm_name ⟨by decide, by decide⟩⟩]).1

end Rust

end Docsmith
