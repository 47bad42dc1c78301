/-
Default values of parameters, behind a type and a name in either order.
-/
import Docsmith.Proofs.Parameters

namespace Docsmith

open Text Brackets
open String (ofList)

theorem Text.lastWord?_name {xs ys : List Char} (hname : IsName ys)
    (hxs : xs.getLast?.all isBlank = true) : ∃ type, lastWord? (xs ++ ys) = some (type, ys) := by
  have hplain : ys.reverse.all (!isBlank ·) = true := by
    simpa using fun c hc => hname.not_isBlank hc
  have hback : (xs ++ ys).reverse.dropWhile isBlank = ys.reverse ++ xs.reverse := by
    rw [List.reverse_append, dropWhile_eq_self]
    cases h : ys.reverse with
    | nil => exact absurd (List.reverse_eq_nil_iff.1 h) hname.1
    | cons y ys => simp_all
  have hword : (ys.reverse ++ xs.reverse).takeWhile (!isBlank ·) = ys.reverse := by
    refine takeWhile_run hplain ?_
    rw [List.head?_reverse]
    cases h : xs.getLast? <;> simp_all
  rw [lastWord?, hback, hword]
  split
  next h => exact absurd (List.reverse_eq_nil_iff.1 h) hname.1
  next => exact ⟨_, by rw [List.reverse_reverse]⟩

/-- A parameter with a default value as it may be declared. -/
structure Defaulted (b : Brackets) where
  type : List Char
  name : List Char
  default : List Char
  isName : IsName name
  isTerm : ∀ cs ∈ [type, default], b.IsTerm cs

namespace Defaulted

variable {b : Brackets} (p : Defaulted b)

def after (front : List Char) : List Char := front ++ (" = ".toList ++ p.default)

def typeFirst : List Char := p.after (p.type ++ ([' '] ++ p.name))

def nameFirst : List Char := p.after (p.name ++ (": ".toList ++ p.type))

/-- What stands behind the last `=` of the default value; all of it if there is none. -/
def tail : List Char := trim ((cutLast? '=' p.default).getD ([], p.default)).2

/-- A parameter is read with the tail of its default value, and with its name if that is all. -/
structure IsRead (q : Param) : Prop where
  default : q.default = ofList p.tail
  name : '=' ∉ p.default → q.name = ofList p.name

theorem isTerm_after {front : List Char} (h : b.IsTerm front) : b.IsTerm (p.after front) :=
  h.append (by decide) (p.isTerm _ (by simp))

theorem isTerm_typeFirst : b.IsTerm p.typeFirst :=
  p.isTerm_after ((p.isTerm _ (by simp)).append (by decide) (isTerm_name p.isName))

theorem isTerm_nameFirst : b.IsTerm p.nameFirst :=
  p.isTerm_after ((isTerm_name p.isName).append (by decide) (p.isTerm _ (by simp)))

theorem tail_eq_self : p.tail = p.default ↔ '=' ∉ p.default := by
  rw [tail]
  refine ⟨fun h hmem => ?_, fun h => ?_⟩
  · obtain ⟨u, v, hdefault, hv⟩ := exists_last hmem
    rw [hdefault, cutLast?_append hv, Option.getD_some, ← hdefault] at h
    exact hv (trim_subset v (h ▸ hmem))
  · rw [cutLast?_of_not_mem h]
    exact (p.isTerm _ (by simp)).trimmed

theorem exists_cut (front : List Char) : ∃ zs r,
    cutLast? '=' (p.after front) = some (front ++ ' ' :: zs, r) ∧ trim r = p.tail ∧
      ('=' ∉ p.default → zs = []) := by
  by_cases h : '=' ∈ p.default
  · obtain ⟨u, v, hdefault, hv⟩ := exists_last h
    have hsplit : p.after front = front ++ ' ' :: '=' :: ' ' :: u ++ '=' :: v := by
      simp [after, hdefault]
    refine ⟨'=' :: ' ' :: u, v, by rw [hsplit, cutLast?_append hv], ?_, absurd h⟩
    rw [tail, hdefault, cutLast?_append hv, Option.getD_some]
  · have hsplit : p.after front = (front ++ [' ']) ++ '=' :: ' ' :: p.default := by simp [after]
    refine ⟨[], ' ' :: p.default, by rw [hsplit, cutLast?_append (by simpa using h)], ?_,
      fun _ => rfl⟩
    rw [p.tail_eq_self.2 h, trim_cons rfl, (p.isTerm _ (by simp)).trimmed]

end Defaulted

open Defaulted

theorem Kotlin.param?_nameFirst (p : Defaulted .three) :
    ∃ q, param? p.nameFirst = some q ∧ p.IsRead q := by
  have hname : three.IsTerm p.name := isTerm_name p.isName
  have hfront := hname.append (m := ": ".toList) (by decide) (p.isTerm p.type (by simp))
  have htext := p.isTerm_after hfront
  obtain ⟨zs, r, hcut, hr, hz⟩ := p.exists_cut (p.name ++ (": ".toList ++ p.type))
  have hsome : (p.after (p.name ++ (": ".toList ++ p.type))).isEmpty = false :=
    List.isEmpty_eq_false_iff.2 htext.ne_nil
  refine ⟨_, by rw [param?, nameFirst, htext.trimmed, hcut]; exact if_neg (by rw [hsome]; decide),
    congrArg ofList hr, fun h => ?_⟩
  have hcolon : cutFirst? ':' (p.name ++ (": ".toList ++ p.type)) = some (p.name, ' ' :: p.type) :=
    cutFirst?_append (p.isName.not_mem (by decide))
  rw [hz h]
  dsimp only [Option.getD_some]
  rw [trim_concat rfl, hfront.trimmed, hcolon]
  dsimp only [Option.getD_some]
  rw [hname.trimmed, dropLead_of_not_mem (c := ' ') (by decide) (p.isName.not_mem (by decide)),
    hname.trimmed]

theorem Cpp.param?_typeFirst (p : Defaulted .three) :
    ∃ q, param? p.typeFirst = some q ∧ p.IsRead q := by
  have hfront := (p.isTerm p.type (by simp)).append (m := [' ']) (by decide)
    (isTerm_name p.isName)
  have htext := p.isTerm_after hfront
  obtain ⟨zs, r, hcut, hr, hz⟩ := p.exists_cut (p.type ++ ([' '] ++ p.name))
  have hempty : p.typeFirst.isEmpty = false := List.isEmpty_eq_false_iff.2 htext.ne_nil
  have hdots : (p.typeFirst == "...".toList) = false := by
    refine beq_eq_false_iff_ne.2 fun h => ?_
    rw [← typeFirst, h] at hcut
    cases hcut
  have hwords (h : '=' ∉ p.default) : ∃ ws, (words (subst ['&'] "& ".toList (subst ['*'] "* ".toList
      (p.type ++ ([' '] ++ p.name) ++ ' ' :: zs)))).reverse = p.name :: ws := by
    have hnot {c : Char} (hc : c ∈ signs) (hne : c ≠ ' ') : c ∉ ' ' :: (p.name ++ [' ']) := by
      simpa [hne] using p.isName.not_mem hc
    have hjoin : p.type ++ ([' '] ++ p.name) ++ [' '] = p.type ++ ' ' :: (p.name ++ [' ']) := by
      simp
    rw [hz h, hjoin, subst_append (hnot (by decide) (by decide)),
      subst_append (hnot (by decide) (by decide)),
      words_append rfl, words_cons p.isName.1 (fun _ hc => p.isName.not_isBlank hc) rfl]
    exact ⟨_, List.reverse_append⟩
  rw [← typeFirst] at htext hcut
  simp only [param?, htext.trimmed, hempty, hdots, Bool.false_eq_true, if_false, hcut,
    Option.getD_some]
  generalize (words _).reverse = ws at hwords ⊢
  rcases ws with _ | ⟨w, _ | ⟨w', ws⟩⟩
  · exact ⟨_, rfl, congrArg ofList hr, fun h => by
      obtain ⟨_, hws⟩ := hwords h
      cases hws⟩
  · exact ⟨_, rfl, congrArg ofList hr, fun h =>
      congrArg ofList (List.cons.inj (hwords h).choose_spec).1⟩
  · refine ⟨_, rfl, congrArg ofList hr, fun h => congrArg ofList ?_⟩
    obtain ⟨_, hws⟩ := hwords h
    rw [(List.cons.inj hws).1]
    refine trimWhile_of_none fun c hc => Bool.eq_false_iff.2 fun hamong => ?_
    have hsigns : "*& ".toList ⊆ signs := by decide
    exact p.isName.not_mem (hsigns (List.contains_iff_mem.1 hamong)) hc

theorem Cpp.params_eq (ps : List (Defaulted .three)) {read : Defaulted .three → Param}
    (hread : ∀ p, param? p.typeFirst = some (read p)) :
    params (joinWith ", " (ps.map typeFirst)) = ps.map read := by
  have hvoid : (trim (joinWith ", " (ps.map typeFirst)) == "void".toList) = false := by
    rw [trim_joinWith _ (List.forall_mem_map.2 fun p _ =>
      ⟨p.isTerm_typeFirst.ne_nil, p.isTerm_typeFirst.trimmed⟩)]
    cases ps with
    | nil => rfl
    | cons p ps =>
      obtain ⟨u, hu⟩ := exists_joinWith_cons ", " p.typeFirst (ps.map typeFirst)
      refine beq_eq_false_iff_ne.2 fun h => absurd (?_ : '=' ∈ "void".toList) (by decide)
      rw [← h, List.map_cons, hu]
      simp [typeFirst, after]
  rw [params, hvoid, if_neg Bool.false_ne_true]
  exact three.filterMap_splitTop (fun cs => by unfold param?; rw [trim_trim])
    isTerm_typeFirst hread ps

namespace CSharp

theorem exists_erase {type ys : List Char} (htype : (type ++ [' ']).head?.any isBlank = false)
    (hys : ys.head?.any isBlank = false) :
    ∃ xs, passingPattern.erase (type ++ ' ' :: ys) = xs ++ ys ∧
      xs.head?.any isBlank = false ∧ xs.getLast?.all isBlank = true := by
  have hlast {xs bs : List Char} (h : type ++ [' '] = bs ++ xs) :
      xs.getLast?.all isBlank = true := by
    have hend : (bs ++ xs).getLast? = some ' ' := by rw [← h, List.getLast?_concat]
    rw [List.getLast?_append] at hend
    cases hxs : xs.getLast? with
    | none => rfl
    | some c =>
      rw [hxs] at hend
      obtain rfl : c = ' ' := Option.some.inj hend
      rfl
  have hjoin : type ++ ' ' :: ys = type ++ [' '] ++ ys := by simp
  rw [hjoin]
  by_cases h : ∀ w ∈ passingWords, ∀ u, type ++ [' '] = w.toList ++ u → u.head?.any isBlank = false
  · refine ⟨type ++ [' '], erase_not_passing fun w hw u hu => ?_, htype,
      hlast (List.nil_append _).symm⟩
    rcases List.append_eq_append_iff.1 hu with ⟨as, hword, rfl⟩ | ⟨u, htype, rfl⟩
    · have hblank := Pattern.not_isBlank_of_all_isWord (d := ' ') (isWord_passing w hw)
        (by simp [hword])
      cases hblank
    · cases u with
      | nil => exact hys
      | cons c u => exact h w hw (c :: u) htype
  · simp only [Classical.not_forall, Bool.not_eq_false] at h
    obtain ⟨w, hw, u, hsplit, hu⟩ := h
    obtain ⟨bl, xs, rfl, hbl, hxs⟩ := exists_run isBlank u
    have hbl' : bl ≠ [] := by
      rintro rfl
      exact Bool.false_ne_true (hxs.symm.trans hu)
    rw [← List.append_assoc] at hsplit
    have hhead : (xs ++ ys).head?.any isBlank = false := by cases xs <;> assumption
    exact ⟨xs, by rw [hsplit, List.append_assoc, erase_passing hw hbl' hbl hhead], hxs,
      hlast hsplit⟩

theorem param_typeFirst (p : Defaulted .four) : ∃ q, param p.typeFirst = .ok q ∧ p.IsRead q := by
  have hname : four.IsTerm p.name := isTerm_name p.isName
  have hafter := p.isTerm_after hname
  have htext : p.typeFirst = p.type ++ ' ' :: p.after p.name := by simp [typeFirst, after]
  obtain ⟨xs, herase, hstart, hxs⟩ := exists_erase ((p.isTerm p.type (by simp)).head?_append [' '])
    (trim_eq_self.1 hafter.trimmed).1
  rw [← dropWhile_eq_self] at hstart
  have hpart : trim (passingPattern.erase p.typeFirst) = p.after (xs ++ p.name) := by
    rw [htext, herase, trim_append hafter.ne_nil hafter.trimmed, hstart, after, after,
      List.append_assoc]
  obtain ⟨zs, r, hcut, hr, hz⟩ := p.exists_cut (xs ++ p.name)
  have hword : lastWord? (trim (xs ++ p.name ++ ' ' :: zs)) ≠ none := by
    rw [Ne, lastWord?_eq_none, all_isBlank_trim, List.all_eq_true]
    intro hall
    obtain ⟨c, cs, hcons⟩ := List.exists_cons_of_ne_nil p.isName.1
    have hc := hall c (by simp [hcons])
    rw [p.isName.not_isBlank (hcons ▸ List.mem_cons_self)] at hc
    cases hc
  obtain ⟨⟨type, name⟩, hsome⟩ := Option.ne_none_iff_exists'.1 hword
  simp only [param, hpart, hcut, Option.getD_some, hsome]
  refine ⟨_, rfl, congrArg ofList hr, fun h => congrArg ofList ?_⟩
  obtain ⟨type', hlast⟩ := lastWord?_name p.isName hxs
  rw [hz h, trim_concat rfl, trim_append hname.ne_nil hname.trimmed, hstart, hlast] at hsome
  exact (congrArg Prod.snd (Option.some.inj hsome)).symm

theorem params_eq (ps : List (Defaulted .four)) {read : Defaulted .four → Param}
    (hread : ∀ p, param p.typeFirst = .ok (read p)) :
    params (joinWith ", " (ps.map typeFirst)) = .ok (ps.map read) := by
  have hsplit := four.map_trim_splitTop (List.forall_mem_map.2 fun p (_ : p ∈ ps) =>
    ⟨p.isTerm_typeFirst.toIsPart, p.isTerm_typeFirst.ne_nil⟩)
  have htrim : (ps.map typeFirst).map trim = ps.map typeFirst := by
    rw [List.map_map]
    exact List.map_congr_left fun p _ => p.isTerm_typeFirst.trimmed
  have hfilter : (ps.map typeFirst).filter (!·.isEmpty) = ps.map typeFirst := by
    refine List.filter_eq_self.2 (List.forall_mem_map.2 fun p _ => ?_)
    simpa using p.isTerm_typeFirst.ne_nil
  refine (congrArg (fun l => (l.filter (!·.isEmpty)).mapM param) (hsplit.trans htrim)).trans ?_
  rw [hfilter]
  exact Except.mapM_map fun p _ => hread p

end CSharp

namespace Defaulted

/-- What is read of parameters: their default values only behind the last `=`, and so their own
names and default values exactly if there is none. -/
structure AreRead {b : Brackets} (ps : List (Defaulted b)) (qs : List Param) : Prop where
  defaults : qs.map Param.default = ps.map (fun p => ofList p.tail)
  own : qs.map (fun q => (q.name, q.default)) =
      ps.map (fun p => (ofList p.name, ofList p.default)) ↔
    ∀ p ∈ ps, '=' ∉ p.default

theorem areRead {b : Brackets} {read : Defaulted b → Param} (h : ∀ p, IsRead p (read p))
    (ps : List (Defaulted b)) : AreRead ps (ps.map read) where
  defaults := by
    rw [List.map_map]
    exact List.map_congr_left fun p _ => (h p).default
  own := by
    rw [List.map_map, List.map_inj_left]
    refine forall₂_congr fun p _ => ?_
    rw [Function.comp_apply, Prod.mk.injEq, (h p).default, String.ofList_inj, p.tail_eq_self]
    exact and_iff_right_of_imp (h p).name

end Defaulted

/-- **Default values are cut at their last sign**, so that parameters have their own names and
default values exactly if no default value has the sign in it. -/
theorem params_defaulted (ps : List (Defaulted .four)) (qs : List (Defaulted .three)) :
    (∃ read, CSharp.params (joinWith ", " (ps.map typeFirst)) = .ok read ∧ AreRead ps read) ∧
      AreRead qs (Cpp.params (joinWith ", " (qs.map typeFirst))) ∧
      AreRead qs (Kotlin.params (joinWith ", " (qs.map nameFirst))) := by
  obtain ⟨csharp, hcsharp⟩ := Classical.axiomOfChoice CSharp.param_typeFirst
  obtain ⟨cpp, hcpp⟩ := Classical.axiomOfChoice Cpp.param?_typeFirst
  obtain ⟨kotlin, hkotlin⟩ := Classical.axiomOfChoice Kotlin.param?_nameFirst
  refine ⟨⟨ps.map csharp, ?_, areRead (fun p => (hcsharp p).2) ps⟩, ?_, ?_⟩
  · exact CSharp.params_eq ps fun p => (hcsharp p).1
  · exact Cpp.params_eq qs (fun p => (hcpp p).1) ▸ areRead (fun p => (hcpp p).2) qs
  · have hread := Brackets.three.filterMap_splitTop
      (fun cs => by rw [Kotlin.param?, Kotlin.param?, trim_trim]) isTerm_nameFirst
      (fun p => (hkotlin p).1) qs
    rw [Kotlin.params]
    exact hread ▸ areRead (fun p => (hkotlin p).2) qs

def Defaulted.comparison : Defaulted .four :=
  ⟨"bool".toList, ['b'], "1 == 2".toList, ⟨by decide, by decide⟩, fun cs hcs => by
    have hplain : ∀ cs ∈ ["bool".toList, "1 == 2".toList],
        cs.any dividers.contains = false ∧ cs ≠ [] ∧ trim cs = cs := by decide
    exact ⟨isPart_of_plain (hplain cs hcs).1, (hplain cs hcs).2.1, (hplain cs hcs).2.2⟩⟩

theorem params_defaulted_comparison : ∃ read,
    CSharp.params "bool b = 1 == 2".toList = .ok read ∧ read.map Param.default = ["2"] := by
  obtain ⟨read, hread, hdefaults, -⟩ := (params_defaulted [comparison] []).1
  exact ⟨read, hread, hdefaults⟩

end Docsmith
