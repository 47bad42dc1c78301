/-
Java parameters whose types have arguments.

A list of parameters is cut at every comma, so also at those between the arguments of a type. Every
piece has something in it and no annotation (`Solid`), so that each is read as a parameter.
-/
import Docsmith.Proofs.Parameters

namespace Docsmith.Java

open Text List

/-- A name without dots and signs of annotations. -/
def IsIdentifier (cs : List Char) : Prop := IsName cs ∧ cs.any "@.".toList.contains = false

/-- The text of a type: a name, a member of a type, an array, or a type with arguments. -/
inductive IsType : List Char → Prop where
  | name {cs : List Char} : IsIdentifier cs → IsType cs
  | member {cs name : List Char} : IsType cs → IsIdentifier name → IsType (cs ++ '.' :: name)
  | array {cs : List Char} : IsType cs → IsType (cs ++ "[]".toList)
  | generic {cs : List Char} {args : List (List Char)} {sep : String} : IsType cs → args ≠ [] →
    (∀ arg ∈ args, IsType arg) → sep ∈ [",", ", "] →
    IsType (cs ++ ('<' :: joinWith sep args ++ ['>']))

/-- No dot stands last or before another. -/
def dotsApart : List Char → Bool
  | [] => true
  | c :: cs => (c != '.' || cs.head?.any (· != '.')) && dotsApart cs

/-- A text without annotations and ellipses, with something between its commas. -/
structure Solid (cs : List Char) : Prop where
  filled : ∀ piece ∈ cut ',' cs, piece.all isBlank = false
  unmarked : '@' ∉ cs
  dots : dotsApart cs = true

variable {xs ys cs name : List Char} {ls : List (List Char)} {sep : String}

theorem dotsApart_append (hx : dotsApart xs = true) (hy : dotsApart ys = true) :
    dotsApart (xs ++ ys) = true := by
  induction xs with
  | nil => exact hy
  | cons c xs ih =>
    rw [dotsApart, Bool.and_eq_true] at hx
    rw [cons_append, dotsApart, ih hx.2, Bool.and_true]
    cases xs with
    | nil => simp_all
    | cons d xs => exact hx.1

theorem dotsApart_of_not_mem (h : '.' ∉ cs) : dotsApart cs = true := by
  induction cs with
  | nil => rfl
  | cons c cs ih =>
    rw [mem_cons, not_or] at h
    rw [dotsApart, ih h.2, Bool.and_true, bne_iff_ne.2 (Ne.symm h.1)]
    rfl

theorem subst_dots (h : dotsApart cs = true) (new : List Char) : subst "...".toList new cs = cs := by
  rw [subst]
  induction cs with
  | nil => rfl
  | cons c cs ih =>
    rw [dotsApart, Bool.and_eq_true] at h
    have hnot : "...".toList.isPrefixOf (c :: cs) = false := by
      cases cs <;> grind [isPrefixOf]
    rw [substFrom, hnot, ih h.2]
    rfl

namespace Solid

theorem append (hx : Solid xs) (hy : Solid ys) : Solid (xs ++ ys) where
  filled := by
    obtain ⟨front, a, b, back, hxs, hys, hcut⟩ := cut_append ',' xs ys
    have hfirst := hx.filled
    have hlast := hy.filled
    simp only [hxs, hys, hcut, mem_append, mem_cons] at hfirst hlast ⊢
    rintro piece (h | rfl | h)
    · exact hfirst piece (.inl h)
    · rw [all_append, hlast b (.inl rfl), Bool.and_false]
    · exact hlast piece (.inr h)
  unmarked := by simp [hx.unmarked, hy.unmarked]
  dots := dotsApart_append hx.dots hy.dots

theorem blank (h : Solid cs) : Solid (' ' :: cs) where
  filled := by
    have hcs := h.filled
    rw [cut_eq_splitOn] at hcs ⊢
    rw [splitOn_cons_eq_if_modifyHead, if_neg (by decide)]
    cases hcut : cs.splitOn ',' with
    | nil => exact absurd hcut (splitOn_ne_nil _ _)
    | cons piece pieces =>
      rw [hcut] at hcs
      simpa [isBlank] using hcs
  unmarked := by simpa using h.unmarked
  dots := h.dots

theorem comma (hx : Solid xs) (hy : Solid ys) : Solid (xs ++ ',' :: ys) where
  filled piece hpiece := by
    rw [cut_eq_splitOn, splitOn_append_cons_self, mem_append, ← cut_eq_splitOn,
      ← cut_eq_splitOn] at hpiece
    exact hpiece.elim (hx.filled piece) (hy.filled piece)
  unmarked := by simp [hx.unmarked, hy.unmarked]
  dots := dotsApart_append hx.dots hy.dots

theorem join (hne : ls ≠ []) (hls : ∀ l ∈ ls, Solid l) (hsep : sep ∈ [",", ", "]) :
    Solid (joinWith sep ls) := by
  induction ls with
  | nil => exact absurd rfl hne
  | cons l ls ih =>
    obtain ⟨hl, hls⟩ := forall_mem_cons.1 hls
    cases ls with
    | nil => simpa [joinWith] using hl
    | cons l' ls =>
      have hrest := ih (cons_ne_nil _ _) hls
      rw [joinWith_cons_cons, append_assoc]
      simp only [mem_cons, not_mem_nil, or_false] at hsep
      rcases hsep with rfl | rfl
      · exact hl.comma hrest
      · exact hl.comma hrest.blank

theorem of_plain (hcomma : ',' ∉ cs) (hmark : '@' ∉ cs) (hdots : dotsApart cs = true)
    (hfull : cs.all isBlank = false) : Solid cs := by
  refine ⟨?_, hmark, hdots⟩
  rw [cut_eq_splitOn, splitOn_eq_singleton hcomma]
  simpa using hfull

end Solid

namespace IsIdentifier

theorem not_mem (h : IsIdentifier cs) {c : Char} (hc : c ∈ "@.".toList ++ signs) : c ∉ cs := by
  intro hmem
  rcases mem_append.1 hc with hc | hc
  · exact any_eq_false.1 h.2 c hmem (contains_iff_mem.2 hc)
  · exact h.1.not_mem hc hmem

theorem solid (h : IsIdentifier cs) : Solid cs := by
  refine .of_plain (h.not_mem (by decide)) (h.not_mem (by decide))
    (dotsApart_of_not_mem (h.not_mem (by decide))) ?_
  obtain ⟨c, cs, rfl⟩ := exists_cons_of_ne_nil h.1.1
  rw [all_cons, h.1.not_isBlank mem_cons_self, Bool.false_and]

theorem solid_dot (h : IsIdentifier cs) : Solid ('.' :: cs) := by
  have hdots : dotsApart ('.' :: cs) = true := by
    obtain ⟨c, cs, rfl⟩ := exists_cons_of_ne_nil h.1.1
    have hc : c ≠ '.' := fun hc => h.not_mem (by decide : '.' ∈ _) (by simp [hc])
    rw [dotsApart, h.solid.dots]
    simpa using hc
  refine .of_plain ?_ ?_ hdots rfl
  · simpa using h.not_mem (by decide : ',' ∈ _)
  · simpa using h.not_mem (by decide : '@' ∈ _)

end IsIdentifier

namespace IsType

theorem solid (h : IsType cs) : Solid cs := by
  have hplain : Solid "[]".toList ∧ Solid ['<'] ∧ Solid ['>'] :=
    ⟨.of_plain (by decide) (by decide) rfl (by decide),
      .of_plain (by decide) (by decide) rfl (by decide),
      .of_plain (by decide) (by decide) rfl (by decide)⟩
  induction h with
  | name h => exact h.solid
  | member _ hname ih => exact ih.append hname.solid_dot
  | array _ ih => exact ih.append hplain.1
  | generic _ hne _ hsep ih ihs =>
    exact ih.append (hplain.2.1.append (.join hne ihs hsep) |>.append hplain.2.2)

theorem not_isBlank (h : IsType cs) (hcomma : ',' ∉ cs) : ∀ c ∈ cs, isBlank c = false := by
  induction h with
  | name h => exact fun c hc => h.1.not_isBlank hc
  | member _ hname ih =>
    rw [mem_append, not_or] at hcomma
    simp only [forall_mem_append, forall_mem_cons]
    exact ⟨ih hcomma.1, rfl, fun c hc => hname.1.not_isBlank hc⟩
  | array _ ih =>
    rw [mem_append, not_or] at hcomma
    have hsigns : "[]".toList.any isBlank = false := by decide
    rw [forall_mem_append]
    exact ⟨ih hcomma.1, fun c hc => Bool.eq_false_iff.2 (any_eq_false.1 hsigns c hc)⟩
  | @generic cs args sep _ hne _ hsep ih ihs =>
    simp only [mem_append, mem_cons, not_or] at hcomma
    simp only [forall_mem_append, forall_mem_cons, cons_append]
    refine ⟨ih hcomma.1, rfl, ?_, rfl, nofun⟩
    rcases args with _ | ⟨arg, _ | ⟨arg', args⟩⟩
    · exact absurd rfl hne
    · have hjoin : joinWith sep [arg] = arg := by simp [joinWith]
      rw [hjoin] at hcomma ⊢
      exact ihs arg mem_cons_self hcomma.2.1.2
    · rw [joinWith_cons_cons] at hcomma
      simp only [mem_cons, not_mem_nil, or_false] at hsep
      rcases hsep with rfl | rfl <;> simp at hcomma

end IsType

/-! ## Reading -/

theorem erase_of_unmarked (h : '@' ∉ cs) : markPattern.erase cs = cs := by
  have hremains (b : List Char) : markPattern.remains b cs = cs := by
    induction cs generalizing b with
    | nil => rfl
    | cons c cs ih =>
      rw [mem_cons, not_or] at h
      rw [(rejects_mark fun hc => absurd hc.symm h.1).remains, ih h.2]
  exact hremains []

theorem Solid.params_ok (h : Solid cs) :
    ∃ qs, params cs = .ok qs ∧ qs.length = cs.count ',' + 1 := by
  have hparts : parts cs = (cut ',' cs).map trim := by
    refine filter_eq_self.2 (forall_mem_map.2 fun piece hpiece => ?_)
    have hfull := h.filled piece hpiece
    rw [← all_isBlank_trim] at hfull
    cases htrim : trim piece with
    | nil => rw [htrim] at hfull; cases hfull
    | cons c rest => rfl
  have hok : (params cs).isOk = true := by
    rw [isOk_params, hparts]
    refine forall_mem_map.2 fun piece hpiece => ?_
    have hmark : '@' ∉ trim piece := fun hmem =>
      h.unmarked (mem_cut hpiece '@' (trim_subset piece hmem)).1
    rw [← all_isBlank_remains [], ← Pattern.erase_eq, erase_of_unmarked hmark, all_isBlank_trim,
      h.filled piece hpiece]
    exact Bool.false_ne_true
  cases hqs : params cs with
  | error e => rw [hqs] at hok; cases hok
  | ok qs =>
    refine ⟨qs, rfl, ?_⟩
    rw [Except.length_of_mapM hqs, ← parts, hparts, length_map, length_cut]

structure Declared where
  type : List Char
  name : List Char
  isType : IsType type
  isIdentifier : IsIdentifier name

namespace Declared

variable (p : Declared)

def text : List Char := p.type ++ ' ' :: p.name

def param : Param := { name := String.ofList p.name, hint := String.ofList p.type }

theorem solid_text : Solid p.text := p.isType.solid.append p.isIdentifier.solid.blank

theorem param_text (h : ',' ∉ p.type) : trim p.text = p.text ∧ Java.param p.text = .ok p.param := by
  have hblank := p.isType.not_isBlank h
  have hname : ∀ c ∈ p.name, isBlank c = false := fun c hc => p.isIdentifier.1.not_isBlank hc
  have hne : p.type ≠ [] := fun hnil => by
    have hfull := p.isType.solid.filled [] (by simp [hnil, cut, cutFrom])
    cases hfull
  have htrim : trim p.text = p.text := by
    obtain ⟨c, cs, htype⟩ := exists_cons_of_ne_nil hne
    have hstart : isBlank c = false := hblank c (by simp [htype])
    have hsplit : p.text = (p.type ++ [' ']) ++ p.name := by simp [text]
    rw [hsplit, trim_append p.isIdentifier.1.1 (trimWhile_of_none hname), dropWhile_eq_self.2]
    simpa [htype] using hstart
  have hwords : words p.text = [p.type, p.name] := by
    rw [text, words_cons hne hblank rfl, words_word p.isIdentifier.1.1 hname]
  refine ⟨htrim, ?_⟩
  rw [Java.param, erase_of_unmarked p.solid_text.unmarked, htrim, subst_dots p.solid_text.dots,
    hwords]
  simp [param]

variable (ps : List Declared)

theorem params_texts (h : ∀ p ∈ ps, ',' ∉ p.type) :
    params (joinWith ", " (ps.map text)) = .ok (ps.map param) := by
  have hparts : parts (joinWith ", " (ps.map text)) = ps.map text := by
    cases ps with
    | nil => rfl
    | cons p ps =>
      have hcommas : ∀ x ∈ (p :: ps).map text, ',' ∉ x := forall_mem_map.2 fun q hq => by
        simpa [text, h q hq] using q.isIdentifier.not_mem (by decide : ',' ∈ _)
      have hblank : trim ∘ (' ' :: ·) = trim := funext fun _ => trim_cons rfl
      have htrim : ((p :: ps).map text).map trim = (p :: ps).map text := by
        rw [map_map]
        exact map_congr_left fun q hq => (q.param_text (h q hq)).1
      rw [map_cons] at hcommas htrim ⊢
      rw [parts, cut_commas hcommas, map_cons, map_map, hblank, ← map_cons, htrim,
        filter_eq_self]
      simp [text]
  rw [params, ← parts, hparts]
  exact Except.mapM_map fun p hp => (p.param_text (h p hp)).2

theorem count_texts (hne : ps ≠ []) : (joinWith ", " (ps.map text)).count ',' + 1 =
    ps.length + (ps.flatMap type).count ',' := by
  have htext (p : Declared) : p.text.count ',' = p.type.count ',' := by
    have hname := count_eq_zero.2 (p.isIdentifier.not_mem (by decide : ',' ∈ _))
    simp [text, hname]
  induction ps with
  | nil => exact absurd rfl hne
  | cons p ps ih =>
    cases ps with
    | nil => simp [joinWith, htext, Nat.add_comm]
    | cons q ps =>
      have hrest := ih (cons_ne_nil _ _)
      rw [map_cons, map_cons, joinWith_cons_cons, ← map_cons, count_append,
        count_append, htext, flatMap_cons, count_append, length_cons]
      have hsep : (", ".toList).count ',' = 1 := by decide
      omega

end Declared

/-- **One entry for each piece between commas.** A list of parameters is read as one parameter for
each and one more for each comma in a type, so as it is declared exactly if no type has a comma. -/
theorem params_of_generics (ps : List Declared) :
    ∃ qs, params (joinWith ", " (ps.map Declared.text)) = .ok qs ∧
      qs.length = ps.length + (ps.flatMap Declared.type).count ',' ∧
      (qs = ps.map Declared.param ↔ ∀ p ∈ ps, ',' ∉ p.type) := by
  obtain ⟨qs, hqs, hlen⟩ : ∃ qs, params (joinWith ", " (ps.map Declared.text)) = .ok qs ∧
      qs.length = ps.length + (ps.flatMap Declared.type).count ',' := by
    by_cases hne : ps = []
    · exact ⟨[], by rw [hne]; rfl, by rw [hne]; rfl⟩
    · rw [← Declared.count_texts ps hne]
      refine (Solid.join (by simpa using hne) ?_ (by decide)).params_ok
      exact forall_mem_map.2 fun p _ => p.solid_text
  refine ⟨qs, hqs, hlen, fun h p hp hcomma => ?_, fun h => ?_⟩
  · rw [h, length_map] at hlen
    have hpos : 0 < (ps.flatMap Declared.type).count ',' :=
      count_pos_iff.2 (mem_flatMap.2 ⟨p, hp, hcomma⟩)
    omega
  · rw [Declared.params_texts ps h] at hqs
    exact (Except.ok.inj hqs).symm

theorem params_of_generics_map :
    ∃ qs, params "Map<K, V> m".toList = .ok qs ∧ qs.length = 2 ∧
      qs ≠ [{ name := "m", hint := "Map<K, V>" }] := by
  have hmap : IsType ("Map".toList ++ ('<' :: joinWith ", " [['K'], ['V']] ++ ['>'])) :=
    .generic (.name ⟨⟨by decide, by decide⟩, by decide⟩) (by decide)
      (forall_mem_cons.2 ⟨.name ⟨⟨by decide, by decide⟩, by decide⟩,
        forall_mem_singleton.2 (.name ⟨⟨by decide, by decide⟩, by decide⟩)⟩) (by decide)
  obtain ⟨qs, hqs, hlen, hiff⟩ :=
    params_of_generics [⟨_, ['m'], hmap, ⟨⟨by decide, by decide⟩, by decide⟩⟩]
  refine ⟨qs, hqs, hlen, fun h => ?_⟩
  have hcomma : ',' ∉ "Map".toList ++ ('<' :: joinWith ", " [['K'], ['V']] ++ ['>']) :=
    hiff.1 h _ mem_cons_self
  exact absurd (by decide) hcomma

end Docsmith.Java
