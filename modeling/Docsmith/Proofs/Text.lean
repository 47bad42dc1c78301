/-
Texts that are put together from parts, and the parts again: trimming, words, the pieces between
commas and between line ends.
-/
import Docsmith.Proofs.Path
import Docsmith.Text.Word

namespace Docsmith.Text

open List

/-! ## Blank characters -/

def blankCodes : List Nat :=
  [9, 10, 11, 12, 13, 28, 29, 30, 31, 32, 0x85, 0xA0, 0x1680, 0x2000, 0x2001, 0x2002, 0x2003,
    0x2004, 0x2005, 0x2006, 0x2007, 0x2008, 0x2009, 0x200A, 0x2028, 0x2029, 0x202F, 0x205F, 0x3000]

theorem isBlank_of_isWord {c : Char} (h : isWord c = true) : isBlank c = false := by
  rw [Bool.eq_false_iff]
  intro hblank
  have hcode : c.toNat ∈ blankCodes := by
    simp only [isBlank, Bool.or_eq_true, Bool.and_eq_true, decide_eq_true_eq, beq_iff_eq] at hblank
    simp only [blankCodes, mem_cons, not_mem_nil, or_false]
    omega
  have hnone : ∀ n ∈ blankCodes, isWord (Char.ofNat n) = false := by decide +kernel
  rw [← Char.ofNat_toNat c, hnone _ hcode] at h
  cases h

theorem isWord_of_isAsciiWord {c : Char} (h : isAsciiWord c = true) : isWord c = true := by
  have hlt : c.toNat < 128 := by
    unfold isAsciiWord Char.isAlphanum Char.isAlpha Char.isUpper Char.isLower Char.isDigit at h
    simp only [Bool.or_eq_true, Bool.and_eq_true, decide_eq_true_eq, beq_iff_eq,
      UInt32.le_iff_toNat_le] at h
    rcases h with h | rfl
    · have hval : c.toNat = c.val.toNat := rfl
      have hZ : 'Z'.val.toNat = 90 := rfl
      have hz : 'z'.val.toNat = 122 := rfl
      have h9 : '9'.val.toNat = 57 := rfl
      omega
    · decide
  rw [isWord, if_pos hlt]
  exact h

variable {cs ds : List Char} {c : Char}

/-! ## Trimming -/

variable {p : Char → Bool} {t r : List Char} {sep : Char}

theorem dropWhile_eq_self : cs.dropWhile p = cs ↔ cs.head?.any p = false := by
  cases cs with
  | nil => simp
  | cons c cs =>
    by_cases hc : p c = true
    · simp only [dropWhile_cons_of_pos hc, head?_cons, Option.any_some, hc,
        Bool.true_eq_false, iff_false]
      intro h
      have := congrArg length h
      have := (dropWhile_sublist p (l := cs)).length_le
      simp only [length_cons] at *
      omega
    · simp [hc]

theorem head?_dropWhile (p : Char → Bool) (cs : List Char) :
    (cs.dropWhile p).head?.any p = false := by
  have hnot := head?_dropWhile_not p cs
  cases hd : (cs.dropWhile p).head? with
  | none => rfl
  | some c => rw [hd] at hnot; exact hnot

theorem head?_dropEndWhile (h : cs.head?.any p = false) :
    (dropEndWhile p cs).head?.any p = false := by
  have hprefix : dropEndWhile p cs <+: cs := by
    rw [← reverse_suffix, dropEndWhile, reverse_reverse]
    exact dropWhile_suffix p
  obtain ⟨ds, hds⟩ := hprefix
  cases hcs : dropEndWhile p cs with
  | nil => rfl
  | cons c rest =>
    rw [← hds, hcs] at h
    exact h

theorem exists_run (p : Char → Bool) (cs : List Char) :
    ∃ t r, cs = t ++ r ∧ t.all p = true ∧ r.head?.any p = false :=
  ⟨cs.takeWhile p, cs.dropWhile p, takeWhile_append_dropWhile.symm,
    all_takeWhile, head?_dropWhile p cs⟩

theorem takeWhile_run (ht : t.all p = true) (hr : r.head?.any p = false) :
    (t ++ r).takeWhile p = t := by
  rw [takeWhile_append_of_pos (all_eq_true.1 ht)]
  cases r with
  | nil => simp
  | cons c r =>
    rw [head?_cons, Option.any_some] at hr
    simp [hr]

theorem dropWhile_run (ht : t.all p = true) (hr : r.head?.any p = false) :
    (t ++ r).dropWhile p = r := by
  rw [dropWhile_append_of_pos (all_eq_true.1 ht), dropWhile_eq_self.2 hr]

theorem run_unique {t' r' : List Char} (ht : t.all p = true) (hr : r.head?.any p = false)
    (ht' : t'.all p = true) (hr' : r'.head?.any p = false) (h : t ++ r = t' ++ r') :
    t = t' ∧ r = r' := by
  have hrun : t = t' := by rw [← takeWhile_run ht hr, h, takeWhile_run ht' hr']
  subst hrun
  exact ⟨rfl, append_cancel_left h⟩

theorem trim_eq_self : trim cs = cs ↔
    cs.head?.any isBlank = false ∧ cs.getLast?.any isBlank = false := by
  rw [trim, trimWhile, dropEndWhile, ← head?_reverse, ← dropWhile_eq_self,
    ← dropWhile_eq_self]
  constructor
  · intro h
    have hlen := congrArg length h
    have h1 := (dropWhile_sublist isBlank (l := cs)).length_le
    have h2 := (dropWhile_sublist isBlank (l := (cs.dropWhile isBlank).reverse)).length_le
    rw [length_reverse] at hlen h2
    have hstart : cs.dropWhile isBlank = cs :=
      (dropWhile_sublist isBlank).eq_of_length (by omega)
    rw [hstart] at h
    exact ⟨hstart, reverse_eq_iff.1 h⟩
  · rintro ⟨hstart, hend⟩
    rw [hstart, hend, reverse_reverse]

theorem trim_trim (cs : List Char) : trim (trim cs) = trim cs := by
  refine trim_eq_self.2 ⟨head?_dropEndWhile (head?_dropWhile isBlank cs), ?_⟩
  rw [trim, trimWhile, dropEndWhile, getLast?_reverse]
  exact head?_dropWhile isBlank _

theorem trim_cons (hc : isBlank c = true) : trim (c :: cs) = trim cs := by
  rw [trim, trimWhile, dropWhile_cons_of_pos hc, trim, trimWhile]

theorem trim_concat (hc : isBlank c = true) : trim (cs ++ [c]) = trim cs := by
  rw [trim, trimWhile, dropWhile_append, trim, trimWhile]
  split
  next h =>
    rw [List.isEmpty_iff] at h
    simp [h, hc, dropEndWhile]
  next => simp [hc, dropEndWhile]

theorem trimWhile_of_none (h : ∀ c ∈ cs, p c = false) : trimWhile p cs = cs := by
  have hstart {cs : List Char} (h : ∀ c ∈ cs, p c = false) : cs.dropWhile p = cs :=
    dropWhile_eq_self.2 ((Option.any_eq_false _ _).2 fun c hc => h c (mem_of_head? hc))
  rw [trimWhile, hstart h, dropEndWhile, hstart (by simpa using h), reverse_reverse]

theorem trim_append (hne : ds ≠ []) (hds : trim ds = ds) (cs : List Char) :
    trim (cs ++ ds) = cs.dropWhile isBlank ++ ds := by
  obtain ⟨hstart, hend⟩ := trim_eq_self.1 hds
  have hdrop : (cs ++ ds).dropWhile isBlank = cs.dropWhile isBlank ++ ds := by
    rw [dropWhile_append, dropWhile_eq_self.2 hstart]
    split <;> simp_all
  rw [trim, trimWhile, hdrop, dropEndWhile, dropWhile_eq_self.2, reverse_reverse]
  rw [head?_reverse, getLast?_append, getLast?_eq_some_getLast hne]
  rwa [getLast?_eq_some_getLast hne] at hend

theorem trim_subset (cs : List Char) : trim cs ⊆ cs := fun c hc => by
  rw [trim, trimWhile, dropEndWhile, mem_reverse] at hc
  exact (dropWhile_sublist _).subset (mem_reverse.1 ((dropWhile_sublist _).subset hc))

/-! ## Blank texts -/

theorem dropWhile_eq_nil : cs.dropWhile p = [] ↔ cs.all p = true := by
  induction cs with
  | nil => simp
  | cons c cs ih => cases hc : p c <;> simp [hc, ih]

theorem all_dropWhile (p : Char → Bool) : (cs.dropWhile p).all p = cs.all p := by
  induction cs with
  | nil => rfl
  | cons c cs ih =>
    cases hc : p c with
    | true => simp [hc, ih]
    | false => simp [hc]

theorem all_isBlank_trim : (trim cs).all isBlank = cs.all isBlank := by
  rw [trim, trimWhile, dropEndWhile, all_reverse, all_dropWhile, all_reverse,
    all_dropWhile]

/-- Where an exchange replaces what is not blank by what is not blank, a text stays blank or not. -/
theorem all_isBlank_subst {old new : List Char} (hold : old.all isBlank = false)
    (hnew : new.all isBlank = false) : (subst old new cs).all isBlank = cs.all isBlank := by
  rw [subst]
  induction cs with
  | nil => rfl
  | cons c cs ih =>
    rw [substFrom]
    split
    next h =>
      obtain ⟨ds, hds⟩ := List.isPrefixOf_iff_prefix.1 h
      rw [all_append, hnew, ← hds, all_append, hold, Bool.false_and, Bool.false_and]
    next => rw [all_cons, all_cons, ih]

/-! ## Words -/

theorem wordsFrom_append (word ds : List Char) (h : ∀ c ∈ cs, isBlank c = false) :
    wordsFrom word (cs ++ ds) = wordsFrom (cs.reverse ++ word) ds := by
  induction cs generalizing word with
  | nil => rfl
  | cons c cs ih =>
    obtain ⟨hc, hcs⟩ := forall_mem_cons.1 h
    rw [cons_append, wordsFrom, if_neg (by rw [hc]; decide), ih _ hcs]
    simp

theorem words_word (hne : cs ≠ []) (h : ∀ c ∈ cs, isBlank c = false) : words cs = [cs] := by
  have hall := wordsFrom_append [] [] h
  rw [append_nil] at hall
  rw [words, hall, wordsFrom]
  simp [hne]

theorem words_append (hc : isBlank c = true) (cs ds : List Char) :
    words (cs ++ c :: ds) = words cs ++ words ds := by
  have hfrom (word : List Char) :
      wordsFrom word (cs ++ c :: ds) = wordsFrom word cs ++ words ds := by
    induction cs generalizing word with
    | nil => cases word <;> simp [wordsFrom, hc, words]
    | cons x cs ih => cases hx : isBlank x <;> cases word <;> simp [wordsFrom, hx, ih]
  exact hfrom []

theorem words_blank (hc : isBlank c = true) : words (c :: cs) = words cs := words_append hc [] cs

theorem words_cons (hne : cs ≠ []) (h : ∀ c ∈ cs, isBlank c = false) (hc : isBlank c = true) :
    words (cs ++ c :: ds) = cs :: words ds := by
  rw [words_append hc, words_word hne h, singleton_append]

theorem wordsFrom_eq_nil {word : List Char} :
    wordsFrom word cs = [] ↔ word = [] ∧ cs.all isBlank = true := by
  induction cs generalizing word with
  | nil => cases word <;> simp [wordsFrom]
  | cons c cs ih =>
    rw [wordsFrom]
    cases hc : isBlank c with
    | true => cases word <;> simp [hc, ih]
    | false => simp [hc, ih]

theorem words_eq_nil : words cs = [] ↔ cs.all isBlank = true := by
  simp [words, wordsFrom_eq_nil]

theorem lastWord?_eq_none : lastWord? cs = none ↔ cs.all isBlank = true := by
  rw [← all_reverse, ← dropWhile_eq_nil, lastWord?]
  cases h : cs.reverse.dropWhile isBlank with
  | nil => simp
  | cons d ds =>
    have hd : isBlank d = false := by
      have hhead := head?_dropWhile_not isBlank cs.reverse
      rw [h] at hhead
      simpa using hhead
    simp [hd]

/-! ## Cut in two -/

theorem bne_of_not_mem (h : sep ∉ cs) : ∀ c ∈ cs, (c != sep) = true :=
  fun _ hc => bne_iff_ne.2 fun he => h (he ▸ hc)

theorem cutFirst?_of_not_mem (h : sep ∉ cs) : cutFirst? sep cs = none := by
  have hall : cs.dropWhile (· != sep) = [] :=
    dropWhile_eq_nil.2 (all_eq_true.2 (bne_of_not_mem h))
  rw [cutFirst?, hall]

theorem cutFirst?_append (h : sep ∉ cs) : cutFirst? sep (cs ++ sep :: ds) = some (cs, ds) := by
  rw [cutFirst?, dropWhile_append_of_pos (bne_of_not_mem h),
    takeWhile_append_of_pos (bne_of_not_mem h)]
  simp

theorem getD_cutFirst? (sep : Char) (cs : List Char) : (cutFirst? sep cs).getD (cs, []) =
    (cs.takeWhile (· != sep), (cs.dropWhile (· != sep)).tail) := by
  rw [cutFirst?]
  cases h : cs.dropWhile (· != sep) with
  | nil =>
    have hcs := takeWhile_append_dropWhile (p := (· != sep)) (l := cs)
    rw [h, append_nil] at hcs
    rw [Option.getD_none, tail_nil, hcs]
  | cons d ds => rfl

theorem exists_last (h : c ∈ cs) : ∃ u v, cs = u ++ c :: v ∧ c ∉ v := by
  obtain ⟨v, u, hcs, hv⟩ := eq_append_cons_of_mem (mem_reverse.2 h)
  exact ⟨u.reverse, v.reverse, by simpa using congrArg reverse hcs, by simpa using hv⟩

theorem cutLast?_of_not_mem (h : sep ∉ cs) : cutLast? sep cs = none := by
  rw [cutLast?, cutFirst?_of_not_mem (by simpa using h)]
  rfl

theorem cutLast?_append (h : sep ∉ ds) : cutLast? sep (cs ++ sep :: ds) = some (cs, ds) := by
  rw [cutLast?, reverse_append, reverse_cons, append_assoc, singleton_append,
    cutFirst?_append (by simpa using h)]
  simp

theorem subst_append {new : List Char} (h : c ∉ ds) (cs : List Char) :
    subst [c] new (cs ++ ds) = subst [c] new cs ++ ds := by
  simp only [subst]
  induction cs with
  | nil =>
    induction ds with
    | nil => rfl
    | cons d ds ih => simp_all [substFrom]
  | cons x cs ih => by_cases hx : c = x <;> simp_all [substFrom]

theorem dropLead_of_not_mem {lead : String} (hlead : c ∈ lead.toList) (h : c ∉ cs) :
    dropLead [lead] cs = cs := by
  have hnone : dropPrefix? lead.toList cs = none := by
    generalize lead.toList = l at hlead
    induction l generalizing cs with
    | nil => cases hlead
    | cons x l ih => cases cs <;> grind [dropPrefix?]
  simp [dropLead, hnone]

theorem occurs_iff {needle cs : List Char} : occurs needle cs = true ↔ needle <:+: cs := by
  induction cs with
  | nil => simp [occurs]
  | cons c cs ih =>
    rw [occurs, Bool.or_eq_true, List.isPrefixOf_iff_prefix, ih, infix_cons_iff]

/-! ## Joined texts -/

theorem mem_intercalate {sep : List Char} {ls : List (List Char)} {x : Char}
    (h : x ∈ sep.intercalate ls) : x ∈ sep ∨ ∃ l ∈ ls, x ∈ l := by
  induction ls with
  | nil => simp at h
  | cons l ls ih =>
    rcases ls with _ | ⟨l', ls⟩
    · exact .inr ⟨l, by simp, by simpa using h⟩
    · rw [intercalate_cons_cons, mem_append, mem_append] at h
      rcases h with (h | h) | h
      · exact .inr ⟨l, by simp, h⟩
      · exact .inl h
      · rcases ih h with h | ⟨k, hk, h⟩
        · exact .inl h
        · exact .inr ⟨k, mem_cons_of_mem _ hk, h⟩

def unlines (ls : List (List Char)) : List Char := ls.flatMap (· ++ ['\n'])

@[simp] theorem unlines_nil : unlines [] = [] := rfl

@[simp] theorem unlines_cons (l : List Char) (ls : List (List Char)) :
    unlines (l :: ls) = l ++ '\n' :: unlines ls := by
  simp [unlines]

@[simp] theorem unlines_append (ls ls' : List (List Char)) :
    unlines (ls ++ ls') = unlines ls ++ unlines ls' := by
  simp [unlines]

variable {l : List Char} {ls : List (List Char)}

theorem getLast?_unlines (b : List Char) (hls : ls ≠ []) :
    (b ++ unlines ls).getLast? = some '\n' := by
  obtain ⟨front, l, rfl⟩ : ∃ front l, ls = front ++ [l] :=
    ⟨ls.dropLast, ls.getLast hls, (dropLast_concat_getLast hls).symm⟩
  simp

theorem count_unlines (h : ∀ l ∈ ls, '\n' ∉ l) : (unlines ls).count '\n' = ls.length := by
  induction ls with
  | nil => rfl
  | cons l ls ih =>
    obtain ⟨hl, hls⟩ := forall_mem_cons.1 h
    rw [unlines_cons, count_append, count_cons_self, ih hls, count_eq_zero.2 hl,
      length_cons]
    omega

theorem exists_unlines (h : cs.getLast?.all (· == '\n') = true) :
    ∃ ls, cs = unlines ls ∧ ∀ l ∈ ls, '\n' ∉ l := by
  induction cs with
  | nil => exact ⟨[], rfl, nofun⟩
  | cons c cs ih =>
    by_cases hcs : cs = []
    · have hc : c = '\n' := by simpa [hcs] using h
      exact ⟨[[]], by simp [hc, hcs], by simp⟩
    · rw [getLast?_cons_of_ne_nil hcs] at h
      obtain ⟨ls, rfl, hls⟩ := ih h
      by_cases hc : c = '\n'
      · exact ⟨[] :: ls, by simp [hc], by simpa using hls⟩
      · cases ls with
        | nil => exact absurd rfl hcs
        | cons l ls =>
          obtain ⟨hl, hls⟩ := forall_mem_cons.1 hls
          refine ⟨(c :: l) :: ls, by simp, forall_mem_cons.2 ⟨?_, hls⟩⟩
          simpa [hl] using fun h => hc h.symm

theorem joinWith_cons_cons (sep : String) (x y : List Char) (xs : List (List Char)) :
    joinWith sep (x :: y :: xs) = x ++ sep.toList ++ joinWith sep (y :: xs) :=
  intercalate_cons_cons

/-- A blank behind a comma may as well belong to what comes next. -/
theorem joinWith_commas (l : List Char) (ls : List (List Char)) :
    joinWith ", " (l :: ls) = joinWith "," (l :: ls.map (' ' :: ·)) := by
  have hcons (x : List Char) (xs : List (List Char)) :
      joinWith "," ((' ' :: x) :: xs) = ' ' :: joinWith "," (x :: xs) := by
    cases xs <;> simp [joinWith]
  induction ls generalizing l with
  | nil => rfl
  | cons l' ls ih =>
    rw [joinWith_cons_cons, ih, map_cons, joinWith_cons_cons, hcons]
    simp

theorem cut_commas (h : ∀ x ∈ l :: ls, ',' ∉ x) :
    cut ',' (joinWith ", " (l :: ls)) = l :: ls.map (' ' :: ·) := by
  rw [joinWith_commas, cut_eq_splitOn]
  refine splitOn_intercalate _ ?_ (cons_ne_nil _ _)
  simpa using h

theorem cut_lines (hne : ls ≠ []) (h : ∀ x ∈ ls, '\n' ∉ x) : cut '\n' (joinWith "\n" ls) = ls := by
  rw [cut_eq_splitOn]
  exact splitOn_intercalate _ h hne

theorem unlines_eq (hne : ls ≠ []) : unlines ls = joinWith "\n" ls ++ ['\n'] := by
  induction ls with
  | nil => exact absurd rfl hne
  | cons l ls ih =>
    cases ls with
    | nil => simp [joinWith]
    | cons l' ls =>
      rw [unlines_cons, ih (cons_ne_nil _ _), joinWith_cons_cons]
      simp

theorem cut_unlines (h : ∀ x ∈ ls, '\n' ∉ x) : cut '\n' (unlines ls) = ls ++ [[]] := by
  have hjoin : unlines ls = joinWith "\n" (ls ++ [[]]) := by
    induction ls with
    | nil => rfl
    | cons l ls ih =>
      obtain ⟨l', ls', hls⟩ := exists_cons_of_ne_nil (append_ne_nil_of_right_ne_nil ls
        (cons_ne_nil ([] : List Char) []))
      rw [unlines_cons, ih (forall_mem_cons.1 h).2, cons_append, hls, joinWith_cons_cons]
      simp
  rw [hjoin, cut_lines (by simp)]
  intro x hx
  rcases mem_append.1 hx with hx | hx
  · exact h x hx
  · rw [mem_singleton.1 hx]
    exact not_mem_nil

theorem exists_joinWith_cons (sep : String) (l : List Char) (ls : List (List Char)) :
    ∃ u, joinWith sep (l :: ls) = l ++ u := by
  cases ls with
  | nil => exact ⟨[], by simp [joinWith]⟩
  | cons l' ls => exact ⟨sep.toList ++ joinWith sep (l' :: ls), by simp [joinWith]⟩

theorem exists_joinWith_append (sep : String) (hne : ls ≠ []) :
    ∃ u, ∃ l ∈ ls, joinWith sep ls = u ++ l := by
  induction ls with
  | nil => exact absurd rfl hne
  | cons l ls ih =>
    cases ls with
    | nil => exact ⟨[], l, mem_cons_self, by simp [joinWith]⟩
    | cons l' ls =>
      obtain ⟨u, x, hx, hjoin⟩ := ih (cons_ne_nil _ _)
      refine ⟨l ++ sep.toList ++ u, x, mem_cons_of_mem _ hx, ?_⟩
      rw [joinWith_cons_cons, hjoin, ← append_assoc]

theorem trim_joinWith (sep : String) (hls : ∀ l ∈ ls, l ≠ [] ∧ trim l = l) :
    trim (joinWith sep ls) = joinWith sep ls := by
  cases ls with
  | nil => rfl
  | cons l ls =>
    rw [trim_eq_self]
    constructor
    · obtain ⟨hne, htrim⟩ := hls l mem_cons_self
      obtain ⟨u, hu⟩ := exists_joinWith_cons sep l ls
      obtain ⟨c, cs, rfl⟩ := exists_cons_of_ne_nil hne
      rw [hu]
      exact (trim_eq_self.1 htrim).1
    · obtain ⟨u, x, hx, hu⟩ := exists_joinWith_append sep (cons_ne_nil l ls)
      obtain ⟨hne, htrim⟩ := hls x hx
      rw [hu, getLast?_append, getLast?_eq_some_getLast hne]
      have hlast := (trim_eq_self.1 htrim).2
      rwa [getLast?_eq_some_getLast hne] at hlast

end Docsmith.Text
