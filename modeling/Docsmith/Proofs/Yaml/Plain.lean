/-
Scalars without quotes are read back. `Unquoted` says what a text is read as when the next line is
indented no further than the collection that the scalar stands in.
-/
import Docsmith.Proofs.Yaml.Quoted

namespace Docsmith.Yaml

open List

/-! ## Words and what is between them -/

variable {w u x t r : List Char} {i n : Nat}

/-- The word at the start of a text. -/
def firstWord (cs : List Char) : List Char := cs.takeWhile fun c => !isWordStop c

theorem plainWord_append (hw : ∀ c ∈ w, isWordStop c = false) (hlast : w.getLast? ≠ some ':')
    (hu : endsPlain false (charAt u 0) (charAt u 1) = true) :
    plainWord false (w ++ u) = (w, u) := by
  induction w with
  | nil =>
    cases u with
    | nil => rfl
    | cons c u =>
      have hc : endsPlain false c (charAt u 0) = true := hu
      simp [plainWord, hc]
  | cons c w ih =>
    have hc := hw c mem_cons_self
    have hgoes : endsPlain false c (charAt (w ++ u) 0) = false := by
      cases w with
      | nil =>
        have hcolon : c ≠ ':' := by simpa using hlast
        simp [endsPlain, hc, hcolon]
      | cons d w => simp [endsPlain, hc, charAt, hw d (by simp)]
    have hrest : w.getLast? ≠ some ':' := by
      intro h
      apply hlast
      rw [getLast?_cons, h]
      rfl
    rw [cons_append, plainWord, hgoes, if_neg (by decide),
      ih (fun d hd => hw d (mem_cons_of_mem _ hd)) hrest]

theorem span_spaces (k : Nat) (hu : Solid u) :
    (replicate k ' ' ++ u).span (· == ' ') = (replicate k ' ', u) := by
  rw [span_eq_takeWhile_dropWhile]
  induction k with
  | zero =>
    cases u with
    | nil => rfl
    | cons c u =>
      have hc := (isWordStop_eq_false.1 (solid_cons.1 hu)).1
      simp [hc]
  | succ k ih =>
    obtain ⟨h1, h2⟩ := Prod.mk.inj ih
    simp [replicate_succ, h1, h2]

theorem plainSpaces_spaces (k : Nat) (hu : Solid u) :
    plainSpaces (replicate k ' ' ++ u) = (replicate k ' ', none, u) := by
  rw [plainSpaces, span_spaces k hu]
  simp only [isBreak_charAt hu]
  rfl

variable {k room : Nat} {c b : Char} {split : Bool} {s : Sheet}

theorem plainBreaks_spaces (column room : Nat) (hu : Solid u) (hroom : k ≤ room) :
    plainBreaks column room (replicate k ' ' ++ u) = (some [], column + k, u) := by
  induction k generalizing column room with
  | zero =>
    cases room with
    | zero => rfl
    | succ room =>
      have hspace : (charAt u 0 == ' ') = false := by
        cases u with
        | nil => decide
        | cons c u => simpa [charAt] using (isWordStop_eq_false.1 (solid_cons.1 hu)).1
      simp [plainBreaks, hspace, isBreak_charAt hu]
  | succ k ih =>
    obtain ⟨room, rfl⟩ : ∃ m, room = m + 1 := ⟨room - 1, by omega⟩
    have hrest := ih (column + 1) room (by omega)
    rw [replicate_succ, cons_append, plainBreaks, if_pos (by rfl), drop_one,
      tail_cons, hrest]
    simp [Nat.add_comm, Nat.add_left_comm]

theorem plainSpaces_line (k : Nat) (hu : Solid u)
    (hsep : isSeparator (replicate k ' ' ++ u) = false) :
    plainSpaces ('\n' :: (replicate k ' ' ++ u)) = ([' '], some k, u) := by
  have hspan : ('\n' :: (replicate k ' ' ++ u)).span (· == ' ') =
      ([], '\n' :: (replicate k ' ' ++ u)) := by
    rw [span_eq_takeWhile_dropWhile]
    rfl
  have hbreaks := plainBreaks_spaces (k := k) 0 ((replicate k ' ' ++ u).length + 1) hu
    (by rw [length_append, length_replicate]; omega)
  rw [Nat.zero_add] at hbreaks
  rw [plainSpaces, hspan]
  simp only
  rw [if_pos (by rfl), takeBreak]
  simp only [hsep, hbreaks]
  rfl

/-! ## Plain scalars -/

/-- In a collection with the indentation `i`, the plain text `t` is read as `x` if the next line is
indented no further. -/
def Unquoted (i : Nat) (t x : List Char) : Prop :=
  ∀ j r, j ≤ i → Solid r → isSeparator (replicate j ' ' ++ r) = false →
    ∀ room, t.length ≤ room →
      plain false (i + 1) room (t ++ '\n' :: (replicate j ' ' ++ r)) = (x, true, r)

/-- A word of a plain scalar: it does not end in a colon. -/
structure IsPlainWord (w : List Char) : Prop where
  ne_nil : w ≠ []
  isPage : IsPage w
  not_stop : ∀ c ∈ w, isWordStop c = false
  last : w.getLast? ≠ some ':'

/-- A text that a plain scalar may go on with behind a space. -/
structure GoesOn (t : List Char) : Prop where
  solid : Solid t
  no_comment : charAt t 0 ≠ '#'
  not_ends : ∀ u, endsPlain false (charAt (t ++ u) 0) (charAt (t ++ u) 1) = false

theorem GoesOn.solid_append (h : GoesOn t) (u : List Char) : Solid (t ++ u) := by
  obtain ⟨hsolid, -, hends⟩ := h
  cases t with
  | nil =>
    have hnone := hends []
    cases hnone
  | cons c t => exact solid_cons.2 (solid_cons.1 hsolid)

theorem isSeparator_spaces (hn : 0 < n) : isSeparator (replicate n ' ' ++ u) = false := by
  obtain ⟨n, rfl⟩ : ∃ m, n = m + 1 := ⟨n - 1, by omega⟩
  exact isSeparator_cons (by decide) (by decide)

theorem IsPlainWord.unquoted (hw : IsPlainWord w) : Unquoted i w w := by
  intro j r hj hr hsep room hroom
  have hpos := length_pos_iff.2 hw.ne_nil
  obtain ⟨room, rfl⟩ : ∃ m, room = m + 1 := ⟨room - 1, by omega⟩
  have hout : ((j : Int) < (i : Int) + 1) := by omega
  rw [plain, plainWord_append hw.not_stop hw.last (by rfl)]
  simp [plainSpaces_line j hr hsep, hout]

/-- A word, a gap that counts as spaces, and what a plain scalar goes on with. -/
theorem Unquoted.between (gap spaces : List Char) (column : Option Nat) (hw : IsPlainWord w)
    (hc : isWordStop c = true) (hne : spaces ≠ [])
    (hspaces : ∀ r, plainSpaces (c :: (gap ++ (t ++ r))) = (spaces, column, t ++ r))
    (hcolumn : ∀ k ∈ column, i < k) (hgoes : GoesOn t) (h : Unquoted i t x) :
    Unquoted i (w ++ c :: (gap ++ t)) (w ++ (spaces ++ x)) := by
  intro j r hj hr hsep room hroom
  have hpos := length_pos_iff.2 hw.ne_nil
  rw [length_append, length_cons, length_append] at hroom
  obtain ⟨room, rfl⟩ : ∃ m, room = m + 1 := ⟨room - 1, by omega⟩
  have hrest := h j r hj hr hsep room (by omega)
  have hword := plainWord_append (u := c :: (gap ++ (t ++ '\n' :: (replicate j ' ' ++ r))))
    hw.not_stop hw.last (by simp [endsPlain, charAt, hc])
  have hcomment : (charAt (t ++ '\n' :: (replicate j ' ' ++ r)) 0 == '#') = false := by
    cases t with
    | nil => rfl
    | cons d t => simpa [charAt] using hgoes.no_comment
  have hempty : spaces.isEmpty = false := by simpa using hne
  rw [append_assoc, cons_append, append_assoc, plain, hword]
  simp only [hspaces, hcomment, hgoes.not_ends, hempty, hrest]
  cases column with
  | none => simp
  | some k =>
    have hout : ¬ (k : Int) < i + 1 := by have := hcolumn k rfl; omega
    simp [hout]

theorem Unquoted.spaces (hw : IsPlainWord w) (hgoes : GoesOn t) (h : Unquoted i t x) :
    Unquoted i (w ++ (replicate (k + 1) ' ' ++ t)) (w ++ (replicate (k + 1) ' ' ++ x)) :=
  h.between (replicate k ' ') (replicate (k + 1) ' ') none hw (by decide) (by simp)
    (fun r => plainSpaces_spaces (k + 1) (hgoes.solid_append r)) (by simp) hgoes

theorem Unquoted.fold (hn : i < n) (hw : IsPlainWord w) (hgoes : GoesOn t) (h : Unquoted i t x) :
    Unquoted i (w ++ '\n' :: (replicate n ' ' ++ t)) (w ++ ' ' :: x) :=
  h.between (replicate n ' ') [' '] (some n) hw (by decide) (by simp)
    (fun r => plainSpaces_line n (hgoes.solid_append r) (isSeparator_spaces (by omega)))
    (by simpa using hn) hgoes

/-! ## Texts that may be plain -/

/-- A text that a plain scalar may have: one line without signs, and no space at its ends. -/
structure IsPlainText (x : List Char) : Prop where
  ne_nil : x ≠ []
  isPage : IsPage x
  one_line : '\n' ∉ x
  solid : Solid x
  last : x.getLast? ≠ some ' '
  no_sign : hasSignAfter ' ' x = false

theorem hasSignAfter_append {cs ds : List Char}
    (h : hasSignAfter b (cs ++ c :: ds) = false) : hasSignAfter c ds = false := by
  induction cs generalizing b with
  | nil =>
    rw [nil_append, hasSignAfter, Bool.or_eq_false_iff] at h
    exact h.2
  | cons d cs ih =>
    rw [cons_append, hasSignAfter, Bool.or_eq_false_iff] at h
    exact ih h.2

theorem not_colon_of_hasSignAfter {cs ds : List Char}
    (h : hasSignAfter b (cs ++ c :: ds) = false) (hds : isWordStop (charAt ds 0) = true) :
    c ≠ ':' := by
  rintro rfl
  induction cs generalizing b with
  | nil => simp [hasSignAfter, hds] at h
  | cons d cs ih =>
    rw [cons_append, hasSignAfter, Bool.or_eq_false_iff] at h
    exact ih h.2

theorem isPlainWord_of_parts (hne : w ≠ []) (hp : IsPage w) (hspace : ' ' ∉ w) (hline : '\n' ∉ w)
    (hu : isWordStop (charAt u 0) = true) (hsign : hasSignAfter b (w ++ u) = false) :
    IsPlainWord w := by
  refine ⟨hne, hp, fun c hc => ?_, fun hlast => ?_⟩
  · rw [isWordStop_eq (hp c hc)]
    have h1 : c ≠ ' ' := fun h => hspace (h ▸ hc)
    have h2 : c ≠ '\n' := fun h => hline (h ▸ hc)
    simp [h1, h2]
  · obtain ⟨v, rfl⟩ := getLast?_eq_some_iff.1 hlast
    rw [append_assoc] at hsign
    exact not_colon_of_hasSignAfter hsign hu rfl

theorem IsPlainText.cases (h : IsPlainText x) : IsPlainWord x ∨
    ∃ w k y, x = w ++ (replicate (k + 1) ' ' ++ y) ∧ IsPlainWord w ∧ IsPlainText y := by
  obtain ⟨hne, hp, hline, hsolid, hlast, hsign⟩ := h
  have hx := takeWhile_append_dropWhile (p := (· != ' ')) (l := x)
  have hspace : ' ' ∉ x.takeWhile (· != ' ') := fun hmem => by
    simpa using all_eq_true.1 all_takeWhile ' ' hmem
  have hword : x.takeWhile (· != ' ') ≠ [] := by
    obtain ⟨c, tail, rfl⟩ := exists_cons_of_ne_nil hne
    have hc := (isWordStop_eq_false.1 (solid_cons.1 hsolid)).1
    simp [hc]
  have hhead := head?_dropWhile_not (· != ' ') x
  generalize x.takeWhile (· != ' ') = w at hx hspace hword
  generalize x.dropWhile (· != ' ') = rest at hx hhead
  subst hx
  obtain ⟨hpw, hpr⟩ := isPage_append.1 hp
  have hlines : '\n' ∉ w ∧ '\n' ∉ rest := by simpa using hline
  cases rest with
  | nil =>
    rw [append_nil]
    exact .inl (isPlainWord_of_parts (u := []) hword hpw hspace hlines.1 rfl hsign)
  | cons c tail =>
    obtain rfl : c = ' ' := by simpa using hhead
    obtain ⟨k, y, -, -, hrun, hy⟩ :=
      exists_run (p := (· == ' ')) tail rfl fun d _ hd => eq_of_beq hd
    rw [hrun] at hlast hsign hpr hlines ⊢
    have hyne : y ≠ [] := by
      rintro rfl
      apply hlast
      simp [replicate_succ']
    have hyline : '\n' ∉ y := fun hmem => hlines.2 (mem_append_right _ hmem)
    refine .inr ⟨w, k, y, rfl, ?_, hyne, (isPage_append.1 hpr).2, hyline, ?_, ?_, ?_⟩
    · exact isPlainWord_of_parts hword hpw hspace hlines.1 (by rfl) hsign
    · refine solid_of_isPage (isPage_append.1 hpr).2 hy fun d hd => ?_
      have hmem := mem_of_mem_head? hd
      rw [isValueBreak_eq ((isPage_append.1 hpr).2 d hmem)]
      exact beq_eq_false_iff_ne.2 fun h => hyline (h ▸ hmem)
    · intro hend
      apply hlast
      rw [← append_assoc, getLast?_append, hend]
      rfl
    · rw [replicate_succ', append_assoc, ← append_assoc] at hsign
      exact hasSignAfter_append hsign

theorem firstWord_append (hw : ∀ c ∈ w, isWordStop c = false)
    (hu : isWordStop (charAt u 0) = true) :
    firstWord (w ++ u) = w := by
  have hall : ∀ c ∈ w, (!isWordStop c) = true := fun c hc => by simp [hw c hc]
  rw [firstWord, takeWhile_append_of_pos hall]
  cases u with
  | nil => simp
  | cons c u =>
    have hc : isWordStop c = true := hu
    simp [hc]

theorem exists_of_firstWord {y : List Char} (hc : isWordStop c = false)
    (hword : firstWord t = firstWord (c :: y)) : ∃ v, t = c :: (firstWord y ++ v) := by
  have ht := takeWhile_append_dropWhile (p := fun c => !isWordStop c) (l := t)
  rw [show t.takeWhile (fun c => !isWordStop c) = _ from hword] at ht
  refine ⟨t.dropWhile fun c => !isWordStop c, ht.symm.trans ?_⟩
  simp [firstWord, hc]

/-- What starts with the same word as a plain text may follow a space. -/
theorem IsPlainText.goesOn (h : IsPlainText x) (hword : firstWord t = firstWord x) : GoesOn t := by
  obtain ⟨c, y, rfl⟩ := exists_cons_of_ne_nil h.ne_nil
  have hc := solid_cons.1 h.solid
  obtain ⟨v, rfl⟩ := exists_of_firstWord hc hword
  have hsign := h.no_sign
  rw [hasSignAfter, Bool.or_eq_false_iff, Bool.or_eq_false_iff] at hsign
  refine ⟨solid_cons.2 hc, ?_, fun u => ?_⟩
  · rintro rfl
    cases hsign.1.2
  · by_cases hcolon : c = ':'
    · subst hcolon
      have hnext : isWordStop (charAt y 0) = false := by simpa using hsign.1.1
      cases y with
      | nil => cases hnext
      | cons d y =>
        have hd : isWordStop d = false := hnext
        simp [endsPlain, charAt, firstWord, hd, hc]
    · simp [endsPlain, charAt, hc, hcolon]

open Sheet (width)

theorem plainText_word (hw : IsPlainWord w) (hu : ∀ c ∈ u.head?, c = ' ') :
    Sheet.plainText n split (room + 1) (w ++ u) s = Sheet.plainText n split room u (s.put w) := by
  have hspace (c : Char) (hc : c ∈ w) : (c != ' ') = true := by
    simpa using (isWordStop_eq_false.1 (hw.not_stop c hc)).1
  have hspan : (w ++ u).span (· != ' ') = (w, u) := by
    rw [span_eq_takeWhile_dropWhile, takeWhile_append_of_pos hspace,
      dropWhile_append_of_pos hspace]
    cases u with
    | nil => simp
    | cons c u => simp [hu c rfl]
  have hempty : (w ++ u).isEmpty = false := by simp [hw.ne_nil]
  have hsolid : Solid (w ++ u) := by
    obtain ⟨c, v, rfl⟩ := exists_cons_of_ne_nil hw.ne_nil
    exact solid_cons.2 (hw.not_stop c mem_cons_self)
  have hnone : (w ++ u).span (· == ' ') = ([], w ++ u) := span_spaces 0 hsolid
  rw [Sheet.plainText, hspan, hempty, hnone]
  rfl

theorem plainText_spaces (hu : Solid u) :
    Sheet.plainText n true (room + 1) (replicate (k + 1) ' ' ++ u) s =
      Sheet.plainText n true room u (if k = 0 ∧ width < s.column then
          { s.toIndent n with endsBlank := false, isMargin := false }
        else s.put (replicate (k + 1) ' ')) := by
  rw [Sheet.plainText, span_spaces (k + 1) hu]
  simp
  split <;> simp_all

theorem plainText_one (hw : IsPlainWord w) : Sheet.plainText n split (room + 1) w s = s.put w := by
  have hword : Sheet.plainText n split (room + 1) (w ++ []) s =
      Sheet.plainText n split room [] (s.put w) := plainText_word hw (by simp)
  rw [append_nil] at hword
  rw [hword]
  cases room <;> simp [Sheet.plainText]

theorem exists_plainText (hi : i < n) (hn : n ≤ width) (room : Nat) (x : List Char) (s : Sheet)
    (hroom : x.length < room) (hm : s.isMargin = false) (hx : IsPlainText x) :
    ∃ t, (Sheet.plainText n true room x s).text = s.text ++ t ∧
      (Sheet.plainText n true room x s).isMargin = false ∧ Unquoted i t x ∧ IsPage t ∧
      firstWord t = firstWord x := by
  induction hlen : x.length using Nat.strongRecOn generalizing room x s with
  | _ m ih =>
  obtain ⟨room, rfl⟩ : ∃ k, room = k + 1 := ⟨room - 1, by omega⟩
  rcases hx.cases with hw | ⟨w, k, y, rfl, hw, hy⟩
  · rw [plainText_one hw]
    exact ⟨x, Sheet.text_put s x, hm, hw.unquoted, hw.isPage, rfl⟩
  · have hpos := length_pos_iff.2 hw.ne_nil
    simp only [length_append, length_replicate] at hlen hroom
    obtain ⟨room, rfl⟩ : ∃ k, room = k + 1 := ⟨room - 1, by omega⟩
    have hstart : firstWord (w ++ (replicate (k + 1) ' ' ++ y)) = w :=
      firstWord_append hw.not_stop (by rfl)
    rw [plainText_word hw (by simp [replicate_succ]), plainText_spaces hy.solid, hstart]
    split
    · rename_i hfold
      obtain ⟨rfl, hwide⟩ := hfold
      have hput : n < (s.put w).column := by omega
      obtain ⟨t, ht, hmargin, hread, hp, hword⟩ := ih y.length (by omega) room y
        { (s.put w).toIndent n with endsBlank := false, isMargin := false } (by omega) rfl hy rfl
      refine ⟨w ++ '\n' :: (replicate n ' ' ++ t), ?_, hmargin,
        hread.fold hi hw (hy.goesOn hword), ?_, firstWord_append hw.not_stop (by rfl)⟩
      · refine ht.trans ?_
        show ((s.put w).toIndent n).text ++ t = _
        rw [Sheet.text_toIndent (.inr hput)]
        simp
      · simpa using ⟨hw.isPage, by decide, isPage_replicate (by decide) n, hp⟩
    · obtain ⟨t, ht, hmargin, hread, hp, hword⟩ := ih y.length (by omega) room y
        ((s.put w).put (replicate (k + 1) ' ')) (by omega) hm hy rfl
      refine ⟨w ++ (replicate (k + 1) ' ' ++ t), by simp [ht], hmargin,
        hread.spaces hw (hy.goesOn hword), ?_, firstWord_append hw.not_stop (by rfl)⟩
      simpa using ⟨hw.isPage, isPage_replicate (by decide) (k + 1), hp⟩

theorem isPlainText_of_mayBePlain (hne : x ≠ []) (hx : mayBePlain x = true) :
    IsPlainText x ∧ isFirstSign (charAt x 0) (charAt x 1) = false := by
  obtain ⟨c, y, rfl⟩ := exists_cons_of_ne_nil hne
  simp only [mayBePlain, traits, isEmpty_cons, Bool.false_or, Bool.not_eq_true',
    Bool.or_eq_false_iff] at hx
  obtain ⟨⟨⟨⟨⟨⟨⟨-, hfirst⟩, hsign⟩, hbreak⟩, hspecial⟩, hedge⟩, -⟩, -⟩ := hx
  have hp : IsPage (c :: y) := by simpa [IsPage] using hspecial
  have hline (d : Char) (hd : d ∈ c :: y) : d ≠ '\n' := by
    have hno := any_eq_false.1 hbreak d hd
    simpa [isValueBreak_eq (hp d hd)] using hno
  have hc : isWordStop c = false := by
    have hspace : c ≠ ' ' := by
      rintro rfl
      cases hedge.1.1
    rw [isWordStop_eq (hp c mem_cons_self)]
    simp [hspace, hline c mem_cons_self]
  refine ⟨⟨by simp, hp, fun h => hline _ h rfl, solid_cons.2 hc, fun h => ?_, ?_⟩, hfirst⟩
  · rw [h] at hedge
    cases hedge.2.1
  · rw [isFirstSign, Bool.or_eq_false_iff] at hfirst
    have hcolon : (c == ':' && isWordStop (charAt y 0)) = false := by
      by_cases hcolon : c = ':'
      · subst hcolon
        exact hfirst.2
      · simp [hcolon]
    have hcomment : (c == '#') = false := by
      refine beq_eq_false_iff_ne.2 ?_
      rintro rfl
      simp [charAt] at hfirst
    rw [hasSignAfter, hcolon, hcomment]
    exact hsign

theorem exists_plain (hi : i < n) (hn : n ≤ width) (hs : s.endsBlank = false)
    (hne : x ≠ []) (hx : mayBePlain x = true) :
    ∃ t, (s.plain n true x).text = s.text ++ ' ' :: t ∧ (s.plain n true x).isMargin = false ∧
      Unquoted i t x ∧ IsPage t ∧ firstWord t = firstWord x := by
  obtain ⟨hplain, -⟩ := isPlainText_of_mayBePlain hne hx
  obtain ⟨t, ht, hmargin, hread, hp, hword⟩ := exists_plainText hi hn (x.length + 1) x
    { s.put [' '] with endsBlank := false, isMargin := false } (by omega) rfl hplain
  have hempty : x.isEmpty = false := by simpa using hne
  have hdef : s.plain n true x = Sheet.plainText n true (x.length + 1) x
      { s.put [' '] with endsBlank := false, isMargin := false } := by
    simp [Sheet.plain, hempty, hs]
  rw [hdef]
  refine ⟨t, ht.trans ?_, hmargin, hread, hp, hword⟩
  simp [Sheet.text, Sheet.put]

theorem text_plain_word (hw : IsPlainWord w) (hs : s.endsBlank = true) :
    (s.plain n split w).text = s.text ++ w := by
  have hempty : w.isEmpty = false := by simpa using hw.ne_nil
  simp only [Sheet.plain, hempty, hs, if_true, plainText_one hw]
  exact Sheet.text_put _ w

end Docsmith.Yaml
