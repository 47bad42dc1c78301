/-
Paths as lists of names: what reading and writing them keeps, where `..` leads, and in which order
they stand.

`ofString_text`: an absolute path without `..` is read back from its text, so that no two of them
share one. `climb_append`: names behind a path are added to the place that the path means.
`eq_of_ordered`: paths in order are determined by which of them there are.
-/
import Docsmith.Path

namespace Docsmith

open List

/-! ## Cutting at a character -/

namespace Text

theorem cutFrom_eq (sep : Char) (cs piece : List Char) :
    cutFrom sep piece cs = cs.splitOnPPrepend (· == sep) piece := by
  induction cs generalizing piece with
  | nil => rfl
  | cons c cs ih =>
    rw [cutFrom, splitOnPPrepend_cons_eq_if, ih, ih]
    simp

theorem cut_eq_splitOn (sep : Char) (cs : List Char) : cut sep cs = cs.splitOn sep :=
  cutFrom_eq sep cs []

theorem cut_append (sep : Char) (cs ds : List Char) : ∃ front a b back,
    cut sep cs = front ++ [a] ∧ cut sep ds = b :: back ∧
      cut sep (cs ++ ds) = front ++ (a ++ b) :: back := by
  simp only [cut_eq_splitOn]
  obtain ⟨b, back, hds⟩ := exists_cons_of_ne_nil (splitOn_ne_nil sep ds)
  induction cs with
  | nil => exact ⟨[], [], b, back, rfl, hds, hds⟩
  | cons c cs ih =>
    obtain ⟨front, a, b, back, hcs, hds, happ⟩ := ih
    rw [cons_append, splitOn_cons_eq_if_modifyHead, splitOn_cons_eq_if_modifyHead,
      hcs, happ]
    split
    · exact ⟨[] :: front, a, b, back, rfl, hds, rfl⟩
    · rcases front with _ | ⟨first, front⟩
      · exact ⟨[], c :: a, b, back, rfl, hds, rfl⟩
      · exact ⟨(c :: first) :: front, a, b, back, rfl, hds, rfl⟩

theorem cut_append_plain {sep : Char} (cs : List Char) {ds : List Char} (h : sep ∉ ds) :
    ∃ front piece, cut sep cs = front ++ [piece] ∧ cut sep (cs ++ ds) = front ++ [piece ++ ds] := by
  obtain ⟨front, a, b, back, hcs, hds, happ⟩ := cut_append sep cs ds
  rw [cut_eq_splitOn, splitOn_eq_singleton h] at hds
  obtain ⟨rfl, rfl⟩ := cons.inj hds
  exact ⟨front, a, hcs, happ⟩

theorem length_cut (sep : Char) (cs : List Char) : (cut sep cs).length = cs.count sep + 1 := by
  rw [cut_eq_splitOn]
  induction cs with
  | nil => rfl
  | cons c cs ih =>
    rw [splitOn_cons_eq_if_modifyHead, count_cons, apply_ite length]
    by_cases hc : c = sep <;> simp [hc, ih]

theorem mem_cut {sep : Char} {cs piece : List Char} (h : piece ∈ cut sep cs) :
    ∀ c ∈ piece, c ∈ cs ∧ c ≠ sep := by
  rw [cut_eq_splitOn] at h
  induction cs generalizing piece with
  | nil => simp at h; simp [h]
  | cons d cs ih =>
    have hcons : ∀ piece ∈ cs.splitOn sep, ∀ c ∈ piece, c ∈ d :: cs ∧ c ≠ sep := fun piece h c hc =>
      ⟨mem_cons_of_mem _ (ih h c hc).1, (ih h c hc).2⟩
    rw [splitOn_cons_eq_if_modifyHead] at h
    split at h
    · simp only [mem_cons] at h
      rcases h with rfl | h
      · simp
      · exact hcons piece h
    next hd =>
      rcases hs : cs.splitOn sep with _ | ⟨first, rest⟩
      · exact absurd hs (splitOn_ne_nil sep cs)
      · rw [hs] at h hcons
        simp only [modifyHead_cons, mem_cons] at h
        rcases h with rfl | h
        · intro c hc
          rcases mem_cons.1 hc with rfl | hc
          · exact ⟨mem_cons_self, by simpa using hd⟩
          · exact hcons first mem_cons_self c hc
        · exact hcons piece (mem_cons_of_mem _ h)

end Text

namespace Path

variable {p : Path} {loc : List String} {ps : List Path}

theorem eq_of_root_parts {q : Path} (hr : p.root = q.root) (hp : p.parts = q.parts) : p = q := by
  cases p; cases q; simp_all

theorem parent_append (root : String) (parts : List String) (name : String) :
    (⟨root, parts ++ [name]⟩ : Path).parent = ⟨root, parts⟩ := by
  rw [parent, dropLast_concat]

/-! ## Names -/

/-- A name that a folder can hold. -/
structure IsName (s : String) : Prop where
  ne_empty : s ≠ ""
  ne_dot : s ≠ "."
  ne_dots : s ≠ ".."
  no_slash : '/' ∉ s.toList

instance (s : String) : Decidable (IsName s) :=
  decidable_of_iff (s ≠ "" ∧ s ≠ "." ∧ s ≠ ".." ∧ '/' ∉ s.toList)
    ⟨fun ⟨he, hd, hds, hs⟩ => ⟨he, hd, hds, hs⟩,
      fun h => ⟨h.ne_empty, h.ne_dot, h.ne_dots, h.no_slash⟩⟩

/-- A path as it is read from a text: every part is a name or leads back. -/
def Proper (p : Path) : Prop := ∀ part ∈ p.parts, part = ".." ∨ IsName part

theorem mem_partsOf {s part : String} (h : part ∈ partsOf s) : part = ".." ∨ IsName part := by
  simp only [partsOf, mem_filter, mem_map, decide_eq_true_eq] at h
  obtain ⟨⟨piece, hp, rfl⟩, hne, hdot⟩ := h
  by_cases hd : String.ofList piece = ".."
  · exact .inl hd
  · exact .inr ⟨hne, hdot, hd, fun hc => (Text.mem_cut hp '/' (by simpa using hc)).2 rfl⟩

theorem proper_ofString (s : String) : (ofString s).Proper := fun _ => mem_partsOf

theorem Proper.parent (h : p.Proper) : p.parent.Proper :=
  fun part hpart => h part (dropLast_subset _ hpart)

/-! ## Places -/

theorem climb_append (done xs ys : List String) :
    climb done (xs ++ ys) = climb (climb done xs).reverse ys := by
  induction xs generalizing done with
  | nil => simp [climb]
  | cons x xs ih =>
    simp only [cons_append, climb]
    split
    · exact ih _
    · exact ih _

theorem climb_names {done xs : List String} (h : ∀ x ∈ xs, x ≠ "..") :
    climb done xs = done.reverse ++ xs := by
  induction xs generalizing done with
  | nil => simp [climb]
  | cons x xs ih =>
    simp only [mem_cons, forall_eq_or_imp] at h
    rw [climb, if_neg h.1, ih h.2]
    simp

theorem mem_climb {done xs : List String} {x : String} (h : x ∈ climb done xs) :
    x ∈ done ∨ x ∈ xs ∧ x ≠ ".." := by
  induction xs generalizing done with
  | nil => simp only [climb, mem_reverse] at h; exact .inl h
  | cons y xs ih =>
    simp only [climb] at h
    split at h
    · rcases ih h with h | ⟨h, hne⟩
      · exact .inl (mem_of_mem_tail h)
      · exact .inr ⟨mem_cons_of_mem _ h, hne⟩
    · rename_i hy
      rcases ih h with h | ⟨h, hne⟩
      · simp only [mem_cons] at h
        rcases h with rfl | h
        · exact .inr ⟨mem_cons_self, hy⟩
        · exact .inl h
      · exact .inr ⟨mem_cons_of_mem _ h, hne⟩

/-- The place that an absolute path without `..` writes. -/
def ofPlace (loc : List String) : Path := ⟨"/", loc⟩

theorem text_ofPlace (loc : List String) : (ofPlace loc).text = "/" ++ "/".intercalate loc := by
  simp [text, ofPlace]

theorem toList_text_ofPlace (loc : List String) :
    (ofPlace loc).text.toList = '/' :: ['/'].intercalate (loc.map String.toList) := by
  rw [text_ofPlace, String.toList_append, String.toList_intercalate]
  rfl

theorem partsOf_text (h : ∀ x ∈ loc, IsName x) : partsOf (ofPlace loc).text = loc := by
  have hcut : Text.cut '/' (ofPlace loc).text.toList =
      [] :: if loc = [] then [[]] else loc.map String.toList := by
    rw [toList_text_ofPlace, Text.cut_eq_splitOn, splitOn_cons_eq_if_modifyHead]
    simp only [beq_self_eq_true, if_true]
    split
    next he => subst he; rfl
    next he =>
      rw [splitOn_intercalate _ _ (by simpa using he)]
      intro l hl
      obtain ⟨x, hx, rfl⟩ := mem_map.1 hl
      exact (h x hx).no_slash
  rw [partsOf, hcut]
  by_cases he : loc = []
  · subst he; rfl
  · rw [if_neg he, map_cons, filter_cons]
    simp only [map_map, Function.comp_def, String.ofList_toList, map_id']
    rw [if_neg (by decide)]
    exact filter_eq_self.2 fun x hx => by simp [(h x hx).ne_empty, (h x hx).ne_dot]

theorem root_ofString {s : String} {cs : List Char} (hs : s.toList = '/' :: cs)
    (hcs : cs.head? ≠ some '/') : (ofString s).root = "/" := by
  simp only [ofString, hs]
  split
  · rfl
  · rename_i h; simp only [cons.injEq] at h; simp [h.2] at hcs
  · rfl
  · rename_i h; exact absurd rfl (h _)

theorem isAbsolute_ofString (s : String) :
    (ofString s).isAbsolute = true ↔ s.toList.head? = some '/' := by
  simp only [ofString, isAbsolute]
  split
  next h => simp [h]
  next h => simp [h]
  next h => simp [h]
  next h =>
    rcases hs : s.toList with _ | ⟨c, cs⟩
    · simp
    · have hc : c ≠ '/' := by rintro rfl; exact h cs hs
      simp [hc]

theorem head?_intercalate (h : ∀ x ∈ loc, IsName x) :
    ("/".intercalate loc).toList.head? ≠ some '/' := by
  rw [String.toList_intercalate]
  rcases loc with _ | ⟨x, loc⟩
  · simp
  · have hx := h x (by simp)
    rcases hl : x.toList with _ | ⟨c, cs⟩
    · exact absurd (String.toList_eq_nil_iff.1 hl) hx.ne_empty
    · have hc : c ≠ '/' := fun he => hx.no_slash (by rw [hl, he]; simp)
      rcases loc with _ | ⟨y, loc⟩ <;> simp [hl, hc]

/-- **An absolute path without `..` is read back from its text.** -/
theorem ofString_text (h : ∀ x ∈ loc, IsName x) : ofString (ofPlace loc).text = ofPlace loc := by
  have htext : (ofPlace loc).text.toList = '/' :: ("/".intercalate loc).toList := by
    rw [text_ofPlace, String.toList_append]
    rfl
  exact eq_of_root_parts (root_ofString htext (head?_intercalate h)) (partsOf_text h)

theorem div_intercalate (p : Path) (h : ∀ x ∈ loc, IsName x) :
    p / "/".intercalate loc = ⟨p.root, p.parts ++ loc⟩ := by
  have hslash (s : String) : partsOf ("/" ++ s) = partsOf s := by
    have hs : ("/" ++ s).toList = '/' :: s.toList := by rw [String.toList_append]; rfl
    simp [partsOf, hs, Text.cut_eq_splitOn, splitOn_cons_eq_if_modifyHead]
  have hparts : (ofString ("/".intercalate loc)).parts = loc :=
    (hslash _).symm.trans (text_ofPlace loc ▸ partsOf_text h)
  have habs := mt (isAbsolute_ofString _).1 (head?_intercalate h)
  show (if _ then _ else _) = _
  rw [if_neg habs, hparts]

theorem div_name (p : Path) {name : String} (h : IsName name) :
    p / name = ⟨p.root, p.parts ++ [name]⟩ := by
  have hdiv := div_intercalate p (forall_mem_singleton.2 h)
  rwa [String.intercalate_singleton] at hdiv

theorem text_ofPlace_inj {loc' : List String} (h : ∀ x ∈ loc, IsName x) (h' : ∀ x ∈ loc', IsName x)
    (he : (ofPlace loc).text = (ofPlace loc').text) : loc = loc' := by
  have := congrArg ofString he
  rw [ofString_text h, ofString_text h'] at this
  exact congrArg parts this

theorem intercalate_below_inj {above names names' : List (List Char)} (h : names ≠ [])
    (h' : names' ≠ [])
    (heq : ['/'].intercalate (above ++ names) = ['/'].intercalate (above ++ names')) :
    ['/'].intercalate names = ['/'].intercalate names' := by
  induction above with
  | nil => exact heq
  | cons x above ih =>
    obtain ⟨y, ys, hys⟩ := exists_cons_of_ne_nil (append_ne_nil_of_right_ne_nil above h)
    obtain ⟨z, zs, hzs⟩ := exists_cons_of_ne_nil (append_ne_nil_of_right_ne_nil above h')
    rw [cons_append, cons_append, hys, hzs, intercalate_cons_cons,
      intercalate_cons_cons, ← hys, ← hzs] at heq
    exact ih (append_cancel_left heq)

theorem text_of_parts (h : p.parts ≠ []) : p.text = p.root ++ "/".intercalate p.parts := by
  simp [text, h]

theorem suffix_intercalate {sep : List Char} {names : List (List Char)} {last : List Char}
    (h : names.getLast? = some last) : last <:+ sep.intercalate names := by
  induction names with
  | nil => cases h
  | cons x names ih =>
    cases names with
    | nil =>
      obtain rfl : x = last := by simpa using h
      simp
    | cons y names =>
      rw [intercalate_cons_cons]
      exact (ih (by simpa using h)).trans (suffix_append _ _)

theorem suffix_text : p.name.toList <:+ p.text.toList := by
  rw [name]
  cases h : p.parts.getLast? with
  | none => exact nil_suffix
  | some last =>
    have hne : p.parts ≠ [] := fun hnil => by simp [hnil] at h
    rw [text_of_parts hne, String.toList_append, String.toList_intercalate]
    refine (suffix_intercalate ?_).trans (suffix_append _ _)
    rw [getLast?_map, h]
    rfl

theorem text_below_inj {root : String} {above names names' : List String}
    (hne : names ≠ []) (hne' : names' ≠ []) (h : ∀ x ∈ names, IsName x)
    (h' : ∀ x ∈ names', IsName x)
    (heq : (⟨root, above ++ names⟩ : Path).text = (⟨root, above ++ names'⟩ : Path).text) :
    names = names' := by
  rw [text_of_parts (by simp [hne]), text_of_parts (by simp [hne']), ← String.toList_inj,
    String.toList_append, String.toList_append, String.toList_intercalate, String.toList_intercalate,
    map_append, map_append] at heq
  have hbelow := intercalate_below_inj (by simpa using hne) (by simpa using hne')
    (append_cancel_left heq)
  refine text_ofPlace_inj h h' (String.toList_inj.1 ?_)
  rw [toList_text_ofPlace, toList_text_ofPlace, hbelow]

/-- An absolute path without `..`. -/
def Normal (p : Path) : Prop := p.root = "/" ∧ ∀ x ∈ p.parts, IsName x

theorem Normal.eq_ofPlace (h : p.Normal) : p = ofPlace p.parts :=
  eq_of_root_parts h.1 rfl

theorem Normal.ofString_text (h : p.Normal) : ofString p.text = p := by
  rw [h.eq_ofPlace]
  exact Path.ofString_text h.2

/-! ## Order -/

theorem sort_ordered (ps : List Path) : (sort ps).Pairwise fun p q => q.before p = false := by
  have trans : ∀ p q r : Path, (!q.before p) = true → (!r.before q) = true →
      (!r.before p) = true := by
    intro p q r hpq hqr
    simp only [before, Bool.not_eq_true', decide_eq_false_iff_not, List.not_lt] at *
    exact List.le_trans hpq hqr
  have total : ∀ p q : Path, (!q.before p || !p.before q) = true := by
    intro p q
    simp only [before, Bool.or_eq_true, Bool.not_eq_true', decide_eq_false_iff_not, List.not_lt]
    exact List.le_total _ _
  exact (pairwise_mergeSort trans total ps).imp fun {p q} hpq => by simpa using hpq

theorem sort_pair (p q : Path) : sort [p, q] = if q.before p = false then [p, q] else [q, p] := by
  simp [sort, mergeSort, merge, MergeSort.Internal.splitInTwo]

@[simp] theorem mem_sort : p ∈ sort ps ↔ p ∈ ps := by simp [sort]

theorem nodup_sort (h : ps.Nodup) : (sort ps).Nodup :=
  (mergeSort_perm ps _).symm.nodup h

theorem eq_of_not_before {q : Path} (hr : p.root = q.root) (hpq : p.before q = false)
    (hqp : q.before p = false) : p = q := by
  have hall : p.allParts = q.allParts :=
    List.le_antisymm (List.not_lt.1 (of_decide_eq_false hqp))
      (List.not_lt.1 (of_decide_eq_false hpq))
  refine eq_of_root_parts hr ?_
  rw [allParts, allParts, hr] at hall
  split at hall
  · exact hall
  · exact (cons.inj hall).2

/-- **Paths of one root in order** are determined by which of them there are. -/
theorem eq_of_ordered (root : String) {qs : List Path}
    (hp : ps.Pairwise fun p q => q.before p = false)
    (hq : qs.Pairwise fun p q => q.before p = false) (hpn : ps.Nodup) (hqn : qs.Nodup)
    (hroot : ∀ p ∈ ps, p.root = root) (hmem : ∀ p, p ∈ ps ↔ p ∈ qs) : ps = qs := by
  have hperm : ps.Perm qs := (perm_ext_iff_of_nodup hpn hqn).2 hmem
  refine hperm.eq_of_pairwise (fun p q hp hq hpq hqp => ?_) hp hq
  exact eq_of_not_before (by rw [hroot p hp, hroot q ((hmem q).2 hq)]) hqp hpq

end Path

end Docsmith
