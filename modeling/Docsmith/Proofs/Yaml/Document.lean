/-
Documents that hold truth values, whole numbers and texts under names, lists of these, and as the
last entry such entries under one more name. Whatever the values are, what is written has the layout
of `Layout`, so that its tokens are those of the entries.
-/
import Docsmith.Proofs.Yaml.Layout
import Docsmith.Proofs.Yaml.WholeNumber

namespace Docsmith.Yaml

open Sheet

/-- A value that is written as one scalar. -/
inductive Atom where
  | bool (b : Bool)
  | int (i : Int)
  | text (s : String)

namespace Atom

def value : Atom → Value
  | bool b => .bool b
  | int i => .int i
  | text s => .str s

def scalar : Atom → Scalar
  | bool b => ⟨.bool, (if b then "true" else "false").toList, false⟩
  | int i => ⟨.int, (toString i).toList, false⟩
  | text s => ⟨.str, s.toList, false⟩

theorem writeNode_value (a : Atom) (i : Nat) (inMapping isKey : Bool) (s : Sheet) :
    writeNode i inMapping isKey a.value s = s.scalar i isKey a.scalar := by
  cases a <;> simp only [value, scalar, writeNode, scalarOf?]

theorem prefersBlock_scalar (a : Atom) : a.scalar.prefersBlock = false := by
  cases a <;> rfl

end Atom

/-- What may stand under a name. -/
inductive Field where
  | atom (a : Atom)
  | list (as : List Atom)

namespace Field

def value : Field → Value
  | atom a => a.value
  | list as => .list (as.map Atom.value)

def content : Field → Content
  | atom a => .scalar a.scalar
  | list as => .list (as.map Atom.scalar)

end Field

/-! ## Scalars -/

variable {x : Scalar}

theorem Scalar.style_eq (hx : x.prefersBlock = false) : x.style false =
    if formTag x.text = x.tag ∧ mayBePlain x.text = true then .plain
    else if mayBeSingle x.text = true then .single else .double := by
  simp [Scalar.style, hx]

theorem Scalar.style_cases (hx : x.prefersBlock = false) :
    (x.style false = .plain ∧ formTag x.text = x.tag ∧ mayBePlain x.text = true) ∨
      (x.style false = .single ∧ mayBeSingle x.text = true) ∨ x.style false = .double := by
  rw [style_eq hx]
  by_cases hplain : formTag x.text = x.tag ∧ mayBePlain x.text = true
  · exact .inl ⟨if_pos hplain, hplain⟩
  rw [if_neg hplain]
  by_cases hsingle : mayBeSingle x.text = true
  · exact .inr (.inl ⟨if_pos hsingle, hsingle⟩)
  · exact .inr (.inr (if_neg hsingle))

namespace Atom

theorem style_or_tag (a : Atom) : a.scalar.style false = .plain ∨ a.scalar.tag = .str := by
  cases a with
  | bool b => exact .inl (by cases b <;> decide)
  | int i =>
    left
    rw [Scalar.style_eq rfl]
    exact if_pos ⟨formTag_toString i, mayBePlain_toString i⟩
  | text s => exact .inr rfl

/-- An empty text has the form of nothing, so it is not written plain. -/
theorem text_ne_nil {a : Atom} (h : formTag a.scalar.text = a.scalar.tag) : a.scalar.text ≠ [] := by
  intro hnil
  rw [hnil] at h
  cases a <;> cases h

theorem exists_scalar (a : Atom) {s : Sheet} {i : Nat} (hi : i + 2 < width)
    (hs : s.endsBlank = false) :
    ∃ t, (s.scalar i false a.scalar).text = s.text ++ ' ' :: t ∧
      (s.scalar i false a.scalar).isMargin = false ∧ ScalarText i a.scalar t := by
  have huntagged : (a.scalar.style false != .plain && a.scalar.tag != .str) = false := by
    rcases a.style_or_tag with h | h <;> simp [h]
  simp only [Sheet.scalar, huntagged]
  rcases Scalar.style_cases a.prefersBlock_scalar with ⟨hstyle, hform, hplain⟩ |
    ⟨hstyle, hsingle⟩ | hstyle
  · have hne := text_ne_nil hform
    obtain ⟨hwords, hfirst⟩ := isPlainText_of_mayBePlain hne hplain
    obtain ⟨t, ht, hmargin, hread, hpage, hword⟩ :=
      exists_plain (i := i) (n := i + 2) (by omega) (by omega) hs hne hplain
    rw [hstyle]
    exact ⟨t, ht, hmargin, .plain hstyle hread hpage hwords hfirst hword⟩
  · obtain ⟨t, ht, hspells⟩ := exists_single (n := i + 2) (by omega) (by omega) hs hsingle
    rw [hstyle]
    exact ⟨_, ht, by simp [single], .quoted (by simp [hstyle]) hspells⟩
  · obtain ⟨t, ht, hspells⟩ := exists_double (n := i + 2) (by omega) (by omega) hs a.scalar.text
    rw [hstyle]
    exact ⟨_, ht, by simp [double], .quoted (by simp [hstyle]) hspells⟩

end Atom

/-! ## Lists -/

variable {i : Nat} {s : Sheet}

theorem Sheet.endsBlank_toIndent (h : s.isMargin = false) : (s.toIndent i).endsBlank = true := by
  rw [toIndent_eq (.inl h)]

theorem exists_items (hi : i + 2 < width) (as : List Atom) (s : Sheet)
    (hs : s.isMargin = false) :
    ∃ t, (writeItems i (as.map Atom.value) s).text = s.text ++ t ∧
      (writeItems i (as.map Atom.value) s).isMargin = false ∧
      ItemsText i (as.map Atom.scalar) t := by
  induction as generalizing s with
  | nil => exact ⟨[], by simp [writeItems], by simpa [writeItems] using hs, .nil⟩
  | cons a as ih =>
    simp only [List.map_cons, writeItems, Atom.writeNode_value]
    obtain ⟨t, ht, hmargin, hscalar⟩ := a.exists_scalar hi
      (s := (s.toIndent i).sign "-" true true) (by simp)
    obtain ⟨u, hu, hmargin', hitems⟩ := ih _ hmargin
    refine ⟨lineOf i ('-' :: ' ' :: (t ++ u)), ?_, hmargin', .cons hscalar hitems⟩
    rw [hu, ht, text_sign, endsBlank_toIndent hs, text_toIndent (.inl hs)]
    simp [lineOf]

theorem Field.exists_content (f : Field) (hi : i + 2 < width) (hs : s.endsBlank = false)
    (hm : s.isMargin = false) :
    ∃ t, (writeNode i true false f.value s).text = s.text ++ t ∧
      (writeNode i true false f.value s).isMargin = false ∧ ContentText i f.content t := by
  cases f with
  | atom a =>
    obtain ⟨t, ht, hmargin, hscalar⟩ := a.exists_scalar hi hs
    rw [value, Atom.writeNode_value]
    exact ⟨_, ht, hmargin, .scalar hscalar⟩
  | list as =>
    cases as with
    | nil =>
      exact ⟨[' ', '[', ']'], by simp [value, writeNode, hs], by simp [value, writeNode], .empty⟩
    | cons a as =>
      obtain ⟨t, ht, hmargin, hitems⟩ := exists_items hi (a :: as) s hm
      have hnode : writeNode i true false (Field.list (a :: as)).value s =
          writeItems i ((a :: as).map Atom.value) s := by
        simp [value, writeNode, hm]
      rw [hnode]
      exact ⟨t, ht, hmargin, .items hitems⟩

/-! ## Entries -/

/-- A page with a key at an indentation, and its colon. -/
def Sheet.keyed (i : Nat) (k : String) (s : Sheet) : Sheet :=
  (writeNode i true true (.str k) (s.toIndent i)).sign ":" false false

variable {k : String}

theorem writeEntries_cons (hk : isKeyName k = true) (v : Value) (es : List (Value × Value))
    (s : Sheet) : writeEntries i ((.str k, v) :: es) s =
      writeEntries i es (writeNode i true false v (s.keyed i k)) := by
  have hsimple : isSimpleKey (.str k) = true := by
    simp only [isKeyName, Bool.and_eq_true] at hk
    exact hk.2
  simp only [writeEntries, hsimple, if_true, keyed]

theorem Sheet.text_keyed (hk : isKeyName k = true) (hs : (s.toIndent i).endsBlank = true) :
    (s.keyed i k).text = (s.toIndent i).text ++ (k.toList ++ [':']) := by
  have hstyle : (⟨.str, k.toList, false⟩ : Scalar).style true = .plain := by
    simp only [isKeyName, Bool.and_eq_true, beq_iff_eq] at hk
    exact hk.1.2
  have hnode : writeNode i true true (.str k) (s.toIndent i) =
      (s.toIndent i).plain (i + 2) false k.toList := by
    simp only [writeNode, scalarOf?, scalar, hstyle]
    rfl
  rw [keyed, text_sign, hnode, text_plain_word (isPlainWord_of_isKeyName hk) hs]
  simp

theorem exists_entry (hi : i + 2 < width) (hk : isKeyName k = true) (f : Field)
    (hs : (s.toIndent i).endsBlank = true) :
    ∃ t, (writeNode i true false f.value (s.keyed i k)).text =
        (s.toIndent i).text ++ (k.toList ++ ':' :: t) ∧
      (writeNode i true false f.value (s.keyed i k)).isMargin = false ∧
      ContentText i f.content t := by
  obtain ⟨t, ht, hmargin, hcontent⟩ := f.exists_content (s := s.keyed i k) hi
    (by simp [keyed]) (by simp [keyed])
  refine ⟨t, ?_, hmargin, hcontent⟩
  rw [ht, text_keyed hk hs]
  simp

def valuesOf (es : List (String × Field)) : List (Value × Value) :=
  es.map fun e => (.str e.1, e.2.value)

def contentsOf (es : List (String × Field)) : List (String × Content) :=
  es.map fun e => (e.1, e.2.content)

theorem exists_entries (hi : i + 2 < width) (es : List (String × Field)) (s : Sheet)
    (hk : ∀ e ∈ es, isKeyName e.1 = true) (hs : s.isMargin = false) :
    ∃ t, (writeEntries i (valuesOf es) s).text = s.text ++ t ∧
      (writeEntries i (valuesOf es) s).isMargin = false ∧ EntriesText i (contentsOf es) t := by
  induction es generalizing s with
  | nil =>
    exact ⟨[], by simp [valuesOf, writeEntries], by simpa [valuesOf, writeEntries] using hs, .nil⟩
  | cons e es ih =>
    have hname := hk e List.mem_cons_self
    obtain ⟨t, ht, hmargin, hcontent⟩ :=
      exists_entry hi hname e.2 (endsBlank_toIndent hs)
    obtain ⟨u, hu, hmargin', hentries⟩ :=
      ih _ (fun e he => hk e (List.mem_cons_of_mem _ he)) hmargin
    have hstep : writeEntries i (valuesOf (e :: es)) s =
        writeEntries i (valuesOf es) (writeNode i true false e.2.value (s.keyed i e.1)) :=
      writeEntries_cons hname ..
    rw [hstep]
    refine ⟨lineOf i (e.1.toList ++ ':' :: (t ++ u)), ?_, hmargin', .cons hname hcontent hentries⟩
    rw [hu, ht, text_toIndent (.inl hs)]
    simp [lineOf]

theorem exists_entries_blank {es : List (String × Field)} (anchored : List Nat) (hne : es ≠ [])
    (hk : ∀ e ∈ es, isKeyName e.1 = true) :
    ∃ t, '\n' :: (writeEntries 0 (valuesOf es) { anchored }).text = t ∧
      (writeEntries 0 (valuesOf es) { anchored }).isMargin = false ∧
      EntriesText 0 (contentsOf es) t := by
  obtain ⟨e, es, rfl⟩ := List.exists_cons_of_ne_nil hne
  have hname := hk e List.mem_cons_self
  obtain ⟨t, ht, hmargin, hcontent⟩ :=
    exists_entry (i := 0) (s := { anchored }) (by decide) hname e.2 rfl
  obtain ⟨u, hu, hmargin', hentries⟩ :=
    exists_entries (i := 0) (by decide) es _ (fun x hx => hk x (List.mem_cons_of_mem _ hx)) hmargin
  have hstep : writeEntries 0 (valuesOf (e :: es)) { anchored } = writeEntries 0 (valuesOf es)
      (writeNode 0 true false e.2.value (({ anchored } : Sheet).keyed 0 e.1)) :=
    writeEntries_cons hname ..
  rw [hstep]
  refine ⟨lineOf 0 (e.1.toList ++ ':' :: (t ++ u)), ?_, hmargin', .cons hname hcontent hentries⟩
  rw [hu, ht, show (({ anchored } : Sheet).toIndent 0).text = [] from rfl]
  simp [lineOf]

/-- A map under a key is indented further. -/
theorem exists_group {es : List (String × Field)} (hk : isKeyName k = true) (hne : es ≠ [])
    (hes : ∀ e ∈ es, isKeyName e.1 = true) (hs : s.isMargin = false) :
    ∃ t, (writeEntries 0 [(.str k, .map (valuesOf es))] s).text =
        s.text ++ lineOf 0 (k.toList ++ ':' :: t) ∧
      (writeEntries 0 [(.str k, .map (valuesOf es))] s).isMargin = false ∧
      EntriesText 2 (contentsOf es) t := by
  obtain ⟨t, ht, hmargin, hentries⟩ :=
    exists_entries (i := 2) (by decide) es (s.keyed 0 k) hes (by simp [keyed])
  have hgroup : writeEntries 0 [(.str k, .map (valuesOf es))] s =
      writeEntries 2 (valuesOf es) (s.keyed 0 k) := by
    rw [writeEntries_cons hk]
    simp [writeEntries, writeNode, valuesOf, stepWidth, hne]
  rw [hgroup]
  refine ⟨t, ?_, hmargin, hentries⟩
  rw [ht, text_keyed hk (endsBlank_toIndent hs), text_toIndent (.inl hs)]
  simp [lineOf]

theorem writeEntries_append (i : Nat) (es fs : List (Value × Value)) (s : Sheet) :
    writeEntries i (es ++ fs) s = writeEntries i fs (writeEntries i es s) := by
  induction es generalizing s with
  | nil => simp [writeEntries]
  | cons e es ih =>
    obtain ⟨k, v⟩ := e
    simp only [List.cons_append, writeEntries]
    split <;> exact ih _

/-! ## Documents -/

/-- A map of fields whose last entry is a map of fields. -/
structure Document where
  outer : List (String × Field)
  group : String
  inner : List (String × Field)
  outer_ne_nil : outer ≠ []
  inner_ne_nil : inner ≠ []
  outer_names : ∀ e ∈ outer, isKeyName e.1 = true
  group_name : isKeyName group = true
  inner_names : ∀ e ∈ inner, isKeyName e.1 = true
  outer_nodup : (outer.map Prod.fst ++ [group]).Nodup
  inner_nodup : (inner.map Prod.fst).Nodup

namespace Document

def entries (d : Document) : List (Value × Value) :=
  valuesOf d.outer ++ [(.str d.group, .map (valuesOf d.inner))]

def lineTokens (d : Document) : List Token :=
  .blockMapping :: entryTokens (contentsOf d.outer) ++
    (keyTokens d.group ++ .blockMapping :: entryTokens (contentsOf d.inner))

theorem toList_write (d : Document) : ∃ anchored, (write d.entries).toList =
    ((writeEntries 0 [(.str d.group, .map (valuesOf d.inner))]
      (writeEntries 0 (valuesOf d.outer) { anchored })).toIndent 0).text := by
  have hne : d.entries.isEmpty = false := by simp [entries]
  refine ⟨(Meeting.entries d.entries {}).again, ?_⟩
  rw [write, hne, if_neg Bool.false_ne_true, String.toList_ofList, ← writeEntries_append]
  rfl

theorem exists_lines (d : Document) : ∃ u, u ++ ['\n'] = '\n' :: (write d.entries).toList ∧
    IsPage u ∧ Passes 0 u (-1, []) (2, [0, -1]) d.lineTokens := by
  obtain ⟨anchored, hwrite⟩ := d.toList_write
  obtain ⟨t, ht, hmargin, hentries⟩ :=
    exists_entries_blank anchored d.outer_ne_nil d.outer_names
  obtain ⟨u, hu, hmargin', hgroup⟩ :=
    exists_group d.group_name d.inner_ne_nil d.inner_names hmargin
  refine ⟨t ++ lineOf 0 (d.group.toList ++ ':' :: u), ?_, ?_, ?_⟩
  · rw [hwrite, text_toIndent (.inl hmargin'), hu, ← ht]
    simp
  · rw [isPage_append, isPage_lineOf]
    simpa [show isSpecial ':' = false by decide] using
      ⟨hentries.isPage, (isPlainWord_of_isKeyName d.group_name).isPage, hgroup.isPage⟩
  · have hinner : contentsOf d.inner ≠ [] := by simpa [contentsOf] using d.inner_ne_nil
    have houter : contentsOf d.outer ≠ [] := by simpa [contentsOf] using d.outer_ne_nil
    exact (hentries.passes_open [] (by decide) houter).append
      (passes_group [-1] d.group_name (by decide) hinner hgroup)

theorem tokensOf_write (d : Document) : tokensOf (write d.entries).toList =
    some (d.lineTokens ++ [.blockEnd, .blockEnd]) := by
  obtain ⟨u, hu, hpage, hpasses⟩ := d.exists_lines
  exact tokensOf_lines hu hpage hpasses

end Document

end Docsmith.Yaml
