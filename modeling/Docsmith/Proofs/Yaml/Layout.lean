/-
The layout of a document: entries line by line, each a key with a scalar, a list of scalars or
entries that are indented further. The scanner turns a text that is laid out so into the tokens of
its entries; `Passes` says this of lines in the middle of a document, `tokensOf_lines` of all.
-/
import Docsmith.Proofs.Yaml.Scan

namespace Docsmith.Yaml

open List Scan

/-- What stands under a key: a scalar or a list of scalars. -/
inductive Content where
  | scalar (x : Scalar)
  | list (xs : List Scalar)

def itemTokens (xs : List Scalar) : List Token := xs.flatMap fun x => [.blockEntry, x.token]

def Content.tokens : Content → List Token
  | .scalar x => [x.token]
  | .list [] => [.flowSequence, .flowSequenceEnd]
  | .list xs => itemTokens xs

def keyTokens (k : String) : List Token := [.key, .scalar true k.toList, .value]

def entryTokens (es : List (String × Content)) : List Token :=
  es.flatMap fun e => keyTokens e.1 ++ e.2.tokens

/-- The end of a line and a line with an indentation. -/
def lineOf (j : Nat) (r : List Char) : List Char := '\n' :: (replicate j ' ' ++ r)

/-- Items in lines at an indentation. -/
inductive ItemsText (i : Nat) : List Scalar → List Char → Prop where
  | nil : ItemsText i [] []
  | cons {x : Scalar} {xs : List Scalar} {t u : List Char} (hx : ScalarText i x t)
      (hxs : ItemsText i xs u) : ItemsText i (x :: xs) (lineOf i ('-' :: ' ' :: (t ++ u)))

/-- What stands behind the colon of a key at an indentation. -/
inductive ContentText (i : Nat) : Content → List Char → Prop where
  | scalar {x : Scalar} {t : List Char} (hx : ScalarText i x t) :
      ContentText i (.scalar x) (' ' :: t)
  | empty : ContentText i (.list []) [' ', '[', ']']
  | items {x : Scalar} {xs : List Scalar} {t : List Char} (hxs : ItemsText i (x :: xs) t) :
      ContentText i (.list (x :: xs)) t

/-- Entries in lines at an indentation. -/
inductive EntriesText (i : Nat) : List (String × Content) → List Char → Prop where
  | nil : EntriesText i [] []
  | cons {k : String} {c : Content} {es : List (String × Content)} {t u : List Char}
      (hk : isKeyName k = true) (hc : ContentText i c t) (hes : EntriesText i es u) :
      EntriesText i ((k, c) :: es) (lineOf i (k.toList ++ ':' :: (t ++ u)))

/-! ## Characters -/

variable {i j : Nat} {r t u : List Char}

theorem isPage_lineOf : IsPage (lineOf j r) ↔ IsPage r := by
  have hspaces : IsPage (replicate j ' ') := isPage_replicate (by decide) j
  simp [lineOf, hspaces, show isSpecial '\n' = false by decide]

variable {x : Scalar} {es : List (String × Content)} {k : String}

theorem ScalarText.isPage (h : ScalarText i x t) : IsPage t := by
  cases h with
  | plain _ _ hpage => exact hpage
  | quoted _ hspells => exact hspells.isPage_inQuotes

theorem ItemsText.isPage {xs : List Scalar} (h : ItemsText i xs t) : IsPage t := by
  induction h with
  | nil => exact isPage_nil
  | cons hx _ ih =>
    rw [isPage_lineOf]
    simpa [show isSpecial '-' = false by decide, show isSpecial ' ' = false by decide] using
      ⟨hx.isPage, ih⟩

theorem ContentText.isPage {c : Content} (h : ContentText i c t) : IsPage t := by
  cases h with
  | scalar hx => exact isPage_cons.2 ⟨by decide, hx.isPage⟩
  | empty => simp; decide
  | items hxs => exact hxs.isPage

theorem EntriesText.isPage (h : EntriesText i es t) : IsPage t := by
  induction h with
  | nil => exact isPage_nil
  | cons hk hc _ ih =>
    rw [isPage_lineOf]
    simpa [show isSpecial ':' = false by decide] using
      ⟨(isPlainWord_of_isKeyName hk).isPage, hc.isPage, ih⟩

/-! ## Lines -/

/-- A line that may follow what is written in a collection with the indentation `i`. -/
structure Line (i j : Nat) (r : List Char) : Prop where
  indent : j ≤ i
  starts : Starts r
  no_mark : isSeparator (replicate j ' ' ++ r) = false

/-- The lines `u` are read as the tokens `new`; the indentation of the last collection and those
around it go from `before` to `after`. -/
def Passes (i : Nat) (u : List Char) (before after : Int × List Int) (new : List Token) : Prop :=
  ∀ j r, Line i j r → ∃ j₀ r₀, u ++ lineOf j r = lineOf j₀ r₀ ∧ Line i j₀ r₀ ∧
    ∀ p ts, p.rest = r₀ → p.column = j₀ → ∃ index line,
      Leads (ready p ts before.1 before.2 true)
        (ready ⟨r, index, line, j⟩ (ts ++ new) after.1 after.2 true)

variable {a b c : Int × List Int} {new more : List Token}

theorem Passes.nil (i : Nat) (a : Int × List Int) : Passes i [] a a [] := by
  intro j r hline
  refine ⟨j, r, rfl, hline, fun p ts hr hj => ⟨p.index, p.line, ?_⟩⟩
  subst hr hj
  rw [append_nil]
  exact Leads.refl _

theorem Passes.append (h : Passes i t a b new) (h' : Passes i u b c more) :
    Passes i (t ++ u) a c (new ++ more) := by
  intro j r hline
  obtain ⟨j₁, r₁, hu, hline₁, hlast⟩ := h' j r hline
  obtain ⟨j₀, r₀, ht, hline₀, hfirst⟩ := h j₁ r₁ hline₁
  refine ⟨j₀, r₀, by rw [append_assoc, hu, ht], hline₀, fun p ts hr hj => ?_⟩
  obtain ⟨index, line, hleads⟩ := hfirst p ts hr hj
  obtain ⟨index', line', hleads'⟩ := hlast ⟨r₁, index, line, j₁⟩ (ts ++ new) rfl rfl
  refine ⟨index', line', ?_⟩
  rw [← append_assoc]
  exact hleads.trans hleads'

theorem lineOf_append (i : Nat) (r u : List Char) : lineOf i r ++ u = lineOf i (r ++ u) := by
  simp [lineOf]

theorem ScalarText.starts (h : ScalarText i x t) (u : List Char) : Starts (t ++ u) := by
  cases h with
  | plain _ _ _ hplain hfirst hword =>
    obtain ⟨c, cs, hcs, hc, hsign⟩ := exists_first hplain hfirst hword u
    rw [hcs]
    exact starts_cons.2 ⟨hc, beq_eq_false_iff_ne.1 (ne_of_isFirstSign hsign rfl)⟩
  | @quoted double _ _ _ =>
    refine starts_cons.2 ?_
    cases double <;> decide

theorem line_cons {c : Char} {cs : List Char} (hc : isWordStop c = false) (hcomment : c ≠ '#')
    (hmark : isSeparator (c :: cs) = false) : Line i i (c :: cs) := by
  refine ⟨Nat.le_refl i, starts_cons.2 ⟨hc, hcomment⟩, ?_⟩
  cases i with
  | zero => exact hmark
  | succ i => exact isSeparator_spaces (Nat.succ_pos i)

/-! ## Items -/

theorem passes_item (outer : List Int) (h : ScalarText i x t) :
    Passes i (lineOf i ('-' :: ' ' :: t)) (i, outer) (i, outer) [.blockEntry, x.token] := by
  intro j r hline
  refine ⟨i, '-' :: ' ' :: (t ++ lineOf j r), lineOf_append .., ?_, fun p ts hr hj => ?_⟩
  · exact line_cons (by decide) (by decide) (by simp [isSeparator])
  · obtain ⟨index, hdash⟩ := leads_dash ts outer hr (h.starts _) hj
    obtain ⟨index', line', hscalar⟩ := leads_scalar (m := true)
      (p := ⟨t ++ lineOf j r, index, p.line, i + 2⟩) (ts ++ [.blockEntry]) outer h rfl (by simp)
      hline.indent hline.starts hline.no_mark
    refine ⟨index', line', ?_⟩
    rw [append_assoc] at hscalar
    exact hdash.trans hscalar

theorem ItemsText.passes {xs : List Scalar} (outer : List Int) (h : ItemsText i xs t) :
    Passes i t (i, outer) (i, outer) (itemTokens xs) := by
  induction h with
  | nil => exact .nil i _
  | cons hx _ ih =>
    have happend := (passes_item outer hx).append ih
    rw [lineOf_append] at happend
    exact happend

/-! ## Entries -/

theorem line_key (hk : isKeyName k = true) : Line i i (k.toList ++ r) := by
  obtain ⟨c, cs, hcs, hsign, hdot, hdash⟩ := exists_of_isKeyName hk
  have hc : isWordStop c = false :=
    (isPlainWord_of_isKeyName hk).not_stop c (by rw [hcs]; exact mem_cons_self)
  have hcomment : c ≠ '#' := beq_eq_false_iff_ne.1 (ne_of_isFirstSign (hsign ' ') rfl)
  rw [hcs]
  exact line_cons hc hcomment (isSeparator_cons hdash hdot)

theorem opening_self (i : Nat) : opening i i = [] := if_neg (Int.lt_irrefl _)

theorem around_self (i : Nat) (outer : List Int) : around i i outer = outer :=
  if_neg (Int.lt_irrefl _)

theorem passes_entry {c : Content} (i₀ : Int) (outer : List Int) (hk : isKeyName k = true)
    (hc : ContentText i c t) (hi : i₀ ≤ i) :
    Passes i (lineOf i (k.toList ++ ':' :: t)) (i₀, outer) (i, around i₀ i outer)
      (opening i₀ i ++ (keyTokens k ++ c.tokens)) := by
  intro j r hline
  refine ⟨i, k.toList ++ ':' :: (t ++ lineOf j r), by rw [lineOf_append]; simp, line_key hk,
    fun p ts hr hj => ?_⟩
  subst hj
  rw [← append_assoc (opening _ _), ← append_assoc ts]
  cases hc with
  | @scalar x t hx =>
    obtain ⟨index, column, hcolumn, hkey⟩ :=
      leads_key_space ts outer hk hr (hx.starts _) hi
    obtain ⟨index', line', hscalar⟩ := leads_scalar
      (p := ⟨t ++ lineOf j r, index, p.line, column⟩) (m := false) _ _ hx rfl hcolumn hline.indent
      hline.starts hline.no_mark
    exact ⟨index', line', hkey.trans hscalar⟩
  | empty =>
    obtain ⟨index, column, hcolumn, hkey⟩ := leads_key_space ts outer hk hr
      (starts_cons.2 (by decide)) hi
    obtain ⟨index', line', hlist⟩ := leads_brackets
      (p := ⟨'[' :: ']' :: lineOf j r, index, p.line, column⟩) rfl (Nat.le_of_lt hcolumn)
      hline.starts
    exact ⟨index', line', hkey.trans hlist⟩
  | items hxs =>
    obtain ⟨j₁, r₁, ht, hline₁, hitems⟩ := hxs.passes (around i₀ p.column outer) j r hline
    rw [ht] at hr
    obtain ⟨index, line, hkey⟩ :=
      leads_key_line ts outer hk hr hline₁.starts hi
    obtain ⟨index', line', hlist⟩ := hitems ⟨r₁, index, line, j₁⟩ _ rfl rfl
    exact ⟨index', line', hkey.trans hlist⟩

theorem EntriesText.passes (outer : List Int) (h : EntriesText i es t) :
    Passes i t (i, outer) (i, outer) (entryTokens es) := by
  induction h with
  | nil => exact .nil i _
  | @cons k c es t u hk hc _ ih =>
    have hentry := passes_entry i outer hk hc (Int.le_refl _)
    rw [opening_self, around_self, nil_append] at hentry
    have happend := hentry.append ih
    rw [lineOf_append, append_assoc, cons_append] at happend
    exact happend

theorem EntriesText.passes_open {i₀ : Int} (outer : List Int) (hi : i₀ < i)
    (hne : es ≠ []) (h : EntriesText i es t) :
    Passes i t (i₀, outer) (i, i₀ :: outer) (.blockMapping :: entryTokens es) := by
  cases h with
  | nil => exact absurd rfl hne
  | cons hk hc hes =>
    have hentry := passes_entry i₀ outer hk hc (Int.le_of_lt hi)
    have hopen : opening i₀ i = [.blockMapping] ∧ around i₀ i outer = i₀ :: outer := by
      simp [opening, around, hi]
    rw [hopen.1, hopen.2] at hentry
    have happend := hentry.append (hes.passes (i₀ :: outer))
    rw [lineOf_append, append_assoc, cons_append] at happend
    simpa [entryTokens] using happend

theorem passes_group {i' : Nat} (outer : List Int) (hk : isKeyName k = true) (hi : i < i')
    (hne : es ≠ []) (h : EntriesText i' es t) :
    Passes i (lineOf i (k.toList ++ ':' :: t)) (i, outer) (i', (i : Int) :: outer)
      (keyTokens k ++ .blockMapping :: entryTokens es) := by
  intro j r hline
  obtain ⟨j₁, r₁, ht, hline₁, hentries⟩ := h.passes_open outer (Int.ofNat_lt.2 hi) hne j r
    ⟨Nat.le_trans hline.indent (Nat.le_of_lt hi), hline.starts, hline.no_mark⟩
  refine ⟨i, k.toList ++ ':' :: (t ++ lineOf j r), by rw [lineOf_append]; simp, line_key hk,
    fun p ts hr hj => ?_⟩
  subst hj
  rw [ht] at hr
  obtain ⟨index, line, hkey⟩ :=
    leads_key_line ts outer hk hr hline₁.starts (Int.le_refl _)
  rw [opening_self, around_self, nil_append] at hkey
  obtain ⟨index', line', hmap⟩ := hentries ⟨r₁, index, line, j₁⟩ _ rfl rfl
  refine ⟨index', line', ?_⟩
  rw [← append_assoc]
  exact hkey.trans hmap

/-! ## Documents -/

theorem tokensOf_lines {cs : List Char} (hu : u ++ ['\n'] = '\n' :: cs) (hpage : IsPage u)
    (h : Passes 0 u (-1, []) (2, [0, -1]) new) :
    tokensOf cs = some (new ++ [.blockEnd, .blockEnd]) := by
  obtain ⟨j₀, r₀, hr, hline, hleads⟩ := h 0 [] ⟨Nat.le_refl 0, starts_nil, rfl⟩
  obtain rfl : j₀ = 0 := Nat.le_zero.1 hline.indent
  obtain rfl : cs = r₀ := (cons.inj (hu.symm.trans hr)).2
  have hcs : IsPage cs := by
    have hall : IsPage ('\n' :: cs) := hu ▸ isPage_append.2 ⟨hpage, by simp; decide⟩
    exact (isPage_cons.1 hall).2
  have hallowed : cs.all isAllowed = true :=
    all_eq_true.2 fun c hc => isAllowed_of_not_special (hcs c hc)
  have hmark : (charAt cs 0 == '\ufeff') = false := by
    cases cs with
    | nil => rfl
    | cons c cs => exact beq_of_not_special (isPage_cons.1 hcs).1 (by decide)
  have hstart : tokensOf cs = (ready ⟨cs, 0, 0, 0⟩ [] (-1) [] true).resume cs.length := by
    rw [tokensOf, if_pos hallowed]
    simp only [Position.peek, hmark]
    exact run_succ.trans (by rw [onward_starts hline.starts]; rfl)
  obtain ⟨index, line, n, hn, hrun⟩ := hleads ⟨cs, 0, 0, 0⟩ [] rfl rfl
  have hlen : cs.length = (cs.length - n) + n := by
    have : n ≤ cs.length := Nat.le_trans (Nat.le_add_left _ _) hn
    omega
  rw [hstart, hlen, hrun]
  exact resume_end rfl rfl

end Docsmith.Yaml
