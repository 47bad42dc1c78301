/-
The parts of a list, between commas outside brackets.

A language counts its own brackets (`Brackets`). A text is a part (`IsPart`) if it closes as many as
it opens, and has a comma only where it does not. A scan goes over a part as a whole
(`scan_append`), so that parts joined by commas are split again (`splitTop_join`). What any text is
split into gives it back when it is joined, but for a comma at the end (`joinWith_scan`).
-/
import Docsmith.Language.Cpp
import Docsmith.Language.CSharp
import Docsmith.Language.Kotlin
import Docsmith.Language.Rust
import Docsmith.Language.TypeScript
import Docsmith.Proofs.Text

namespace Docsmith

open List

def Text.dividers : List Char := ",<>()[]\x7b\x7d".toList

structure Brackets where
  opening : String
  closing : String
  apart : opening.toList.any closing.toList.contains = false
  isBracket : opening.toList ++ closing.toList ⊆ Text.dividers.tail

def TypeScript.brackets : Brackets := ⟨"<\x7b([", ">\x7d)]", by decide, by decide⟩

namespace Brackets

open Text

def three : Brackets := ⟨"<(\x7b", ">)\x7d", by decide, by decide⟩

def four : Brackets := ⟨"<(\x7b[", ">)\x7d]", by decide, by decide⟩

variable {b : Brackets} {xs ys cs piece : List Char} {parts : List (List Char)} {c : Char} {d : Int}

/-- How many more brackets a text opens than it closes. -/
def depth (b : Brackets) (cs : List Char) : Int :=
  cs.countP b.opening.toList.contains - cs.countP b.closing.toList.contains

/-- A text with as many brackets opened as closed, and no comma behind such a text. -/
structure IsPart (b : Brackets) (cs : List Char) : Prop where
  closed : b.depth cs = 0
  commas : ∀ x y, cs = x ++ ',' :: y → b.depth x ≠ 0

theorem depth_append (xs ys : List Char) : b.depth (xs ++ ys) = b.depth xs + b.depth ys := by
  simp only [depth, countP_append]
  omega

theorem IsPart.append (hxs : b.IsPart xs) (hys : b.IsPart ys) : b.IsPart (xs ++ ys) where
  closed := by rw [depth_append, hxs.closed, hys.closed]; rfl
  commas x y h := by
    rcases append_eq_append_iff.1 h with ⟨as, rfl, rfl⟩ | ⟨bs, rfl, hbs⟩
    · rw [depth_append, hxs.closed, Int.zero_add]
      exact hys.commas as y rfl
    · cases bs with
      | nil => exact absurd rfl (hys.commas [] y hbs.symm)
      | cons c bs =>
        obtain ⟨rfl, -⟩ := cons.inj hbs
        exact hxs.commas x bs rfl

theorem isPart_of_plain (h : cs.any dividers.contains = false) : b.IsPart cs where
  closed := by
    have hnone (l : List Char) (hl : l ⊆ b.opening.toList ++ b.closing.toList) :
        cs.countP l.contains = 0 := by
      rw [countP_eq_zero]
      intro c hc hmem
      have hbracket := b.isBracket (hl (contains_iff_mem.1 hmem))
      exact any_eq_false.1 h c hc (contains_iff_mem.2 (mem_cons_of_mem _ hbracket))
    rw [depth, hnone _ (subset_append_left _ _), hnone _ (subset_append_right _ _)]
    rfl
  commas x y hcs := absurd rfl (any_eq_false.1 h ',' (hcs ▸ by simp))

theorem isPart_iff : b.IsPart cs ↔ b.depth cs = 0 ∧
    ∀ n < cs.length, cs[n]? = some ',' → b.depth (cs.take n) ≠ 0 := by
  refine ⟨fun h => ⟨h.closed, fun n _ hn => ?_⟩, fun h => ⟨h.1, fun x y hxy => ?_⟩⟩
  · have hdrop : cs.drop n = ',' :: cs.drop (n + 1) := by
      rw [drop_eq_getElem?_toList_append, hn]
      rfl
    exact h.commas _ _ (by rw [← hdrop, take_append_drop])
  · subst hxy
    simpa using h.2 x.length (by simp) (by simp)

instance (b : Brackets) (cs : List Char) : Decidable (b.IsPart cs) :=
  decidable_of_iff _ isPart_iff.symm

/-! ## The scan -/

def scan (b : Brackets) : Int → List Char → List Char → List (List Char) :=
  splitTopFrom b.opening.toList b.closing.toList

theorem splitTop_eq (b : Brackets) (cs : List Char) :
    splitTop b.opening b.closing cs = b.scan 0 [] cs :=
  rfl

theorem scan_nil : b.scan d piece [] = if piece.isEmpty then [] else [piece.reverse] := rfl

theorem scan_cons (hc : c = ',' → d ≠ 0) :
    b.scan d piece (c :: cs) = b.scan (d + b.depth [c]) (c :: piece) cs := by
  have hapart : c ∈ b.opening.toList → c ∉ b.closing.toList := by
    simpa using any_eq_false.1 b.apart c
  rw [scan, splitTopFrom, depth, countP_singleton, countP_singleton]
  by_cases hopen : c ∈ b.opening.toList
  · simp [hopen, hapart hopen]
  · by_cases hclose : c ∈ b.closing.toList
    · simp [hopen, hclose, Int.sub_eq_add_neg]
    · simpa [hopen, hclose] using fun hcomma hd => absurd hd (hc hcomma)

theorem comma_not_mem (b : Brackets) : ',' ∉ b.opening.toList ∧ ',' ∉ b.closing.toList := by
  rw [← not_or, ← mem_append]
  exact fun hmem => absurd (b.isBracket hmem) (by decide)

theorem scan_comma : b.scan 0 piece (',' :: cs) = piece.reverse :: b.scan 0 [] cs := by
  simp [scan, splitTopFrom, b.comma_not_mem]

theorem scan_append (rest : List Char) (h : ∀ x y, cs = x ++ ',' :: y → d + b.depth x ≠ 0) :
    b.scan d piece (cs ++ rest) = b.scan (d + b.depth cs) (cs.reverse ++ piece) rest := by
  induction cs generalizing d piece with
  | nil => simp [depth]
  | cons c cs ih =>
    have hstep (x : List Char) : d + b.depth (c :: x) = d + b.depth [c] + b.depth x := by
      rw [← singleton_append, depth_append, Int.add_assoc]
    rw [cons_append, scan_cons fun hc => by simpa [depth] using h [] cs (by simp [hc]),
      ih fun x y hxy => by rw [← hstep]; exact h (c :: x) y (by rw [hxy]; rfl), ← hstep]
    simp

theorem IsPart.splitTop_cons (h : b.IsPart cs) (rest : List Char) :
    splitTop b.opening b.closing (cs ++ ',' :: rest) = cs :: splitTop b.opening b.closing rest := by
  rw [splitTop_eq, scan_append _ fun x y hxy => by simpa using h.commas x y hxy, h.closed,
    Int.zero_add, scan_comma, splitTop_eq, append_nil, reverse_reverse]

theorem IsPart.splitTop_self (h : b.IsPart cs) (hne : cs ≠ []) :
    splitTop b.opening b.closing cs = [cs] := by
  rw [splitTop_eq, ← append_nil cs, scan_append [] fun x y hxy => by
    rw [Int.zero_add]; exact h.commas x y hxy, scan_nil]
  simp [hne]

theorem splitTop_join (h : ∀ p ∈ parts, b.IsPart p) (hlast : parts.getLast? ≠ some []) :
    splitTop b.opening b.closing (joinWith "," parts) = parts := by
  induction parts with
  | nil => rfl
  | cons p parts ih =>
    obtain ⟨hp, hparts⟩ := forall_mem_cons.1 h
    cases parts with
    | nil => simpa [joinWith] using hp.splitTop_self (by simpa using hlast)
    | cons q parts =>
      rw [joinWith_cons_cons, append_assoc]
      exact (hp.splitTop_cons _).trans (congrArg _ (ih hparts (by simpa using hlast)))

/-- Parts that are joined with blanks behind the commas are split again, but for the blanks. -/
theorem map_trim_splitTop (h : ∀ p ∈ parts, b.IsPart p ∧ p ≠ []) :
    (splitTop b.opening b.closing (joinWith ", " parts)).map trim = parts.map trim := by
  cases parts with
  | nil => rfl
  | cons p parts =>
    obtain ⟨hp, hparts⟩ := forall_mem_cons.1 h
    rw [joinWith_commas, splitTop_join]
    · simp [trim_cons (c := ' ') rfl]
    · have hblank : b.IsPart [' '] := isPart_of_plain (by decide)
      simp only [forall_mem_cons, forall_mem_map]
      exact ⟨hp.1, fun q hq => hblank.append (hparts q hq).1⟩
    · intro hlast
      have hmem := mem_of_getLast? hlast
      simp [hp.2.symm] at hmem

/-! ## Joining what was split -/

/-- The text is `front` and a comma outside brackets, `d` of which are open before it. -/
def Trails (b : Brackets) (d : Int) (front cs : List Char) : Prop :=
  cs = front ++ [','] ∧ d + b.depth front = 0

variable {front : List Char}

theorem trails_cons :
    b.Trails d (c :: front) (c :: cs) ↔ b.Trails (d + b.depth [c]) front cs := by
  rw [Trails, Trails, ← singleton_append (x := c) (l := front), depth_append, Int.add_assoc]
  simp

theorem Trails.of_cons (h : b.Trails d front (c :: cs)) (hc : c = ',' → d = 0 → cs ≠ []) :
    ∃ front, b.Trails (d + b.depth [c]) front cs := by
  cases front with
  | nil =>
    obtain ⟨rfl, rfl⟩ := cons.inj h.1
    exact absurd rfl (hc rfl (by simpa [depth] using h.2))
  | cons x front =>
    obtain rfl : c = x := (cons.inj h.1).1
    exact ⟨front, trails_cons.1 h⟩

theorem scan_ne_nil (h : piece ≠ [] ∨ cs ≠ []) : b.scan d piece cs ≠ [] := by
  induction cs generalizing d piece with
  | nil => simp_all [scan_nil]
  | cons c cs ih =>
    by_cases hc : c = ',' ∧ d = 0
    · obtain ⟨rfl, rfl⟩ := hc
      rw [scan_comma]
      exact cons_ne_nil _ _
    · rw [scan_cons fun hcomma hd => hc ⟨hcomma, hd⟩]
      exact ih (.inl (cons_ne_nil _ _))

/-- The scan goes on behind a character, whether or not that ends a part, unless it is a comma at
the end. -/
theorem exists_joinWith_scan (b : Brackets) (piece : List Char)
    (hc : c = ',' → d = 0 → cs ≠ []) :
    ∃ gone next, gone ++ next.reverse = piece.reverse ++ [c] ∧
      joinWith "," (b.scan d piece (c :: cs)) =
        gone ++ joinWith "," (b.scan (d + b.depth [c]) next cs) := by
  by_cases htop : c = ',' ∧ d = 0
  · obtain ⟨rfl, rfl⟩ := htop
    have hne : b.scan 0 [] cs ≠ [] := scan_ne_nil (.inr (hc rfl rfl))
    have hdepth : b.depth [','] = 0 := by simp [depth, b.comma_not_mem]
    obtain ⟨p, ps, hps⟩ := exists_cons_of_ne_nil hne
    refine ⟨piece.reverse ++ [','], [], by simp, ?_⟩
    rw [scan_comma, hdepth, Int.add_zero, hps, joinWith_cons_cons]
    rfl
  · refine ⟨[], c :: piece, by simp, ?_⟩
    rw [scan_cons fun hcomma hd => htop ⟨hcomma, hd⟩, nil_append]

theorem joinWith_scan (b : Brackets) (d : Int) (piece cs : List Char) :
    (joinWith "," (b.scan d piece cs) = piece.reverse ++ cs ∧ ∀ front, ¬ b.Trails d front cs) ∨
      ∃ front, b.Trails d front cs ∧ joinWith "," (b.scan d piece cs) = piece.reverse ++ front := by
  induction cs generalizing d piece with
  | nil =>
    refine .inl ⟨?_, fun front h => by simpa using h.1⟩
    cases piece <;> simp [scan_nil, joinWith]
  | cons c cs ih =>
    by_cases hlast : c = ',' ∧ d = 0 ∧ cs = []
    · obtain ⟨rfl, rfl, rfl⟩ := hlast
      refine .inr ⟨[], ⟨rfl, by simp [depth]⟩, ?_⟩
      simp [scan_comma, scan_nil, joinWith]
    · have hc : c = ',' → d = 0 → cs ≠ [] := fun hc hd hcs => hlast ⟨hc, hd, hcs⟩
      obtain ⟨gone, next, hgone, hjoin⟩ := b.exists_joinWith_scan piece hc
      have hall (xs : List Char) : gone ++ (next.reverse ++ xs) = piece.reverse ++ c :: xs := by
        rw [← append_assoc, hgone, append_assoc, singleton_append]
      rw [hjoin]
      rcases ih (d + b.depth [c]) next with ⟨hrest, hnone⟩ | ⟨front, htrails, hrest⟩
      · rw [hrest, hall]
        refine .inl ⟨rfl, fun front h => ?_⟩
        obtain ⟨front, h⟩ := h.of_cons hc
        exact hnone front h
      · rw [hrest, hall]
        exact .inr ⟨c :: front, trails_cons.2 htrails, rfl⟩

end Brackets

open Text

/-- How the languages split parameters, and the brackets that each of them counts. -/
def splittings : List (Brackets × (List Char → List (List Char))) :=
  [(TypeScript.brackets, TypeScript.splitParams), (.four, CSharp.splitParams),
    (.three, Cpp.splitParams), (.three, Rust.splitParams), (.three, Kotlin.splitParams)]

/-- **Splitting and joining undo each other** in every language: parts that are joined by commas are
split again if the last is not empty, and what a text is split into gives it back when it is joined,
but for a comma outside brackets at its end. -/
theorem splitParams_joinWith : ∀ l ∈ splittings,
    (∀ parts : List (List Char), (∀ p ∈ parts, l.1.IsPart p) → parts.getLast? ≠ some [] →
      l.2 (joinWith "," parts) = parts) ∧
    ∀ raw, (joinWith "," (l.2 raw) = raw ∧ ∀ front, ¬ l.1.Trails 0 front raw) ∨
      ∃ front, l.1.Trails 0 front raw ∧ joinWith "," (l.2 raw) = front := by
  have hsplit : ∀ l ∈ splittings, l.2 = splitTop l.1.opening l.1.closing := by
    simp only [splittings, forall_mem_cons]
    exact ⟨rfl, rfl, rfl, rfl, rfl, nofun⟩
  intro l hl
  rw [hsplit l hl]
  exact ⟨fun parts => Brackets.splitTop_join, l.1.joinWith_scan 0 []⟩

/-- Commas within brackets, and a text that closes a bracket before it opens one. -/
theorem splitParams_joinWith_brackets :
    Rust.splitParams "m: Map<K, V>, p: (u8, u8)".toList =
      ["m: Map<K, V>".toList, " p: (u8, u8)".toList] ∧
    ∃ front, Brackets.three.Trails 0 front "a>,b(,c,".toList ∧
      joinWith "," (Rust.splitParams "a>,b(,c,".toList) = front := by
  have hrust := splitParams_joinWith (.three, Rust.splitParams) (by simp [splittings])
  exact ⟨hrust.1 ["m: Map<K, V>".toList, " p: (u8, u8)".toList] (by decide) (by decide),
    (hrust.2 _).resolve_left fun h => h.2 "a>,b(,c".toList ⟨rfl, rfl⟩⟩

end Docsmith
