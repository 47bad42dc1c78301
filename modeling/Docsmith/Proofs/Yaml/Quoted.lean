/-
Scalars in quotes are read back. `Reads` says what a text from behind an opening quote is read as;
its rules follow the pieces that the writer makes: characters, runs of spaces, escapes, folded
lines.
-/
import Docsmith.Proofs.Json
import Docsmith.Proofs.Yaml.Sheet

namespace Docsmith.Yaml

open Sheet Json List

/-! ## Reading -/

/-- The text `cs` from behind an opening quote is read as `x`, with `r` behind the closing one. -/
def Reads (double : Bool) (cs x r : List Char) : Prop :=
  ∀ room, cs.length ≤ room → quotedFrom double room cs = some (x, r)

def quoteOf (double : Bool) : Char := if double then '"' else '\''

/-- A text in which no line ends behind the blanks at its start. -/
def Settled (cs : List Char) : Prop := isBreak (charAt (cs.dropWhile isBlankChar) 0) = false

variable {double : Bool} {cs x r : List Char}

variable {c e : Char} {k : Nat} {t : List Char}

theorem reads_cons (h : ∀ room, cs.length ≤ room →
    quotedFrom double (room + 1) (c :: cs) = some (x, r)) : Reads double (c :: cs) x r := by
  intro room hroom
  cases room with
  | zero => simp at hroom
  | succ room => exact h room (by simpa using hroom)

theorem reads_close (h : double = false → r.head? ≠ some '\'') :
    Reads double (quoteOf double :: r) [] r := by
  refine reads_cons fun room _ => ?_
  cases double with
  | true => simp [quotedFrom, quoteOf, isBlankChar, isBreak]
  | false =>
    have hr : (charAt r 0 == '\'') = false := by
      cases r with
      | nil => decide
      | cons c r => simpa [charAt] using h rfl
    simp [quotedFrom, quoteOf, isBlankChar, isBreak, hr]

theorem Reads.char (hc : isWordStop c = false) (hq : c ≠ quoteOf double)
    (hb : double = true → c ≠ '\\') (h : Reads double cs x r) :
    Reads double (c :: cs) (c :: x) r := by
  refine reads_cons fun room hroom => ?_
  obtain ⟨h1, h2, -, h3⟩ := isWordStop_eq_false.1 hc
  cases double with
  | true =>
    have hq : (c == '"') = false := by simpa [quoteOf] using hq
    have hb : (c == '\\') = false := by simpa using hb rfl
    simp [quotedFrom, isBlankChar, h1, h2, h3, hq, hb, h room hroom]
  | false =>
    have hq : (c == '\'') = false := by simpa [quoteOf] using hq
    simp [quotedFrom, isBlankChar, h1, h2, h3, hq, h room hroom]

/-- A space that no line ends behind. The reader takes a run of spaces at once, so the rest is read
with the room that is left behind the whole run. -/
theorem Reads.space (hs : Settled cs) (h : Reads double cs x r) :
    Reads double (' ' :: cs) (' ' :: x) r := by
  refine reads_cons fun room hroom => ?_
  have hstep (n : Nat) (ds : List Char) (hds : Settled ds)
      (hblank : isBlankChar (charAt ds 0) = true) : quotedFrom double (n + 1) ds =
      (quotedFrom double n (ds.dropWhile isBlankChar)).map fun read =>
        (ds.takeWhile isBlankChar ++ read.1, read.2) := by
    cases ds with
    | nil => simp [charAt, isBlankChar] at hblank
    | cons d ds =>
      have hd : isBlankChar d = true := hblank
      simp only [quotedFrom, hd, Bool.true_or, if_true, span_eq_takeWhile_dropWhile]
      rw [if_neg (by rw [show isBreak _ = false from hds]; decide)]
  have hsettled : Settled (' ' :: cs) := by simpa [Settled, isBlankChar] using hs
  rw [hstep room (' ' :: cs) hsettled rfl]
  cases hblank : isBlankChar (charAt cs 0) with
  | true =>
    have hrest := h (room + 1) (by omega)
    rw [hstep room cs hs hblank] at hrest
    rw [Option.map_eq_some_iff] at hrest
    obtain ⟨⟨y, r'⟩, hy, heq⟩ := hrest
    obtain ⟨rfl, rfl⟩ := Prod.mk.inj heq
    rw [show (' ' :: cs).dropWhile isBlankChar = cs.dropWhile isBlankChar from rfl, hy]
    rfl
  | false =>
    have hdrop : cs.dropWhile isBlankChar = cs := by
      cases cs with
      | nil => rfl
      | cons d ds => exact dropWhile_cons_of_neg (by simpa [charAt] using hblank)
    have htake : cs.takeWhile isBlankChar = [] := by
      cases cs with
      | nil => rfl
      | cons d ds => exact takeWhile_cons_of_neg (by simpa [charAt] using hblank)
    have hspace : (' ' :: cs).dropWhile isBlankChar = cs.dropWhile isBlankChar ∧
        (' ' :: cs).takeWhile isBlankChar = ' ' :: cs.takeWhile isBlankChar := ⟨rfl, rfl⟩
    rw [hspace.1, hspace.2, hdrop, h room hroom, htake]
    rfl

theorem Reads.quote (h : Reads false cs x r) : Reads false ('\'' :: '\'' :: cs) ('\'' :: x) r := by
  refine reads_cons fun room hroom => ?_
  have hrest := h room (by simp at hroom; omega)
  simp [quotedFrom, isBlankChar, isBreak, charAt, hrest]

theorem Reads.letter (he : escaped? e = some c) (h : Reads true cs x r) :
    Reads true ('\\' :: e :: cs) (c :: x) r := by
  refine reads_cons fun room hroom => ?_
  have hrest := h room (by simp at hroom; omega)
  simp [quotedFrom, isBlankChar, isBreak, charAt, he, hrest]

theorem Reads.code (ds : List Char) (he : escaped? e = none) (hlen : codeLength? e = some ds.length)
    (hc : (hexValue? ds).bind charOf? = some c) (h : Reads true cs x r) :
    Reads true ('\\' :: e :: (ds ++ cs)) (c :: x) r := by
  refine reads_cons fun room hroom => ?_
  have hrest := h room (by simp at hroom; omega)
  simp [quotedFrom, isBlankChar, isBreak, charAt, he, hlen, hc, hrest, Nat.add_comm 1]

/-! ## Line ends -/

theorem isSeparator_cons (h1 : c ≠ '-') (h2 : c ≠ '.') : isSeparator (c :: cs) = false := by
  simp [isSeparator, h1, h2]

theorem dropWhile_spaces (n : Nat) (hs : Solid cs) :
    (replicate n ' ' ++ cs).dropWhile isBlankChar = cs := by
  induction n with
  | zero =>
    cases cs with
    | nil => rfl
    | cons c cs =>
      obtain ⟨h1, h2, -, -⟩ := isWordStop_eq_false.1 (solid_cons.1 hs)
      exact dropWhile_cons_of_neg (by simp [isBlankChar, h1, h2])
  | succ n ih => exact ih

theorem isBreak_charAt (hs : Solid cs) : isBreak (charAt cs 0) = false := by
  cases cs with
  | nil => decide
  | cons c cs => exact (isWordStop_eq_false.1 (solid_cons.1 hs)).2.2.2

/-- Empty lines and the indentation of the line behind them. -/
theorem breaksFrom_lines {n : Nat} (room : Nat) (hn : 0 < n) (hs : Solid cs) (hroom : k < room) :
    breaksFrom room (replicate k '\n' ++ (replicate n ' ' ++ cs)) =
      some (replicate k '\n', cs) := by
  induction k generalizing room with
  | zero =>
    obtain ⟨room, rfl⟩ : ∃ m, room = m + 1 := ⟨room - 1, by omega⟩
    obtain ⟨n, rfl⟩ : ∃ m, n = m + 1 := ⟨n - 1, by omega⟩
    have hsep : isSeparator (replicate (n + 1) ' ' ++ cs) = false :=
      isSeparator_cons (by decide) (by decide)
    simp only [replicate_zero, nil_append, breaksFrom, hsep, dropWhile_spaces (n + 1) hs,
      isBreak_charAt hs]
    rfl
  | succ k ih =>
    obtain ⟨room, rfl⟩ : ∃ m, room = m + 1 := ⟨room - 1, by omega⟩
    have hrest := ih room (by omega)
    rw [replicate_succ, cons_append, breaksFrom,
      if_neg (by rw [isSeparator_cons (by decide) (by decide)]; decide)]
    simp [isBlankChar, charAt, isBreak, takeBreak, hrest]

theorem Reads.lines {n : Nat} (hn : 0 < n) (hs : Solid cs) (h : Reads false cs x r) :
    Reads false ('\n' :: (replicate k '\n' ++ (replicate n ' ' ++ cs)))
      ((if k = 0 then [' '] else replicate k '\n') ++ x) r := by
  refine reads_cons fun room hroom => ?_
  have hrest := h room (by simp at hroom; omega)
  have hbreaks := breaksFrom_lines (k := k)
    ((replicate k '\n' ++ (replicate n ' ' ++ cs)).length + 1) hn hs
    (by simp only [length_append, length_replicate]; omega)
  generalize replicate k '\n' ++ (replicate n ' ' ++ cs) = ds at hbreaks
  have hspan : ('\n' :: ds).span isBlankChar = ([], '\n' :: ds) := by
    rw [span_eq_takeWhile_dropWhile]
    rfl
  have hfold : foldBreaks ['\n'] (replicate k '\n') =
      if k = 0 then [' '] else replicate k '\n' := by
    simp [foldBreaks]
  rw [quotedFrom, if_pos (by decide)]
  simp only [hspan, takeBreak, hbreaks, Option.bind_eq_bind, Option.bind_some, hfold, hrest]
  rfl

theorem Reads.broken {n : Nat} (hn : 0 < n) (hs : Solid cs) (h : Reads true cs x r) :
    Reads true ('\\' :: '\n' :: (replicate n ' ' ++ cs)) x r := by
  refine reads_cons fun room hroom => ?_
  have hrest := h room (by simp at hroom; omega)
  have hbreaks := breaksFrom_lines (k := 0) ((replicate n ' ' ++ cs).length + 1) hn hs
    (by omega)
  simp_all [quotedFrom, isBlankChar, isBreak, charAt, takeBreak, escaped?, codeLength?]

/-! ## Texts between quotes -/

/-- The text `t` between quotes is read as `x`. -/
structure Spells (double : Bool) (t x : List Char) : Prop where
  isPage : IsPage t
  reads : ∀ r, (double = false → r.head? ≠ some '\'') →
    Reads double (t ++ quoteOf double :: r) x r

theorem Solid.append_quote (h : Solid t) (r : List Char) : Solid (t ++ quoteOf double :: r) := by
  refine h.append (solid_cons.2 ?_)
  cases double <;> decide

theorem Solid.settled (h : Solid cs) (n : Nat) : Settled (replicate n ' ' ++ cs) := by
  rw [Settled, dropWhile_spaces n h]
  exact isBreak_charAt h

namespace Spells

variable {t : List Char}

theorem nil : Spells double [] [] := ⟨isPage_nil, fun _ hr => reads_close hr⟩

theorem char {c : Char} (hp : isSpecial c = false) (hc : isWordStop c = false)
    (hq : c ≠ quoteOf double) (hb : double = true → c ≠ '\\') (h : Spells double t x) :
    Spells double (c :: t) (c :: x) :=
  ⟨isPage_cons.2 ⟨hp, h.isPage⟩, fun r hr => (h.reads r hr).char hc hq hb⟩

theorem word {w : List Char} (hp : IsPage w) (hw : ∀ c ∈ w, isWordStop c = false ∧ c ≠ '\'')
    (h : Spells false t x) : Spells false (w ++ t) (w ++ x) := by
  induction w with
  | nil => exact h
  | cons c w ih =>
    have hc := hw c mem_cons_self
    exact char (isPage_cons.1 hp).1 hc.1 hc.2 (fun h => by cases h)
      (ih (isPage_cons.1 hp).2 fun d hd => hw d (mem_cons_of_mem _ hd))

theorem spaces (n : Nat) (hs : Solid t) (h : Spells double t x) :
    Spells double (replicate n ' ' ++ t) (replicate n ' ' ++ x) := by
  refine ⟨isPage_append.2 ⟨isPage_replicate (by decide) n, h.isPage⟩, fun r hr => ?_⟩
  rw [append_assoc]
  induction n with
  | zero => exact h.reads r hr
  | succ n ih => exact Reads.space ((hs.append_quote r).settled n) ih

theorem quote (h : Spells false t x) : Spells false ('\'' :: '\'' :: t) ('\'' :: x) :=
  ⟨by simpa using ⟨by decide, h.isPage⟩, fun r hr => (h.reads r hr).quote⟩

theorem lines {k n : Nat} (hn : 0 < n) (hs : Solid t) (h : Spells false t x) :
    Spells false ('\n' :: (replicate k '\n' ++ (replicate n ' ' ++ t)))
      ((if k = 0 then [' '] else replicate k '\n') ++ x) := by
  refine ⟨?_, fun r hr => ?_⟩
  · simpa using
      ⟨by decide, isPage_replicate (by decide) k, isPage_replicate (by decide) n, h.isPage⟩
  · have hread := Reads.lines (k := k) hn (hs.append_quote r) (h.reads r hr)
    simpa using hread

end Spells

/-! ## Single quotes -/

theorem hasPair_append {f g : Char → Bool} {ds : List Char}
    (h : hasPair f g (cs ++ ds) = false) : hasPair f g ds = false := by
  induction cs with
  | nil => exact h
  | cons c cs ih =>
    apply ih
    cases hcs : cs ++ ds with
    | nil => rfl
    | cons d es =>
      rw [cons_append, hcs, hasPair, Bool.or_eq_false_iff] at h
      exact h.2

/-- No character of the second kind stands behind a run of the first. -/
theorem head?_of_hasPair {f g : Char → Bool} {ds : List Char} (hne : cs ≠ [])
    (hf : ∀ c ∈ cs, f c = true) (h : hasPair f g (cs ++ ds) = false) :
    ∀ c ∈ ds.head?, g c = false := by
  intro c hc
  obtain ⟨ds, rfl⟩ := head?_eq_some_iff.1 hc
  have hsplit : cs.dropLast ++ (cs.getLast hne :: c :: ds) = cs ++ c :: ds := by
    rw [← singleton_append, ← append_assoc, dropLast_concat_getLast]
  have hlast : hasPair f g (cs.getLast hne :: c :: ds) = false := hasPair_append (hsplit ▸ h)
  rw [hasPair, Bool.or_eq_false_iff, hf _ (getLast_mem hne)] at hlast
  simpa using hlast.1

namespace Sheet

theorem text_lineEnds (s : Sheet) (k n : Nat) :
    ((lineEnds (replicate k '\n') s.endLine).toIndent n).text =
      s.text ++ '\n' :: (replicate k '\n' ++ replicate n ' ') := by
  have hends (k : Nat) : ∀ s : Sheet, lineEnds (replicate k '\n') s.endLine =
      { s.endLine with written := replicate k '\n' ++ s.endLine.written } := by
    induction k with
    | zero => intro s; rfl
    | succ k ih =>
      intro s
      refine (ih s.endLine).trans ?_
      simp [endLine, endLineWith, replicate_succ', append_assoc]
  rw [hends]
  by_cases hn : 0 < n
  · simp [toIndent, endLine, endLineWith, hn, text, put]
  · obtain rfl : n = 0 := by omega
    simp [toIndent, endLine, endLineWith, text]

end Sheet

theorem solid_of_isPage (hp : IsPage cs) (hspace : ∀ c ∈ cs.head?, (c == ' ') = false)
    (hbreak : ∀ c ∈ cs.head?, isValueBreak c = false) : Solid cs := by
  intro c hc
  have hspecial := hp c (mem_of_mem_head? hc)
  have hline := hbreak c hc
  rw [isValueBreak_eq hspecial] at hline
  rw [isWordStop_eq hspecial, hspace c hc, hline]
  rfl

theorem exists_run {p : Char → Bool} (tail : List Char) (hc : p c = true)
    (hp : ∀ d ∈ c :: tail, p d = true → d = c) :
    ∃ k rest, (c :: tail).takeWhile p = replicate (k + 1) c ∧ (c :: tail).dropWhile p = rest ∧
      c :: tail = replicate (k + 1) c ++ rest ∧ ∀ d ∈ rest.head?, p d = false := by
  have hrun : (c :: tail).takeWhile p = replicate ((tail.takeWhile p).length + 1) c := by
    have heq := eq_replicate_of_mem (a := c) (l := (c :: tail).takeWhile p) fun d hd =>
      hp d ((List.takeWhile_prefix p).subset hd) (all_eq_true.1 all_takeWhile d hd)
    rw [heq, takeWhile_cons_of_pos hc, length_cons]
  refine ⟨_, _, hrun, rfl, ?_, ?_⟩
  · rw [← hrun, takeWhile_append_dropWhile]
  · intro d hd
    have hnot := head?_dropWhile_not p (c :: tail)
    rw [hd] at hnot
    simpa using hnot

/-- Behind `s`, the page `s'` has a text that is read as `x` between single quotes. -/
def Single (s s' : Sheet) (x : List Char) : Prop :=
  ∃ t, s'.text = s.text ++ t ∧ Spells false t x ∧ (Solid x → Solid t)

namespace Single

variable {s s' : Sheet} {n : Nat}

theorem nil (s : Sheet) : Single s s [] := ⟨[], by simp, .nil, id⟩

theorem quote (h : Single (s.put ['\'', '\'']) s' x) : Single s s' ('\'' :: x) := by
  obtain ⟨t, ht, hspells, -⟩ := h
  exact ⟨'\'' :: '\'' :: t, by simp [ht], hspells.quote, fun _ => solid_cons.2 (by decide)⟩

theorem word {w : List Char} (hne : w ≠ []) (hp : IsPage w)
    (hw : ∀ c ∈ w, isWordStop c = false ∧ c ≠ '\'') (h : Single (s.put w) s' x) :
    Single s s' (w ++ x) := by
  obtain ⟨t, ht, hspells, -⟩ := h
  refine ⟨w ++ t, by simp [ht], hspells.word hp hw, fun _ => ?_⟩
  obtain ⟨c, w, rfl⟩ := exists_cons_of_ne_nil hne
  exact solid_cons.2 (hw c mem_cons_self).1

theorem spaces {k : Nat} (hs : Solid x) (h : Single (s.put (replicate (k + 1) ' ')) s' x) :
    Single s s' (replicate (k + 1) ' ' ++ x) := by
  obtain ⟨t, ht, hspells, hkeeps⟩ := h
  refine ⟨replicate (k + 1) ' ' ++ t, by simp [ht], hspells.spaces _ (hkeeps hs), fun h => ?_⟩
  cases solid_cons.1 h

theorem fold (hn : 0 < n) (hc : n < s.column) (hs : Solid x) (h : Single (s.toIndent n) s' x) :
    Single s s' (' ' :: x) := by
  obtain ⟨t, ht, hspells, hkeeps⟩ := h
  refine ⟨'\n' :: (replicate n ' ' ++ t), ?_, hspells.lines (k := 0) hn (hkeeps hs),
    fun h => ?_⟩
  · simp [ht, text_toIndent (.inr hc)]
  · cases solid_cons.1 h

theorem lines {k : Nat} (hn : 0 < n) (hs : Solid x)
    (h : Single ((lineEnds (replicate (k + 1) '\n') s.endLine).toIndent n) s' x) :
    Single s s' (replicate (k + 1) '\n' ++ x) := by
  obtain ⟨t, ht, hspells, hkeeps⟩ := h
  refine ⟨'\n' :: (replicate (k + 1) '\n' ++ (replicate n ' ' ++ t)), ?_,
    hspells.lines hn (hkeeps hs), fun h => ?_⟩
  · simp [ht, text_lineEnds]
  · cases solid_cons.1 h

end Single

/-- What is written between single quotes is read back: a text of which no line starts or ends with
a space. By induction on the room, which the runs of the text use up. -/
theorem single_singleText {n : Nat} (hn : 0 < n) (hw : n ≤ width) (room : Nat) (isFirst : Bool)
    (x : List Char) (s : Sheet) (hroom : x.length < room) (hp : IsPage x)
    (hstart : hasPair isValueBreak (· == ' ') x = false)
    (hend : hasPair (· == ' ') isValueBreak x = false) :
    Single s (singleText n true room isFirst x s) x := by
  induction room generalizing isFirst x s with
  | zero => omega
  | succ room ih =>
    cases x with
    | nil => exact .nil s
    | cons c tail =>
      -- What is left behind a run is shorter, and a part of the text.
      have hrest (isFirst : Bool) (s : Sheet) {run rest : List Char} (hne : run ≠ [])
          (hx : c :: tail = run ++ rest) :
          Single s (singleText n true room isFirst rest s) rest := by
        have hlen := congrArg length hx
        have hpos := length_pos_iff.2 hne
        rw [length_append] at hlen
        rw [hx] at hp hstart hend
        exact ih isFirst rest s (by omega) (isPage_append.1 hp).2 (hasPair_append hstart)
          (hasPair_append hend)
      by_cases hq : c = '\''
      · subst hq
        exact (hrest false _ (cons_ne_nil '\'' []) rfl).quote
      rw [singleText.eq_4 _ _ _ _ _ _ _ hq]
      simp only [span_eq_takeWhile_dropWhile]
      by_cases hspace : c = ' '
      · subst hspace
        obtain ⟨k, rest, htake, hdrop, hx, hhead⟩ :=
          exists_run (p := (· == ' ')) tail rfl fun d _ hd => eq_of_beq hd
        have hsolid : Solid rest := by
          rw [hx] at hp hend
          exact solid_of_isPage (isPage_append.1 hp).2 hhead
            (head?_of_hasPair (by simp) (by simp) hend)
        rw [if_pos (beq_self_eq_true ' '), htake, hdrop]
        split
        · rename_i hfold
          simp only [length_replicate, Bool.and_eq_true, decide_eq_true_eq] at hfold
          obtain rfl : k = 0 := by omega
          rw [hx]
          exact .fold hn (by omega) hsolid (hrest false _ (by simp) hx)
        · rw [hx]
          exact .spaces hsolid (hrest false _ (by simp) hx)
      rw [if_neg (by simpa using hspace)]
      by_cases hbreak : c = '\n'
      · subst hbreak
        obtain ⟨k, rest, htake, hdrop, hx, hhead⟩ :=
          exists_run (p := isValueBreak) tail rfl fun d hd hbreak => by
            rw [isValueBreak_eq (hp d hd)] at hbreak
            exact eq_of_beq hbreak
        have hsolid : Solid rest := by
          rw [hx] at hp hstart
          exact solid_of_isPage (isPage_append.1 hp).2
            (head?_of_hasPair (by simp) (by simp [isValueBreak]) hstart) hhead
        rw [if_pos (show isValueBreak '\n' = true from rfl), if_pos (beq_self_eq_true '\n'), htake,
          hdrop, hx]
        exact .lines hn hsolid (hrest false _ (by simp) hx)
      · have hc : isValueBreak c = false := by
          rw [isValueBreak_eq (isPage_cons.1 hp).1]
          exact beq_eq_false_iff_ne.2 hbreak
        have hx := (takeWhile_append_dropWhile (l := c :: tail)
          (p := fun c => !(c == ' ' || c == '\'' || isValueBreak c))).symm
        have hne :
            (c :: tail).takeWhile (fun c => !(c == ' ' || c == '\'' || isValueBreak c)) ≠ [] := by
          simp [hspace, hq, hc]
        rw [if_neg (by simp [hc])]
        conv => rhs; rw [hx]
        refine .word hne (fun d hd => hp d ((List.takeWhile_prefix _).subset hd)) (fun d hd => ?_)
          (hrest false _ hne hx)
        have hspecial := hp d ((List.takeWhile_prefix _).subset hd)
        have hd := all_eq_true.1 all_takeWhile d hd
        simp only [isValueBreak_eq hspecial, Bool.not_eq_true', Bool.or_eq_false_iff] at hd
        rw [isWordStop_eq hspecial, hd.1.1, hd.2]
        exact ⟨rfl, beq_eq_false_iff_ne.1 hd.1.2⟩

/-! ## Escapes -/

theorem mem_toDigits {b n : Nat} (hb : 2 ≤ b) (hc : c ∈ Nat.toDigits b n) :
    ∃ d < b, c = Nat.digitChar d := by
  induction n using Nat.strongRecOn with
  | _ n ih =>
    by_cases h : n < b
    · rw [Nat.toDigits_of_lt_base h, mem_singleton] at hc
      exact ⟨n, h, hc⟩
    · rw [Nat.toDigits_of_base_le (by omega) (by omega), mem_append, mem_singleton] at hc
      rcases hc with hc | rfl
      · exact ih (n / b) (Nat.div_lt_self (by omega) (by omega)) hc
      · exact ⟨n % b, Nat.mod_lt _ (by omega), rfl⟩

theorem hexDigit?_toUpper : ∀ d < 16, hexDigit? (Nat.digitChar d).toUpper =
    hexDigit? (Nat.digitChar d) := by decide

theorem not_special_toUpper : ∀ d < 16, isSpecial (Nat.digitChar d).toUpper = false := by decide

theorem length_capitalHex {n : Nat} (h : (Nat.toDigits 16 n).length ≤ k) :
    (capitalHex k n).length = k := by
  simp only [capitalHex, length_append, length_replicate, length_map]
  omega

theorem isPage_capitalHex (k n : Nat) : IsPage (capitalHex k n) := by
  refine isPage_append.2 ⟨isPage_replicate (by decide) _, fun c hc => ?_⟩
  obtain ⟨d, hd, rfl⟩ := mem_map.1 hc
  obtain ⟨k, hk, rfl⟩ := mem_toDigits (b := 16) (by decide) hd
  exact not_special_toUpper k hk

theorem hexValue?_capitalHex (k n : Nat) : hexValue? (capitalHex k n) = some n := by
  have hupper (ds : List Char) (hds : ∀ c ∈ ds, hexDigit? c.toUpper = hexDigit? c)
      (m : Nat) : (ds.map Char.toUpper).foldlM hexStep m = ds.foldlM hexStep m := by
    induction ds generalizing m with
    | nil => rfl
    | cons c ds ih =>
      rw [map_cons, foldlM_cons, foldlM_cons]
      have hc : hexStep m c.toUpper = hexStep m c := by
        rw [hexStep, hexStep, hds c mem_cons_self]
      rw [hc]
      exact congrArg _ (funext fun m => ih (fun d hd => hds d (mem_cons_of_mem _ hd)) m)
  refine (hexStep_zeros _ _).trans
    ((hupper _ (fun c hc => ?_) 0).trans (hexStep_toDigits n))
  obtain ⟨d, hd, rfl⟩ := mem_toDigits (b := 16) (by decide) hc
  exact hexDigit?_toUpper d hd

theorem charOf?_toNat (c : Char) : charOf? c.toNat = some c := by
  have hlt : c.toNat < 0x110000 := by have := toNat_lt_surrogates c; omega
  rw [charOf?, if_pos hlt, Char.ofNat_toNat]

theorem lookup_mem {table : List (Char × Char)} (h : table.lookup c = some e) : (c, e) ∈ table := by
  induction table with
  | nil => cases h
  | cons entry table ih =>
    obtain ⟨k, v⟩ := entry
    rw [lookup_cons] at h
    by_cases hk : c = k
    · subst hk
      rw [beq_self_eq_true] at h
      cases h
      exact mem_cons_self
    · rw [beq_eq_false_iff_ne.2 hk] at h
      exact mem_cons_of_mem _ (ih h)

theorem escaped?_letter : ∀ e ∈ escapeLetters, escaped? e.2 = some e.1 ∧ isSpecial e.2 = false := by
  decide

theorem Spells.escape {e : List Char} (he : escape? c = some e) (h : Spells true t x) :
    Spells true (e ++ t) (c :: x) := by
  have hcode (l : Char) (k : Nat) (hk : 0 < k) (hl : escaped? l = none)
      (hlen : codeLength? l = some k) (hp : isSpecial l = false) (hc : c.toNat < 16 ^ k) :
      Spells true (('\\' :: l :: capitalHex k c.toNat) ++ t) (c :: x) := by
    refine ⟨by simpa using ⟨by decide, hp, isPage_capitalHex _ _, h.isPage⟩, fun r hr => ?_⟩
    have hdigits := (Nat.length_toDigits_le_iff (by decide) hk).2 hc
    have hread := Reads.code (capitalHex k c.toNat) hl (by rw [length_capitalHex hdigits, hlen])
      (by rw [hexValue?_capitalHex]; exact charOf?_toNat c) (h.reads r hr)
    simpa using hread
  have hlt := toNat_lt_surrogates c
  rw [escape?] at he
  split at he
  · rename_i letter hletter
    cases he
    obtain ⟨hl, hp⟩ := escaped?_letter _ (lookup_mem hletter)
    exact ⟨by simpa using ⟨by decide, hp, h.isPage⟩, fun r hr => (h.reads r hr).letter hl⟩
  · split at he
    · cases he
    · split at he
      · cases he
        exact hcode 'x' 2 (by decide) rfl rfl (by decide) (by omega)
      · split at he
        · cases he
          exact hcode 'u' 4 (by decide) rfl rfl (by decide) (by omega)
        · cases he
          exact hcode 'U' 8 (by decide) rfl rfl (by decide) (by omega)

theorem exists_of_escape? {e : List Char} (h : escape? c = some e) : ∃ e', e = '\\' :: e' := by
  rw [escape?] at h
  split at h
  · cases h
    exact ⟨_, rfl⟩
  · split at h
    · cases h
    · split at h
      · cases h
        exact ⟨_, rfl⟩
      · split at h <;> cases h <;> exact ⟨_, rfl⟩

theorem of_escape?_eq_none (h : escape? c = none) :
    isSpecial c = false ∧ c ≠ '\n' ∧ c ≠ '"' ∧ c ≠ '\\' := by
  refine ⟨?_, ?_, ?_, ?_⟩
  · rw [escape?] at h
    split at h
    · cases h
    · split at h
      · rename_i hc
        simp [isSpecial, hc]
      · split at h
        · cases h
        · split at h <;> cases h
  all_goals
    rintro rfl
    exact absurd h (by decide)

theorem settled_cons (hp : isSpecial c = false) (hc : c ≠ '\n') (h : c = ' ' → Settled t) :
    Settled (c :: t) := by
  by_cases hspace : c = ' '
  · subst hspace
    exact h rfl
  · rw [Settled, dropWhile_cons_of_neg (by simpa [isBlankChar_eq hp] using hspace)]
    simpa [charAt, isBreak_eq hp] using hc

theorem Settled.append_quote (h : Settled t) (r : List Char) : Settled (t ++ '"' :: r) := by
  induction t with
  | nil => rfl
  | cons c t ih =>
    cases hc : isBlankChar c with
    | true =>
      rw [Settled, dropWhile_cons_of_pos hc] at h
      rw [Settled, cons_append, dropWhile_cons_of_pos hc]
      exact ih h
    | false =>
      rw [Settled, dropWhile_cons_of_neg (by simp [hc])] at h
      rw [Settled, cons_append, dropWhile_cons_of_neg (by simp [hc])]
      exact h

theorem Spells.plain (hc : escape? c = none) (hs : Settled t) (h : Spells true t x) :
    Spells true (c :: t) (c :: x) := by
  obtain ⟨hp, hline, hquote, hback⟩ := of_escape?_eq_none hc
  by_cases hspace : c = ' '
  · subst hspace
    exact ⟨isPage_cons.2 ⟨hp, h.isPage⟩, fun r hr => Reads.space (hs.append_quote r) (h.reads r hr)⟩
  · refine h.char hp ?_ hquote (fun _ => hback)
    rw [isWordStop_eq hp]
    simp [hspace, hline]

theorem Spells.broken {n : Nat} (hn : 0 < n) (hs : Solid t) (h : Spells true t x) :
    Spells true ('\\' :: '\n' :: (replicate n ' ' ++ t)) x := by
  refine ⟨?_, fun r hr => ?_⟩
  · simpa using ⟨by decide, by decide, isPage_replicate (by decide) n, h.isPage⟩
  · have hread := Reads.broken hn (hs.append_quote r) (h.reads r hr)
    simpa using hread

/-! ## Double quotes -/

/-- What a broken line goes on with: a space is escaped there. -/
def afterBreak (c : Char) : List Char := if c == ' ' then ['\\'] else []

theorem breakDouble_eq {n : Nat} {c : Char} {s : Sheet} (h : s.isMargin = false) :
    breakDouble n c s =
      { s with
        written := (s.text ++ '\\' :: '\n' :: (replicate n ' ' ++ afterBreak c)).reverse
        column := n + (afterBreak c).length
        endsBlank := false
        isMargin := false } := by
  have hput : (s.put ['\\']).isMargin = false := h
  simp only [breakDouble, afterBreak, toIndent_eq (.inl hput)]
  split <;> simp [put, endLine, endLineWith, text]

theorem text_breakDouble {n : Nat} {s : Sheet} (h : s.isMargin = false) : (breakDouble n c s).text =
      s.text ++ '\\' :: '\n' :: (replicate n ' ' ++ afterBreak c) := by
  rw [breakDouble_eq h, text, reverse_reverse]

theorem Spells.afterBreak {n : Nat} (hn : 0 < n) (hc : escape? c = none) (hs : Settled t)
    (h : Spells true t x) :
    Spells true ('\\' :: '\n' :: (replicate n ' ' ++ (afterBreak c ++ c :: t))) (c :: x) := by
  by_cases hspace : c = ' '
  · subst hspace
    have hletter : Spells true ('\\' :: ' ' :: t) (' ' :: x) :=
      ⟨by simpa using ⟨by decide, by decide, h.isPage⟩,
        fun r hr => (h.reads r hr).letter (e := ' ') rfl⟩
    exact hletter.broken hn (solid_cons.2 (by decide))
  · obtain ⟨hp, hline, -, -⟩ := of_escape?_eq_none hc
    have hempty : Yaml.afterBreak c = [] := by simp [Yaml.afterBreak, hspace]
    rw [hempty]
    refine broken hn (solid_cons.2 ?_) (h.plain hc hs)
    rw [isWordStop_eq hp]
    simp [hspace, hline]

theorem doubleText_space {n : Nat} {isFirst : Bool} {rest : List Char} {s : Sheet}
    (h : s.column ≤ width) :
    doubleText n true isFirst [] (' ' :: rest) s = doubleText n true false [' '] rest s := by
  have hnone : escape? ' ' = none := by decide
  rw [doubleText, hnone]
  have hcolumn : decide (width < s.column + ([] : List Char).length) = false := by simpa using h
  simp only [hcolumn, Bool.and_false]
  rfl

/-- What is written between double quotes is read back, whatever it is. -/
theorem exists_doubleText {n : Nat} (hn : 0 < n) (hw : n < width) (isFirst : Bool)
    (held x : List Char) (s : Sheet) (hm : s.isMargin = false) :
    ∃ t, (doubleText n true isFirst held x s).text = s.text ++ held ++ t ∧ Spells true t x ∧
      Settled t ∧ (x.head? ≠ some ' ' → Solid t) := by
  match x with
  | [] => exact ⟨[], by simp [doubleText], .nil, rfl, fun _ => by simp [Solid]⟩
  | c :: rest =>
    rw [doubleText]
    cases hc : escape? c with
    | none =>
      obtain ⟨hp, hline, -, -⟩ := of_escape?_eq_none hc
      have hput : (s.put held).isMargin = false := hm
      simp only
      split
      · obtain ⟨t, ht, hspells, hsettled, -⟩ :=
          exists_doubleText hn hw false [c] rest (breakDouble n c (s.put held))
            (by rw [breakDouble_eq hput])
        refine ⟨'\\' :: '\n' :: (replicate n ' ' ++ (afterBreak c ++ c :: t)), ?_,
          hspells.afterBreak hn hc hsettled, rfl, fun _ => solid_cons.2 (by decide)⟩
        rw [ht, text_breakDouble hput]
        simp
      · obtain ⟨t, ht, hspells, hsettled, -⟩ :=
          exists_doubleText hn hw false (held ++ [c]) rest s hm
        refine ⟨c :: t, by simp [ht], hspells.plain hc hsettled,
          settled_cons hp hline fun _ => hsettled, fun hhead => solid_cons.2 ?_⟩
        rw [isWordStop_eq hp]
        simpa [hline] using hhead
    | some e =>
      have hput : ((s.put held).put e).isMargin = false := hm
      have hsolid (t : List Char) : Solid (e ++ t) := by
        obtain ⟨e, rfl⟩ := exists_of_escape? hc
        exact solid_cons.2 (by decide)
      have hback (t : List Char) : Settled (e ++ t) := (hsolid t).settled 0
      simp only
      split
      · rename_i hbreak
        cases rest with
        | nil => simp at hbreak
        | cons d rest =>
          by_cases hspace : d = ' '
          · subst hspace
            have hcolumn : (breakDouble n ' ' ((s.put held).put e)).column ≤ width := by
              rw [breakDouble_eq hput]
              exact Nat.succ_le_of_lt hw
            obtain ⟨t, ht, hspells, hsettled, -⟩ :=
              exists_doubleText hn hw false [' '] rest (breakDouble n ' ' ((s.put held).put e))
                (by rw [breakDouble_eq hput])
            refine ⟨e ++ '\\' :: '\n' :: (replicate n ' ' ++ (afterBreak ' ' ++ ' ' :: t)), ?_,
              (hspells.afterBreak hn (by decide) hsettled).escape hc, hback _, fun _ => hsolid _⟩
            rw [show charAt (' ' :: rest) 0 = ' ' from rfl, doubleText_space hcolumn, ht,
              text_breakDouble hput]
            simp
          · obtain ⟨t, ht, hspells, -, hstart⟩ :=
              exists_doubleText hn hw false [] (d :: rest) (breakDouble n d ((s.put held).put e))
                (by rw [breakDouble_eq hput])
            have hempty : afterBreak d = [] := by simp [afterBreak, hspace]
            refine ⟨e ++ '\\' :: '\n' :: (replicate n ' ' ++ t), ?_,
              (hspells.broken hn (hstart (by simpa using hspace))).escape hc, hback _,
              fun _ => hsolid _⟩
            rw [show charAt (d :: rest) 0 = d from rfl, ht, text_breakDouble hput, hempty]
            simp
      · obtain ⟨t, ht, hspells, -, -⟩ :=
          exists_doubleText hn hw false [] rest ((s.put held).put e) hm
        refine ⟨e ++ t, ?_, hspells.escape hc, hback _, fun _ => hsolid _⟩
        rw [ht]
        simp
termination_by x.length

/-! ## Quoted scalars -/

def inQuotes (double : Bool) (t : List Char) : List Char :=
  quoteOf double :: (t ++ [quoteOf double])

theorem Spells.quoted (h : Spells double t x) (hr : double = false → r.head? ≠ some '\'') :
    Yaml.quoted double (inQuotes double t ++ r) = some (x, r) := by
  have hread := h.reads r hr (inQuotes double t ++ r).length (by simp [inQuotes])
  rw [Yaml.quoted, ← hread]
  simp [inQuotes]

theorem Spells.isPage_inQuotes (h : Spells double t x) : IsPage (inQuotes double t) := by
  have hquote : isSpecial (quoteOf double) = false := by cases double <;> decide
  simp [inQuotes, hquote, h.isPage]

variable {n : Nat} {s : Sheet}

theorem exists_single (hn : 0 < n) (hw : n < width) (hs : s.endsBlank = false)
    (hx : mayBeSingle x = true) :
    ∃ t, (s.single n true x).text = s.text ++ ' ' :: inQuotes false t ∧ Spells false t x := by
  have htraits : IsPage x ∧ hasPair isValueBreak (· == ' ') x = false ∧
      hasPair (· == ' ') isValueBreak x = false := by
    cases x with
    | nil => exact ⟨isPage_nil, rfl, rfl⟩
    | cons c x =>
      simp only [mayBeSingle, traits, isEmpty_cons, Bool.false_or, Bool.not_eq_true',
        Bool.or_eq_false_iff, any_eq_false, Bool.not_eq_true] at hx
      exact ⟨hx.1.1, hx.1.2, hx.2⟩
  obtain ⟨t, ht, hspells, -⟩ := single_singleText hn (Nat.le_of_lt hw) (x.length + 1) true x
    (s.sign "'" true false) (by omega) htraits.1 htraits.2.1 htraits.2.2
  refine ⟨t, ?_, hspells⟩
  rw [single, text_sign, ht]
  simp [hs, inQuotes, quoteOf]

theorem exists_double (hn : 0 < n) (hw : n < width) (hs : s.endsBlank = false) (x : List Char) :
    ∃ t, (s.double n true x).text = s.text ++ ' ' :: inQuotes true t ∧ Spells true t x := by
  obtain ⟨t, ht, hspells, -, -⟩ :=
    exists_doubleText hn hw true [] x (s.sign "\"" true false) (by simp)
  refine ⟨t, ?_, hspells⟩
  rw [double, text_sign, ht]
  simp [hs, inQuotes, quoteOf]

end Docsmith.Yaml
