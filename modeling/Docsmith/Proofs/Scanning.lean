/-
Where tokens stand. Every reader of the scanner leaves an end of its text and knows how many lines it
has passed (`Passes`), so that the line of a token is the line of its first character
(`exists_keyword_at`), and the tokens of a file follow each other down its lines (`ordered_tokensOf`):
only behind a line end is the next token surely on a later line.
-/
import Docsmith.Proofs.Text
import Docsmith.Syntax.Rule
import Mathlib.Data.List.TakeWhile

namespace Docsmith.Syntax

open List
open Option (bind_eq_bind bind_eq_some_iff map_eq_some_iff)

/-- The way from a text to what is left of it passes `n` line ends. -/
def Passes (n : Nat) (cs rest : List Char) : Prop := ∃ y, cs = y ++ rest ∧ y.count '\n' = n

namespace Passes

variable {n m : Nat} {cs ds es : List Char} {c : Char} {p : Char → Bool}

theorem refl : Passes 0 cs cs := ⟨[], rfl, rfl⟩

theorem trans (h : Passes n cs ds) (h' : Passes m ds es) : Passes (n + m) cs es := by
  obtain ⟨y, rfl, rfl⟩ := h
  obtain ⟨z, rfl, rfl⟩ := h'
  exact ⟨y ++ z, (append_assoc ..).symm, count_append⟩

theorem cons (hc : c ≠ '\n') (h : Passes n cs ds) : Passes n (c :: cs) ds := by
  obtain ⟨y, rfl, rfl⟩ := h
  exact ⟨c :: y, rfl, count_cons_of_ne hc⟩

theorem newline (h : Passes n cs ds) : Passes (n + 1) ('\n' :: cs) ds := by
  obtain ⟨y, rfl, rfl⟩ := h
  exact ⟨'\n' :: y, rfl, count_cons_self⟩

theorem counted {body : List Char} (c : Char) (h : Passes (body.count '\n') cs ds) :
    Passes ((c :: body).count '\n') (c :: cs) ds := by
  obtain ⟨y, rfl, hy⟩ := h
  exact ⟨c :: y, rfl, by rw [count_cons, count_cons, hy]⟩

theorem dropWhile (hp : p '\n' = false) : Passes 0 cs (cs.dropWhile p) := by
  refine ⟨cs.takeWhile p, takeWhile_append_dropWhile.symm, count_eq_zero.2 fun h => ?_⟩
  rw [mem_takeWhile_imp h] at hp
  cases hp

theorem of_isPrefixOf {lead : List Char} (h : lead.isPrefixOf cs) (hlead : '\n' ∉ lead) :
    Passes 0 cs (cs.drop lead.length) := by
  obtain ⟨rest, rfl⟩ := List.isPrefixOf_iff_prefix.1 h
  exact ⟨lead, by rw [drop_left], count_eq_zero.2 hlead⟩

theorem suffix (h : Passes n cs ds) : ds <:+ cs := by
  obtain ⟨y, rfl, -⟩ := h
  exact suffix_append y ds

theorem count_add (h : Passes n cs ds) : cs.count '\n' = n + ds.count '\n' := by
  obtain ⟨y, rfl, rfl⟩ := h
  exact count_append

end Passes

/-! ## Numbers -/

namespace Numeral

variable {base : Nat} {ds : Digits} {cs rest : List Char} {x : Constant}

theorem ne_newline_of_digit? {c : Char} {d : Nat} (h : digit? base c = some d) (hbase : base ≤ 16) :
    c ≠ '\n' := by
  rintro rfl
  have h16 : digit? base '\n' = if 16 < base then some 16 else none := rfl
  rw [h16, if_neg (by omega)] at h
  cases h

theorem passes_digits (hbase : base ≤ 16) (h : digits base cs = some (ds, rest)) :
    Passes 0 cs rest := by
  fun_induction digits base cs generalizing ds with
  | case1 => cases h; exact .refl
  | case2 | case4 => cases h
  | case3 c cs d hd ih =>
    obtain ⟨⟨es, rest⟩, hes, ⟨⟩⟩ := map_eq_some_iff.1 h
    exact .cons (by decide) (.cons (ne_newline_of_digit? hd hbase) (ih hes))
  | case5 => cases h; exact .refl
  | case6 c cs _ _ d hd ih =>
    obtain ⟨⟨es, rest⟩, hes, ⟨⟩⟩ := map_eq_some_iff.1 h
    exact .cons (ne_newline_of_digit? hd hbase) (ih hes)

theorem passes_ended {k : Constant} (h : ended k cs = some (x, rest)) : Passes 0 cs rest := by
  rw [ended] at h
  split at h
  · cases h; exact .refl
  · cases h

theorem passes_based (hbase : base ≤ 16) (h : based base cs = some (x, rest)) :
    Passes 0 cs rest := by
  simp only [based, bind_eq_bind, bind_eq_some_iff] at h
  obtain ⟨⟨ds, left⟩, hds, h⟩ := h
  dsimp only at h
  split at h
  · cases h
  · exact (passes_digits hbase hds).trans (passes_ended h)

variable {m : Nat} {e : Int}

theorem passes_scaled (h : scaled m e cs = some (x, rest)) : Passes 0 cs rest := by
  simp only [scaled] at h
  split at h
  · exact .cons (by decide) (passes_ended h)
  · exact .cons (by decide) (passes_ended h)
  · exact passes_ended h

theorem passes_exponent {negative : Bool}
    (h : exponent negative m e cs = some (x, rest)) : Passes 0 cs rest := by
  rw [exponent] at h
  split at h
  · cases h
  · simp only [bind_eq_bind, bind_eq_some_iff] at h
    obtain ⟨⟨ds, left⟩, hds, h⟩ := h
    exact (passes_digits (by decide) hds).trans (passes_scaled h)

theorem passes_tail {plain beforeElse : Option Constant}
    (h : tail plain beforeElse m e cs = some (x, rest)) : Passes 0 cs rest := by
  unfold tail at h
  split at h
  · next c left =>
    split at h
    · next hc =>
      have hc : c ≠ '\n' := by rcases hc with rfl | rfl <;> decide
      split at h
      · exact .cons hc (.cons (by decide) (passes_exponent h))
      · exact .cons hc (.cons (by decide) (passes_exponent h))
      · split at h
        · exact .cons hc (passes_exponent h)
        · split at h
          · obtain ⟨k, -, ⟨⟩⟩ := map_eq_some_iff.1 h
            exact .refl
          · cases h
      · cases h
    · split at h
      · next hc => exact .cons (by rcases hc with rfl | rfl <;> decide) (passes_ended h)
      · obtain ⟨k, -, hk⟩ := bind_eq_some_iff.1 h
        exact passes_ended hk
  · obtain ⟨k, -, ⟨⟩⟩ := map_eq_some_iff.1 h
    exact .refl

theorem passes_fraction (h : fraction m cs = some (x, rest)) : Passes 0 cs rest := by
  simp only [fraction, bind_eq_bind] at h
  split at h
  · obtain ⟨⟨ds, left⟩, hds, h⟩ := bind_eq_some_iff.1 h
    exact (passes_digits (by decide) hds).trans (passes_tail h)
  · exact passes_tail h

theorem passes_decimal (h : decimal cs = some (x, rest)) : Passes 0 cs rest := by
  simp only [decimal, bind_eq_bind, bind_eq_some_iff] at h
  obtain ⟨⟨ds, left⟩, hds, h⟩ := h
  refine (passes_digits (by decide) hds).trans (m := 0) ?_
  dsimp only at h
  split at h
  · exact .cons (by decide) (passes_fraction h)
  · exact passes_tail h

theorem passes_read (h : read cs = some (x, rest)) : Passes 0 cs rest := by
  unfold read at h
  split at h
  · exact .cons (by decide) (passes_fraction h)
  · next c left =>
    have hmarked {base : Nat} (hbase : base ≤ 16) {a b : Char} (ha : a ≠ '\n') (hb : b ≠ '\n')
        (hc : c = a ∨ c = b) (h : based base left = some (x, rest)) :
        Passes 0 ('0' :: c :: left) rest := by
      refine .cons (by decide) (.cons ?_ (passes_based hbase h))
      rcases hc with rfl | rfl <;> assumption
    split at h
    · next hc => exact hmarked (by decide) (by decide) (by decide) hc h
    · split at h
      · next hc => exact hmarked (by decide) (by decide) (by decide) hc h
      · split at h
        · next hc => exact hmarked (by decide) (by decide) (by decide) hc h
        · exact passes_decimal h
  · exact passes_decimal h

end Numeral

/-! ## Tokens within a line -/

namespace Scan

variable {cs rest body : List Char} {quote : Char}

theorem passes_quotedPrefix {q q' : Quoted} (h : quotedPrefix q cs = some (q', quote, rest)) :
    Passes 0 cs rest ∧ quote ≠ '\n' := by
  fun_induction quotedPrefix q cs with
  | case1 => cases h
  | case2 q c cs hc =>
    have hc : c ≠ '\n' := by rcases hc with rfl | rfl <;> decide
    cases h
    exact ⟨.cons hc .refl, hc⟩
  | case3 q c cs _ hc ih | case4 q c cs _ _ hc ih | case5 q c cs _ _ _ hc ih
  | case6 q c cs _ _ _ _ hc ih =>
    exact ⟨.cons (by rcases hc.1 with rfl | rfl <;> decide) (ih h).1, (ih h).2⟩
  | case7 => cases h

theorem passes_untilQuote (hq : quote ≠ '\n') (h : untilQuote quote cs = some (body, rest)) :
    Passes (body.count '\n') cs rest := by
  fun_induction untilQuote quote cs generalizing body with
  | case1 | case4 => cases h
  | case2 c cs ih =>
    obtain ⟨⟨body, rest⟩, hbody, ⟨⟩⟩ := map_eq_some_iff.1 h
    exact .counted _ (.counted _ (ih hbody))
  | case3 cs => cases h; exact .cons hq .refl
  | case5 c cs _ _ _ ih =>
    obtain ⟨⟨body, rest⟩, hbody, ⟨⟩⟩ := map_eq_some_iff.1 h
    exact .counted _ (ih hbody)

theorem passes_untilQuotes (hq : quote ≠ '\n') (h : untilQuotes quote cs = some (body, rest)) :
    Passes (body.count '\n') cs rest := by
  fun_induction untilQuotes quote cs generalizing body with
  | case1 => cases h
  | case2 c cs ih =>
    obtain ⟨⟨body, rest⟩, hbody, ⟨⟩⟩ := map_eq_some_iff.1 h
    exact .counted _ (.counted _ (ih hbody))
  | case3 c cs _ hc =>
    cases h
    rw [hc.1]
    exact .cons hq (.of_isPrefixOf hc.2 (by simpa using hq.symm))
  | case4 c cs _ _ ih =>
    obtain ⟨⟨body, rest⟩, hbody, ⟨⟩⟩ := map_eq_some_iff.1 h
    exact .counted _ (ih hbody)

theorem passes_quotedBody (hq : quote ≠ '\n') (h : quotedBody quote cs = some (body, rest)) :
    Passes (body.count '\n') cs rest := by
  rw [quotedBody] at h
  split at h
  · next hcs =>
    have := (Passes.of_isPrefixOf hcs (by simpa using hq.symm)).trans (passes_untilQuotes hq h)
    rwa [Nat.zero_add] at this
  · exact passes_untilQuote hq h

theorem newline_not_mem_symbols : ∀ sym ∈ symbols, '\n' ∉ sym.toList := by decide

/-- A scan goes on in its text and counts the lines on its way. -/
def Moves (s s' : Scan) : Prop := ∃ n, Passes n s.rest s'.rest ∧ s'.line = s.line + n

variable {s s' : Scan}

theorem Moves.of_rest (h : Passes 0 s.rest s'.rest) (hline : s'.line = s.line) : Moves s s' :=
  ⟨0, h, hline⟩

/-- A token that is written on a line: it starts where the scan stood, and ends where it stands
then. -/
structure Reads (s : Scan) (t : Token) (s' : Scan) : Prop where
  isWritten : t.lexeme.isWritten = true
  line : t.line = s.line
  endLine : t.endLine = s'.line
  atStart : s'.atStart = s.atStart
  moves : Moves s s'
  keyword : ∀ word, t.lexeme = .keyword word → word.toList <+: s.rest

theorem reads_word {t : Token} (h : word s.line (s.rest.takeWhile Numeral.goesOn) = some t) :
    Reads s t { s with rest := s.rest.dropWhile Numeral.goesOn } := by
  have hmoves : Moves s { s with rest := s.rest.dropWhile Numeral.goesOn } :=
    .of_rest (.dropWhile (by decide)) rfl
  rw [word] at h
  split at h
  · cases h
    refine ⟨?_, rfl, rfl, rfl, hmoves, fun id hid => ?_⟩
    · dsimp only [Token.on]
      split <;> rfl
    · dsimp only [Token.on] at hid
      split at hid
      · cases hid
        rw [String.toList_ofList]
        exact List.takeWhile_prefix _
      · cases hid
  · split at h
    · cases h
      exact ⟨rfl, rfl, rfl, rfl, hmoves, fun _ h => by cases h⟩
    · cases h

theorem reads_lexeme {t : Token} (h : lexeme s = some (t, s')) : Reads s t s' := by
  unfold lexeme at h
  split at h
  · cases h
  · next c cs hrest =>
    split at h
    · next q quote inner hq =>
      simp only [bind_eq_bind, bind_eq_some_iff] at h
      obtain ⟨⟨body, rest⟩, hbody, ⟨⟩⟩ := h
      obtain ⟨hinner, hne⟩ := passes_quotedPrefix hq
      have := hinner.trans (passes_quotedBody hne hbody)
      exact ⟨rfl, rfl, rfl, rfl, ⟨_, this, by simp⟩, fun _ h => by cases h⟩
    · split at h
      · simp only [bind_eq_bind, bind_eq_some_iff] at h
        obtain ⟨token, htoken, ⟨⟩⟩ := h
        exact reads_word htoken
      · split at h
        · simp only [bind_eq_bind, bind_eq_some_iff] at h
          obtain ⟨⟨n, rest⟩, hread, ⟨⟩⟩ := h
          exact ⟨rfl, rfl, rfl, rfl, .of_rest (Numeral.passes_read hread) rfl, fun _ h => by cases h⟩
        · simp only [bind_eq_bind, bind_eq_some_iff] at h
          obtain ⟨sym, hsym, opened, hopened, ⟨⟩⟩ := h
          have hmem := newline_not_mem_symbols sym (mem_of_find?_eq_some hsym)
          have hlead : sym.toList.isPrefixOf s.rest = true := by
            have := find?_some hsym
            exact this
          have hpass := Passes.of_isPrefixOf hlead hmem
          rw [String.length_toList] at hpass
          exact ⟨rfl, rfl, rfl, rfl, .of_rest hpass rfl, fun _ h => by cases h⟩

/-! ## One step of a scan -/

/-- A text whose last line has its end. -/
def EndsLine (cs : List Char) : Prop := ∀ c, cs.getLast? = some c → c = '\n'

theorem EndsLine.of_suffix (h : EndsLine cs) (hrest : rest <:+ cs) : EndsLine rest := by
  intro c hc
  obtain ⟨y, rfl⟩ := hrest
  exact h c (by rw [getLast?_append, hc]; rfl)

/-- What is left after a comment at the start of a line, and the end of the line. -/
theorem EndsLine.passes_comment (h : EndsLine cs) (hne : cs ≠ []) :
    Passes 1 cs ((cs.dropWhile (· ≠ '\n')).drop 1) := by
  have hmem : '\n' ∈ cs := by
    have hlast := getLast?_eq_some_getLast hne
    rw [h _ hlast] at hlast
    exact mem_of_getLast? hlast
  have hpass : Passes 0 cs (cs.dropWhile (· ≠ '\n')) := .dropWhile (by decide)
  have hhead := Text.head?_dropWhile (· ≠ '\n') cs
  cases hleft : cs.dropWhile (· ≠ '\n') with
  | nil => simpa using dropWhile_eq_nil_iff.1 hleft _ hmem
  | cons c left =>
    rw [hleft] at hpass hhead
    obtain rfl : c = '\n' := by simpa using hhead
    exact hpass.trans (.newline .refl)

theorem passes_margin {col col' : Columns} {kept line line' : Nat}
    (h : margin col kept line cs = some (col', line', rest)) :
    ∃ n, Passes n cs rest ∧ line' = line + n := by
  fun_induction margin col kept line cs with
  | case1 col kept line cs ih | case2 col kept line cs ih | case3 col kept line cs ih =>
    obtain ⟨n, hn, hline⟩ := ih h
    exact ⟨n, .cons (by decide) hn, hline⟩
  | case4 | case6 => cases h
  | case5 col kept line cs _ ih =>
    obtain ⟨n, hn, hline⟩ := ih h
    exact ⟨n + 1, .cons (by decide) (.newline hn), by omega⟩
  | case7 => cases h; exact ⟨0, .refl, rfl⟩

theorem indentation_some {col : Columns} {line : Nat} {levels levels' : List Columns}
    {ts : List Token} (h : indentation col line levels = some (ts, levels')) :
    ts = [.on line .indent] ∨ ∃ n, ts = replicate n (.on line .dedent) := by
  simp only [indentation] at h
  split at h
  · split at h
    · cases h
      exact .inr ⟨0, rfl⟩
    · cases h
  · split at h
    · split at h
      · cases h
        exact .inl rfl
      · cases h
    · split at h
      · cases h
        exact .inr ⟨_, rfl⟩
      · cases h

/-- What one step of a scan is: it passes over something, it finds a change of indentation or the end
of a line, or it reads a token. -/
inductive Step (s : Scan) (ts : List Token) (s' : Scan) : Prop
  | skip (hts : ts = []) (hopened : s'.opened = s.opened)
      (hstart : s'.atStart = true → s.atStart = true ∨ s.opened ≠ [])
  | indent (hts : ts = [.on s'.line .indent]) (hfrom : s.atStart = true ∧ s.opened = [])
      (hstart : s'.atStart = false)
  | dedent (n : Nat) (hts : ts = replicate n (.on s'.line .dedent))
      (hfrom : s.atStart = true ∧ s.opened = []) (hstart : s'.atStart = false)
  | newline (hts : ts = [.on s.line .newline]) (hline : s'.line = s.line + 1)
  | read (t : Token) (hts : ts = [t]) (hread : Reads s t s')

theorem step_cases {ts : List Token} (hend : EndsLine s.rest)
    (h : step s = some (ts, s')) : Moves s s' ∧ Step s ts s' := by
  unfold step at h
  split at h
  · next hstart =>
    simp only [bind_eq_bind, bind_eq_some_iff] at h
    obtain ⟨⟨col, line, rest⟩, hmargin, h⟩ := h
    obtain ⟨n, hpass, hline⟩ := passes_margin hmargin
    dsimp only at h
    split at h
    · cases h
      have hcomment := (hend.of_suffix hpass.suffix).passes_comment (by simp)
      exact ⟨⟨n + 1, hpass.trans hcomment, by simp only [hline]; omega⟩, .skip rfl rfl .inl⟩
    · cases h
      have hblank := hpass.trans (.newline .refl)
      exact ⟨⟨n + 1, hblank, by simp only [hline]; omega⟩, .skip rfl rfl .inl⟩
    · split at h
      · next hopen =>
        simp only [bind_eq_some_iff] at h
        obtain ⟨⟨tokens, levels⟩, hind, ⟨⟩⟩ := h
        have hfrom := And.intro hstart (List.isEmpty_iff.1 hopen)
        obtain rfl | ⟨m, rfl⟩ := indentation_some hind
        · exact ⟨⟨n, hpass, hline⟩, .indent rfl hfrom rfl⟩
        · exact ⟨⟨n, hpass, hline⟩, .dedent m rfl hfrom rfl⟩
      · cases h
        exact ⟨⟨n, hpass, hline⟩, .skip rfl rfl fun _ => .inl hstart⟩
  · split at h
    iterate 3
      next hrest =>
        cases h
        exact ⟨.of_rest (hrest ▸ .cons (by decide) .refl) rfl, .skip rfl rfl .inl⟩
    · next hrest =>
      cases h
      exact ⟨.of_rest (hrest ▸ .cons (by decide) (.dropWhile (by decide))) rfl, .skip rfl rfl .inl⟩
    · next hrest =>
      cases h
      refine ⟨⟨1, hrest ▸ Passes.newline .refl, rfl⟩, ?_⟩
      split
      · exact .newline rfl rfl
      · next hopen => exact .skip rfl rfl fun _ => .inr (by simpa using hopen)
    · next hrest =>
      split at h
      · cases h
      · cases h
        exact ⟨⟨1, hrest ▸ .cons (by decide) (.newline .refl), rfl⟩, .skip rfl rfl .inl⟩
    · obtain ⟨⟨t, s''⟩, ht, ⟨⟩⟩ := map_eq_some_iff.1 h
      exact ⟨(reads_lexeme ht).moves, .read t rfl (reads_lexeme ht)⟩

end Scan

/-! ## The tokens of a file -/

/-- The line of the first of some tokens, or of the end. -/
def firstLine (top : Nat) (ts : List Token) : Nat := (ts.head?.map (·.line)).getD top

@[simp] theorem firstLine_nil {top : Nat} : firstLine top [] = top := rfl

@[simp] theorem firstLine_cons {top : Nat} {t : Token} {ts : List Token} :
    firstLine top (t :: ts) = t.line := rfl

/-- Whether the first of some tokens is written on its line or ends it. -/
def StartsLine : List Token → Prop
  | [] => True
  | t :: _ => t.lexeme ≠ .indent ∧ t.lexeme ≠ .dedent

/-- Tokens that follow each other down the lines of a file with its end on line `top`. Where
indentation starts something stands. -/
def Ordered (top : Nat) : List Token → Prop
  | [] => True
  | t :: ts =>
    t.line ≤ t.endLine ∧ t.endLine ≤ firstLine top ts ∧
      (t.lexeme = .newline → t.endLine < firstLine top ts) ∧
      (t.lexeme = .indent → StartsLine ts) ∧ Ordered top ts

namespace Scan

variable {s s' : Scan} {ts out : List Token} {top : Nat}

theorem Ordered.replicate_dedent {line : Nat} (hline : line ≤ firstLine top out)
    (h : Ordered top out) (n : Nat) :
    Ordered top (replicate n (.on line .dedent) ++ out) ∧
      line ≤ firstLine top (replicate n (.on line .dedent) ++ out) := by
  induction n with
  | zero => exact ⟨h, hline⟩
  | succ n ih =>
    exact ⟨⟨Nat.le_refl _, ih.2, nofun, nofun, ih.1⟩, Nat.le_refl _⟩

/-- A word that stands in a text, with the line it is on if the text starts on line `n`. -/
def StandsIn (cs : List Char) (n : Nat) (word : String) (line : Nat) : Prop :=
  ∃ before after, cs = before ++ word.toList ++ after ∧ line = n + before.count '\n'

theorem Moves.standsIn {word : String} {line : Nat} (h : Moves s s')
    (hat : StandsIn s'.rest s'.line word line) : StandsIn s.rest s.line word line := by
  obtain ⟨n, ⟨y, hy, rfl⟩, hline⟩ := h
  obtain ⟨before, after, hrest, rfl⟩ := hat
  refine ⟨y ++ before, after, by rw [hy, hrest]; simp, ?_⟩
  rw [hline, count_append, Nat.add_assoc]

/-- What holds of the tokens from where a scan stands: they come in order, from its line on, within a
line there is no indentation, and keywords stand in the text. -/
structure Follows (top : Nat) (s : Scan) (out : List Token) : Prop where
  ordered : Ordered top out
  line_le : s.line ≤ firstLine top out
  starts : s.atStart = false ∨ s.opened ≠ [] → StartsLine out
  keyword : ∀ t ∈ out, ∀ word, t.lexeme = .keyword word → StandsIn s.rest s.line word t.line

theorem Follows.step (hmoves : Moves s s') (hstep : Step s ts s') (h : Follows top s' out) :
    Follows top s (ts ++ out) := by
  obtain ⟨hordered, hle, hstarts, hkeyword⟩ := h
  have hkeyword : ∀ t ∈ out, ∀ word, t.lexeme = .keyword word →
      StandsIn s.rest s.line word t.line :=
    fun t ht word hword => hmoves.standsIn (hkeyword t ht word hword)
  obtain ⟨n, -, hline⟩ := hmoves
  have hle' : s.line ≤ firstLine top out := by omega
  cases hstep with
  | skip hts hopened hstart =>
    subst hts
    refine ⟨hordered, hle', fun hs => hstarts ?_, hkeyword⟩
    rw [hopened]
    cases hnow : s'.atStart with
    | false => exact .inl rfl
    | true =>
      obtain hs | hs := hs
      · exact .inr ((hstart hnow).resolve_left (by simp [hs]))
      · exact .inr hs
  | indent hts hfrom hstart =>
    subst hts
    refine ⟨⟨Nat.le_refl _, hle, nofun, fun _ => hstarts (.inl hstart), hordered⟩,
      by simp only [cons_append, firstLine_cons, Token.on]; omega, fun hs => by simp_all, ?_⟩
    exact forall_mem_cons.2 ⟨nofun, hkeyword⟩
  | dedent n hts hfrom hstart =>
    subst hts
    obtain ⟨hordered, hle⟩ := Ordered.replicate_dedent hle hordered n
    refine ⟨hordered, by omega, fun hs => by simp_all, forall_mem_append.2 ⟨?_, hkeyword⟩⟩
    intro t ht
    rw [eq_of_mem_replicate ht]
    nofun
  | newline hts hnext =>
    subst hts
    have hlt : s.line < firstLine top out := by omega
    exact ⟨⟨Nat.le_refl _, hle', fun _ => hlt, nofun, hordered⟩, Nat.le_refl _,
      fun _ => ⟨nofun, nofun⟩, forall_mem_cons.2 ⟨nofun, hkeyword⟩⟩
  | read t hts hread =>
    subst hts
    have hnot {x : Lexeme} (hx : x.isWritten = false) : t.lexeme ≠ x := by
      rintro rfl
      rw [hread.isWritten] at hx
      cases hx
    refine ⟨⟨?_, ?_, fun h => absurd h (hnot rfl), fun h => absurd h (hnot rfl), hordered⟩, ?_,
      fun _ => ⟨hnot rfl, hnot rfl⟩, forall_mem_cons.2 ⟨fun word hword => ?_, hkeyword⟩⟩
    · rw [hread.line, hread.endLine]
      omega
    · rw [hread.endLine]
      exact hle
    · exact Nat.le_of_eq hread.line.symm
    · obtain ⟨after, hafter⟩ := hread.keyword word hword
      exact ⟨[], after, hafter.symm, hread.line⟩

/-- The tokens that a scan finds, one step after another. -/
theorem follows_tokensFrom {room : Nat} {done : List Token} (hend : EndsLine s.rest)
    (h : tokensFrom room done s = some ts) :
    ∃ out, ts = done.reverse ++ out ∧ Follows (s.line + s.rest.count '\n') s out := by
  induction room generalizing done s with
  | zero => cases h
  | succ room ih =>
    rw [tokensFrom] at h
    split at h
    · split at h
      · cases h
        exact ⟨[], (append_nil _).symm, trivial, by simp, fun _ => trivial, by simp⟩
      · cases h
    · obtain ⟨⟨found, s'⟩, hstep, h⟩ := bind_eq_some_iff.1 h
      obtain ⟨hmoves, hcases⟩ := step_cases hend hstep
      obtain ⟨n, hpass, hline⟩ := hmoves
      obtain ⟨out, rfl, hout⟩ := ih (hend.of_suffix hpass.suffix) h
      refine ⟨found ++ out, by simp, .step ⟨n, hpass, hline⟩ hcases ?_⟩
      rwa [hpass.count_add, ← Nat.add_assoc, ← hline]

end Scan

/-- The text that is scanned for a source: its last line has an end. -/
def completed (source : List Char) : List Char :=
  if source.getLast? = some '\n' then source else source ++ ['\n']

theorem endsLine_completed (source : List Char) : Scan.EndsLine (completed source) := by
  intro c hc
  rw [completed] at hc
  split at hc
  · next h => rw [h] at hc; cases hc; rfl
  · simpa [eq_comm] using hc

variable {source : List Char} {ts : List Token}

/-- **The tokens of a file** come in the order of their lines, from the first one on and before the
one behind its end. -/
theorem ordered_tokensOf (h : tokensOf source = some ts) :
    Ordered ((completed source).count '\n' + 1) ts ∧
      1 ≤ firstLine ((completed source).count '\n' + 1) ts := by
  obtain ⟨out, rfl, hout⟩ := Scan.follows_tokensFrom (endsLine_completed source) h
  rw [Nat.add_comm]
  exact ⟨hout.ordered, hout.line_le⟩

/-- A keyword stands in the source, on the line of its token. -/
theorem exists_keyword_at (h : tokensOf source = some ts) {t : Token} (ht : t ∈ ts) {word : String}
    (hword : t.lexeme = .keyword word) (hne : word.toList.getLast? ≠ some '\n')
    (hsome : word.toList ≠ []) : Scan.StandsIn source 1 word t.line := by
  obtain ⟨out, rfl, hout⟩ := Scan.follows_tokensFrom (endsLine_completed source) h
  obtain ⟨before, after, hcs, hline⟩ := hout.keyword t ht word hword
  dsimp only at hcs
  split at hcs
  · exact ⟨before, after, hcs, hline⟩
  · obtain rfl | ⟨after, c, rfl⟩ := after.eq_nil_or_concat
    · have hlast := congrArg getLast? hcs
      rw [append_nil, getLast?_append, getLast?_append,
        getLast?_eq_some_getLast hsome] at hlast
      exact absurd ((getLast?_eq_some_getLast hsome).trans hlast.symm) hne
    · rw [concat_eq_append, ← append_assoc] at hcs
      exact ⟨before, after, append_inj_left' hcs rfl, hline⟩

end Docsmith.Syntax
