/-
How a document on a page becomes tokens, entry by entry. `Scan.ready` is a scan before a token, with
no key pending; `Leads` says that reading goes on from one such place to another. The lemmas
`leads_key`, `leads_scalar`, `leads_dash` and `leads_brackets` are the steps over what the writer
makes.
-/
import Docsmith.Proofs.Yaml.Plain
import Docsmith.Yaml.Token

namespace Docsmith.Yaml

open Position List

/-! ## Positions -/

namespace Position

variable {p : Position} {t r : List Char}

theorem upTo_eq (h : p.rest = t ++ r) : p.upTo r = skip t.length p := by
  rw [upTo, h, length_append, Nat.add_sub_cancel]

theorem step_cons {c : Char} (h : p.rest = c :: r) (hc : isSpecial c = false) :
    p.step = if c = '\n' then ⟨r, p.index + 1, p.line + 1, 0⟩
      else ⟨r, p.index + 1, p.line, p.column + 1⟩ := by
  rw [step, h]
  simp [beq_of_not_special hc (d := '\r') (by decide),
    beq_of_not_special hc (d := '\u0085') (by decide),
    beq_of_not_special hc (d := '\u2028') (by decide),
    beq_of_not_special hc (d := '\u2029') (by decide),
    beq_of_not_special hc (d := '\ufeff') (by decide)]

theorem upTo_line (h : p.rest = t ++ r) (hp : IsPage t) (hline : '\n' ∉ t) :
    p.upTo r = ⟨r, p.index + t.length, p.line, p.column + t.length⟩ := by
  rw [upTo_eq h]
  induction t generalizing p with
  | nil => rw [← show p.rest = r from h]; rfl
  | cons c t ih =>
    obtain ⟨hc, hp⟩ := isPage_cons.1 hp
    have hnot : ¬ c = '\n' := fun h => hline (h ▸ mem_cons_self)
    have hstep := step_cons h hc
    rw [if_neg hnot] at hstep
    rw [length_cons, skip, hstep, ih rfl hp fun h => hline (mem_cons_of_mem _ h)]
    simp only [Nat.add_assoc, Nat.add_comm 1]

theorem upTo_lines {u : List Char} (h : p.rest = t ++ '\n' :: (u ++ r)) (ht : IsPage t)
    (hu : IsPage u) (hline : '\n' ∉ u) :
    ∃ index line, p.line < line ∧ p.upTo r = ⟨r, index, line, u.length⟩ := by
  have hrest : p.rest = (t ++ '\n' :: u) ++ r := by simp [h]
  rw [upTo_eq hrest]
  induction t generalizing p with
  | nil =>
    have hstep := step_cons h (by decide)
    rw [if_pos rfl] at hstep
    have hend := upTo_line (p := p.step) (t := u) (r := r) (by rw [hstep]) hu hline
    rw [upTo_eq (by rw [hstep])] at hend
    refine ⟨p.index + 1 + u.length, p.line + 1, by omega, ?_⟩
    rw [nil_append, length_cons, skip, hend, hstep]
    simp
  | cons c t ih =>
    obtain ⟨hc, ht⟩ := isPage_cons.1 ht
    have hstep := step_cons h hc
    have hle : p.line ≤ p.step.line ∧ p.step.rest = t ++ '\n' :: (u ++ r) := by
      rw [hstep]
      split
      · exact ⟨by simp, rfl⟩
      · exact ⟨by simp, rfl⟩
    obtain ⟨index, line, hlt, heq⟩ := ih hle.2 ht (by simp [hle.2])
    exact ⟨index, line, by omega, heq⟩

theorem upTo_page (h : p.rest = t ++ r) (ht : IsPage t) :
    (p.upTo r).rest = r ∧ p.line ≤ (p.upTo r).line := by
  rw [upTo_eq h]
  induction t generalizing p with
  | nil => exact ⟨h, Nat.le_refl _⟩
  | cons c t ih =>
    obtain ⟨hc, ht⟩ := isPage_cons.1 ht
    have hstep := step_cons h hc
    have hnext : p.step.rest = t ++ r ∧ p.line ≤ p.step.line := by
      rw [hstep]
      split
      · exact ⟨rfl, by simp⟩
      · exact ⟨rfl, by simp⟩
    obtain ⟨hrest, hline⟩ := ih hnext.1 ht
    exact ⟨hrest, Nat.le_trans hnext.2 hline⟩

end Position

/-! ## Between tokens -/

/-- A text that starts with a token: no blank, no line end and no comment. -/
structure Starts (cs : List Char) : Prop where
  solid : Solid cs
  no_comment : cs.head? ≠ some '#'

theorem starts_cons {c : Char} {cs : List Char} :
    Starts (c :: cs) ↔ isWordStop c = false ∧ c ≠ '#' := by
  constructor
  · rintro ⟨h1, h2⟩
    exact ⟨solid_cons.1 h1, by simpa using h2⟩
  · rintro ⟨h1, h2⟩
    exact ⟨solid_cons.2 h1, by simpa using h2⟩

theorem starts_nil : Starts [] := ⟨by simp [Solid], by simp⟩

theorem Starts.dropComment {cs : List Char} (h : Starts cs) (n : Nat) :
    dropComment ((replicate n ' ' ++ cs).dropWhile (· == ' ')) = cs := by
  have hdrop : (replicate n ' ' ++ cs).dropWhile (· == ' ') = cs := by
    have hspan := span_spaces n h.solid
    rw [span_eq_takeWhile_dropWhile] at hspan
    exact (Prod.mk.inj hspan).2
  rw [hdrop, Yaml.dropComment, if_neg]
  cases cs with
  | nil => decide
  | cons c cs => simpa [charAt] using h.no_comment

namespace Scan

def outside (p : Position) (ts : List Token) (i : Int) (outer : List Int) (mayStart : Bool)
    (starts : List (Nat × KeyStart)) : Scan := ⟨p, ts, 0, i, outer, mayStart, starts⟩

/-- A scan outside brackets, before a token, and without a place where a key may have started. -/
def ready (p : Position) (ts : List Token) (i : Int) (outer : List Int) (mayStart : Bool) : Scan :=
  outside p ts i outer mayStart []

/-- The scan before the next token. -/
def onward (s : Scan) : Scan := s.toNext (s.place.rest.length + 1)

variable {s s' s₁ : Scan} {room : Nat} {p : Position} {ts : List Token} {i : Int} {outer : List Int}
  {m : Bool} {starts : List (Nat × KeyStart)} {cs : List Char}

theorem toNext_spaces (n : Nat) (h : s.place.rest = replicate n ' ' ++ cs) (hs : Starts cs) :
    toNext (room + 1) s = { s with place := s.place.upTo cs } := by
  rw [toNext]
  simp only [h, hs.dropComment n, isBreak_charAt hs.solid]
  rfl

theorem onward_starts (hs : Starts s.place.rest) : s.onward = s := by
  rw [onward, toNext_spaces 0 rfl hs, upTo_eq (t := []) rfl]
  rfl

theorem onward_space (h : p.rest = ' ' :: cs) (hs : Starts cs) :
    (outside p ts i outer m starts).onward =
      outside ⟨cs, p.index + 1, p.line, p.column + 1⟩ ts i outer m starts := by
  have hplace := upTo_line (t := [' ']) h (by simp; decide) (by decide)
  rw [onward, toNext_spaces 1 h hs]
  exact congrArg (fun p => outside p ts i outer m starts) hplace

/-- At the end of a line, a new line lets a key start. -/
theorem onward_line {n : Nat} (ts : List Token) (i : Int) (outer : List Int) (m : Bool)
    (starts : List (Nat × KeyStart)) (h : p.rest = '\n' :: (replicate n ' ' ++ cs))
    (hs : Starts cs) :
    ∃ index line, p.line < line ∧ (outside p ts i outer m starts).onward =
      outside ⟨cs, index, line, n⟩ ts i outer true starts := by
  have hstep : p.upTo (replicate n ' ' ++ cs) =
      ⟨replicate n ' ' ++ cs, p.index + 1, p.line + 1, 0⟩ := by
    rw [upTo_eq (t := ['\n']) (r := replicate n ' ' ++ cs) h]
    exact (step_cons h (by decide)).trans (if_pos rfl)
  have hspaces := upTo_line (p := p.upTo (replicate n ' ' ++ cs))
    (t := replicate n ' ') (r := cs) (by rw [hstep]) (isPage_replicate (by decide) n)
    (by simp [mem_replicate])
  rw [hstep] at hspaces
  have hdrop : dropComment ((outside p ts i outer m starts).place.rest.dropWhile (· == ' ')) =
      '\n' :: (replicate n ' ' ++ cs) := by
    rw [show (outside p ts i outer m starts).place.rest = _ from h]
    rfl
  have hlen : (outside p ts i outer m starts).place.rest.length =
      (replicate n ' ' ++ cs).length + 1 := congrArg length h
  refine ⟨p.index + 1 + n, p.line + 1, by omega, ?_⟩
  rw [onward, hlen, toNext, hdrop]
  simp only [takeBreak]
  rw [if_pos (by rfl), toNext_spaces n (by exact congrArg rest hstep) hs]
  simp only [outside, inFlow, hstep, hspaces]
  simp

theorem dropStale_nil (p : Position) (ts : List Token) (i : Int) (outer : List Int) (m : Bool) :
    (ready p ts i outer m).dropStale = some (ready p ts i outer m) := rfl

theorem close_eq {column : Int} (h : s.indent ≤ column) : s.close column = s := by
  have hfrom : closeFrom column s.indent s.outer s.tokens = (s.indent, s.outer, s.tokens) := by
    rw [closeFrom.eq_def]
    split
    · rename_i houter
      rw [houter]
    · rename_i houter
      rw [houter, if_neg (by omega)]
  rw [close, hfrom]
  split <;> rfl

/-! ## From token to token -/

/-- Reads tokens from a place before one. -/
def resume (room : Nat) (s : Scan) : Option (List Token) := do
  let s := s.close s.place.column
  if s.place.rest.isEmpty then
    let s ← (s.close (-1)).dropStart
    pure s.tokens
  else
    let s ← s.token
    run room s

theorem run_succ : run (room + 1) s = s.onward.dropStale.bind (resume room) := rfl

/-- Reading goes on from one place before a token to another; each token on the way has a
character. -/
def Leads (s s' : Scan) : Prop :=
  ∃ n, s'.place.rest.length + n ≤ s.place.rest.length ∧
    ∀ room, s.resume (room + n) = s'.resume room

theorem Leads.refl (s : Scan) : Leads s s := ⟨0, Nat.le_refl _, fun _ => rfl⟩

theorem Leads.trans (h : Leads s s₁) (h' : Leads s₁ s') : Leads s s' := by
  obtain ⟨m, hm, hread⟩ := h
  obtain ⟨n, hn, hread'⟩ := h'
  refine ⟨n + m, by omega, fun room => ?_⟩
  rw [← Nat.add_assoc, hread, hread']

theorem leads_of_token (hi : s.indent ≤ s.place.column) (ht : s.token = some s₁)
    (hnext : s₁.onward.dropStale = some s')
    (hlen : s'.place.rest.length < s.place.rest.length) : Leads s s' := by
  refine ⟨1, hlen, fun room => ?_⟩
  have hne : s.place.rest.isEmpty = false := by
    cases hrest : s.place.rest with
    | nil => rw [hrest] at hlen; exact absurd hlen (Nat.not_lt_zero _)
    | cons c cs => rfl
  simp only [resume, close_eq hi, hne, ht, Option.bind_eq_bind, Option.bind_some]
  rw [if_neg (by decide), run_succ, hnext]
  rfl

/-! ## Single tokens -/

variable {c : Char}

theorem ne_of_isFirstSign {next d : Char} (h : isFirstSign c next = false)
    (hd : "#,[]\x7b\x7d&*!|>'\"%@`".toList.contains d = true) : (c == d) = false := by
  refine beq_eq_false_iff_ne.2 ?_
  rintro rfl
  rw [isFirstSign, hd] at h
  cases h

theorem token_plain (h : s.place.rest = c :: cs) (hd : s.depth = 0) (hc : isWordStop c = false)
    (hsign : isFirstSign c (charAt cs 0) = false)
    (hsep : (s.place.column == 0 && isSeparator (c :: cs)) = false) :
    s.token = s.plainScalar := by
  have hflow : s.inFlow = false := by simp [inFlow, hd]
  have hne {d : Char} (hd : "#,[]\x7b\x7d&*!|>'\"%@`".toList.contains d = true) :=
    ne_of_isFirstSign hsign hd
  have hstop {d : Char} (hd : (d == '?' || d == ':' || d == '-') = true) :
      (c == d && isWordStop (charAt cs 0)) = false := by
    by_cases hcd : c = d
    · subst hcd
      rw [isFirstSign, hd, Bool.true_and, Bool.or_eq_false_iff] at hsign
      rw [hsign.2, Bool.and_false]
    · simp [hcd]
  have hseparator (d : Char) :
      (c == d && s.place.column == 0 && isSeparator (c :: cs)) = false := by
    rw [Bool.and_assoc, hsep, Bool.and_false]
  have hstarts : s.startsPlain c (charAt cs 0) = true := by
    cases hmark : (c == '-' || c == '?' || c == ':') with
    | true =>
      have hnext : isWordStop (charAt cs 0) = false := by
        rcases Bool.or_eq_true_iff.1 hmark with hmark | hmark
        · rcases Bool.or_eq_true_iff.1 hmark with hmark | hmark
          · simpa [hmark] using hstop (d := '-') rfl
          · simpa [hmark] using hstop (d := '?') rfl
        · simpa [hmark] using hstop (d := ':') rfl
      rw [Bool.or_assoc] at hmark
      simp [startsPlain, hnext, hflow, hmark]
    | false =>
      have hlist := (Bool.or_eq_false_iff.1 hsign).1
      simp only [startsPlain, hc]
      simp at hmark hlist ⊢
      exact .inl (by simp [hmark, hlist])
  have hchars : charAt (c :: cs) 0 = c ∧ charAt (c :: cs) 1 = charAt cs 0 := ⟨rfl, rfl⟩
  rw [token]
  simp only [h, hchars, hne (d := '%') rfl, hne (d := '[') rfl, hne (d := '\x7b') rfl,
    hne (d := ']') rfl, hne (d := '\x7d') rfl, hne (d := ',') rfl, hne (d := '*') rfl,
    hne (d := '&') rfl, hne (d := '!') rfl, hne (d := '|') rfl, hne (d := '>') rfl, hne (d := '\'') rfl,
    hne (d := '"') rfl, hseparator, hstop (d := '-') rfl, hstop (d := '?') rfl,
    hstop (d := ':') rfl, hflow, hstarts, Bool.false_and, Bool.false_or]
  rfl

theorem token_quote {double : Bool} {text rest : List Char}
    (h : s.place.rest = quoteOf double :: cs)
    (hquoted : quoted double s.place.rest = some (text, rest)) :
    s.token = s.content (.scalar false text) rest := by
  rw [h] at hquoted
  rw [token]
  cases double with
  | true =>
    rw [quoteOf, if_pos rfl] at h hquoted
    simp [hquoted, h, charAt]
  | false =>
    rw [quoteOf, if_neg (by decide)] at h hquoted
    simp [hquoted, h, charAt]

/-- The start that is kept for a scalar which may be a key. -/
def startAt (p : Position) (ts : List Token) (required mayStart : Bool) : List (Nat × KeyStart) :=
  if mayStart then [(0, ⟨ts.length, required, p.index, p.line, p.column⟩)] else []

theorem saveStart_ready (p : Position) (ts : List Token) (i : Int) (outer : List Int) (m : Bool) :
    (ready p ts i outer m).saveStart =
      some (outside p ts i outer m (startAt p ts (i == p.column) m)) := by
  cases m <;> rfl

theorem plainScalar_ready {text rest : List Char} {broke : Bool}
    (h : plain false (i + 1) (p.rest.length + 1) p.rest = (text, broke, rest)) :
    (ready p ts i outer m).plainScalar = some (outside (p.upTo rest) (ts ++ [.scalar true text]) i
      outer broke (startAt p ts (i == p.column) m)) := by
  simp [plainScalar, saveStart_ready, outside, push, inFlow, h]

/-- On a later line, a start that no key needs to stand at is forgotten. -/
theorem dropStale_startAt {q : Position} {us : List Token} {m' : Bool} (h : p.line < q.line) :
    (outside q us i outer m' (startAt p ts false m)).dropStale = some (ready q us i outer m') := by
  have hline : (p.line != q.line) = true := by simpa using by omega
  cases m with
  | false => rfl
  | true => simp [dropStale, startAt, ready, outside, hline]

end Scan

/-! ## Scalars -/

def Scalar.token (x : Scalar) : Token := .scalar (x.style false = .plain) x.text

/-- The texts of a scalar that are read back in a collection with the indentation `i`. -/
inductive ScalarText (i : Nat) (x : Scalar) : List Char → Prop where
  | plain {t : List Char} (hstyle : x.style false = .plain) (hread : Unquoted i t x.text)
      (hpage : IsPage t) (hplain : IsPlainText x.text)
      (hfirst : isFirstSign (charAt x.text 0) (charAt x.text 1) = false)
      (hword : firstWord t = firstWord x.text) : ScalarText i x t
  | quoted {double : Bool} {t : List Char} (hstyle : x.style false ≠ .plain)
      (hspells : Spells double t x.text) : ScalarText i x (inQuotes double t)

namespace Scan

variable {p : Position} {ts : List Token} {outer : List Int} {m : Bool} {i j : Nat} {x : Scalar}
  {t r : List Char}

theorem leads_quoted {double : Bool} (hstyle : x.style false ≠ .plain)
    (hspells : Spells double t x.text)
    (hp : p.rest = inQuotes double t ++ '\n' :: (replicate j ' ' ++ r))
    (hcolumn : i < p.column) (hr : Starts r) : ∃ index line,
    Leads (ready p ts i outer m) (ready ⟨r, index, line, j⟩ (ts ++ [x.token]) i outer true) := by
  obtain ⟨hrest, hline⟩ := upTo_page hp hspells.isPage_inQuotes
  have hquoted := hspells.quoted (r := '\n' :: (replicate j ' ' ++ r)) (by simp)
  rw [← hp] at hquoted
  have hrequired : ((i : Int) == p.column) = false := by simpa using by omega
  have htoken : (ready p ts i outer m).token = some (outside
      (p.upTo ('\n' :: (replicate j ' ' ++ r))) (ts ++ [x.token]) i outer false
      (startAt p ts false m)) := by
    rw [token_quote (s := ready p ts i outer m) hp hquoted, content, saveStart_ready, hrequired]
    simp [Scalar.token, hstyle, push, outside]
  obtain ⟨index, line, hlater, hnext⟩ :=
    onward_line (ts ++ [x.token]) i outer false (startAt p ts false m) hrest hr
  refine ⟨index, line, leads_of_token (Int.ofNat_le.2 (Nat.le_of_lt hcolumn)) htoken ?_ ?_⟩
  · rw [hnext]
    exact dropStale_startAt (Nat.lt_of_le_of_lt hline hlater)
  · have hlen := congrArg length hp
    simp only [length_append, length_cons] at hlen
    show r.length < p.rest.length
    omega

theorem exists_first (hplain : IsPlainText x.text)
    (hfirst : isFirstSign (charAt x.text 0) (charAt x.text 1) = false)
    (hword : firstWord t = firstWord x.text) (u : List Char) :
    ∃ c cs, t ++ u = c :: cs ∧ isWordStop c = false ∧ isFirstSign c (charAt cs 0) = false := by
  obtain ⟨c, y, hx⟩ := exists_cons_of_ne_nil hplain.ne_nil
  have hsolid := hplain.solid
  rw [hx] at hfirst hword hsolid
  have hc := solid_cons.1 hsolid
  obtain ⟨v, rfl⟩ := exists_of_firstWord hc hword
  refine ⟨c, firstWord y ++ v ++ u, rfl, hc, ?_⟩
  have hfirst : isFirstSign c (charAt y 0) = false := hfirst
  rw [isFirstSign, Bool.or_eq_false_iff] at hfirst ⊢
  refine ⟨hfirst.1, ?_⟩
  cases hmark : (c == '?' || c == ':' || c == '-') with
  | false => rfl
  | true =>
    have hnext : isWordStop (charAt y 0) = false := by simpa [hmark] using hfirst.2
    cases y with
    | nil => cases hnext
    | cons d y =>
      have hd : isWordStop d = false := hnext
      simp [firstWord, charAt, hd]

theorem leads_plain (hstyle : x.style false = .plain) (hread : Unquoted i t x.text)
    (hpage : IsPage t) (hplain : IsPlainText x.text)
    (hfirst : isFirstSign (charAt x.text 0) (charAt x.text 1) = false)
    (hword : firstWord t = firstWord x.text)
    (hp : p.rest = t ++ '\n' :: (replicate j ' ' ++ r)) (hcolumn : i < p.column) (hj : j ≤ i)
    (hr : Starts r) (hsep : isSeparator (replicate j ' ' ++ r) = false) : ∃ index line,
    Leads (ready p ts i outer m) (ready ⟨r, index, line, j⟩ (ts ++ [x.token]) i outer true) := by
  obtain ⟨c, cs, hcs, hc, hsign⟩ :=
    exists_first hplain hfirst hword ('\n' :: (replicate j ' ' ++ r))
  obtain ⟨index, line, hlater, hplace⟩ := upTo_lines hp hpage
    (isPage_replicate (by decide) j) (by simp [mem_replicate])
  rw [length_replicate] at hplace
  have hrequired : ((i : Int) == p.column) = false := by simpa using by omega
  have hatStart : (p.column == 0) = false := by simpa using by omega
  have htext := hread j r hj hr.solid hsep (p.rest.length + 1) (by simp [hp]; omega)
  rw [← hp] at htext
  have htoken : (ready p ts i outer m).token = some (outside (p.upTo r) (ts ++ [x.token]) i outer
      true (startAt p ts false m)) := by
    rw [token_plain (s := ready p ts i outer m) (hp.trans hcs) rfl hc hsign
      (by rw [show (ready p ts i outer m).place.column = p.column from rfl, hatStart]; rfl),
      plainScalar_ready htext, hrequired]
    simp [Scalar.token, hstyle]
  rw [hplace] at htoken
  refine ⟨index, line, leads_of_token (Int.ofNat_le.2 (Nat.le_of_lt hcolumn)) htoken ?_ ?_⟩
  · rw [onward_starts (by exact hr)]
    exact dropStale_startAt hlater
  · have hlen := congrArg length hp
    simp only [length_append, length_cons] at hlen
    show r.length < p.rest.length
    omega

theorem leads_scalar (ts : List Token) (outer : List Int) (ht : ScalarText i x t)
    (hp : p.rest = t ++ '\n' :: (replicate j ' ' ++ r))
    (hcolumn : i < p.column) (hj : j ≤ i) (hr : Starts r)
    (hsep : isSeparator (replicate j ' ' ++ r) = false) : ∃ index line,
    Leads (ready p ts i outer m) (ready ⟨r, index, line, j⟩ (ts ++ [x.token]) i outer true) := by
  cases ht with
  | plain hstyle hread hpage hplain hfirst hword =>
    exact leads_plain hstyle hread hpage hplain hfirst hword hp hcolumn hj hr hsep
  | quoted hstyle hspells => exact leads_quoted hstyle hspells hp hcolumn hr

end Scan

/-! ## Keys -/

/-- Whether a text is a key of one word that is written as it is. -/
def isKeyName (k : String) : Bool :=
  let cs := k.toList
  !cs.isEmpty && cs.all (fun c => !isSpecial c && !isWordStop c) && cs.getLast? != some ':' &&
    cs.head?.all (fun c => !isFirstSign c ' ' && c != '.') &&
    (⟨.str, cs, false⟩ : Scalar).style true == .plain && isSimpleKey (.str k)

variable {k : String}

theorem isPlainWord_of_isKeyName (h : isKeyName k = true) : IsPlainWord k.toList := by
  simp only [isKeyName, Bool.and_eq_true, all_eq_true, bne_iff_ne] at h
  obtain ⟨⟨⟨⟨⟨hne, hall⟩, hlast⟩, -⟩, -⟩, -⟩ := h
  refine ⟨by simpa using hne, fun c hc => ?_, fun c hc => ?_, hlast⟩
  · simpa using (hall c hc).1
  · simpa using (hall c hc).2

theorem exists_of_isKeyName (h : isKeyName k = true) :
    ∃ c cs, k.toList = c :: cs ∧ (∀ next, isFirstSign c next = false) ∧ c ≠ '.' ∧ c ≠ '-' := by
  obtain ⟨c, cs, hk⟩ := exists_cons_of_ne_nil (isPlainWord_of_isKeyName h).ne_nil
  simp only [isKeyName, Bool.and_eq_true] at h
  obtain ⟨⟨⟨-, hfirst⟩, -⟩, -⟩ := h
  rw [hk] at hfirst
  simp only [head?_cons, Option.all_some, Bool.and_eq_true, Bool.not_eq_true', bne_iff_ne]
    at hfirst
  refine ⟨c, cs, hk, isFirstSign_of_space hfirst.1, hfirst.2, ?_⟩
  rintro rfl
  exact absurd hfirst.1 (by decide)

theorem length_of_isKeyName (h : isKeyName k = true) : k.toList.length < 128 := by
  simp only [isKeyName, Bool.and_eq_true] at h
  have hsimple := h.2
  simp only [isSimpleKey, scalarOf?, Bool.and_eq_true, decide_eq_true_eq] at hsimple
  omega

namespace Scan

variable {p : Position} {ts : List Token} {i : Int} {outer : List Int} {k : String}
  {u cs : List Char} {s s' : Scan}

theorem token_colon (h : s.place.rest = ':' :: cs)
    (hstop : isWordStop (charAt cs 0) = true) : s.token = s.valueSign := by
  have hstop : isWordStop (charAt (':' :: cs) 1) = true := hstop
  rw [token]
  simp [h, show charAt (':' :: cs) 0 = ':' from rfl, hstop]

/-- The token that opens a mapping at a column, if one is further in than the last collection. -/
def opening (i : Int) (column : Nat) : List Token := if i < column then [.blockMapping] else []

/-- The indentations around a mapping at a column. -/
def around (i : Int) (column : Nat) (outer : List Int) : List Int :=
  if i < column then i :: outer else outer

theorem valueSign_startAt {q : Position} {t : Token} {required : Bool} (hi : i ≤ p.column)
    (hq : q.rest = ':' :: u) :
    (outside q (ts ++ [t]) i outer false (startAt p ts required true)).valueSign =
      some (ready (q.upTo u) (ts ++ (opening i p.column ++ [.key, t, .value])) p.column
        (around i p.column outer) false) := by
  by_cases hlt : i < p.column
  · simp [valueSign, startAt, outside, ready, inFlow, insertAt, openAt, push, opening, around, hlt,
      hq]
  · obtain rfl : i = p.column := by omega
    simp [valueSign, startAt, outside, ready, inFlow, insertAt, openAt, push, opening, around, hq]

/-- A start on the same line is kept up to the colon of a short key. -/
theorem dropStale_key {q : Position} {us : List Token} {required : Bool} {m : Bool}
    (hline : q.line = p.line) (hindex : q.index < p.index + 128) :
    (outside q us i outer m (startAt p ts required true)).dropStale =
      some (outside q us i outer m (startAt p ts required true)) := by
  have hnear : ¬ p.index + 1024 < q.index := by omega
  simp [dropStale, startAt, outside, hline, hnear]

theorem plain_key {room : Nat} (hk : IsPlainWord k.toList) (hu : isWordStop (charAt u 0) = true) :
    plain false i (room + 1) (k.toList ++ ':' :: u) = (k.toList, false, ':' :: u) := by
  have hword := plainWord_append (u := ':' :: u) hk.not_stop hk.last (by
    have hends : endsPlain false ':' (charAt u 0) = true := by simp [endsPlain, hu]
    exact hends)
  have hspaces := plainSpaces_spaces (u := ':' :: u) 0 (solid_cons.2 (by decide))
  rw [replicate_zero, nil_append] at hspaces
  rw [plain, hword]
  simp [hspaces]

theorem leads_key (hk : isKeyName k = true) (hp : p.rest = k.toList ++ ':' :: u)
    (hu : isWordStop (charAt u 0) = true) (hi : i ≤ p.column)
    (hnext : (ready ⟨u, p.index + k.toList.length + 1, p.line, p.column + k.toList.length + 1⟩
      (ts ++ (opening i p.column ++ [.key, .scalar true k.toList, .value])) p.column
      (around i p.column outer) false).onward = s')
    (hs' : s'.dropStale = some s') (hlen : s'.place.rest.length ≤ u.length) :
    Leads (ready p ts i outer true) s' := by
  have hword := isPlainWord_of_isKeyName hk
  have hshort := length_of_isKeyName hk
  obtain ⟨c, cs, hkc, hsign, hdot, hdash⟩ := exists_of_isKeyName hk
  have hline : '\n' ∉ k.toList := fun hmem => by cases hword.not_stop _ hmem
  have hplace := upTo_line hp hword.isPage hline
  have hfirst : p.rest = c :: (cs ++ ':' :: u) := by rw [hp, hkc]; rfl
  have htext : plain false (i + 1) (p.rest.length + 1) p.rest = (k.toList, false, ':' :: u) := by
    rw [hp]
    exact plain_key hword hu
  have hkey : (ready p ts i outer true).token = some (outside (p.upTo (':' :: u))
      (ts ++ [.scalar true k.toList]) i outer false (startAt p ts (i == p.column) true)) := by
    rw [token_plain (s := ready p ts i outer true) hfirst rfl
      (hword.not_stop c (by rw [hkc]; exact mem_cons_self)) (hsign _)
      (by rw [isSeparator_cons hdash hdot, Bool.and_false])]
    exact plainScalar_ready htext
  rw [hplace] at hkey
  have hcolon : (outside ⟨':' :: u, p.index + k.toList.length, p.line, p.column + k.toList.length⟩
      (ts ++ [.scalar true k.toList]) i outer false (startAt p ts (i == p.column) true)).token =
      some (ready ⟨u, p.index + k.toList.length + 1, p.line, p.column + k.toList.length + 1⟩
        (ts ++ (opening i p.column ++ [.key, .scalar true k.toList, .value])) p.column
        (around i p.column outer) false) := by
    rw [token_colon rfl hu, valueSign_startAt hi rfl,
      upTo_line (t := [':']) (r := u) rfl (by simp; decide) (by decide)]
    rfl
  have hrest := congrArg length hp
  rw [length_append, length_cons] at hrest
  have hpos := length_pos_iff.2 hword.ne_nil
  refine Leads.trans (leads_of_token hi hkey ?_ ?_) (leads_of_token ?_ hcolon ?_ ?_)
  · rw [onward_starts (starts_cons.2 (by decide))]
    exact dropStale_key rfl (by show p.index + _ < _; omega)
  · show (':' :: u).length < p.rest.length
    simp only [length_cons]
    omega
  · show i ≤ ((p.column + k.toList.length : Nat) : Int)
    omega
  · rw [hnext, hs']
  · show s'.place.rest.length < (':' :: u).length
    simp only [length_cons]
    omega

theorem leads_key_space {b : List Char} (ts : List Token) (outer : List Int)
    (hk : isKeyName k = true) (hp : p.rest = k.toList ++ ':' :: ' ' :: b) (hb : Starts b)
    (hi : i ≤ p.column) :
    ∃ index column, p.column < column ∧ Leads (ready p ts i outer true)
      (ready ⟨b, index, p.line, column⟩
        (ts ++ (opening i p.column ++ [.key, .scalar true k.toList, .value])) p.column
        (around i p.column outer) false) := by
  refine ⟨_, p.column + k.toList.length + 1 + 1, by omega,
    leads_key hk hp (by rfl) hi (onward_space rfl hb) (dropStale_nil _ _ _ _ _)
      (by simp [ready, outside])⟩

theorem leads_key_line {n : Nat} {r : List Char} (ts : List Token) (outer : List Int)
    (hk : isKeyName k = true)
    (hp : p.rest = k.toList ++ ':' :: '\n' :: (replicate n ' ' ++ r)) (hr : Starts r)
    (hi : i ≤ p.column) :
    ∃ index line, Leads (ready p ts i outer true)
      (ready ⟨r, index, line, n⟩
        (ts ++ (opening i p.column ++ [.key, .scalar true k.toList, .value])) p.column
        (around i p.column outer) true) := by
  obtain ⟨index, line, -, hnext⟩ := onward_line
    (p := ⟨'\n' :: (replicate n ' ' ++ r), p.index + k.toList.length + 1, p.line,
      p.column + k.toList.length + 1⟩)
    (ts ++ (opening i p.column ++ [.key, .scalar true k.toList, .value])) p.column
    (around i p.column outer) false [] rfl hr
  refine ⟨index, line, leads_key hk hp (by rfl) hi hnext (dropStale_nil _ _ _ _ _) ?_⟩
  show r.length ≤ ('\n' :: (replicate n ' ' ++ r)).length
  simp only [length_cons, length_append]
  omega

/-! ## Items, brackets and the end -/

variable {c : Nat}

theorem leads_dash {b : List Char} (ts : List Token) (outer : List Int)
    (hp : p.rest = '-' :: ' ' :: b) (hb : Starts b)
    (hc : p.column = c) : ∃ index, Leads (ready p ts c outer true)
      (ready ⟨b, index, p.line, c + 2⟩ (ts ++ [.blockEntry]) c outer true) := by
  subst hc
  have hsep : isSeparator ('-' :: ' ' :: b) = false := by simp [isSeparator]
  have htoken : (ready p ts p.column outer true).token =
      some (ready (p.upTo (' ' :: b)) (ts ++ [.blockEntry]) p.column outer true) := by
    simp [token, ready, outside, hp, charAt, hsep, isWordStop, isGap, sign, inFlow, openAt,
      dropStart, push]
  have hplace := upTo_line (t := ['-']) hp (by simp; decide) (by decide)
  rw [hplace] at htoken
  refine ⟨p.index + 1 + 1, leads_of_token (Int.le_refl _) htoken ?_ ?_⟩
  · rw [ready, onward_space rfl hb]
    rfl
  · show b.length < p.rest.length
    rw [hp, length_cons, length_cons]
    omega

theorem leads_brackets {j : Nat} {r : List Char}
    (hp : p.rest = '[' :: ']' :: '\n' :: (replicate j ' ' ++ r)) (hc : c ≤ p.column)
    (hr : Starts r) : ∃ index line, Leads (ready p ts c outer false)
      (ready ⟨r, index, line, j⟩ (ts ++ [.flowSequence, .flowSequenceEnd]) c outer true) := by
  have hplace := upTo_line (t := ['[']) hp (by simp; decide) (by decide)
  have hopen : (ready p ts c outer false).token = some ⟨⟨']' :: '\n' :: (replicate j ' ' ++ r),
      p.index + 1, p.line, p.column + 1⟩, ts ++ [.flowSequence], 1, c, outer, true, []⟩ := by
    simp [token, ready, outside, hp, charAt, openBracket, saveStart, push, hplace]
  have hclose : (⟨⟨']' :: '\n' :: (replicate j ' ' ++ r), p.index + 1, p.line, p.column + 1⟩,
      ts ++ [.flowSequence], 1, c, outer, true, []⟩ : Scan).token =
      some (ready ⟨'\n' :: (replicate j ' ' ++ r), p.index + 2, p.line, p.column + 2⟩
        (ts ++ [.flowSequence, .flowSequenceEnd]) c outer false) := by
    have hnext := upTo_line (p := ⟨']' :: '\n' :: (replicate j ' ' ++ r), p.index + 1,
      p.line, p.column + 1⟩) (t := [']']) rfl (by simp; decide) (by decide)
    simp [token, ready, outside, charAt, closeBracket, dropStart, inFlow, push, hnext]
  obtain ⟨index, line, -, hline⟩ := onward_line
    (p := ⟨'\n' :: (replicate j ' ' ++ r), p.index + 2, p.line, p.column + 2⟩)
    (ts ++ [.flowSequence, .flowSequenceEnd]) c outer false [] rfl hr
  have hlen := congrArg length hp
  simp only [length_cons, length_append] at hlen
  refine ⟨index, line, Leads.trans (leads_of_token (Int.ofNat_le.2 hc) hopen ?_ ?_)
    (leads_of_token ?_ hclose ?_ ?_)⟩
  · rw [onward_starts (starts_cons.2 (by decide))]
    rfl
  · show (']' :: '\n' :: (replicate j ' ' ++ r)).length < p.rest.length
    simp only [length_cons, length_append]
    omega
  · show (c : Int) ≤ ((p.column + 1 : Nat) : Int)
    omega
  · rw [ready, hline]
    rfl
  · show r.length < (']' :: '\n' :: (replicate j ' ' ++ r)).length
    simp only [length_cons, length_append]
    omega

/-- The end of a text: each open collection ends. -/
theorem resume_end {room : Nat} (hp : p.rest = []) (hc : p.column = 0) :
    (ready p ts 2 [0, -1] true).resume room = some (ts ++ [.blockEnd, .blockEnd]) := by
  obtain ⟨rest, index, line, column⟩ := p
  obtain rfl : rest = [] := hp
  obtain rfl : column = 0 := hc
  simp [resume, ready, outside, close, closeFrom, inFlow, dropStart]

end Scan

end Docsmith.Yaml
