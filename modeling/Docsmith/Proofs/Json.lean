/-
What is written as JSON is read back: texts with any characters, and maps from texts over several
lines.

`ReadsAs` says what a value is read as when its text stands before more text, or that it is not
read; `readsAs_str` and `readsBack_object` show of texts, and of maps whose keys are distinct, that
they are read as themselves, and `read_pretty` is the result for a whole text.
-/
import Docsmith.Json.Reader
import Docsmith.Json.Writer
import Docsmith.Proofs.Text

namespace Docsmith.Json

open List

/-! ## Hexadecimal digits -/

def hexStep (n : Nat) (c : Char) : Option Nat := (hexDigit? c).map fun d => 16 * n + d

theorem hexDigit?_digitChar : ∀ d < 16, hexDigit? (Nat.digitChar d) = some d := by decide

theorem hexStep_toDigits (n : Nat) : (Nat.toDigits 16 n).foldlM hexStep 0 = some n := by
  by_cases h : n < 16
  · rw [Nat.toDigits_of_lt_base h]
    simp [hexStep, hexDigit?_digitChar n h]
  · rw [Nat.toDigits_of_base_le (by omega) (by omega), foldlM_append,
      hexStep_toDigits (n / 16)]
    have hd := hexDigit?_digitChar (n % 16) (Nat.mod_lt _ (by omega))
    simp [hexStep, hd, Nat.div_add_mod]
termination_by n

theorem hexStep_zeros (k : Nat) (ds : List Char) :
    (replicate k '0' ++ ds).foldlM hexStep 0 = ds.foldlM hexStep 0 := by
  induction k with
  | zero => rfl
  | succ k ih =>
    rw [replicate_succ, cons_append, foldlM_cons, ← ih]
    rfl

theorem length_hex4 {n : Nat} (h : n < 65536) : (hex4 n).length = 4 := by
  have : (Nat.toDigits 16 n).length ≤ 4 :=
    (Nat.length_toDigits_le_iff (by omega) (by omega)).2 (by omega)
  simp only [hex4, length_append, length_replicate]
  omega

theorem hex4?_hex4 {n : Nat} (h : n < 65536) (rest : List Char) :
    hex4? (hex4 n ++ rest) = some n := by
  have hlen := length_hex4 h
  rw [hex4?, if_neg (by simp [hlen]), take_left' hlen]
  exact (hexStep_zeros _ _).trans (hexStep_toDigits n)

/-! ## Texts -/

theorem toNat_lt_surrogates (c : Char) : c.toNat < 0xD800 ∨ 0xDFFF < c.toNat ∧ c.toNat < 0x110000 :=
  c.valid

variable {c d : Char} {start room pos : Nat} {done rest : List Char} {r : Rest}
  {x : Except Error (Value × Rest)} {o : Option Value} {v : Value}

theorem unicodeEscape_hex4 (hc : c.toNat < 0x10000) (rest : List Char) (pos : Nat) :
    unicodeEscape ⟨hex4 c.toNat ++ d :: rest, pos⟩ = .ok (c, ⟨d :: rest, pos + 4⟩) := by
  have hlen := length_hex4 hc
  have hv := toNat_lt_surrogates c
  have hdrop : (⟨hex4 c.toNat ++ d :: rest, pos⟩ : Rest).drop 4 = ⟨d :: rest, pos + 4⟩ := by
    rw [Rest.drop, drop_left' hlen]
  simp only [unicodeEscape, hdrop, length_append, hlen, length_cons]
  rw [if_neg (by omega), hex4?_hex4 hc]
  simp only
  rw [if_neg (by omega), if_neg (by omega), Char.ofNat_toNat]

theorem unicodeEscape_halves {high low : Nat} (hh : 0xD800 ≤ high ∧ high ≤ 0xDBFF)
    (hl : 0xDC00 ≤ low ∧ low ≤ 0xDFFF) (d : Char) (rest : List Char) (pos : Nat) :
    unicodeEscape ⟨hex4 high ++ ('\\' :: 'u' :: (hex4 low ++ d :: rest)), pos⟩ =
      .ok (Char.ofNat (0x10000 + (high - 0xD800) * 0x400 + (low - 0xDC00)),
        ⟨d :: rest, pos + 10⟩) := by
  have hlen : (hex4 high).length = 4 := length_hex4 (by omega)
  have hlen' : (hex4 low).length = 4 := length_hex4 (by omega)
  have hdrop : ∀ more, (⟨hex4 high ++ more, pos⟩ : Rest).drop 4 = ⟨more, pos + 4⟩ := fun more => by
    rw [Rest.drop, drop_left' hlen]
  simp only [unicodeEscape, hdrop, length_append, hlen, length_cons]
  rw [if_neg (by omega), hex4?_hex4 (by omega)]
  simp only
  rw [if_pos hh, if_neg (by simp [hlen']; omega), hex4?_hex4 (by omega)]
  simp only
  rw [if_pos hl, Rest.drop]
  simp [drop_left' hlen']

theorem unicodeEscape_pair (hc : 0x10000 ≤ c.toNat) (d : Char) (rest : List Char) (pos : Nat) :
    unicodeEscape ⟨hex4 (0xD800 + (c.toNat - 0x10000) / 0x400) ++
        ('\\' :: 'u' :: (hex4 (0xDC00 + (c.toNat - 0x10000) % 0x400) ++ d :: rest)), pos⟩ =
      .ok (c, ⟨d :: rest, pos + 10⟩) := by
  have hv := toNat_lt_surrogates c
  generalize hm : c.toNat - 0x10000 = m
  have hh : 0xD800 ≤ 0xD800 + m / 0x400 ∧ 0xD800 + m / 0x400 ≤ 0xDBFF := by omega
  have hl : 0xDC00 ≤ 0xDC00 + m % 0x400 ∧ 0xDC00 + m % 0x400 ≤ 0xDFFF := by omega
  have hchar : 0x10000 + (0xD800 + m / 0x400 - 0xD800) * 0x400 + (0xDC00 + m % 0x400 - 0xDC00) =
      c.toNat := by omega
  rw [unicodeEscape_halves hh hl, hchar, Char.ofNat_toNat]

theorem stringFrom_plain (hq : c ≠ '"') (hb : c ≠ '\\') (hc : 32 ≤ c.toNat) :
    stringFrom start (room + 1) done ⟨c :: rest, pos⟩ =
      stringFrom start room (c :: done) ⟨rest, pos + 1⟩ := by
  rw [stringFrom]
  simp only
  split
  next h => cases h
  next h => exact absurd (cons.inj h).1 hq
  next h => exact absurd (cons.inj h).1 hb
  next h => exact absurd (cons.inj h).1 hb
  next h => exact absurd (cons.inj h).1 hb
  next h =>
    obtain ⟨rfl, rfl⟩ := cons.inj h
    rw [if_neg (by omega)]
    rfl

theorem stringFrom_unicode {cs : List Char} (h : unicodeEscape ⟨cs, pos + 2⟩ = .ok (c, r)) :
    stringFrom start (room + 1) done ⟨'\\' :: 'u' :: cs, pos⟩ =
      stringFrom start room (c :: done) r := by
  show (unicodeEscape ⟨cs, pos + 2⟩ >>= fun r => stringFrom start room (r.1 :: done) r.2) = _
  rw [h]
  rfl

theorem stringFrom_hex4 (hc : c.toNat < 0x10000) :
    stringFrom start (room + 1) done ⟨('\\' :: 'u' :: hex4 c.toNat) ++ d :: rest, pos⟩ =
      stringFrom start room (c :: done)
        ⟨d :: rest, pos + ('\\' :: 'u' :: hex4 c.toNat).length⟩ := by
  rw [length_cons, length_cons, length_hex4 hc]
  exact stringFrom_unicode (unicodeEscape_hex4 hc rest (pos + 2))

theorem stringFrom_pair (hc : 0x10000 ≤ c.toNat) {high low : List Char}
    (hh : high = hex4 (0xD800 + (c.toNat - 0x10000) / 0x400))
    (hl : low = hex4 (0xDC00 + (c.toNat - 0x10000) % 0x400)) : stringFrom start (room + 1) done
        ⟨('\\' :: 'u' :: high) ++ ('\\' :: 'u' :: low) ++ d :: rest, pos⟩ =
      stringFrom start room (c :: done)
        ⟨d :: rest, pos + (('\\' :: 'u' :: high) ++ ('\\' :: 'u' :: low)).length⟩ := by
  have hv := toNat_lt_surrogates c
  have hhigh : high.length = 4 := by rw [hh]; exact length_hex4 (by omega)
  have hlow : low.length = 4 := by rw [hl]; exact length_hex4 (by omega)
  simp only [length_append, length_cons, hhigh, hlow, cons_append, append_assoc]
  subst hh hl
  exact stringFrom_unicode (unicodeEscape_pair hc d rest (pos + 2))

/-- Whatever follows it, a character of a text is read from its escape. -/
theorem stringFrom_escapeChar (start room : Nat) (done : List Char) (c d : Char) (rest : List Char)
    (pos : Nat) :
    stringFrom start (room + 1) done ⟨escapeChar c ++ d :: rest, pos⟩ =
      stringFrom start room (c :: done) ⟨d :: rest, pos + (escapeChar c).length⟩ := by
  have hofNat : ∀ n, c.toNat = n → c = Char.ofNat n := fun n h => by rw [← h, Char.ofNat_toNat]
  unfold escapeChar
  split
  · rfl
  · rfl
  · rfl
  · rfl
  · rfl
  next hq hb _ _ _ =>
    simp only
    split
    next h => rw [hofNat 8 h]; rfl
    split
    next h => rw [hofNat 12 h]; rfl
    split
    next h => exact stringFrom_plain hq hb h.1
    split
    next h => exact stringFrom_hex4 h
    next h => exact stringFrom_pair (Nat.le_of_not_lt h) rfl rfl

theorem stringFrom_escaped (start : Nat) (cs rest done : List Char) (room pos : Nat)
    (hroom : cs.length < room) :
    stringFrom start room done ⟨cs.flatMap escapeChar ++ '"' :: rest, pos⟩ =
      .ok (String.ofList (done.reverse ++ cs),
        ⟨rest, pos + ((cs.flatMap escapeChar).length + 1)⟩) := by
  induction cs generalizing done room pos with
  | nil =>
    obtain ⟨room, rfl⟩ : ∃ k, room = k + 1 := ⟨room - 1, by simp at hroom; omega⟩
    simp [stringFrom, Rest.drop]
  | cons c cs ih =>
    simp only [length_cons] at hroom
    obtain ⟨room, rfl⟩ : ∃ k, room = k + 1 := ⟨room - 1, by omega⟩
    obtain ⟨d, more, hmore⟩ : ∃ d more, cs.flatMap escapeChar ++ '"' :: rest = d :: more := by
      cases cs.flatMap escapeChar with
      | nil => exact ⟨_, _, rfl⟩
      | cons x xs => exact ⟨_, _, rfl⟩
    rw [flatMap_cons, append_assoc, hmore, stringFrom_escapeChar, ← hmore,
      ih (c :: done) room _ (by omega)]
    simp only [length_append, reverse_cons, append_assoc, singleton_append]
    congr 3
    omega

theorem toList_quote (s : String) :
    (quote s).toList = '"' :: (s.toList.flatMap escapeChar ++ ['"']) := by
  simp [quote]

theorem escapeChar_ne_nil (c : Char) : escapeChar c ≠ [] := by
  unfold escapeChar
  split
  · exact cons_ne_nil _ _
  · exact cons_ne_nil _ _
  · exact cons_ne_nil _ _
  · exact cons_ne_nil _ _
  · exact cons_ne_nil _ _
  · simp only
    split
    · exact cons_ne_nil _ _
    split
    · exact cons_ne_nil _ _
    split
    · exact cons_ne_nil _ _
    split
    · exact cons_ne_nil _ _
    · exact cons_ne_nil _ _

theorem length_le_escaped (cs : List Char) : cs.length ≤ (cs.flatMap escapeChar).length := by
  induction cs with
  | nil => simp
  | cons c cs ih =>
    have := length_pos_iff.2 (escapeChar_ne_nil c)
    rw [flatMap_cons, length_append, length_cons]
    omega

theorem return_not_mem_hex4 (n : Nat) : '\r' ∉ hex4 n := by
  have hdigits : ∀ n, '\r' ∉ Nat.toDigits 16 n := fun n => by
    induction n using Nat.strongRecOn with
    | _ n ih =>
      by_cases h : n < 16
      · simp [Nat.toDigits_of_lt_base h]
      · rw [Nat.toDigits_of_base_le (by omega) (by omega), mem_append, not_or]
        exact ⟨ih (n / 16) (by omega), by simp⟩
  rw [hex4, mem_append, not_or]
  exact ⟨fun h => absurd (eq_of_mem_replicate h) (by decide), hdigits n⟩

theorem return_not_mem_escapeChar (c : Char) : '\r' ∉ escapeChar c := by
  have hhex : ∀ n, '\r' ∉ '\\' :: 'u' :: hex4 n := fun n h => by
    simp only [mem_cons] at h
    rcases h with h | h | h
    · exact absurd h (by decide)
    · exact absurd h (by decide)
    · exact return_not_mem_hex4 n h
  unfold escapeChar
  split
  · decide
  · decide
  · decide
  · decide
  · decide
  · simp only
    split
    · decide
    split
    · decide
    split
    next h => intro hm; rw [← mem_singleton.1 hm] at h; exact absurd h.1 (by decide)
    split
    · exact hhex _
    · rw [mem_append, not_or]; exact ⟨hhex _, hhex _⟩

theorem return_not_mem_quote (s : String) : '\r' ∉ (quote s).toList := by
  rw [toList_quote]
  simp only [mem_cons, mem_append, mem_flatMap, not_mem_nil, or_false]
  rintro (h | ⟨c, -, h⟩ | h)
  · exact absurd h (by decide)
  · exact return_not_mem_escapeChar c h
  · exact absurd h (by decide)

/-- **A text is read back** from its quoted form, whatever follows it. -/
theorem readString_quote (s : String) (rest : List Char) (pos : Nat) :
    readString ⟨(quote s).toList ++ rest, pos⟩ =
      .ok (s, ⟨rest, pos + (quote s).toList.length⟩) := by
  have hlen := length_le_escaped s.toList
  rw [toList_quote]
  simp only [readString, Rest.drop, cons_append, append_assoc, drop_succ_cons,
    drop_zero]
  rw [stringFrom_escaped _ _ _ _ _ _ (by rw [length_cons, length_append]; omega)]
  simp only [reverse_nil, nil_append, String.ofList_toList, length_cons,
    length_append, length_nil]
  congr 3
  omega

/-! ## Values -/

/-- A blank of the format. -/
def isGap (c : Char) : Bool := c == ' ' || c == '\t' || c == '\n' || c == '\r'

theorem skipBlanks_append {gap : List Char} (rest : List Char) (pos : Nat)
    (hgap : ∀ x ∈ gap, isGap x = true) (hc : isGap c = false) :
    (⟨gap ++ c :: rest, pos⟩ : Rest).skipBlanks = ⟨c :: rest, pos + gap.length⟩ := by
  have htake : (gap ++ c :: rest).takeWhile isGap = gap := by
    rw [takeWhile_append_of_pos hgap, takeWhile_cons_of_neg (by simp [hc]),
      append_nil]
  show Rest.drop _ ((gap ++ c :: rest).takeWhile isGap).length = _
  rw [htake, Rest.drop, drop_left]

/-- Whether a number may go on with a character. -/
def goesOn (c : Char) : Bool := c.isDigit || c == '.' || c == 'e' || c == 'E'

/-- What no number goes on with. -/
def Ends (rest : List Char) : Prop := ∀ c ∈ rest.head?, goesOn c = false

theorem goesOn_of_isGap (h : isGap c = true) : goesOn c = false := by
  simp only [isGap, Bool.or_eq_true, beq_iff_eq] at h
  rcases h with ((rfl | rfl) | rfl) | rfl <;> rfl

theorem ends_append {gap : List Char} {c : Char} (rest : List Char)
    (hgap : ∀ x ∈ gap, isGap x = true) (hc : goesOn c = false) : Ends (gap ++ c :: rest) := by
  intro x hx
  cases gap with
  | nil =>
    obtain rfl := Option.some.inj hx
    exact hc
  | cons y gap =>
    obtain rfl := Option.some.inj hx
    exact goesOn_of_isGap (hgap y mem_cons_self)

theorem ends_cons (rest : List Char) (hc : goesOn c = false) : Ends (c :: rest) :=
  @ends_append [] c rest (forall_mem_nil _) hc

/-- What reading comes to: a value before a rest, or an error. -/
def Gives (x : Except Error (Value × Rest)) (o : Option Value) (r : Rest) : Prop :=
  (∀ u ∈ o, x = .ok (u, r)) ∧ (o = none → ∃ e, x = .error e)

@[simp] theorem gives_some {u : Value} : Gives x (some u) r ↔ x = .ok (u, r) := by
  simp [Gives]

@[simp] theorem gives_none : Gives x none r ↔ ∃ e, x = .error e := by
  simp [Gives]

/-- What the text of `v` over several lines is read as, whatever follows it that no number goes on
with; without an `o` it is not read. It starts neither with a blank nor with a byte order mark nor
with the end of a list, and holds no carriage return. -/
structure ReadsAs (margin : Nat) (v : Value) (o : Option Value) : Prop where
  plain : '\r' ∉ (write (some margin) v).toList
  starts : ∃ c cs, (write (some margin) v).toList = c :: cs ∧ isGap c = false ∧ c ≠ '\ufeff' ∧
    c ≠ ']'
  reads : ∀ (room pos : Nat) (rest : List Char), Ends rest →
    (write (some margin) v).toList.length ≤ room →
    Gives (readValue room ⟨(write (some margin) v).toList ++ rest, pos⟩) o
      ⟨rest, pos + (write (some margin) v).toList.length⟩

theorem readsAs_str (margin : Nat) (s : String) : ReadsAs margin (.str s) (some (.str s)) where
  plain := by rw [write]; exact return_not_mem_quote s
  starts := ⟨'"', s.toList.flatMap escapeChar ++ ['"'], by rw [write, toList_quote], rfl, by decide,
    by decide⟩
  reads room pos rest _ hroom := by
    rw [gives_some, write] at *
    obtain ⟨room, rfl⟩ : ∃ k, room = k + 1 := ⟨room - 1, by simp [toList_quote] at hroom; omega⟩
    have hread := readString_quote s rest pos
    generalize hq : (quote s).toList.length = n at *
    rw [toList_quote] at *
    simp only [cons_append] at *
    rw [readValue]
    simp only
    rw [hread]
    rfl

/-! ## Parts between commas -/

theorem Gives.congr {pos' : Nat} (h : Gives x o ⟨rest, pos⟩) (hpos : pos = pos') :
    Gives x o ⟨rest, pos'⟩ :=
  hpos ▸ h

def lineStart (margin : Nat) : List Char := '\n' :: replicate margin ' '

theorem isGap_lineStart (margin : Nat) : ∀ x ∈ lineStart margin, isGap x = true := by
  intro x hx
  simp only [lineStart, mem_cons, mem_replicate] at hx
  rcases hx with rfl | ⟨-, rfl⟩ <;> rfl

theorem lineStart_add_two (margin : Nat) :
    lineStart (margin + 2) = lineStart margin ++ [' ', ' '] := by
  simp [lineStart, ← replicate_append_replicate]

theorem toList_layout (margin : Nat) (opening closing : String) {parts : List String}
    (hne : parts ≠ []) :
    (layout (some margin) opening closing parts).toList =
      opening.toList ++ (lineStart (margin + 2) ++
        ((',' :: lineStart (margin + 2)).intercalate (parts.map String.toList) ++
          (lineStart margin ++ closing.toList))) := by
  have hout : ("\n" ++ String.ofList (replicate margin ' ')).toList = lineStart margin := by
    simp [lineStart]
  have hin : ("\n" ++ String.ofList (replicate margin ' ') ++ "  ").toList =
      lineStart (margin + 2) := by
    rw [lineStart_add_two, String.toList_append, hout]; rfl
  rw [layout]
  simp only [List.isEmpty_iff, hne, if_false]
  simp only [String.toList_append, String.toList_intercalate] at *
  rw [hin, hout]
  simp

/-- A list or a map: the signs around its parts, and a reader that takes one part after the other on
top of what it has read. -/
structure Series (σ : Type) where
  opening : Char
  closing : Char
  read : Nat → σ → Rest → Except Error (Value × Rest)
  empty : σ
  value : σ → Value
  signs : (opening, closing) ∈ [('[', ']'), ('{', '}')]
  read_empty : ∀ room pos rest,
    readValue (room + 1) ⟨opening :: closing :: rest, pos⟩ = .ok (value empty, ⟨rest, pos + 1 + 1⟩)
  read_first : ∀ {gap c}, (∀ x ∈ gap, isGap x = true) → isGap c = false → c ≠ closing →
    ∀ room pos rest, readValue (room + 1) ⟨opening :: (gap ++ c :: rest), pos⟩ =
      read room empty ⟨c :: rest, pos + 1 + gap.length⟩

namespace Series

variable {σ : Type} {s : Series σ}

/-- A part with a value in it that is read as `o`, and then adds to what was read before it; without
an `o` it is not read. What stands behind it decides how the series goes on. -/
structure Takes (s : Series σ) (text : List Char) (add : Value → σ → σ) (o : Option Value) : Prop where
  plain : '\r' ∉ text
  starts : ∃ c cs, text = c :: cs ∧ isGap c = false ∧ c ≠ s.closing
  adds : ∀ u ∈ o, ∀ {gap c}, (∀ x ∈ gap, isGap x = true) → c = s.closing ∨ c = ',' →
    ∀ {room}, text.length ≤ room → ∀ done pos rest,
      s.read (room + 1) done ⟨text ++ (gap ++ c :: rest), pos⟩ =
        let behind : Rest := ⟨rest, pos + (text.length + (gap.length + 1))⟩
        if c = s.closing then .ok (s.value (add u done), behind)
        else s.read room (add u done) behind.skipBlanks
  refused : o = none → ∀ {more}, Ends more → ∀ {room}, text.length ≤ room → ∀ done pos,
    ∃ e, s.read (room + 1) done ⟨text ++ more, pos⟩ = .error e

theorem signs_plain : '\r' ∉ [s.opening, s.closing] ∧ ',' ≠ s.closing ∧ goesOn s.closing = false := by
  have h := s.signs
  simp only [mem_cons, Prod.mk.injEq, not_mem_nil, or_false] at h
  rcases h with ⟨h, h'⟩ | ⟨h, h'⟩ <;> rw [h, h'] <;> decide

theorem opening_plain : isGap s.opening = false ∧ s.opening ≠ '\ufeff' ∧ s.opening ≠ ']' := by
  have h := s.signs
  simp only [mem_cons, Prod.mk.injEq, not_mem_nil, or_false] at h
  rcases h with ⟨h, -⟩ | ⟨h, -⟩ <;> rw [h] <;> decide

theorem Takes.starts_parts {text : List Char} {add : Value → σ → σ} {o : Option Value}
    (h : s.Takes text add o) (sep : List Char) (texts : List (List Char)) (more : List Char) :
    ∃ c cs, sep.intercalate (text :: texts) ++ more = c :: cs ∧ isGap c = false ∧ c ≠ s.closing := by
  obtain ⟨c, cs, rfl, hgap, hend⟩ := h.starts
  cases texts with
  | nil => exact ⟨c, cs ++ more, by rw [intercalate_singleton]; rfl, hgap, hend⟩
  | cons t ts =>
    exact ⟨c, cs ++ sep ++ sep.intercalate (t :: ts) ++ more,
      by rw [intercalate_cons_cons]; simp, hgap, hend⟩

variable {α : Type} {xs : List α} {text : α → String} {add : α → Value → σ → σ} {out : α → Value}
  {ok : α → Prop} [DecidablePred ok]
  (h : ∀ x ∈ xs, s.Takes (text x).toList (add x) (if ok x then some (out x) else none))

include h

theorem reads_parts {gap outer : List Char} (hgap : ∀ x ∈ gap, isGap x = true)
    (houter : ∀ x ∈ outer, isGap x = true) (hne : xs ≠ []) (done : σ) (room pos : Nat)
    (rest : List Char) {texts : List (List Char)} (htexts : (xs.map text).map String.toList = texts)
    (hroom : ((',' :: gap).intercalate texts).length < room) :
    Gives (s.read room done ⟨(',' :: gap).intercalate texts ++ (outer ++ s.closing :: rest), pos⟩)
      (if ∀ x ∈ xs, ok x then some (s.value (xs.foldl (fun done x => add x (out x) done) done))
        else none)
      ⟨rest, pos + (((',' :: gap).intercalate texts).length + (outer.length + 1))⟩ := by
  induction xs generalizing done room pos texts with
  | nil => exact absurd rfl hne
  | cons x xs ih =>
    obtain ⟨hx, hxs⟩ := forall_mem_cons.1 h
    obtain ⟨room, rfl⟩ : ∃ k, room = k + 1 := ⟨room - 1, by omega⟩
    obtain ⟨-, hcomma, hends⟩ := s.signs_plain
    subst htexts
    rcases xs with _ | ⟨y, ys⟩
    · simp only [map_cons, map_nil, intercalate_singleton] at hroom ⊢
      have hroom := Nat.le_of_lt_succ hroom
      by_cases hok : ok x
      · rw [if_pos hok] at hx
        rw [hx.adds _ rfl houter (.inl rfl) hroom, if_pos rfl, if_pos (forall_mem_singleton.2 hok)]
        exact gives_some.2 rfl
      · rw [if_neg hok] at hx
        rw [if_neg fun hall => hok (hall x mem_cons_self)]
        exact gives_none.2 (hx.refused rfl (ends_append rest houter hends) hroom done pos)
    · obtain ⟨c, t, ht, hc, -⟩ := (hxs y mem_cons_self).starts_parts (',' :: gap)
        ((ys.map text).map String.toList) (outer ++ s.closing :: rest)
      rw [map_cons, map_cons] at hroom ⊢
      rw [← map_cons, ← map_cons] at ht
      generalize htexts : ((y :: ys).map text).map String.toList = texts at hroom ht ⊢
      have hcons : (',' :: gap).intercalate ((text x).toList :: texts) =
          (text x).toList ++ (',' :: (gap ++ (',' :: gap).intercalate texts)) := by
        rw [← htexts, map_cons, map_cons, intercalate_cons_cons]
        simp
      simp only [hcons, length_append, length_cons, append_assoc,
        cons_append] at hroom ⊢
      have htext : (text x).toList.length ≤ room := by omega
      by_cases hok : ok x
      · rw [if_pos hok] at hx
        have hstep := hx.adds _ rfl (forall_mem_nil _) (.inr rfl) htext done pos
          (gap ++ ((',' :: gap).intercalate texts ++ (outer ++ s.closing :: rest)))
        have hrest := ih hxs (cons_ne_nil _ _) (add x (out x) done) room
          (pos + ((text x).toList.length + 1) + gap.length) htexts (by omega)
        rw [nil_append] at hstep
        have hall : (∀ z ∈ x :: y :: ys, ok z) ↔ ∀ z ∈ y :: ys, ok z :=
          forall_mem_cons.trans (and_iff_right hok)
        simp only [hall]
        rw [foldl_cons, hstep, if_neg hcomma, ht, skipBlanks_append t _ hgap hc, ← ht]
        exact hrest.congr (by omega)
      · rw [if_neg hok] at hx
        rw [if_neg fun hall => hok (hall x mem_cons_self)]
        exact gives_none.2 (hx.refused rfl (ends_cons _ rfl) htext done pos)

/-- **A series is read** part by part. It is not read if one of its parts is not. -/
theorem readsAs {margin : Nat} {v : Value} (hwrite : write (some margin) v = layout (some margin)
      (String.ofList [s.opening]) (String.ofList [s.closing]) (xs.map text)) :
    ReadsAs margin v (if ∀ x ∈ xs, ok x then
      some (s.value (xs.foldl (fun done x => add x (out x) done) s.empty)) else none) := by
  have hreturn := s.signs_plain.1
  by_cases hne : xs = []
  · subst hne
    have htext : (write (some margin) v).toList = [s.opening, s.closing] := by
      rw [hwrite]
      simp [layout]
    refine ⟨by rwa [htext], ⟨_, _, htext, s.opening_plain⟩, fun room pos rest _ hroom => ?_⟩
    rw [htext] at hroom ⊢
    obtain ⟨room, rfl⟩ : ∃ k, room = k + 1 := ⟨room - 1, by simp at hroom; omega⟩
    rw [if_pos (forall_mem_nil _)]
    exact gives_some.2 (s.read_empty room pos rest)
  · have htext := toList_layout margin (String.ofList [s.opening]) (String.ofList [s.closing])
      (by simpa using hne : xs.map text ≠ [])
    rw [← hwrite, String.toList_ofList, String.toList_ofList] at htext
    have hplain : '\r' ∉ (',' :: lineStart (margin + 2)).intercalate
        ((xs.map text).map String.toList) := fun hmem => by
      rcases Text.mem_intercalate hmem with hmem | ⟨l, hl, hmem⟩
      · simp [lineStart] at hmem
      · rw [map_map] at hl
        obtain ⟨x, hx, rfl⟩ := mem_map.1 hl
        exact (h x hx).plain hmem
    have hfirst : ∀ more, ∃ c t, (',' :: lineStart (margin + 2)).intercalate
        ((xs.map text).map String.toList) ++ more = c :: t ∧ isGap c = false ∧
        c ≠ s.closing := fun more => by
      obtain ⟨x, xs, rfl⟩ := exists_cons_of_ne_nil hne
      exact (h x mem_cons_self).starts_parts _ _ more
    generalize htexts : (xs.map text).map String.toList = texts at htext hplain hfirst
    refine ⟨?_, ⟨s.opening, _, htext, s.opening_plain⟩, fun room pos rest _ hroom => ?_⟩
    · have hstart : ∀ n, '\r' ∉ lineStart n := fun n => by simp [lineStart]
      simp_all
    rw [htext] at hroom ⊢
    simp only [length_append, length_cons, length_nil] at hroom
    obtain ⟨room, rfl⟩ : ∃ k, room = k + 1 := ⟨room - 1, by omega⟩
    obtain ⟨c, t, ht, hc, hend⟩ := hfirst (lineStart margin ++ s.closing :: rest)
    have hparts := reads_parts h (isGap_lineStart (margin + 2)) (isGap_lineStart margin) hne
      s.empty room (pos + 1 + (lineStart (margin + 2)).length) rest htexts (by omega)
    rw [ht] at hparts
    simp only [cons_append, append_assoc, nil_append, ht]
    rw [s.read_first (isGap_lineStart (margin + 2)) hc hend]
    refine hparts.congr ?_
    simp only [length_cons, length_append, length_nil]
    omega

end Series

/-! ## Maps -/

theorem sameKey_str (a b : String) : Value.sameKey (.str a) (.str b) = (a == b) := rfl

theorem insert_new {done : List (String × Value)} {key : String} (v : Value)
    (h : key ∉ done.map Prod.fst) :
    Value.insert (done.map fun e => (.str e.1, e.2)) (.str key) v =
      (done ++ [(key, v)]).map fun e => (.str e.1, e.2) := by
  have hany : (done.map fun e => ((.str e.1, e.2) : Value × Value)).any
      (fun e => Value.sameKey e.1 (.str key)) = false := by
    rw [any_eq_false]
    intro e he
    obtain ⟨x, hx, rfl⟩ := mem_map.1 he
    rw [sameKey_str, beq_iff_eq]
    exact fun hk => h (hk ▸ mem_map_of_mem hx)
  simp [Value.insert, hany]

/-- A map with more entries, of which one replaces an earlier one of the same key. -/
def insertAll (done : List (Value × Value)) (es : List (String × Value)) : List (Value × Value) :=
  es.foldl (fun done e => Value.insert done (.str e.1) e.2) done

theorem insertAll_new {done es : List (String × Value)} (h : ((done ++ es).map Prod.fst).Nodup) :
    insertAll (done.map fun e => (.str e.1, e.2)) es =
      (done ++ es).map fun e => (.str e.1, e.2) := by
  induction es generalizing done with
  | nil => simp [insertAll]
  | cons e es ih =>
    have hnew : e.1 ∉ done.map Prod.fst := by
      rw [map_append, map_cons, nodup_append] at h
      exact fun hmem => h.2.2 e.1 hmem e.1 mem_cons_self rfl
    rw [insertAll, foldl_cons, insert_new e.2 hnew]
    refine (ih (by simpa using h)).trans ?_
    simp

def entries : Series (List (Value × Value)) where
  opening := '{'
  closing := '}'
  read := readEntries
  empty := []
  value := .map
  signs := by decide
  read_empty _ _ _ := rfl
  read_first {gap c} hgap hc hne room pos rest := by
    rw [readValue]
    simp only [Rest.drop, drop_succ_cons, drop_zero,
      skipBlanks_append rest (pos + 1) hgap hc]
    split
    next h => exact absurd (cons.inj h).1 hne
    next => rfl

theorem takes_entry {margin : Nat} (key : String) (hv : ReadsAs margin v o) :
    entries.Takes (quote key ++ ": " ++ write (some margin) v).toList
      (fun u done => Value.insert done (.str key) u) o := by
  have htext : (quote key ++ ": " ++ write (some margin) v).toList =
      (quote key).toList ++ (':' :: ' ' :: (write (some margin) v).toList) := by simp
  obtain ⟨hplain, ⟨first, cs, hfirst, hblank, -⟩, hreads⟩ := hv
  rw [htext]
  generalize (write (some margin) v).toList = text at *
  have hstart (more : List Char) : ∃ t, (quote key).toList ++ more = '"' :: t :=
    ⟨_, by rw [toList_quote]; rfl⟩
  -- the key is read up to the colon, and what is skipped then is the blank before the value
  have hkey (more : List Char) (pos : Nat) :=
    readString_quote key (':' :: ' ' :: (text ++ more)) pos
  have hcolon (more : List Char) (pos : Nat) :=
    skipBlanks_append (' ' :: (text ++ more)) pos (forall_mem_nil _) (c := ':') rfl
  have hspace (more : List Char) (pos : Nat) :
      (⟨' ' :: (text ++ more), pos⟩ : Rest).skipBlanks = ⟨text ++ more, pos + 1⟩ := by
    rw [hfirst]
    exact skipBlanks_append (cs ++ more) pos
      (forall_mem_singleton.2 (rfl : isGap ' ' = true)) hblank
  simp only [nil_append, length_nil, Nat.add_zero] at hcolon
  obtain ⟨t, ht⟩ := hstart (':' :: ' ' :: text)
  refine ⟨?_, ⟨'"', t, ht, rfl, by decide⟩, fun u hu gap c hgap (hc : c = '}' ∨ c = ',') room hroom
    done pos rest => ?_, fun ho more hmore room hroom done pos => ?_⟩
  · have hquote := return_not_mem_quote key
    simp [hquote, hplain]
  all_goals
    simp only [entries, append_assoc, cons_append, length_append,
      length_cons] at hroom ⊢
  · rw [hu] at hreads
    rw [readEntries]
    have hvalue := gives_some.1 (hreads room (pos + (quote key).toList.length + 1 + 1)
      (gap ++ c :: rest) (ends_append rest hgap (by rcases hc with rfl | rfl <;> rfl)) (by omega))
    have hbehind := skipBlanks_append rest
      (pos + (quote key).toList.length + 1 + 1 + text.length) hgap
      (by rcases hc with rfl | rfl <;> rfl : isGap c = false)
    have hkey := hkey (gap ++ c :: rest) pos
    obtain ⟨t, ht⟩ := hstart (':' :: ' ' :: (text ++ (gap ++ c :: rest)))
    rw [ht] at hkey ⊢
    simp only [hkey, bind, Except.bind, hcolon, Rest.drop, drop_succ_cons, drop_zero,
      hspace, hvalue, hbehind]
    have hpos : pos + (quote key).toList.length + 1 + 1 + text.length + gap.length + 1 =
        pos + ((quote key).toList.length + (text.length + 1 + 1) + (gap.length + 1)) := by omega
    rcases hc with rfl | rfl
    · rw [if_pos rfl, ← hpos]; rfl
    · rw [if_neg (by decide), ← hpos]; rfl
  · rw [ho] at hreads
    obtain ⟨e, he⟩ := gives_none.1 (hreads room (pos + (quote key).toList.length + 1 + 1) more hmore
      (by omega))
    refine ⟨e, ?_⟩
    rw [readEntries]
    have hkey := hkey more pos
    obtain ⟨t, ht⟩ := hstart (':' :: ' ' :: (text ++ more))
    rw [ht] at hkey ⊢
    simp only [hkey, bind, Except.bind, hcolon, Rest.drop, drop_succ_cons, drop_zero,
      hspace, he]

theorem writeEntries_object (margin : Option Nat) (es : List (String × Value)) :
    writeEntries margin (es.map fun e => (.str e.1, e.2)) =
      es.map fun e => quote e.1 ++ ": " ++ write margin e.2 := by
  induction es with
  | nil => rfl
  | cons e es ih => rw [map_cons, writeEntries, ih, map_cons]

/-- **A map is read** as the map of what its values are read as; of several entries with one key the
last counts. It is not read if one of its values is not. -/
theorem readsAs_map {α : Type} {margin : Nat} {xs : List α} {key : α → String} {val out : α → Value}
    {ok : α → Prop} [DecidablePred ok]
    (h : ∀ x ∈ xs, ReadsAs (margin + 2) (val x) (if ok x then some (out x) else none)) :
    ReadsAs margin (.object (xs.map fun x => (key x, val x))) (if ∀ x ∈ xs, ok x then
      some (.map (insertAll [] (xs.map fun x => (key x, out x)))) else none) := by
  rw [insertAll, foldl_map]
  refine entries.readsAs (fun x hx => takes_entry (key x) (h x hx)) ?_
  rw [Value.object, write, Option.map_some, writeEntries_object, map_map]
  rfl

/-- If the keys are distinct, no entry replaces another. -/
theorem readsAs_object {α : Type} {margin : Nat} {xs : List α} {key : α → String}
    {val out : α → Value} {ok : α → Prop} [DecidablePred ok] (hkeys : (xs.map key).Nodup)
    (h : ∀ x ∈ xs, ReadsAs (margin + 2) (val x) (if ok x then some (out x) else none)) :
    ReadsAs margin (.object (xs.map fun x => (key x, val x)))
      (if ∀ x ∈ xs, ok x then some (.object (xs.map fun x => (key x, out x))) else none) := by
  have hmap := @readsAs_map _ _ _ key _ _ _ _ h
  have hnew := @insertAll_new [] (xs.map fun x => (key x, out x))
    (by simpa [Function.comp_def] using hkeys)
  rwa [show insertAll [] _ = _ from hnew] at hmap

/-- **A map is read back** from its text if its keys are distinct and its values are. -/
theorem readsBack_object {margin : Nat} {es : List (String × Value)}
    (hes : ∀ e ∈ es, ReadsAs (margin + 2) e.2 (some e.2)) (hkeys : (es.map Prod.fst).Nodup) :
    ReadsAs margin (.object es) (some (.object es)) := by
  have hobject := @readsAs_object _ margin es Prod.fst Prod.snd Prod.snd (fun _ => True) _ hkeys
    fun e he => by rw [if_pos trivial]; exact hes e he
  rwa [if_pos fun _ _ => trivial, show (es.map fun e => (e.1, e.2)) = es from map_id _]
    at hobject

/-- A text of several lines as a whole is read as the value is that it was written for. -/
theorem toOption_read_pretty (h : ReadsAs 0 v o) : (read (pretty v).toList).toOption = o := by
  obtain ⟨c, cs, htext, hc, hmark, -⟩ := h.starts
  have hread := h.reads ((pretty v).toList.length + 1) 0 [] (by simp [Ends]) (by rw [pretty]; omega)
  have hskip := skipBlanks_append cs 0 (forall_mem_nil _) hc
  rw [append_nil] at hread
  simp only [pretty, htext, nil_append, length_nil, Nat.zero_add] at *
  simp only [read, head?_cons, Option.some.injEq, hmark, if_false, hskip, bind, Except.bind,
    pure, Except.pure]
  cases o with
  | none =>
    obtain ⟨e, he⟩ := gives_none.1 hread
    rw [he]
    rfl
  | some u =>
    rw [gives_some.1 hread]
    rfl

/-- **A value is read back** from its text of several lines as a whole. -/
theorem read_pretty {u : Value} (h : ReadsAs 0 v (some u)) : read (pretty v).toList = .ok u := by
  have hread := toOption_read_pretty h
  cases hr : read (pretty v).toList with
  | error e => rw [hr] at hread; cases hread
  | ok u' => rw [hr] at hread; rw [Option.some.inj hread]

end Docsmith.Json
