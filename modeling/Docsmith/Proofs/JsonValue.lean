/-
Whatever can be written as JSON is read back.

A number is written as a `Numeral` and read as what that means; `readsAs_list` does for lists what
`readsAs_object` does for maps. Together they give `exists_readsAs`: a value that nothing keeps from
being written is read from its text.
-/
import Docsmith.Proofs.Yaml.WholeNumber
import Docsmith.Report

namespace Docsmith.Json

open List

/-! ## Numbers -/

/-- A number as it stands in a text. No zero comes first unless it is the whole part. -/
structure Numeral where
  negative : Bool
  whole : List Char
  places : List Char
  power : Option (Bool × List Char)
  whole_digits : whole = ['0'] ∨
    ∃ c cs, whole = c :: cs ∧ c ≠ '0' ∧ (c :: cs).all Char.isDigit = true
  places_digits : places.all Char.isDigit = true
  power_digits : ∀ p ∈ power, p.2 ≠ [] ∧ p.2.all Char.isDigit = true

namespace Numeral

def fractionText (n : Numeral) : List Char := if n.places = [] then [] else '.' :: n.places

def powerText (n : Numeral) : List Char :=
  n.power.elim [] fun p => 'e' :: (if p.1 then '-' else '+') :: p.2

def unsigned (n : Numeral) : List Char := n.whole ++ (n.fractionText ++ n.powerText)

def text (n : Numeral) : List Char := if n.negative then '-' :: n.unsigned else n.unsigned

def exponent (n : Numeral) : Option Int :=
  n.power.map fun p => if p.1 then -(digitsValue p.2 : Int) else digitsValue p.2

def IsWhole (n : Numeral) : Prop := n.places = [] ∧ n.power = none

instance (n : Numeral) : Decidable n.IsWhole := inferInstanceAs (Decidable (_ ∧ _))

/-- What a number is read as. An integer of too many digits is not read. -/
def value? (n : Numeral) : Option Value :=
  if n.IsWhole then
    if maxDigits < n.whole.length then none
    else some (.int (if n.negative then -(digitsValue n.whole : Int) else digitsValue n.whole))
  else
    some (.float (.ofDecimal n.negative (digitsValue (n.whole ++ n.places))
      (n.exponent.getD 0 - n.places.length)))

variable (n : Numeral) {rest : List Char}

theorem exists_unsigned : ∃ c cs, n.unsigned = c :: cs ∧ c.isDigit = true := by
  rcases n.whole_digits with h | ⟨c, cs, h, -, hall⟩
  · exact ⟨'0', n.fractionText ++ n.powerText, by rw [unsigned, h]; rfl, rfl⟩
  · rw [all_cons, Bool.and_eq_true] at hall
    exact ⟨c, cs ++ (n.fractionText ++ n.powerText), by rw [unsigned, h]; rfl, hall.1⟩

theorem all_whole : n.whole.all Char.isDigit = true := by
  rcases n.whole_digits with h | ⟨c, cs, h, -, hall⟩
  · rw [h]; rfl
  · rw [h, hall]

end Numeral

open Numeral (fractionText powerText unsigned IsWhole value?)

variable {rest : List Char} {c : Char} {margin : Nat} {v : Value}

theorem Ends.head?_any {p : Char → Bool} (hrest : Ends rest)
    (hp : ∀ c, p c = true → goesOn c = true) : rest.head?.any p = false := by
  cases h : rest.head? with
  | none => rfl
  | some c =>
    have hc := hrest c h
    rw [Option.any_some, ← Bool.not_eq_true]
    intro htrue
    rw [hp c htrue] at hc
    cases hc

theorem goesOn_of_isDigit (h : c.isDigit = true) : goesOn c = true := by
  rw [goesOn, h]; rfl

def wholePart (cs : List Char) : List Char :=
  match cs with
  | '0' :: _ => ['0']
  | _ => cs.takeWhile Char.isDigit

theorem wholePart_append (n : Numeral) (hrest : rest.head?.any Char.isDigit = false) :
    wholePart (n.whole ++ rest) = n.whole := by
  rcases n.whole_digits with h | ⟨c, cs, h, hc, hall⟩
  · rw [h]; rfl
  · rw [h, cons_append, wholePart]
    · exact Text.takeWhile_run hall hrest
    · exact fun _ he => absurd (cons.inj he).1 hc

theorem fraction_append (n : Numeral)
    (hrest : rest.head?.any (fun c => c.isDigit || c == '.') = false) :
    fraction (n.fractionText ++ rest) = (n.places, rest) := by
  have hdigit : rest.head?.any Char.isDigit = false := by
    cases rest with
    | nil => rfl
    | cons c rest =>
      simp only [head?_cons, Option.any_some, Bool.or_eq_false_iff] at hrest ⊢
      exact hrest.1
  rw [fractionText]
  split
  next h =>
    rw [h, nil_append, fraction]
    · rintro more rfl
      cases hrest
  next h =>
    rw [cons_append, fraction, Text.takeWhile_run n.places_digits hdigit, drop_left]
    simp [h]

theorem exponent_append (n : Numeral) (hrest : Ends rest) :
    exponent (n.powerText ++ rest) = (n.exponent, rest) := by
  have hdigit : rest.head?.any Char.isDigit = false :=
    hrest.head?_any fun _ => goesOn_of_isDigit
  cases hp : n.power with
  | none =>
    rw [powerText, Numeral.exponent, hp]
    cases rest with
    | nil => rfl
    | cons c rest =>
      have hc := hrest c rfl
      simp only [goesOn, Bool.or_eq_false_iff, beq_eq_false_iff_ne] at hc
      simp [exponent, hc.1.2, hc.2]
  | some p =>
    obtain ⟨negative, ds⟩ := p
    obtain ⟨hne, hds⟩ := n.power_digits _ hp
    have htake : (ds ++ rest).takeWhile Char.isDigit = ds := Text.takeWhile_run hds hdigit
    rw [powerText, Numeral.exponent, hp]
    cases negative <;> simp [exponent, htake, hne]

theorem head?_powerText (n : Numeral) (hrest : Ends rest) :
    (n.powerText ++ rest).head?.any (fun c => c.isDigit || c == '.') = false := by
  cases hp : n.power with
  | none =>
    rw [powerText, hp]
    refine hrest.head?_any fun c hc => ?_
    rw [goesOn, Bool.or_eq_true, Bool.or_eq_true, hc]
    exact .inl (.inl rfl)
  | some p =>
    rw [powerText, hp]
    rfl

theorem head?_behind_whole (n : Numeral) (hrest : Ends rest) :
    (n.fractionText ++ (n.powerText ++ rest)).head?.any Char.isDigit = false := by
  rw [fractionText]
  split
  next =>
    have h := head?_powerText n hrest
    rw [nil_append]
    cases hcs : n.powerText ++ rest with
    | nil => rfl
    | cons c cs =>
      rw [hcs] at h
      simp only [head?_cons, Option.any_some, Bool.or_eq_false_iff] at h ⊢
      exact h.1
  next => rfl

theorem sign_text (n : Numeral) (rest : List Char) :
    ((n.text ++ rest).head? == some '-') = n.negative := by
  obtain ⟨c, cs, hcs, hc⟩ := n.exists_unsigned
  rw [Numeral.text, hcs]
  cases n.negative with
  | true => rfl
  | false =>
    have hne : c ≠ '-' := by rintro rfl; cases hc
    simp [hne]

theorem readNumber_eq (cs : List Char) (pos : Nat) :
    readNumber ⟨cs, pos⟩ =
      let negative := cs.head? == some '-'
      let unsigned := if negative then cs.drop 1 else cs
      let whole := wholePart unsigned
      if whole.isEmpty then .error ⟨.value, pos⟩
      else
        let frac := fraction (unsigned.drop whole.length)
        let exp := exponent frac.2
        let rest := (⟨cs, pos⟩ : Rest).drop (cs.length - exp.2.length)
        if frac.1.isEmpty ∧ exp.1 = none then
          if maxDigits < whole.length then .error ⟨.digits whole.length, pos⟩
          else .ok (.int (if negative then -(digitsValue whole : Int) else digitsValue whole), rest)
        else
          .ok (.float (.ofDecimal negative (digitsValue (whole ++ frac.1))
            (exp.1.getD 0 - frac.1.length)), rest) := rfl

/-- **A number is read** as what it means, whatever follows it that no number goes on with. -/
theorem readNumber_text (n : Numeral) (hrest : Ends rest) (pos : Nat) :
    Gives (readNumber ⟨n.text ++ rest, pos⟩) n.value? ⟨rest, pos + n.text.length⟩ := by
  have hunsigned : (if n.negative = true then (n.text ++ rest).drop 1 else n.text ++ rest) =
      n.whole ++ (n.fractionText ++ (n.powerText ++ rest)) := by
    rw [Numeral.text]
    cases n.negative <;> simp [unsigned]
  have hne : n.whole.isEmpty = false := by
    rcases n.whole_digits with h | ⟨c, cs, h, -⟩ <;> rw [h] <;> rfl
  have hdrop : (⟨n.text ++ rest, pos⟩ : Rest).drop ((n.text ++ rest).length - rest.length) =
      ⟨rest, pos + n.text.length⟩ := by
    rw [length_append, Nat.add_sub_cancel, Rest.drop, drop_left]
  have hwhole : (n.places.isEmpty = true ∧ n.exponent = none) ↔ n.IsWhole := by
    rw [List.isEmpty_iff, Numeral.exponent, Option.map_eq_none_iff, IsWhole]
  simp only [readNumber_eq, sign_text, hunsigned, wholePart_append n (head?_behind_whole n hrest),
    hne, Bool.false_eq_true, if_false, drop_left, fraction_append n (head?_powerText n hrest),
    exponent_append n hrest, hdrop]
  rw [value?]
  by_cases h : n.IsWhole
  · rw [if_pos (hwhole.2 h), if_pos h]
    split
    · exact gives_none.2 ⟨_, rfl⟩
    · exact gives_some.2 rfl
  · rw [if_neg (mt hwhole.1 h), if_neg h]
    exact gives_some.2 rfl

theorem ne_of_isDigit {x : Char} (hc : c.isDigit = true) (hx : x.isDigit = false) : c ≠ x := by
  rintro rfl
  rw [hc] at hx
  cases hx

theorem find?_words {cs : List Char} {c : Char} (hc : c.isDigit = true) :
    words.find? (fun w => w.1.toList.isPrefixOf (c :: cs)) = none ∧
      words.find? (fun w => w.1.toList.isPrefixOf ('-' :: c :: cs)) = none := by
  have hne : ∀ x : Char, x.isDigit = false → (x == c) = false := fun x hx => by
    rw [beq_eq_false_iff_ne]
    exact (ne_of_isDigit hc hx).symm
  simp [words, isPrefixOf, hne]

theorem readValue_other {cs : List Char} (hquote : c ≠ '"') (hmap : c ≠ '\x7b')
    (hlist : c ≠ '[') (hwords : words.find? (fun w => w.1.toList.isPrefixOf (c :: cs)) = none)
    (room pos : Nat) : readValue (room + 1) ⟨c :: cs, pos⟩ = readNumber ⟨c :: cs, pos⟩ := by
  rw [readValue]
  simp only
  split
  next h => exact absurd (cons.inj h).1 hquote
  next h => exact absurd (cons.inj h).1 hmap
  next h => exact absurd (cons.inj h).1 hlist
  next => rw [hwords]

theorem readValue_number (n : Numeral) (room pos : Nat) (rest : List Char) :
    readValue (room + 1) ⟨n.text ++ rest, pos⟩ = readNumber ⟨n.text ++ rest, pos⟩ := by
  obtain ⟨c, cs, hcs, hc⟩ := n.exists_unsigned
  have hwords := @find?_words (cs ++ rest) c hc
  rw [Numeral.text, hcs]
  cases n.negative with
  | true => exact readValue_other (by decide) (by decide) (by decide) hwords.2 room pos
  | false =>
    exact readValue_other (ne_of_isDigit hc rfl) (ne_of_isDigit hc rfl) (ne_of_isDigit hc rfl)
      hwords.1 room pos

theorem Numeral.all_text (n : Numeral) :
    n.text.all (fun c => c.isDigit || ".e+-".toList.contains c) = true := by
  have hdigits : ∀ ds : List Char, ds.all Char.isDigit = true →
      ds.all (fun c => c.isDigit || ".e+-".toList.contains c) = true := fun ds h =>
    all_eq_true.2 fun c hc => by rw [all_eq_true.1 h c hc]; rfl
  have hplaces := hdigits _ n.places_digits
  have hpower : n.powerText.all (fun c => c.isDigit || ".e+-".toList.contains c) = true := by
    rw [powerText]
    cases hp : n.power with
    | none => rfl
    | some p =>
      have hds := hdigits _ (n.power_digits p hp).2
      rw [Option.elim_some, all_cons, all_cons, hds]
      cases p.1 <;> rfl
  have hfraction : n.fractionText.all (fun c => c.isDigit || ".e+-".toList.contains c) = true := by
    rw [fractionText]
    split
    · rfl
    · rw [all_cons, hplaces]
      rfl
  have hunsigned : n.unsigned.all (fun c => c.isDigit || ".e+-".toList.contains c) = true := by
    rw [unsigned, all_append, all_append, hdigits _ n.all_whole, hfraction, hpower]
    rfl
  rw [text]
  split
  · rw [all_cons, hunsigned]
    rfl
  · exact hunsigned

theorem readsAs_number (n : Numeral)
    (htext : (write (some margin) v).toList = n.text) : ReadsAs margin v n.value? where
  plain h := by
    rw [htext] at h
    exact absurd (all_eq_true.1 n.all_text _ h) (by decide)
  starts := by
    obtain ⟨c, cs, hcs, hc⟩ := n.exists_unsigned
    rw [htext, Numeral.text, hcs]
    split
    · exact ⟨'-', c :: cs, rfl, rfl, by decide, by decide⟩
    · refine ⟨c, cs, rfl, ?_, ne_of_isDigit hc (by decide), ne_of_isDigit hc (by decide)⟩
      simp [isGap, ne_of_isDigit hc]
  reads room pos rest hrest hroom := by
    rw [htext] at hroom ⊢
    obtain ⟨c, cs, hcs, -⟩ := n.exists_unsigned
    obtain ⟨room, rfl⟩ : ∃ k, room = k + 1 := ⟨room - 1, by
      rw [Numeral.text, hcs] at hroom
      split at hroom <;> simp at hroom <;> omega⟩
    rw [readValue_number]
    exact readNumber_text n hrest pos

theorem digitsValue_toDigits (n : Nat) : digitsValue (Nat.toDigits 10 n) = n := by
  have h := @Nat.ofDigitChars_toDigits 10 n (by decide) (by decide)
  rwa [Nat.ofDigitChars_eq_foldl] at h

theorem all_isDigit_toDigits (n : Nat) : (Nat.toDigits 10 n).all Char.isDigit = true :=
  all_eq_true.2 fun _ hc => Nat.isDigit_of_mem_toDigits (by decide) (by decide) hc

theorem exists_digits {n : Nat} (hn : n ≠ 0) :
    ∃ c cs, Nat.toDigits 10 n = c :: cs ∧ c ≠ '0' ∧ (c :: cs).all Char.isDigit = true := by
  obtain ⟨d, ds, hpos, hd, hds⟩ := Yaml.exists_toDigits hn
  have hzero : ∀ d < 10, 0 < d → Nat.digitChar d ≠ '0' := by decide
  exact ⟨Nat.digitChar d, ds, hds, hzero d hd hpos, hds ▸ all_isDigit_toDigits n⟩

/-- An integer of as many digits as a reader takes. -/
def IsShort (i : Int) : Prop := (Nat.toDigits 10 i.natAbs).length ≤ maxDigits

instance (i : Int) : Decidable (IsShort i) := inferInstanceAs (Decidable (_ ≤ _))

/-- **An integer is read back** if it has no more digits than a reader takes. -/
theorem readsAs_int (margin : Nat) (i : Int) :
    ReadsAs margin (.int i) (if IsShort i then some (.int i) else none) := by
  have hwhole : Nat.toDigits 10 i.natAbs = ['0'] ∨ ∃ c cs, Nat.toDigits 10 i.natAbs = c :: cs ∧
      c ≠ '0' ∧ (c :: cs).all Char.isDigit = true := by
    by_cases hi : i.natAbs = 0
    · exact .inl (by rw [hi]; rfl)
    · exact .inr (exists_digits hi)
  let n : Numeral := ⟨decide (i < 0), Nat.toDigits 10 i.natAbs, [], none, hwhole, rfl, nofun⟩
  have htext : (write (some margin) (.int i)).toList = n.text := by
    rw [write, Yaml.toList_toString]
    by_cases hi : i < 0
    all_goals simp [n, Numeral.text, unsigned, fractionText, powerText, hi]
  have hvalue : n.value? = if IsShort i then some (.int i) else none := by
    rw [value?, if_pos ⟨rfl, rfl⟩]
    by_cases hshort : IsShort i
    · rw [if_neg (Nat.not_lt.2 hshort), if_pos hshort]
      simp only [n, digitsValue_toDigits, decide_eq_true_eq]
      congr 2
      split <;> omega
    · rw [if_pos (Nat.lt_of_not_le hshort), if_neg hshort]
  exact hvalue ▸ readsAs_number n htext

theorem readsBack_int (margin : Nat) {i : Int} (h : IsShort i) :
    ReadsAs margin (.int i) (some (.int i)) := by
  have hint := readsAs_int margin i
  rwa [if_pos h] at hint

theorem all_isDigit_zeros (k : Nat) : (replicate k '0').all Char.isDigit = true :=
  all_eq_true.2 fun _ hc => eq_of_mem_replicate hc ▸ rfl

theorem powerDigits_spec (k : Nat) (ds : List Char)
    (hds : ds = if (Nat.toDigits 10 k).length < 2 then '0' :: Nat.toDigits 10 k
      else Nat.toDigits 10 k) : ds ≠ [] ∧ ds.all Char.isDigit = true := by
  rw [hds]
  split
  · exact ⟨cons_ne_nil _ _, by rw [all_cons, all_isDigit_toDigits]; rfl⟩
  · exact ⟨Nat.toDigits_ne_nil, all_isDigit_toDigits k⟩

theorem exists_numeral (negative : Bool) (d : Nat) (e : Int) :
    ∃ n : Numeral, n.negative = negative ∧ ¬ n.IsWhole ∧
      n.unsigned = (Double.writeDecimal numberStyle d e).toList := by
  by_cases hd : d = 0
  · refine ⟨⟨negative, ['0'], ['0'], none, .inl rfl, rfl, nofun⟩, rfl,
      by simp [IsWhole], ?_⟩
    rw [hd]
    simp [Double.writeDecimal, numberStyle, unsigned, fractionText,
      powerText]
  obtain ⟨c, cs, hcs, hc, hall⟩ := exists_digits hd
  rw [all_cons, Bool.and_eq_true] at hall
  rw [Double.writeDecimal]
  simp only [hd, if_false, hcs, length_cons]
  split
  next hpoint =>
    split
    next he =>
      -- zeros behind the digits
      refine ⟨⟨negative, c :: (cs ++ replicate e.toNat '0'), ['0'], none,
        .inr ⟨c, _, rfl, hc, ?_⟩, rfl, nofun⟩, rfl, by simp [IsWhole], ?_⟩
      · rw [all_cons, all_append, hall.1, hall.2, all_isDigit_zeros]
        rfl
      · simp [numberStyle, unsigned, fractionText, powerText]
    next he =>
    split
    next hwhole =>
      -- the point among the digits
      obtain ⟨k, hk⟩ : ∃ k, ((cs.length + 1 : Nat) + e : Int).toNat = k + 1 :=
        ⟨((cs.length + 1 : Nat) + e : Int).toNat - 1, by omega⟩
      have hne : cs.drop k ≠ [] := by
        rw [Ne, drop_eq_nil_iff]
        omega
      have hparts : (cs.take k).all Char.isDigit = true ∧ (cs.drop k).all Char.isDigit = true := by
        rw [← Bool.and_eq_true, ← all_append, take_append_drop, hall.2]
      refine ⟨⟨negative, c :: cs.take k, cs.drop k, none, .inr ⟨c, _, rfl, hc, ?_⟩, hparts.2,
        nofun⟩, rfl, fun h => hne h.1, ?_⟩
      · rw [all_cons, hall.1, hparts.1]
        rfl
      · rw [hk]
        simp [unsigned, fractionText, powerText, hne]
    next hwhole =>
      -- zeros before the digits
      refine ⟨⟨negative, ['0'], replicate (-((cs.length + 1 : Nat) + e : Int)).toNat '0' ++
        c :: cs, none, .inl rfl, ?_, nofun⟩, rfl, by simp [IsWhole], ?_⟩
      · rw [all_append, all_isDigit_zeros, all_cons, hall.1, hall.2]
        rfl
      · simp [unsigned, fractionText, powerText]
  next hpoint =>
    generalize hds : (if (Nat.toDigits 10 _).length < 2 then _ else _) = ds
    refine ⟨⟨negative, [c], cs, some (decide (((cs.length + 1 : Nat) + e : Int) - 1 < 0), ds),
      .inr ⟨c, [], rfl, hc, by simpa using hall.1⟩, hall.2, ?_⟩, rfl,
      by simp [IsWhole], ?_⟩
    · rintro p hp
      obtain rfl := Option.some.inj hp
      exact powerDigits_spec _ _ hds.symm
    · by_cases hnil : cs = []
      · simp [unsigned, fractionText, powerText, hnil]
      · simp [unsigned, fractionText, powerText, hnil]

/-! ## Words -/

theorem readsAs_word {u : Value} {w : String} (hw : (w, u) ∈ words)
    (htext : (write (some margin) v).toList = w.toList) : ReadsAs margin v (some u) := by
  have hwords : ∀ w' ∈ words, '\r' ∉ w'.1.toList ∧
      w'.1.toList.head?.any (fun c => !isGap c && c != '\ufeff' && c != ']') = true := by decide
  obtain ⟨hplain, hfirst⟩ := hwords _ hw
  obtain ⟨c, cs, hcs⟩ : ∃ c cs, w.toList = c :: cs := by
    cases hcs : w.toList with
    | nil => rw [hcs] at hfirst; cases hfirst
    | cons c cs => exact ⟨c, cs, rfl⟩
  simp only [hcs, head?_cons, Option.any_some, Bool.and_eq_true, Bool.not_eq_true',
    bne_iff_ne] at hfirst
  refine ⟨htext ▸ hplain, ⟨c, cs, htext.trans hcs, hfirst.1.1, hfirst.1.2, hfirst.2⟩,
    fun room pos rest _ hroom => gives_some.2 ?_⟩
  rw [htext] at hroom ⊢
  obtain ⟨room, rfl⟩ : ∃ k, room = k + 1 := ⟨room - 1, by rw [hcs] at hroom; simp at hroom; omega⟩
  simp only [words, mem_cons, Prod.mk.injEq, not_mem_nil, or_false] at hw
  rcases hw with ⟨rfl, rfl⟩ | ⟨rfl, rfl⟩ | ⟨rfl, rfl⟩ | ⟨rfl, rfl⟩ | ⟨rfl, rfl⟩ | ⟨rfl, rfl⟩ <;> rfl

theorem readsAs_bool (margin : Nat) (b : Bool) : ReadsAs margin (.bool b) (some (.bool b)) := by
  cases b with
  | true => exact readsAs_word (w := "true") (by simp [words]) (by rw [write]; rfl)
  | false => exact readsAs_word (w := "false") (by simp [words]) (by rw [write]; rfl)

/-- Any number is read, if not always as itself. -/
theorem exists_readsAs_float (margin : Nat) (x : Double) :
    ∃ u, ReadsAs margin (.float x) (some u) := by
  cases x with
  | finite negative m power =>
    obtain ⟨n, hn, hwhole, htext⟩ := exists_numeral negative (Double.shortest m power).1
      (Double.shortest m power).2
    obtain ⟨u, hu⟩ : ∃ u, n.value? = some u := ⟨_, by rw [value?, if_neg hwhole]⟩
    refine ⟨u, hu ▸ readsAs_number n ?_⟩
    rw [write, Double.write, Numeral.text, hn, htext, String.toList_append]
    cases negative <;> rfl
  | infinite negative =>
    cases negative with
    | true => exact ⟨_, readsAs_word (w := "-Infinity") (by simp [words]; rfl) (by rw [write]; rfl)⟩
    | false => exact ⟨_, readsAs_word (w := "Infinity") (by simp [words]; rfl) (by rw [write]; rfl)⟩
  | nan => exact ⟨_, readsAs_word (w := "NaN") (by simp [words]; rfl) (by rw [write]; rfl)⟩

/-! ## Lists -/

def items : Series (List Value) where
  opening := '['
  closing := ']'
  read := readItems
  empty := []
  value done := .list done.reverse
  signs := by decide
  read_empty _ _ _ := rfl
  read_first {gap c} hgap hc hne room pos rest := by
    rw [readValue]
    simp only [Rest.drop, drop_succ_cons, drop_zero,
      skipBlanks_append rest (pos + 1) hgap hc]
    split
    next h => exact absurd (cons.inj h).1 hne
    next => rfl

theorem takes_item {o : Option Value} (hv : ReadsAs margin v o) :
    items.Takes (write (some margin) v).toList cons o where
  plain := hv.plain
  starts := by
    obtain ⟨c, cs, hcs, hgap, -, hend⟩ := hv.starts
    exact ⟨c, cs, hcs, hgap, hend⟩
  adds u hu gap c hgap (hc : c = ']' ∨ c = ',') room hroom done pos rest := by
    rw [hu] at hv
    have hvalue := gives_some.1 (hv.reads room pos (gap ++ c :: rest)
      (ends_append rest hgap (by rcases hc with rfl | rfl <;> rfl)) hroom)
    have hbehind := skipBlanks_append rest (pos + (write (some margin) v).toList.length) hgap
      (by rcases hc with rfl | rfl <;> rfl : isGap c = false)
    simp only [items]
    rw [readItems]
    simp only [hvalue, bind, Except.bind, hbehind]
    rw [← Nat.add_assoc, ← Nat.add_assoc]
    rcases hc with rfl | rfl
    · exact (if_pos rfl).symm
    · exact (if_neg (by decide)).symm
  refused ho more hmore room hroom done pos := by
    rw [ho] at hv
    obtain ⟨e, he⟩ := gives_none.1 (hv.reads room pos more hmore hroom)
    refine ⟨e, ?_⟩
    simp only [items]
    rw [readItems]
    simp only [he, bind, Except.bind]

theorem writeItems_eq (margin : Option Nat) (xs : List Value) :
    writeItems margin xs = xs.map (write margin) := by
  induction xs with
  | nil => rfl
  | cons x xs ih => rw [writeItems, ih, map_cons]

/-- **A list is read** as the list of what its items are read as. It is not read if one of its items
is not. -/
theorem readsAs_list {α : Type} {margin : Nat} {xs : List α} {val out : α → Value} {ok : α → Prop}
    [DecidablePred ok]
    (h : ∀ x ∈ xs, ReadsAs (margin + 2) (val x) (if ok x then some (out x) else none)) :
    ReadsAs margin (.list (xs.map val))
      (if ∀ x ∈ xs, ok x then some (.list (xs.map out)) else none) := by
  have hlist := items.readsAs (v := .list (xs.map val)) (fun x hx => takes_item (h x hx))
    (by rw [write, Option.map_some, writeItems_eq, map_map]; rfl)
  have hitems : items.value (xs.foldl (fun done x => out x :: done) items.empty) =
      .list (xs.map out) := by simp [items]
  rwa [hitems] at hlist

theorem readsAs_items {margin : Nat} {es : List (Value × Value)}
    (hes : ∀ e ∈ es, ReadsAs (margin + 2) e.1 (some e.2)) :
    ReadsAs margin (.list (es.map Prod.fst)) (some (.list (es.map Prod.snd))) := by
  have hlist := @readsAs_list _ margin es Prod.fst Prod.snd (fun _ => True) _ (by simpa using hes)
  rwa [if_pos fun _ _ => trivial] at hlist

/-! ## Any value -/

/-- The text that a key is written as. -/
def keyText : Value → String
  | .str s => s
  | k => write none k

theorem writeEntries_eq (margin : Option Nat) (es : List (Value × Value)) :
    writeEntries margin es = es.map fun e => quote (keyText e.1) ++ ": " ++ write margin e.2 := by
  induction es with
  | nil => rfl
  | cons e es ih =>
    obtain ⟨k, v⟩ := e
    rw [map_cons, ← ih]
    cases k <;> simp only [writeEntries, keyText]

theorem write_map (margin : Option Nat) (es : List (Value × Value)) :
    write margin (.map es) = write margin (.object (es.map fun e => (keyText e.1, e.2))) := by
  rw [Value.object, write, write, writeEntries_object, writeEntries_eq, map_map]
  rfl

theorem ReadsAs.of_write {v' : Value} {o : Option Value} (h : ReadsAs margin v' o)
    (htext : write (some margin) v = write (some margin) v') : ReadsAs margin v o := by
  refine ⟨?_, ?_, ?_⟩
  all_goals rw [htext]
  exacts [h.plain, h.starts, h.reads]

theorem readsAs_null (margin : Nat) : ReadsAs margin .null (some .null) :=
  readsAs_word (w := "null") (by simp [words]) (by rw [write])

theorem write_pair (margin : Option Nat) (a b : Value) :
    write margin (.pair a b) = write margin (.list [a, b]) := by
  rw [write, write, writeItems_eq]
  rfl

theorem isShort_of_writable {i : Int} (h : Report.unwritableInt? i = none) : IsShort i := by
  rw [Report.unwritableInt?] at h
  split at h
  next => cases h
  next hle => exact Nat.not_lt.1 hle

open Report (unwritable? unwritableItem? unwritableField?)

mutual

/-- **What can be written is read back**, if not always as the same value. -/
theorem exists_readsAs (v : Value) (margin : Nat) (h : unwritable? v = none) :
    ∃ u, ReadsAs margin v (some u) := by
  cases v with
  | null => exact ⟨_, readsAs_null margin⟩
  | bool b => exact ⟨_, readsAs_bool margin b⟩
  | int i => exact ⟨_, readsBack_int margin (isShort_of_writable h)⟩
  | float x => exact exists_readsAs_float margin x
  | str s => exact ⟨_, readsAs_str margin s⟩
  | list xs =>
    obtain ⟨es, rfl, hes⟩ := exists_readsItems xs (margin + 2) h
    exact ⟨_, readsAs_items hes⟩
  | map fs =>
    obtain ⟨es, hfs, hes⟩ := exists_readsEntries fs (margin + 2) h
    have hmap := @readsAs_map _ margin es Prod.fst (·.2.1) (·.2.2) (fun _ => True) _
      (by simpa using hes)
    rw [if_pos fun _ _ => trivial] at hmap
    exact ⟨_, hmap.of_write (by rw [write_map, hfs])⟩
  | pair a b =>
    rw [unwritable?, Option.orElse_eq_none] at h
    obtain ⟨u, hu⟩ := exists_readsAs a (margin + 2) h.1
    obtain ⟨u', hu'⟩ := exists_readsAs b (margin + 2) h.2
    have hlist := @readsAs_items margin [(a, u), (b, u')] (by simp [hu, hu'])
    exact ⟨_, hlist.of_write (write_pair _ a b)⟩
  | shared number v =>
    obtain ⟨u, hu⟩ := exists_readsAs v margin h
    exact ⟨u, hu.of_write (by rw [write])⟩
  | date d => cases h
  | moment m => cases h
  | bytes bs => cases h
  | set xs => cases h

theorem exists_readsItems (xs : List Value) (margin : Nat) (h : unwritableItem? xs = none) :
    ∃ es : List (Value × Value), es.map Prod.fst = xs ∧
      ∀ e ∈ es, ReadsAs margin e.1 (some e.2) := by
  cases xs with
  | nil => exact ⟨[], rfl, forall_mem_nil _⟩
  | cons x xs =>
    rw [unwritableItem?, Option.orElse_eq_none] at h
    obtain ⟨u, hu⟩ := exists_readsAs x margin h.1
    obtain ⟨es, rfl, hes⟩ := exists_readsItems xs margin h.2
    exact ⟨(x, u) :: es, rfl, forall_mem_cons.2 ⟨hu, hes⟩⟩

theorem exists_readsEntries (fs : List (Value × Value)) (margin : Nat)
    (h : unwritableField? fs = none) :
    ∃ es : List (String × Value × Value),
      (es.map fun e => (e.1, e.2.1)) = (fs.map fun e => (keyText e.1, e.2)) ∧
        ∀ e ∈ es, ReadsAs margin e.2.1 (some e.2.2) := by
  cases fs with
  | nil => exact ⟨[], rfl, forall_mem_nil _⟩
  | cons f fs =>
    obtain ⟨k, v⟩ := f
    rw [unwritableField?, Option.orElse_eq_none, Option.orElse_eq_none] at h
    obtain ⟨u, hu⟩ := exists_readsAs v margin h.2.1
    obtain ⟨es, hfs, hes⟩ := exists_readsEntries fs margin h.2.2
    exact ⟨(keyText k, v, u) :: es, by rw [map_cons, hfs, map_cons],
      forall_mem_cons.2 ⟨hu, hes⟩⟩

end

end Docsmith.Json
