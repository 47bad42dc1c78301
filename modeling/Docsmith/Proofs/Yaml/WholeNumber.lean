/-
Whole numbers in documents. A whole number is written as its digits, behind a minus if it is
negative. This is the form of a whole number and of no other kind, it is written plain, and with as
many digits as a number may have it is read as it was.
-/
import Docsmith.Proofs.Pattern
import Docsmith.Proofs.Yaml.Quoted
import Docsmith.Yaml.Reader
import Mathlib.Tactic.IntervalCases

namespace Docsmith.Yaml

open Form List
open Nat (digitChar toDigits toDigits_ne_nil)

/-! ## Forms -/

namespace Form

open Pattern

variable {p q : Pattern} {x : Char}

theorem needs_float : float.Needs '.' := by
  have hpoint : (lit ".").Needs '.' := needs_lit rfl
  refine .alt ?_ (.alt ?_ (.alt ?_ (.alt ?_ ?_)))
  · exact .seq_left (.seq_left (.seq_right hpoint))
  · exact .seq_left (.seq_left hpoint)
  · exact .seq_left (.seq_right hpoint)
  · exact .seq_left (.seq_right hpoint)
  · exact .seq_left hpoint

variable {cs : List Char}

theorem takes_eq_false (h : p.Needs x) (hx : x ∉ cs) : takes p cs = false := by
  rw [takes, whole?, h _ _ _ _ hx]
  rfl

theorem takes_of_rejects (h : p.Rejects [] cs) : takes p cs = false := by
  rw [takes, whole?]
  exact congrArg Option.isSome (h _ _ _)

theorem takes_of_takes {hs : List Capture} (h : p.Takes [] cs [] [] hs) : takes p cs = true := by
  have hrun := h Match (fun d gs => if d.rest.isEmpty || d.rest == ['\n'] then
    some ⟨.ofText cs, d, gs⟩ else none) rfl
  rw [append_nil] at hrun
  rw [takes, whole?]
  exact (congrArg Option.isSome hrun).trans rfl

theorem takes_alt (cs : List Char) : takes (alt p q) cs = (takes p cs || takes q cs) := by
  simp only [takes, whole?, run]
  split
  · rename_i r hr
    rw [hr]
    rfl
  · rename_i hr
    rw [hr]
    rfl

end Form

/-! ## Numerals -/

def AreDigits (ds : List Char) : Prop := ∀ c ∈ ds, ∃ d < 10, c = digitChar d

theorem areDigits_toDigits (n : Nat) : AreDigits (toDigits 10 n) := fun _ =>
  mem_toDigits (by decide)

theorem toList_toString (i : Int) :
    (toString i).toList = (if i < 0 then ['-'] else []) ++ toDigits 10 i.natAbs := by
  cases i with
  | ofNat n =>
    show (Nat.repr n).toList = _
    simp
  | negSucc n =>
    show ("-" ++ Nat.repr (n + 1)).toList = _
    simp [Int.negSucc_lt_zero]

variable {n : Nat} {p : Char → Bool} {cs : List Char}

theorem exists_toDigits (hn : n ≠ 0) : ∃ d ds, 0 < d ∧ d < 10 ∧
    toDigits 10 n = digitChar d :: ds := by
  induction n using Nat.strongRecOn with
  | _ n ih =>
    by_cases h : n < 10
    · exact ⟨n, [], by omega, h, Nat.toDigits_of_lt_base h⟩
    · obtain ⟨d, ds, hpos, hd, hds⟩ := ih (n / 10) (by omega) (by omega)
      exact ⟨d, ds ++ [digitChar (n % 10)], hpos, hd,
        by rw [Nat.toDigits_of_base_le (by decide) (by omega), hds]; rfl⟩

/-- What holds of the minus and of the ten digits holds of each character of a numeral. -/
theorem all_toString
    (h : (p '-' && (range 10).all fun d => p (digitChar d)) = true) (i : Int) :
    (toString i).toList.all p = true := by
  rw [Bool.and_eq_true, all_eq_true] at h
  rw [toList_toString, all_append, Bool.and_eq_true, all_eq_true, all_eq_true]
  refine ⟨fun c hc => ?_, fun c hc => ?_⟩
  · split at hc
    · rw [mem_singleton.1 hc]
      exact h.1
    · cases hc
  · obtain ⟨d, hd, rfl⟩ := areDigits_toDigits _ c hc
    exact h.2 d (mem_range.2 hd)

theorem not_mem_toString {x : Char}
    (h : ('-' != x && (range 10).all fun d => digitChar d != x) = true) (i : Int) :
    x ∉ (toString i).toList := fun hx =>
  absurd (all_eq_true.1 (all_toString (p := (· != x)) h i) x hx) (by simp)

theorem any_toString
    (h : (!p '-' && (range 10).all fun d => !p (digitChar d)) = true) (i : Int) :
    (toString i).toList.any p = false := by
  have hall := all_toString (p := fun c => !p c) h i
  rw [all_eq_not_any_not] at hall
  simpa using hall

theorem exists_toString (i : Int) : ∃ d ds, d < 10 ∧ AreDigits ds ∧
    (0 ≤ i ∧ (toString i).toList = digitChar d :: ds ∨
      i < 0 ∧ (toString i).toList = '-' :: digitChar d :: ds) := by
  obtain ⟨c, ds, hds⟩ := exists_cons_of_ne_nil (toDigits_ne_nil (b := 10) (n := i.natAbs))
  have hdigits := areDigits_toDigits i.natAbs
  rw [hds] at hdigits
  obtain ⟨d, hd, rfl⟩ := hdigits c mem_cons_self
  refine ⟨d, ds, hd, fun x hx => hdigits x (mem_cons_of_mem _ hx), ?_⟩
  rw [toList_toString, hds]
  by_cases hi : i < 0
  · exact .inr ⟨hi, by rw [if_pos hi]; rfl⟩
  · exact .inl ⟨by omega, by rw [if_neg hi]; rfl⟩

/-! ## The form of a whole number -/

section

open Pattern

/-- Digits of which the first is not zero. -/
def Form.above : Pattern := oneAmong "123456789" ++ run0 fun c => c.isDigit || c == '_'

theorem takes_above {n : Nat} (hn : n ≠ 0) (b : List Char) :
    above.Takes b (toDigits 10 n) [] [] [] := by
  obtain ⟨d, ds, hpos, hd, hds⟩ := exists_toDigits hn
  have hfirst : ∀ d < 10, 0 < d → among "123456789" (digitChar d) = true := by decide
  have hrest : ds.all (fun c => c.isDigit || c == '_') = true := by
    rw [all_eq_true]
    intro c hc
    obtain ⟨e, he, rfl⟩ := areDigits_toDigits n c (by rw [hds]; exact mem_cons_of_mem _ hc)
    exact (show ∀ e < 10, (digitChar e).isDigit || digitChar e == '_' by decide) e he
  rw [hds]
  exact (only_one (hfirst d hd hpos)).takes.seq (takes_chars hrest rfl (Nat.zero_le _))

theorem takes_int (i : Int) : takes int (toString i).toList = true := by
  by_cases hzero : i = 0
  · subst hzero
    decide
  have habove := takes_above (n := i.natAbs) (by omega)
  have hsigned : (sign ++ above).Takes [] (toString i).toList [] [] [] := by
    rw [toList_toString]
    by_cases hi : i < 0
    · rw [if_pos hi]
      exact (Takes.alt (only_one (by decide)).takes).seq (habove _)
    · rw [if_neg hi]
      obtain ⟨d, ds, -, hd, hds⟩ := exists_toDigits (n := i.natAbs) (by omega)
      have hunsigned : ∀ d < 10, among "+-" (digitChar d) = false := by decide
      refine Takes.alt_seq_right (Rejects.seq (rejects_one ?_)) (habove [])
      rw [hds]
      exact hunsigned d hd
  have hform : takes (sign ++ above) (toString i).toList = true :=
    takes_of_takes hsigned
  rw [above] at hform
  simp only [int, takes_alt, hform, Bool.or_true, Bool.true_or]

end

theorem takes_words (ws : List String)
    (hws : ∀ w ∈ ws, w.toList.head?.any (fun c => !(c == '-' || c.isDigit)) = true) (i : Int) :
    takes (Pattern.oneOf ws) (toString i).toList = false := by
  refine takes_of_rejects (Pattern.rejects_oneOf fun w hw ⟨u, hu⟩ => ?_)
  have hchars := all_toString (p := fun c => c == '-' || c.isDigit) (by decide) i
  have hfirst := hws w hw
  cases hcs : w.toList with
  | nil =>
    rw [hcs] at hfirst
    cases hfirst
  | cons c cs =>
    rw [hcs] at hfirst hu
    have hc := all_eq_true.1 hchars c (by rw [← hu]; exact mem_cons_self)
    simp only [head?_cons, Option.any_some, hc] at hfirst
    cases hfirst

theorem formTag_toString (i : Int) : formTag (toString i).toList = .int := by
  have htruth := takes_words truths (by decide) i
  have hfloat := takes_eq_false needs_float (not_mem_toString (x := '.') (by decide) i)
  have hint := takes_int i
  obtain ⟨d, ds, hd, -, ⟨-, hi⟩ | ⟨-, hi⟩⟩ := exists_toString i
  · have hdigit : (digitChar d).isDigit = true :=
      (show ∀ d < 10, (digitChar d).isDigit = true by decide) d hd
    rw [hi] at htruth hfloat hint ⊢
    simp [formTag, htruth, hfloat, hint, hdigit]
  · rw [hi] at htruth hfloat hint ⊢
    simp [formTag, htruth, hfloat, hint]

theorem hasPair_eq_false {first : Char → Bool} (second : Char → Bool) (h : cs.any first = false) :
    hasPair first second cs = false := by
  fun_induction hasPair first second cs with
  | case1 a b cs ih =>
    rw [any_cons, Bool.or_eq_false_iff] at h
    rw [h.1, ih h.2]
    rfl
  | case2 => rfl

theorem hasSignAfter_eq_false (h : cs.any (fun c => c == ':' || c == '#') = false) (before : Char) :
    hasSignAfter before cs = false := by
  induction cs generalizing before with
  | nil => rfl
  | cons c cs ih =>
    simp only [any_cons, Bool.or_eq_false_iff] at h
    simp only [hasSignAfter, h.1.1, h.1.2, ih (by simpa using h.2), Bool.false_and, Bool.or_self]

theorem ends_eq_false (hp : p '\x00' = false) (h : cs.any p = false) :
    p (charAt cs 0) = false ∧ p (cs.getLast?.getD '\x00') = false := by
  have hall : ∀ c ∈ cs, p c = false := by simpa using h
  constructor
  · cases cs with
    | nil => exact hp
    | cons c cs => exact hall c mem_cons_self
  · cases hlast : cs.getLast? with
    | none => exact hp
    | some c => exact hall c (mem_of_getLast? hlast)

theorem hasSign_toString (i : Int) : (traits (toString i).toList).hasSign = false := by
  have hafter := any_toString (p := fun c => c == ':' || c == '#') (by decide) i
  have hdash : ∀ d < 10, (digitChar d == '-') = false ∧ (digitChar d == '.') = false := by
    decide
  have hfirst : ∀ d < 10, isFirstSign '-' (digitChar d) = false ∧
      isFirstSign (digitChar d) ' ' = false := by decide
  obtain ⟨d, ds, hd, -, ⟨-, hi⟩ | ⟨-, hi⟩⟩ := exists_toString i
  all_goals
    rw [hi] at hafter ⊢
    rw [any_cons, Bool.or_eq_false_iff] at hafter
    have hlater := hasSignAfter_eq_false hafter.2
  · simp [traits, charAt, hlater, isFirstSign_of_space (hfirst d hd).2, hdash d hd]
  · simp [traits, charAt, hlater, (hfirst d hd).1, hdash d hd]

theorem mayBePlain_toString (i : Int) : mayBePlain (toString i).toList = true := by
  have hsign := hasSign_toString i
  have hbreak := any_toString (p := isValueBreak) (by decide) i
  have hspecial := any_toString (p := isSpecial) (by decide) i
  have hspace := any_toString (p := (· == ' ')) (by decide) i
  have hedge := ends_eq_false (by decide)
    (any_toString (p := fun c => c == ' ' || isValueBreak c) (by decide) i)
  have hbreaks := hasPair_eq_false (· == ' ') hbreak
  have hspaces := hasPair_eq_false isValueBreak hspace
  simp only [traits] at hsign
  simp only [mayBePlain, traits, hsign, hbreak, hspecial, hedge, hbreaks, hspaces, Bool.or_false,
    Bool.not_false, Bool.or_true]

/-! ## Reading a whole number -/

open Written

theorem cutSign_digits {d : Nat} (hd : d < 10) (ds : List Char) :
    cutSign (digitChar d :: ds) = (false, digitChar d :: ds) := by
  interval_cases d <;> rfl

theorem dropMark_ten (cs : List Char) : dropMark 10 cs = cs := by
  unfold dropMark
  split <;> simp [mark?]

theorem digitsFrom?_digits {ds : List Char} (h : AreDigits ds) :
    digitsFrom? 10 ds = some (ds.map fun c => c.toNat - '0'.toNat) := by
  have hvalue : ∀ d < 10, digit? 10 (digitChar d) =
      some ((digitChar d).toNat - '0'.toNat) := by decide
  induction ds with
  | nil => rfl
  | cons c ds ih =>
    obtain ⟨d, hd, rfl⟩ := h c mem_cons_self
    have hne : digitChar d ≠ '_' := (show ∀ d < 10, digitChar d ≠ '_' by decide) d hd
    rw [digitsFrom?, hvalue d hd, ih fun c hc => h c (mem_cons_of_mem _ hc)]
    · rfl
    · exact fun _ _ he _ => absurd he hne

theorem nat?_toDigits (h : (toDigits 10 n).length ≤ maxDigits) :
    nat? 10 (toDigits 10 n) = some n := by
  have hfold := Nat.ofDigitChars_toDigits (b := 10) (n := n) (by decide) (by decide)
  rw [Nat.ofDigitChars_eq_foldl] at hfold
  have hhead : (toDigits 10 n).head? ≠ some '_' := by
    intro hhead
    exact Nat.underscore_not_in_toDigits (mem_of_head? hhead)
  rw [nat?, digitsFrom?_digits (areDigits_toDigits n)]
  simp [hhead, Nat.not_lt.2 h, toDigits_ne_nil, foldl_map]
  exact hfold

theorem int?_toDigits (h : (toDigits 10 n).length ≤ maxDigits) :
    Written.int? 10 (toDigits 10 n) = some (n : Int) := by
  have hblank : ∀ c ∈ toDigits 10 n, Text.isBlank c = false := fun c hc => by
    obtain ⟨d, hd, rfl⟩ := areDigits_toDigits n c hc
    exact (show ∀ d < 10, Text.isBlank (digitChar d) = false by decide) d hd
  have htrim : Text.trim (toDigits 10 n) = toDigits 10 n := by
    rw [Text.trim_eq_self]
    constructor
    · cases hhead : (toDigits 10 n).head? with
      | none => rfl
      | some c => exact hblank c (mem_of_head? hhead)
    · cases hlast : (toDigits 10 n).getLast? with
      | none => rfl
      | some c => exact hblank c (mem_of_getLast? hlast)
  have hsign : cutSign (toDigits 10 n) = (false, toDigits 10 n) := by
    obtain ⟨c, ds, hds⟩ := exists_cons_of_ne_nil (toDigits_ne_nil (b := 10) (n := n))
    obtain ⟨d, hd, rfl⟩ := areDigits_toDigits n c (by rw [hds]; exact mem_cons_self)
    rw [hds]
    exact cutSign_digits hd ds
  simp [Written.int?, htrim, hsign, dropMark_ten, nat?_toDigits h]

theorem cutSign_toString (i : Int) :
    cutSign (toString i).toList = (decide (i < 0), toDigits 10 i.natAbs) := by
  obtain ⟨c, ds, hds⟩ := exists_cons_of_ne_nil (toDigits_ne_nil (b := 10) (n := i.natAbs))
  obtain ⟨d, hd, rfl⟩ := areDigits_toDigits i.natAbs c (by rw [hds]; exact mem_cons_self)
  rw [toList_toString, hds]
  by_cases hi : i < 0
  · simp [hi, cutSign]
  · simp [hi, cutSign_digits hd]

theorem int?_of_cutSign {ds : List Char} {negative : Bool} {c : Char}
    (hcs : dropUnderscores cs = cs) (hsign : cutSign cs = (negative, c :: ds)) (hc : c ≠ '0')
    (hcolon : (c :: ds).contains ':' = false) :
    int? cs = (Written.int? 10 (c :: ds)).map fun n => if negative then -n else n := by
  have hne : cs.isEmpty = false := by
    cases cs with
    | nil => cases hsign
    | cons => rfl
  rw [int?, hcs, hne, if_neg Bool.false_ne_true, hsign]
  refine congrArg (Option.map _) ?_
  split
  · rename_i hnil
    cases hnil
  · rename_i hcons
    exact absurd (cons.inj hcons).1 hc
  · rename_i hcons
    exact absurd (cons.inj hcons).1 hc
  · rename_i hcons
    exact absurd (cons.inj hcons).1 hc
  · rw [hcolon, if_neg Bool.false_ne_true]

theorem int?_toString {i : Int} (h : (toDigits 10 i.natAbs).length ≤ maxDigits) :
    int? (toString i).toList = some i := by
  by_cases hzero : i = 0
  · subst hzero
    decide
  have hunderscore : dropUnderscores (toString i).toList = (toString i).toList :=
    filter_eq_self.2 (all_eq_true.1 (all_toString (by decide) i))
  have hcolon : (toDigits 10 i.natAbs).contains ':' = false := by
    rw [← Bool.not_eq_true, contains_iff_mem]
    intro hmem
    obtain ⟨e, he, hcolon⟩ := areDigits_toDigits _ _ hmem
    exact (show ∀ e < 10, ':' ≠ digitChar e by decide) e he hcolon
  have hsign := cutSign_toString i
  have hsize := int?_toDigits h
  obtain ⟨d, ds, hpos, hd, hds⟩ := exists_toDigits (n := i.natAbs) (by omega)
  have hfirst : ∀ d < 10, 0 < d → digitChar d ≠ '0' := by decide
  rw [hds] at hcolon hsign hsize
  rw [int?_of_cutSign hunderscore hsign (hfirst d hd hpos) hcolon, hsize, Option.map_some]
  congr 1
  split
  · rename_i hi
    have := of_decide_eq_true hi
    omega
  · rename_i hi
    have := of_decide_eq_false (Bool.not_eq_true _ ▸ hi)
    omega

end Docsmith.Yaml
