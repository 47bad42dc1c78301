/-
Text and its bytes: what is written as UTF-8 is read back (`decode_toUTF8`), also behind other text
(`decode_append`), and a text without carriage returns keeps its line ends (`unifyLineEnds_eq`), so
that a file gives back the text that was written to it (`FileTree.readText_eq`).
-/
import Docsmith.FileTree

namespace Docsmith.Text

open List

namespace Utf8

/-! ## Bytes of a text -/

theorem toList_loop (bs : ByteArray) (i : Nat) (done : List UInt8) :
    ByteArray.toList.loop bs i done = done.reverse ++ bs.data.toList.drop i := by
  fun_induction ByteArray.toList.loop bs i done with
  | case1 i done hi ih =>
    have hlen : i < bs.data.toList.length := by simpa using hi
    rw [ih, drop_eq_getElem_cons hlen, reverse_cons, append_assoc]
    simp [ByteArray.get!, getElem!_pos, hi]
  | case2 i done hi =>
    rw [drop_eq_nil_of_le (by simpa using hi), append_nil]

theorem toList_toUTF8 (s : String) : s.toUTF8.toList = s.toList.flatMap String.utf8EncodeChar := by
  have h : s.toUTF8 = (s.toList.flatMap String.utf8EncodeChar).toByteArray := by
    conv => lhs; rw [← String.ofList_toList (s := s)]
    exact String.toByteArray_ofList
  rw [h, ByteArray.toList, toList_loop]
  simp

/-! ## Characters -/

theorem toNat_ofNat {n : Nat} (h : n < 256) : (UInt8.ofNat n).toNat = n := by
  rw [UInt8.toNat_ofNat']
  omega

theorem size?_ofNat {n : Nat} (h : n < 256) :
    size? (UInt8.ofNat n) =
      if n < 0x80 then some 1 else if n < 0xC2 then none else if n < 0xE0 then some 2
      else if n < 0xF0 then some 3 else if n < 0xF5 then some 4 else none := by
  simp only [size?, UInt8.lt_iff_toNat_lt, toNat_ofNat h]
  rfl

theorem isTail_ofNat {n : Nat} (h : n < 64) : isTail (UInt8.ofNat (n + 128)) = true := by
  simp only [isTail, Bool.and_eq_true, decide_eq_true_eq, UInt8.lt_iff_toNat_lt,
    UInt8.le_iff_toNat_le, toNat_ofNat (n := n + 128) (by omega)]
  exact ⟨show 128 ≤ n + 128 by omega, show n + 128 < 192 by omega⟩

theorem isSecond_ofNat {m n : Nat} (h : m < 256 ∧ n < 64 ∧ (m = 0xE0 → 0x20 ≤ n) ∧
    (m = 0xED → n < 0x20) ∧ (m = 0xF0 → 0x10 ≤ n) ∧ (m = 0xF4 → n < 0x10)) :
    isSecond (UInt8.ofNat m) (UInt8.ofNat (n + 128)) = true := by
  obtain ⟨hm, hn, hE0, hED, hF0, hF4⟩ := h
  have hn' : n + 128 < 256 := by omega
  have heq : ∀ k : Nat, k < 256 → (UInt8.ofNat m = UInt8.ofNat k ↔ m = k) := by
    intro k hk
    rw [← UInt8.toNat_inj, toNat_ofNat hm, toNat_ofNat hk]
  have hle : ∀ k : Nat, k < 256 → (UInt8.ofNat k ≤ UInt8.ofNat (n + 128) ↔ k ≤ n + 128) := by
    intro k hk
    rw [UInt8.le_iff_toNat_le, toNat_ofNat hn', toNat_ofNat hk]
  have hlt : ∀ k : Nat, k < 256 → (UInt8.ofNat (n + 128) < UInt8.ofNat k ↔ n + 128 < k) := by
    intro k hk
    rw [UInt8.lt_iff_toNat_lt, toNat_ofNat hn', toNat_ofNat hk]
  have h₁ := heq 0xE0 (by omega)
  have h₂ := heq 0xED (by omega)
  have h₃ := heq 0xF0 (by omega)
  have h₄ := heq 0xF4 (by omega)
  have h₅ := hle 0x80 (by omega)
  have h₆ := hle 0xA0 (by omega)
  have h₇ := hle 0x90 (by omega)
  have h₈ := hlt 0xC0 (by omega)
  have h₉ := hlt 0xA0 (by omega)
  have h₀ := hlt 0x90 (by omega)
  simp only [UInt8.reduceOfNat] at *
  simp only [isSecond, Bool.and_eq_true, Bool.not_eq_true', Bool.and_eq_false_iff,
    decide_eq_true_eq, decide_eq_false_iff_not, beq_eq_false_iff_ne, ne_eq,
    h₁, h₂, h₃, h₄, h₅, h₆, h₇, h₈, h₉, h₀]
  omega

theorem step_of_taken {first : UInt8} {tail rest : List UInt8}
    (hsize : size? first = some (tail.length + 1))
    (htaken : taken first (tail.length + 1) (tail ++ rest) = tail) :
    step first (tail ++ rest) = .ok (value first tail, tail.length) := by
  simp only [step, hsize, htaken, if_true]

theorem taken_nil (first : UInt8) (rest : List UInt8) : taken first 1 rest = [] := by
  cases rest <;> rfl

theorem taken_cons {first second : UInt8} {tail rest : List UInt8}
    (hsecond : isSecond first second = true)
    (htail : ∀ b ∈ tail, isTail b = true) :
    taken first ((second :: tail).length + 1) (second :: tail ++ rest) = second :: tail := by
  have hsize : ¬ (second :: tail).length + 1 < 2 := by simp
  have hmore : (second :: tail).length + 1 - 2 = tail.length := by simp
  have hwhile : (tail ++ []).takeWhile isTail = tail := by
    rw [takeWhile_append_of_pos htail, takeWhile_nil, append_nil]
  rw [append_nil] at hwhile
  rw [cons_append, taken, if_neg hsize, if_pos hsecond, hmore, take_left' rfl, hwhile]

theorem toNat_tail (n : Nat) : (UInt8.ofNat (n % 64 + 128)).toNat % 64 = n % 64 := by
  rw [toNat_ofNat (by omega)]
  omega

theorem step_utf8EncodeChar (c : Char) : ∃ first tail, String.utf8EncodeChar c = first :: tail ∧
    ∀ rest, step first (tail ++ rest) = .ok (c, tail.length) := by
  have hv : c.toNat.isValidChar := c.valid
  have hc : Char.ofNat c.toNat = c := Char.ofNat_toNat c
  have hval : c.val.toNat = c.toNat := rfl
  simp only [Nat.isValidChar] at hv
  simp only [String.utf8EncodeChar, hval]
  generalize c.toNat = n at hv hc
  subst hc
  -- by the number of bytes
  split
  next h =>
    refine ⟨_, _, rfl, fun rest => ?_⟩
    rw [step_of_taken (by rw [size?_ofNat (by omega)]; simp; omega) (taken_nil _ _)]
    simp [value, toNat_ofNat (n := n) (by omega)]
  next h₁ =>
  split
  next h =>
    refine ⟨_, _, rfl, fun rest => ?_⟩
    have hlead : (UInt8.ofNat (n / 64 % 32 + 192)).toNat % 32 = n / 64 := by
      rw [toNat_ofNat (by omega)]
      omega
    have hlast : 64 * (n / 64) + n % 64 = n := by omega
    rw [step_of_taken ?_ (taken_cons (isSecond_ofNat (by omega)) (forall_mem_nil _))]
    · simp only [value, length_cons, length_nil, foldl_cons, foldl_nil, toNat_tail, hlead, hlast]
    · rw [size?_ofNat (by omega), if_neg (by omega), if_neg (by omega), if_pos (by omega)]; rfl
  next h₂ =>
  split
  next h =>
    refine ⟨_, _, rfl, fun rest => ?_⟩
    have hlead : (UInt8.ofNat (n / 4096 % 16 + 224)).toNat % 16 = n / 4096 := by
      rw [toNat_ofNat (by omega)]
      omega
    have hlast : 64 * (64 * (n / 4096) + n / 64 % 64) + n % 64 = n := by omega
    rw [step_of_taken ?_ (taken_cons (isSecond_ofNat (by omega)) ?_)]
    · simp only [value, length_cons, length_nil, foldl_cons, foldl_nil, toNat_tail, hlead, hlast]
    · rw [size?_ofNat (by omega), if_neg (by omega), if_neg (by omega), if_neg (by omega),
        if_pos (by omega)]
      rfl
    · rw [forall_mem_singleton]; exact isTail_ofNat (by omega)
  next h₃ =>
    refine ⟨_, _, rfl, fun rest => ?_⟩
    have hlead : (UInt8.ofNat (n / 262144 % 8 + 240)).toNat % 8 = n / 262144 := by
      rw [toNat_ofNat (by omega)]
      omega
    have hlast : 64 * (64 * (64 * (n / 262144) + n / 4096 % 64) + n / 64 % 64) + n % 64 = n := by
      omega
    rw [step_of_taken ?_ (taken_cons (isSecond_ofNat (by omega)) ?_)]
    · simp only [value, length_cons, length_nil, foldl_cons, foldl_nil, toNat_tail, hlead, hlast]
    · rw [size?_ofNat (by omega), if_neg (by omega), if_neg (by omega), if_neg (by omega),
        if_neg (by omega), if_pos (by omega)]
      rfl
    · rw [forall_mem_cons, forall_mem_singleton]
      exact ⟨isTail_ofNat (by omega), isTail_ofNat (by omega)⟩

/-! ## Texts -/

theorem decodeFrom_skip (pos : Nat) (done : List Char) (tail bs : List UInt8) :
    decodeFrom pos tail.length done (tail ++ bs) = decodeFrom (pos + tail.length) 0 done bs := by
  induction tail generalizing pos with
  | nil => rfl
  | cons b tail ih =>
    rw [length_cons, cons_append, decodeFrom, ih]
    congr 1
    omega

theorem decodeFrom_encoded (cs done : List Char) (pos : Nat) :
    decodeFrom pos 0 done (cs.flatMap String.utf8EncodeChar) = .ok (done.reverse ++ cs) := by
  induction cs generalizing done pos with
  | nil => simp [decodeFrom]
  | cons c cs ih =>
    obtain ⟨first, tail, hc, hstep⟩ := step_utf8EncodeChar c
    rw [flatMap_cons, hc, cons_append, decodeFrom, hstep]
    simp only [decodeFrom_skip, ih, reverse_cons, append_assoc, singleton_append]

/-- **What is written as bytes is read back.** -/
theorem decode_toUTF8 (s : String) : decode s.toUTF8.toList = .ok s.toList := by
  rw [decode, toList_toUTF8, decodeFrom_encoded]
  rfl

/-! ## Bytes behind others -/

theorem taken_append {first : UInt8} {size : Nat} {as : List UInt8}
    (h : (taken first size as).length + 1 = size) (bs : List UInt8) :
    taken first size (as ++ bs) = taken first size as ∧
      (taken first size as).length ≤ as.length := by
  cases as with
  | nil =>
    obtain rfl : 1 = size := h
    exact ⟨taken_nil first _, Nat.le_refl _⟩
  | cons second more =>
    rw [cons_append]
    simp only [taken] at h ⊢
    split
    · exact ⟨rfl, Nat.zero_le _⟩
    split
    · rename_i hsize hsecond
      rw [if_neg hsize, if_pos hsecond, length_cons] at h
      have htake := (List.takeWhile_prefix isTail (l := more.take (size - 2))).length_le
      rw [length_take] at htake
      rw [take_append_of_le_length (by omega), length_cons, length_cons]
      exact ⟨rfl, by omega⟩
    · exact ⟨rfl, Nat.zero_le _⟩

theorem step_append {first : UInt8} {as : List UInt8} {c : Char} {n : Nat}
    (h : step first as = .ok (c, n)) (bs : List UInt8) :
    step first (as ++ bs) = .ok (c, n) ∧ n ≤ as.length := by
  rw [step] at h ⊢
  cases hsize : size? first with
  | none => rw [hsize] at h; cases h
  | some size =>
    simp only [hsize] at h ⊢
    split at h
    next hlen =>
      obtain ⟨htaken, hle⟩ := taken_append hlen bs
      cases h
      rw [htaken, if_pos hlen]
      exact ⟨rfl, hle⟩
    next =>
      split at h <;> cases h

theorem decodeFrom_append {as bs : List UInt8} {cs done : List Char} {pos skip : Nat}
    (hskip : skip ≤ as.length) (h : decodeFrom pos skip done as = .ok cs) :
    decodeFrom pos skip done (as ++ bs) = decodeFrom (pos + as.length) 0 cs.reverse bs := by
  induction as generalizing pos skip done with
  | nil =>
    obtain rfl : skip = 0 := Nat.le_zero.1 hskip
    rw [← Except.ok.inj h, reverse_reverse]
    rfl
  | cons b as ih =>
    have hpos : pos + (b :: as).length = pos + 1 + as.length := by rw [length_cons]; omega
    rw [hpos]
    cases skip with
    | succ skip => exact ih (Nat.le_of_succ_le_succ hskip) h
    | zero =>
      rw [cons_append]
      simp only [decodeFrom] at h ⊢
      cases hstep : step b as with
      | error e => rw [hstep] at h; cases h
      | ok x =>
        obtain ⟨hstep', hle⟩ := step_append hstep bs
        rw [hstep] at h
        rw [hstep']
        exact ih hle h

/-- **A text can be written behind any text.** -/
theorem decode_append {as : List UInt8} {cs : List Char} (h : decode as = .ok cs) (s : String) :
    decode (as ++ s.toUTF8.toList) = .ok (cs ++ s.toList) := by
  rw [decode, decodeFrom_append (Nat.zero_le _) h, toList_toUTF8, decodeFrom_encoded,
    reverse_reverse]

theorem toUTF8_toList_inj {s s' : String} (h : s.toUTF8.toList = s'.toUTF8.toList) : s = s' := by
  have hd := decode_toUTF8 s
  rw [h, decode_toUTF8] at hd
  exact (String.toList_inj.1 (Except.ok.inj hd)).symm

end Utf8

theorem unifyLineEnds_eq {cs : List Char} (h : '\r' ∉ cs) : unifyLineEnds cs = cs := by
  induction cs with
  | nil => rfl
  | cons c cs ih =>
    simp only [mem_cons, not_or] at h
    have hc : c ≠ '\r' := fun he => h.1 he.symm
    rw [unifyLineEnds]
    · rw [if_neg hc, ih h.2]
    · exact fun _ he _ => hc he

/-- A line feed that is written behind a text ends a line, also if the text ends with a carriage
return. -/
theorem unifyLineEnds_append (cs ds : List Char) :
    ∃ front, unifyLineEnds (cs ++ '\n' :: ds) = front ++ '\n' :: unifyLineEnds ds := by
  fun_induction unifyLineEnds cs with
  | case1 => exact ⟨[], rfl⟩
  | case2 cs ih =>
    obtain ⟨front, hfront⟩ := ih
    exact ⟨'\n' :: front, by rw [cons_append, cons_append, unifyLineEnds, hfront]; rfl⟩
  | case3 c cs hpair ih =>
    obtain ⟨front, hfront⟩ := ih
    by_cases hend : c = '\r' ∧ cs = []
    · obtain ⟨rfl, rfl⟩ := hend
      exact ⟨[], rfl⟩
    · refine ⟨(if c = '\r' then '\n' else c) :: front, ?_⟩
      rw [cons_append, unifyLineEnds, hfront, cons_append]
      rintro ys rfl hys
      cases cs with
      | nil => exact hend ⟨rfl, rfl⟩
      | cons d cs =>
        obtain ⟨rfl, -⟩ := cons.inj hys
        exact hpair cs rfl rfl

end Docsmith.Text

namespace Docsmith

theorem FileTree.readText_eq {t : FileTree} {p : Path} {s : String}
    (hfile : t.readBytes p = .ok s.toUTF8.toList) (hs : '\r' ∉ s.toList) :
    t.readText p = .ok s.toList := by
  simp only [readText, hfile, bind, Except.bind, Text.Utf8.decode_toUTF8, Text.unifyLineEnds_eq hs]
  rfl

end Docsmith
