/-
The texts that a pattern can read at a place, whichever of its ways is taken (`Reads`). What a match
has taken was read, and where something can be read there is a match (`reads_of_run`,
`isSome_run`); a search for all matches leaves out no place that it does not cover
(`exists_mem_findAll`).

What a pattern can read first is computed from the pattern: whether it may read nothing but blanks
(`takesBlank`), and whether one of some characters may be among the blanks that it reads first or
directly behind them (`opensWith`).
-/
import Docsmith.Proofs.Pattern

namespace Docsmith.Pattern

open Text List

open Cursor (between)

/-- The pattern can read `t` behind the text `b`. A start of the text and an edge are taken to be
anywhere. -/
inductive Reads : Pattern → List Char → List Char → Prop
  | empty {b : List Char} : Reads empty b []
  | one {a : Char → Bool} {b : List Char} {c : Char} (h : a c = true) : Reads (one a) b [c]
  | chars {a : Char → Bool} {least : Nat} {greedy : Bool} {b t : List Char} (h : t.all a = true)
      (hlong : least ≤ t.length) : Reads (chars a least greedy) b t
  | seq {p q : Pattern} {b t u : List Char} (hp : Reads p b t) (hq : Reads q (b ++ t) u) :
      Reads (seq p q) b (t ++ u)
  | altLeft {p q : Pattern} {b t : List Char} (h : Reads p b t) : Reads (alt p q) b t
  | altRight {p q : Pattern} {b t : List Char} (h : Reads q b t) : Reads (alt p q) b t
  | done {p : Pattern} {b : List Char} : Reads (many p) b []
  | round {p : Pattern} {b t u : List Char} (hne : t ≠ []) (hp : Reads p b t)
      (h : Reads (many p) (b ++ t) u) : Reads (many p) b (t ++ u)
  | group {n : Nat} {p : Pattern} {b t : List Char} (h : Reads p b t) : Reads (group n p) b t
  | lineStart {b : List Char} (h : b.getLast?.all (· == '\n') = true) : Reads lineStart b []
  | textStart {b : List Char} : Reads textStart b []
  | edge {a : Char → Bool} {b : List Char} : Reads (edge a) b []

/-- The patterns whose text is kept under the number `n`. -/
def kept (n : Nat) : Pattern → List Pattern
  | seq p q | alt p q => p.kept n ++ q.kept n
  | many p => p.kept n
  | group i p => (if i = n then [p] else []) ++ p.kept n
  | empty | one _ | chars _ _ _ | lineStart | textStart | edge _ => []

/-- The pattern may keep `t` under the number `n`. -/
def Holds (p : Pattern) (n : Nat) (t : List Char) : Prop := ∃ q ∈ p.kept n, ∃ b, q.Reads b t

variable {p q : Pattern} {b t u r : List Char} {gs : List Capture} {m : Match}

/-! ## What a match has taken -/

variable {n : Nat} {c : Char}

theorem Holds.mono (h : p.Holds n t) (hsub : p.kept n ⊆ q.kept n) : q.Holds n t :=
  h.imp fun _ => And.imp_left (hsub ·)

section Run

variable {β : Type} {y : β} {k : Cursor → List Capture → Option β}

theorem mem_stops_between {accepts : Char → Bool} {least : Nat} {greedy : Bool} {d : Cursor} :
    d ∈ (between b r).stops accepts least greedy ↔
      ∃ t u, r = t ++ u ∧ t.all accepts = true ∧ least ≤ t.length ∧ d = between (b ++ t) u := by
  have hall : (r.takeWhile accepts).all accepts = true := all_takeWhile
  have hnext : (r.dropWhile accepts).head?.any accepts = false := by
    have := head?_dropWhile_not accepts r
    cases h : (r.dropWhile accepts).head? <;> simp_all
  rw [← takeWhile_append_dropWhile (p := accepts) (l := r), mem_stops hall hnext,
    takeWhile_append_dropWhile]
  constructor
  · rintro ⟨t₁, t₂, ht, hlong, rfl⟩
    refine ⟨t₁, t₂ ++ r.dropWhile accepts, ?_, ?_, hlong, rfl⟩
    · rw [← append_assoc, ← ht, takeWhile_append_dropWhile]
    · rw [ht, all_append, Bool.and_eq_true] at hall
      exact hall.1
  · rintro ⟨t, u, rfl, ht, hlong, rfl⟩
    refine ⟨t, u.takeWhile accepts, ?_, hlong, ?_⟩
    · rw [takeWhile_append_of_pos (by simpa using ht)]
    · rw [dropWhile_append_of_pos (by simpa using ht), takeWhile_append_dropWhile]

/-- What is read goes before what follows, and what is kept of it is what the pattern may keep. -/
def Goes (p : Pattern) (b r : List Char) (gs : List Capture) (k : Cursor → List Capture → Option β)
    (y : β) : Prop :=
  ∃ t u hs, r = t ++ u ∧ p.Reads b t ∧ k (between (b ++ t) u) hs = some y ∧
    ∀ g ∈ hs, g ∈ gs ∨ p.Holds g.group g.text

theorem goes_here (hp : p.Reads b []) (h : k (between b r) gs = some y) : p.Goes b r gs k y :=
  ⟨[], r, gs, rfl, hp, by rwa [append_nil], fun _ => .inl⟩

theorem goes_of_rounds
    {step : Cursor → List Capture → (Cursor → List Capture → Option β) → Option β}
    (hstep : ∀ {b r gs k}, step (between b r) gs k = some y → p.Goes b r gs k y)
    (room : List Char) (h : rounds step k room (between b r) gs = some y) :
    (many p).Goes b r gs k y := by
  induction room generalizing b r gs with
  | nil => exact goes_here .done h
  | cons _ room ih =>
    rw [rounds] at h
    split at h
    · rename_i r' hr
      obtain ⟨t, u, hs, rfl, ht, hnext, hhs⟩ := hstep (hr.trans h)
      dsimp only at hnext
      split at hnext
      next hlt =>
        obtain ⟨t', u', is, rfl, ht', hk, his⟩ := ih hnext
        have hne : t ≠ [] := by
          rintro rfl
          simp [between] at hlt
        exact ⟨t ++ t', u', is, by simp, .round hne ht ht', by rwa [← append_assoc],
          fun g hg => (his g hg).elim (hhs g) .inr⟩
      next => cases hnext
    · exact goes_here .done h

theorem goes_of_run (h : p.run (between b r) gs k = some y) : p.Goes b r gs k y := by
  induction p generalizing b r gs k with
  | empty => exact goes_here .empty h
  | one accepts =>
    rw [run] at h
    split at h
    next x xs hrest =>
      obtain rfl : r = x :: xs := hrest
      split at h
      next hx => exact ⟨[x], xs, gs, rfl, .one hx, by simpa [between] using h, fun _ => .inl⟩
      next => cases h
    next => cases h
  | chars accepts least greedy =>
    obtain ⟨d, hd, hk⟩ := exists_of_findSome?_eq_some h
    obtain ⟨t, u, rfl, ht, hlong, rfl⟩ := mem_stops_between.1 hd
    exact ⟨t, u, gs, rfl, .chars ht hlong, hk, fun _ => .inl⟩
  | seq p q hp hq =>
    obtain ⟨t, u, hs, rfl, ht, hnext, hhs⟩ := hp h
    obtain ⟨t', u', is, rfl, ht', hk, his⟩ := hq hnext
    exact ⟨t ++ t', u', is, by simp, .seq ht ht', by rwa [← append_assoc], fun g hg =>
      (his g hg).elim (fun hg => (hhs g hg).imp_right (·.mono (subset_append_left ..)))
        fun hg => .inr (hg.mono (subset_append_right ..))⟩
  | alt p q hp hq =>
    rw [run] at h
    split at h
    next r' hr =>
      obtain ⟨t, u, hs, hr, ht, hk, hhs⟩ := hp (hr.trans h)
      exact ⟨t, u, hs, hr, .altLeft ht, hk,
        fun g hg => (hhs g hg).imp_right (·.mono (subset_append_left ..))⟩
    next =>
      obtain ⟨t, u, hs, hr, ht, hk, hhs⟩ := hq h
      exact ⟨t, u, hs, hr, .altRight ht, hk,
        fun g hg => (hhs g hg).imp_right (·.mono (subset_append_right ..))⟩
  | many p hp => exact goes_of_rounds hp r h
  | group n p hp =>
    obtain ⟨t, u, hs, rfl, ht, hk, hhs⟩ := hp h
    refine ⟨t, u, _, rfl, .group ht, hk, fun g hg => ?_⟩
    rcases mem_cons.1 hg with rfl | hg
    · refine .inr ⟨p, mem_append_left _ (by simp), b, ?_⟩
      rwa [← Capture.text_held n b t u] at ht
    · exact (hhs g hg).imp_right (·.mono (subset_append_right ..))
  | lineStart =>
    rw [run] at h
    split at h
    next hb => exact goes_here (.lineStart hb) h
    next => cases h
  | textStart =>
    rw [run] at h
    split at h
    · exact goes_here .textStart h
    · cases h
  | edge accepts =>
    rw [run] at h
    split at h
    · exact goes_here .edge h
    · cases h

/-- Whatever a pattern takes, it can read, and what follows goes on behind it. -/
theorem reads_of_run (h : p.run (between b r) gs k = some y) :
    ∃ t u hs, r = t ++ u ∧ p.Reads b t ∧ k (between (b ++ t) u) hs = some y := by
  obtain ⟨t, u, hs, hr, ht, hk, -⟩ := goes_of_run h
  exact ⟨t, u, hs, hr, ht, hk⟩

/-- Whether a pattern asks for nothing but characters and starts of lines. -/
def isLocal : Pattern → Bool
  | textStart | edge _ => false
  | seq p q | alt p q => p.isLocal && q.isLocal
  | many p | group _ p => p.isLocal
  | empty | one _ | chars _ _ _ | lineStart => true

theorem isSome_rounds {step : Cursor → List Capture → (Cursor → List Capture → Option β) → Option β}
    {c : Cursor} (room : List Char) (h : (k c gs).isSome = true) :
    (rounds step k room c gs).isSome = true := by
  cases room with
  | nil => exact h
  | cons _ room =>
    rw [rounds]
    split
    · rfl
    · exact h

/-- Rounds that have room for as many characters as are left match where they can be read. -/
theorem isSome_rounds_of_reads
    {step : Cursor → List Capture → (Cursor → List Capture → Option β) → Option β}
    (hstep : ∀ {b t u gs k}, p.Reads b t → (∀ hs, (k (between (b ++ t) u) hs).isSome = true) →
      (step (between b (t ++ u)) gs k).isSome = true) (h : (many p).Reads b t)
    (hk : ∀ hs, (k (between (b ++ t) u) hs).isSome = true) (room : List Char)
    (hroom : (t ++ u).length ≤ room.length) :
    (rounds step k room (between b (t ++ u)) gs).isSome = true := by
  generalize hq : many p = q at h
  induction h generalizing room gs with
  | done => exact isSome_rounds room (by simpa using hk gs)
  | @round p' b t t' hne ht _ _ ih =>
    obtain rfl : p = p' := by injection hq
    cases room with
    | nil => exact absurd (append_eq_nil_iff.1 (append_eq_nil_iff.1
        (length_eq_zero_iff.1 (Nat.le_zero.1 hroom))).1).1 hne
    | cons x room =>
      rw [rounds]
      split
      · rfl
      next hnone =>
        have hlen : (t' ++ u).length ≤ room.length := by
          have := length_pos_iff.2 hne
          simp only [length_append, length_cons] at hroom ⊢
          omega
        have hlt : (between b (t ++ t' ++ u)).pos < (between (b ++ t) (t' ++ u)).pos := by
          simpa [between] using length_pos_iff.2 hne
        have hfirst : (step (between b (t ++ (t' ++ u))) gs fun d hs =>
            if (between b (t ++ t' ++ u)).pos < d.pos then rounds step k room d hs
            else none).isSome = true := by
          refine hstep ht fun hs => ?_
          rw [if_pos hlt]
          exact ih (by simpa using hk) room hlen rfl
        rw [← append_assoc, hnone] at hfirst
        cases hfirst
  | _ => cases hq

/-- Where a pattern can read a text behind which what follows agrees, it matches. -/
theorem isSome_run (hlocal : p.isLocal = true) (h : p.Reads b t)
    (hk : ∀ hs, (k (between (b ++ t) u) hs).isSome = true) :
    (p.run (between b (t ++ u)) gs k).isSome = true := by
  induction p generalizing b t u gs k with
  | empty =>
    cases h
    simpa [run] using hk gs
  | one accepts =>
    cases h
    next c hc => simpa [run, between, hc] using hk gs
  | chars accepts least greedy =>
    cases h
    next ht hlong =>
      rw [run, findSome?_isSome_iff]
      exact ⟨_, mem_stops_between.2 ⟨t, u, rfl, ht, hlong, rfl⟩, hk gs⟩
  | seq p q hp hq =>
    simp only [isLocal, Bool.and_eq_true] at hlocal
    cases h
    next t₁ t₂ h₁ h₂ =>
      rw [append_assoc]
      refine hp hlocal.1 h₁ fun hs => hq hlocal.2 h₂ fun is => ?_
      rw [append_assoc]
      exact hk is
  | alt p q hp hq =>
    simp only [isLocal, Bool.and_eq_true] at hlocal
    rw [run]
    split
    · rfl
    next hnone =>
      cases h
      next h =>
        have hsome : (p.run (between b (t ++ u)) gs k).isSome = true := hp hlocal.1 h hk
        rw [hnone] at hsome
        cases hsome
      next h => exact hq hlocal.2 h hk
  | many p hp =>
    exact isSome_rounds_of_reads (hp hlocal · ·) h hk _ (Nat.le_refl _)
  | group n p hp =>
    cases h
    next h => exact hp hlocal h fun hs => hk _
  | lineStart =>
    cases h
    next hb =>
      have hhere : (between b ([] ++ u)).before.all (· == '\n') = true := hb
      rw [run, if_pos hhere]
      simpa using hk gs
  | textStart | edge => cases hlocal

end Run

theorem reads_of_matchAt (h : p.matchAt (between b r) = some m) :
    ∃ t u, r = t ++ u ∧ p.Reads b t ∧ m.start = between b r ∧ m.stop = between (b ++ t) u := by
  obtain ⟨t, u, hs, hr, ht, hm⟩ := reads_of_run h
  obtain rfl := Option.some.inj hm
  exact ⟨t, u, hr, ht, rfl, rfl⟩

/-! ## Searching for all matches -/

theorem exists_between_of_mem_scan (h : m ∈ p.scan n b.getLast? b.length r) :
    ∃ b' r', r = b' ++ r' ∧ p.matchAt (between (b ++ b') r') = some m := by
  obtain ⟨b', r', rfl, hm⟩ := exists_of_mem_scan h
  refine ⟨b', r', rfl, ?_⟩
  rwa [between, getLast?_append, length_append]

theorem holds_of_mem_findAll {cs : List Char} (h : m ∈ p.findAll cs) (n : Nat) :
    m.group n = [] ∨ p.Holds n (m.group n) := by
  obtain ⟨b, r, -, hm⟩ := exists_between_of_mem_scan (b := []) h
  obtain ⟨t, u, hs, -, -, hm, hhs⟩ := goes_of_run hm
  obtain rfl := Option.some.inj hm
  rw [Match.group, Match.group?]
  cases hfind : hs.find? fun g => g.group == n with
  | none => exact .inl rfl
  | some g =>
    obtain rfl : g.group = n := by simpa using find?_some hfind
    exact .inr ((hhs g (mem_of_find?_eq_some hfind)).resolve_left nofun)

theorem reads_of_mem_findAll {cs : List Char} (h : m ∈ p.findAll cs) :
    ∃ b t u, cs = b ++ (t ++ u) ∧ p.Reads b t ∧ m.start = between b (t ++ u) ∧
      m.stop = between (b ++ t) u := by
  obtain ⟨b, r, hcs, hm⟩ := exists_between_of_mem_scan (b := []) h
  obtain ⟨t, u, rfl, ht, hstart, hstop⟩ := reads_of_matchAt hm
  exact ⟨b, t, u, hcs, ht, hstart, hstop⟩

theorem exists_mem_scan {a : List Char} (h : (p.matchAt (between (a ++ b) r)).isSome = true)
    (hn : n ≤ (a ++ b).length) :
    ∃ m ∈ p.scan n a.getLast? a.length (b ++ r), m.start.pos ≤ (a ++ b).length ∧
      (m.start.pos = (a ++ b).length ∨ (a ++ b).length < m.stop.pos) := by
  induction b generalizing n a with
  | nil =>
    rw [append_nil] at h hn ⊢
    obtain ⟨m, hm⟩ := Option.isSome_iff_exists.1 h
    have hat : p.matchAt ⟨a.getLast?, r, a.length⟩ = some m := hm
    have hpos : m.start.pos = a.length := by rw [start_of_matchAt hm]; rfl
    refine ⟨m, ?_, Nat.le_of_eq hpos, .inl hpos⟩
    cases r with
    | nil => simp [scan, Nat.not_lt.2 hn, hat]
    | cons c r => simp [scan, Nat.not_lt.2 hn, hat]
  | cons c b ih =>
    rw [append_cons] at h hn ⊢
    have hlater {n : Nat} (hn : n ≤ (a ++ [c] ++ b).length) := ih (n := n) (a := a ++ [c]) h hn
    simp only [getLast?_append, getLast?_singleton, Option.some_or,
      length_append, length_singleton] at hlater hn ⊢
    rw [cons_append, scan]
    split
    · exact hlater hn
    · split
      next m hm =>
        -- Either the match found here covers the place, or the search goes on before it.
        by_cases hstop : m.stop.pos ≤ a.length + 1 + b.length
        · obtain ⟨m', hm', hcovers⟩ := hlater (Nat.max_le.2 ⟨hstop, Nat.le_add_right _ _⟩)
          exact ⟨m', mem_cons_of_mem _ hm', hcovers⟩
        · have hpos : m.start.pos = a.length := by rw [start_of_matchAt hm]
          exact ⟨m, mem_cons_self, by omega, .inr (by omega)⟩
      next => exact hlater hn

/-- Where a pattern can read a text, a match that is found starts, or one goes over the place. -/
theorem exists_mem_findAll (hlocal : p.isLocal = true) (h : p.Reads b t) (u : List Char) :
    ∃ m ∈ p.findAll (b ++ (t ++ u)), m.start.pos ≤ b.length ∧
      (m.start.pos = b.length ∨ b.length < m.stop.pos) :=
  exists_mem_scan (a := []) (isSome_run hlocal h fun _ => rfl) (Nat.zero_le _)

/-! ## What is read first -/

def blankChars : List Char :=
  ([9, 10, 11, 12, 13, 28, 29, 30, 31, 32, 0x85, 0xA0, 0x1680, 0x2000, 0x2001, 0x2002, 0x2003,
    0x2004, 0x2005, 0x2006, 0x2007, 0x2008, 0x2009, 0x200A, 0x2028, 0x2029, 0x202F, 0x205F,
    0x3000] : List Nat).map Char.ofNat

theorem mem_blankChars (h : isBlank c = true) : c ∈ blankChars := by
  refine mem_map.2 ⟨c.toNat, ?_, Char.ofNat_toNat c⟩
  simp only [isBlank, Bool.or_eq_true, Bool.and_eq_true, decide_eq_true_eq, beq_iff_eq] at h
  simp only [mem_cons, not_mem_nil, or_false]
  omega

/-- Whether a pattern may read blanks alone, or nothing. -/
def takesBlank : Pattern → Bool
  | one accepts => blankChars.any accepts
  | chars accepts least _ => least == 0 || blankChars.any accepts
  | seq p q => p.takesBlank && q.takesBlank
  | alt p q => p.takesBlank || q.takesBlank
  | group _ p => p.takesBlank
  | empty | many _ | lineStart | textStart | edge _ => true

/-- Whether a pattern may read one of `xs` before any other character that is no blank. -/
def opensWith (xs : List Char) : Pattern → Bool
  | one accepts | chars accepts _ _ => xs.any accepts
  | seq p q => p.opensWith xs || p.takesBlank && q.opensWith xs
  | alt p q => p.opensWith xs || q.opensWith xs
  | many p | group _ p => p.opensWith xs
  | empty | lineStart | textStart | edge _ => false

theorem not_isBlank_of_any {accepts : Char → Bool} (h : blankChars.any accepts = false)
    (hc : accepts c = true) : isBlank c = false := by
  cases hblank : isBlank c with
  | false => rfl
  | true => exact absurd hc (any_eq_false.1 h c (mem_blankChars hblank))

theorem Reads.exists_not_isBlank (h : p.Reads b t) (hp : p.takesBlank = false) :
    ∃ c ∈ t, isBlank c = false := by
  induction h with
  | one hc => exact ⟨_, mem_singleton_self _, not_isBlank_of_any hp hc⟩
  | @chars accepts least _ b t ht hlong =>
    simp only [takesBlank, Bool.or_eq_false_iff, beq_eq_false_iff_ne] at hp
    obtain ⟨c, hc⟩ := exists_mem_of_length_pos (Nat.lt_of_lt_of_le (by omega) hlong)
    exact ⟨c, hc, not_isBlank_of_any hp.2 (all_eq_true.1 ht c hc)⟩
  | @seq p q b t u _ _ ihp ihq =>
    rw [takesBlank, Bool.and_eq_false_iff] at hp
    rcases hp with hp | hq
    · obtain ⟨c, hc, hblank⟩ := ihp hp
      exact ⟨c, mem_append_left _ hc, hblank⟩
    · obtain ⟨c, hc, hblank⟩ := ihq hq
      exact ⟨c, mem_append_right _ hc, hblank⟩
  | altLeft _ ih => exact ih (Bool.or_eq_false_iff.1 hp).1
  | altRight _ ih => exact ih (Bool.or_eq_false_iff.1 hp).2
  | group _ ih => exact ih hp
  | _ => cases hp

theorem takeWhile_append_of_exists (h : ∃ c ∈ t, isBlank c = false) :
    (t ++ u).takeWhile isBlank = t.takeWhile isBlank := by
  obtain ⟨c, hc, hblank⟩ := h
  rw [takeWhile_append, if_neg]
  intro hlen
  have hall := (List.takeWhile_prefix isBlank).eq_of_length hlen
  have := all_eq_true.1 (all_takeWhile (p := isBlank) (l := t)) c (hall.symm ▸ hc)
  exact Bool.false_ne_true (hblank.symm.trans this)

/-- The blanks that a text starts with and the character behind them. -/
def opening (t : List Char) : List Char :=
  t.takeWhile isBlank ++ (t.dropWhile isBlank).take 1

theorem opening_subset (t : List Char) : opening t ⊆ t := by
  have hsub := append_subset.2 ⟨subset_append_left (t.takeWhile isBlank) _,
    List.Subset.trans (take_subset 1 (t.dropWhile isBlank))
      (subset_append_right _ _)⟩
  rwa [takeWhile_append_dropWhile] at hsub

theorem opening_append_of_all (h : t.all isBlank = true) :
    opening (t ++ u) = t ++ opening u := by
  rw [opening, opening, takeWhile_append_of_pos (all_eq_true.1 h),
    dropWhile_append_of_pos (all_eq_true.1 h), append_assoc]

theorem opening_append_of_exists (h : ∃ c ∈ t, isBlank c = false) :
    opening (t ++ u) = opening t := by
  obtain ⟨c, cs, hdrop⟩ : ∃ c cs, t.dropWhile isBlank = c :: cs := by
    refine exists_cons_of_ne_nil fun hnil => ?_
    obtain ⟨c, hc, hblank⟩ := h
    have hall := all_eq_true.1 (dropWhile_eq_nil.1 hnil) c hc
    exact Bool.false_ne_true (hblank.symm.trans hall)
  rw [opening, opening, takeWhile_append_of_exists h, dropWhile_append, hdrop]
  rfl

theorem mem_opening (h : t.all isBlank = true) : c ∈ opening (t ++ c :: u) := by
  rw [opening_append_of_all h, opening]
  by_cases hc : isBlank c = true <;> simp [hc]

theorem opening_append_subset : opening (t ++ u) ⊆ opening t ++ opening u := by
  by_cases h : t.all isBlank = true
  · have ht : opening t = t := by simpa [opening] using opening_append_of_all (u := []) h
    rw [opening_append_of_all h, ht]
    exact List.Subset.refl _
  · rw [opening_append_of_exists (by simpa using h)]
    exact subset_append_left _ _

theorem Reads.not_mem_opening {xs : List Char} {x : Char} (h : p.Reads b t)
    (hp : p.opensWith xs = false) (hx : x ∈ xs) : x ∉ opening t := by
  have hset {accepts : Char → Bool} {t : List Char} (hxs : xs.any accepts = false)
      (ht : t.all accepts = true) : x ∉ opening t :=
    fun hmem => any_eq_false.1 hxs x hx (all_eq_true.1 ht x (opening_subset t hmem))
  have happend {t u : List Char} (ht : x ∉ opening t) (hu : x ∉ opening u) :
      x ∉ opening (t ++ u) :=
    fun hmem => (mem_append.1 (opening_append_subset hmem)).elim ht hu
  induction h with
  | one hc => exact hset hp (by simpa using hc)
  | chars ht _ => exact hset hp ht
  | @seq p q b t u ht _ ihp ihq =>
    simp only [opensWith, Bool.or_eq_false_iff, Bool.and_eq_false_iff] at hp
    rcases hp.2 with hsolid | hq
    · rw [opening_append_of_exists (ht.exists_not_isBlank hsolid)]
      exact ihp hp.1
    · exact happend (ihp hp.1) (ihq hq)
  | altLeft _ ih => exact ih (Bool.or_eq_false_iff.1 hp).1
  | altRight _ ih => exact ih (Bool.or_eq_false_iff.1 hp).2
  | round _ _ _ ihp ih => exact happend (ihp hp) (ih hp)
  | group _ ih => exact ih hp
  | _ => exact not_mem_nil

/-- What is read starts with a character that is no blank, if no blank may be read first. -/
theorem Reads.exists_cons {xs : List Char} (h : p.Reads b t) (hsolid : p.takesBlank = false)
    (hopens : p.opensWith xs = false) (hblanks : blankChars ⊆ xs) :
    ∃ c u, t = c :: u ∧ isBlank c = false := by
  obtain ⟨c, hc, -⟩ := h.exists_not_isBlank hsolid
  cases t with
  | nil => cases hc
  | cons c u =>
    refine ⟨c, u, rfl, Bool.eq_false_iff.2 fun hblank => ?_⟩
    exact h.not_mem_opening hopens (hblanks (mem_blankChars hblank)) (mem_opening (t := []) rfl)

/-- Whether a pattern matches at the start of a line only. -/
def startsLine : Pattern → Bool
  | lineStart => true
  | seq p _ | group _ p => p.startsLine
  | _ => false

theorem Reads.startsLine (h : p.Reads b t) (hp : p.startsLine = true) :
    b.getLast?.all (· == '\n') = true := by
  induction h with
  | lineStart hb => exact hb
  | seq _ _ ih _ => exact ih hp
  | group _ ih => exact ih hp
  | _ => cases hp

end Docsmith.Pattern
