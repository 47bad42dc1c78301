/-
How patterns go through a text. A place in a text is given by what stands before it and behind it
(`Cursor.between`). At a place a pattern may take a text first, if what follows agrees (`Takes`),
take it and nothing else (`Only`), or match in no way (`Rejects`); the pieces of a pattern give this
for the whole. A pattern that matches at the start of a line only is searched for line by line.
-/
import Docsmith.Comment
import Docsmith.Proofs.Text

namespace Docsmith

open List

/-- The place in a text between `before` and `rest`. -/
def Cursor.between (before rest : List Char) : Cursor := ⟨before.getLast?, rest, before.length⟩

/-- The group `n`, when it holds `t` between `before` and `rest`. -/
def Capture.held (n : Nat) (before t rest : List Char) : Capture :=
  ⟨n, .between before (t ++ rest), (before ++ t).length⟩

@[simp] theorem Capture.text_held (n : Nat) (before t rest : List Char) :
    (Capture.held n before t rest).text = t := by
  simp [Capture.held, Capture.text, Cursor.between]

@[simp] theorem Capture.group_held (n : Nat) (before t rest : List Char) :
    (Capture.held n before t rest).group = n := rfl

namespace Pattern

open Cursor (between)

/-! ## What a pattern takes -/

/-- Between `b` and `t ++ r`, `p` takes `t` first, if what follows agrees; the captures `gs`
are then `hs`. -/
def Takes (p : Pattern) (b t r : List Char) (gs hs : List Capture) : Prop :=
  ∀ (β : Type) (k : Cursor → List Capture → Option β),
    (k (between (b ++ t) r) hs).isSome →
      p.run (between b (t ++ r)) gs k = k (between (b ++ t) r) hs

/-- Between `b` and `t ++ r`, `p` takes `t` and nothing else. -/
def Only (p : Pattern) (b t r : List Char) (gs hs : List Capture) : Prop :=
  ∀ (β : Type) (k : Cursor → List Capture → Option β),
    p.run (between b (t ++ r)) gs k = k (between (b ++ t) r) hs

/-- Between `b` and `r`, `p` does not match. -/
def Rejects (p : Pattern) (b r : List Char) : Prop :=
  ∀ (β : Type) (gs : List Capture) (k : Cursor → List Capture → Option β),
    p.run (between b r) gs k = none

variable {p q : Pattern} {b t u r : List Char} {gs hs is : List Capture}

theorem Only.takes (h : p.Only b t r gs hs) : p.Takes b t r gs hs :=
  fun β k _ => h β k

theorem Takes.seq (hp : p.Takes b t (u ++ r) gs hs)
    (hq : q.Takes (b ++ t) u r hs is) : (p ++ q).Takes b (t ++ u) r gs is := by
  intro β k hk
  rw [← append_assoc] at hk ⊢
  have hnext := hq β k hk
  rw [append_assoc, ← hnext]
  exact hp β _ (by rw [hnext]; exact hk)

theorem Takes.assoc {s : Pattern} (h : (p ++ (q ++ s)).Takes b t r gs hs) :
    (p ++ q ++ s).Takes b t r gs hs := h

theorem Takes.seq_nil (hp : p.Takes b t r gs hs) (hq : q.Takes (b ++ t) [] r hs is) :
    (p ++ q).Takes b t r gs is := by
  have h := hp.seq (u := []) hq
  rwa [append_nil] at h

theorem Only.seq (hp : p.Only b t (u ++ r) gs hs)
    (hq : q.Only (b ++ t) u r hs is) : (p ++ q).Only b (t ++ u) r gs is := by
  intro β k
  rw [← append_assoc b, ← hq β k, append_assoc]
  exact hp β _

theorem Only.takes_seq (hp : p.Only b [] (t ++ r) gs gs) (hq : q.Takes b t r gs hs) :
    (p ++ q).Takes b t r gs hs := by
  intro β k hk
  have hstart := hp β fun d hs => q.run d hs k
  rw [append_nil] at hstart
  exact hstart.trans (hq β k hk)

theorem Only.only_seq (hp : p.Only b [] (t ++ r) gs gs) (hq : q.Only b t r gs hs) :
    (p ++ q).Only b t r gs hs := by
  intro β k
  have hstart := hp β fun d hs => q.run d hs k
  rw [append_nil] at hstart
  exact hstart.trans (hq β k)

theorem Rejects.seq (h : p.Rejects b r) : (p ++ q).Rejects b r :=
  fun β gs _ => h β gs _

theorem Only.rejects (hp : ∀ gs, p.Only b t r gs gs) (hq : q.Rejects (b ++ t) r) :
    (p ++ q).Rejects b (t ++ r) := by
  intro β gs k
  exact (hp gs β _).trans (hq β gs k)

theorem Takes.group (n : Nat) (h : p.Takes b t r gs hs) :
    (group n p).Takes b t r gs (.held n b t r :: hs) := by
  intro β k hk
  exact h β (fun d hs => k d (⟨n, between b (t ++ r), d.pos⟩ :: hs)) hk

theorem Rejects.group (n : Nat) (h : p.Rejects b r) : (group n p).Rejects b r :=
  fun β gs _ => h β gs _

variable {β : Type} {k : Cursor → List Capture → Option β} {m : Match}

theorem run_seq {c : Cursor} : (p ++ q).run c gs k = p.run c gs fun d hs => q.run d hs k := rfl

theorem run_group {n : Nat} {c : Cursor} :
    (Pattern.group n p).run c gs k = p.run c gs fun d hs => k d (⟨n, c, d.pos⟩ :: hs) := rfl

theorem Takes.alt (h : p.Takes b t r gs hs) : (Pattern.alt p q).Takes b t r gs hs := by
  intro β k hk
  obtain ⟨x, hx⟩ := Option.isSome_iff_exists.1 hk
  rw [run, h β k hk, hx]

/-! A choice is made together with what follows it, here `s`. -/

variable {s : Pattern}

theorem Takes.alt_seq (h : (p ++ s).Takes b t r gs hs) :
    (Pattern.alt p q ++ s).Takes b t r gs hs := by
  intro β k hk
  have hrun := h β k hk
  rw [run_seq] at hrun ⊢
  obtain ⟨x, hx⟩ := Option.isSome_iff_exists.1 hk
  rw [run, hrun, hx]

theorem Takes.alt_seq_right (hp : (p ++ s).Rejects b (t ++ r)) (hq : (q ++ s).Takes b t r gs hs) :
    (Pattern.alt p q ++ s).Takes b t r gs hs := by
  intro β k hk
  have hnone := hp β gs k
  rw [run_seq] at hnone ⊢
  rw [run, hnone]
  exact hq β k hk

theorem Rejects.alt_seq (hp : (p ++ s).Rejects b r) (hq : (q ++ s).Rejects b r) :
    (Pattern.alt p q ++ s).Rejects b r := by
  intro β gs k
  have hnone := hp β gs k
  rw [run_seq] at hnone ⊢
  rw [run, hnone]
  exact hq β gs k

/-! ## Single characters and texts -/

theorem only_lineStart (h : b.getLast?.all (· == '\n') = true) :
    lineStart.Only b [] r gs gs := by
  intro β k
  simp only [run, between, h, if_true, append_nil, nil_append]

theorem only_one {accepts : Char → Bool} {c : Char} (h : accepts c = true) :
    (one accepts).Only b [c] r gs gs := by
  intro β k
  simp [run, between, h]

theorem rejects_one {accepts : Char → Bool} (h : r.head?.any accepts = false) :
    (one accepts).Rejects b r := by
  intro β gs k
  cases r with
  | nil => rfl
  | cons c cs =>
    have hc : accepts c = false := h
    simp [run, between, hc]

theorem only_lit (s : String) : (lit s).Only b s.toList r gs gs := by
  rw [lit]
  generalize s.toList = t
  induction t generalizing b with
  | nil =>
    intro β k
    rw [foldr_nil, run_empty, append_nil, nil_append]
  | cons c t ih => exact (only_one (beq_self_eq_true c)).seq ih

theorem rejects_lit {s : String} (h : ¬ s.toList <+: r) : (lit s).Rejects b r := by
  rw [lit]
  generalize s.toList = t at h
  induction t generalizing b r with
  | nil => exact absurd List.nil_prefix h
  | cons c t ih =>
    cases r with
    | nil => exact (rejects_one rfl).seq
    | cons x r =>
      by_cases hx : x = c
      · subst hx
        have hr : ¬ t <+: r := fun hp => h (cons_prefix_cons.2 ⟨rfl, hp⟩)
        exact Only.rejects (fun _ => only_one (beq_self_eq_true x)) (ih hr)
      · refine Rejects.seq (rejects_one ?_)
        simpa using hx

/-! ## Runs of characters -/

/-- The places along `t`, from its start to its end. -/
def along (b : List Char) : (t r : List Char) → List Cursor
  | [], r => [between b r]
  | c :: t, r => between b (c :: t ++ r) :: along (b ++ [c]) t r

theorem mem_along {d : Cursor} : d ∈ along b t r ↔
    ∃ t₁ t₂, t = t₁ ++ t₂ ∧ d = between (b ++ t₁) (t₂ ++ r) := by
  induction t generalizing b with
  | nil => simp [along, and_assoc]
  | cons c t ih =>
    simp only [along, mem_cons, ih]
    constructor
    · rintro (rfl | ⟨t₁, t₂, rfl, rfl⟩)
      · exact ⟨[], c :: t, rfl, by simp⟩
      · exact ⟨c :: t₁, t₂, rfl, by simp⟩
    · rintro ⟨t₁, t₂, ht, rfl⟩
      cases t₁ with
      | nil => exact .inl (by simp [ht])
      | cons x t₁ =>
        obtain ⟨rfl, rfl⟩ := cons.inj ht
        exact .inr ⟨t₁, t₂, rfl, by simp⟩

theorem getLast?_along : (along b t r).getLast? = some (between (b ++ t) r) := by
  induction t generalizing b with
  | nil => simp [along]
  | cons c t ih => rw [along, getLast?_cons, ih]; simp

variable {accepts : Char → Bool} {least : Nat} {greedy : Bool}

section Run

variable (ht : t.all accepts = true) (hr : r.head?.any accepts = false)

include ht hr

theorem ahead_eq (nearer : List Cursor) :
    Cursor.ahead accepts b.getLast? b.length (t ++ r) nearer =
      (along b t r).reverse ++ nearer := by
  induction t generalizing b nearer with
  | nil =>
    cases r with
    | nil => rfl
    | cons c r =>
      have hc : accepts c = false := hr
      simp [Cursor.ahead, hc, along, between]
  | cons c t ih =>
    simp only [all_cons, Bool.and_eq_true] at ht
    have := ih (b := b ++ [c]) ht.2 (between b (c :: t ++ r) :: nearer)
    simp only [getLast?_append, getLast?_singleton, Option.some_or, length_append,
      length_singleton] at this
    rw [cons_append, Cursor.ahead, if_pos ht.1]
    simpa [along, between] using this

/-- A run stops at the places along the text that it may take. -/
theorem mem_stops {d : Cursor} : d ∈ (between b (t ++ r)).stops accepts least greedy ↔
      ∃ t₁ t₂, t = t₁ ++ t₂ ∧ least ≤ t₁.length ∧ d = between (b ++ t₁) (t₂ ++ r) := by
  have hmem : d ∈ (between b (t ++ r)).stops accepts least greedy ↔
      d ∈ along b t r ∧ b.length + least ≤ d.pos := by
    have hahead := ahead_eq (b := b) ht hr []
    rw [append_nil] at hahead
    have hfar : d ∈ ((along b t r).reverse.filter fun d => b.length + least ≤ d.pos) ↔
        d ∈ along b t r ∧ b.length + least ≤ d.pos := by
      rw [mem_filter, mem_reverse, decide_eq_true_iff]
    rw [← hfar, ← hahead]
    cases greedy with
    | false => exact mem_reverse
    | true => exact Iff.rfl
  rw [hmem, mem_along]
  constructor
  · rintro ⟨⟨t₁, t₂, rfl, rfl⟩, hpos⟩
    exact ⟨t₁, t₂, rfl, by simpa [between] using hpos, rfl⟩
  · rintro ⟨t₁, t₂, rfl, hlong, rfl⟩
    exact ⟨⟨t₁, t₂, rfl, rfl⟩, by simpa [between] using hlong⟩

theorem takes_chars (hlong : least ≤ t.length) :
    (chars accepts least true).Takes b t r gs gs := by
  intro β k hk
  have hhead : ((between b (t ++ r)).stops accepts least true).head? =
      some (between (b ++ t) r) := by
    simp only [Cursor.stops, between, if_true, ahead_eq ht hr, append_nil]
    have hlast := getLast?_along (b := b) (t := t) (r := r)
    rw [← head?_reverse] at hlast
    obtain ⟨ds, hds⟩ := head?_eq_some_iff.1 hlast
    rw [hds, filter_cons, if_pos (by simp [between, hlong])]
    rfl
  obtain ⟨ds, hds⟩ := head?_eq_some_iff.1 hhead
  obtain ⟨x, hx⟩ := Option.isSome_iff_exists.1 hk
  rw [run, hds, findSome?_cons, hx]

theorem run_chars (hlong : least ≤ t.length)
    (hless : ∀ t₁ c t₂, t = t₁ ++ c :: t₂ → least ≤ t₁.length →
      k (between (b ++ t₁) (c :: t₂ ++ r)) gs = none) :
    (chars accepts least greedy).run (between b (t ++ r)) gs k =
      k (between (b ++ t) r) gs := by
  have hstop (d : Cursor) (hd : d ∈ (between b (t ++ r)).stops accepts least greedy) :
      k d gs = none ∨ d = between (b ++ t) r := by
    obtain ⟨t₁, t₂, rfl, hl, rfl⟩ := (mem_stops ht hr).1 hd
    cases t₂ with
    | nil => exact .inr (by simp)
    | cons c t₂ => exact .inl (hless t₁ c t₂ rfl hl)
  have hmem : between (b ++ t) r ∈
      (between b (t ++ r)).stops accepts least greedy :=
    (mem_stops ht hr).2 ⟨t, [], by simp, hlong, by simp⟩
  rw [run]
  generalize (between b (t ++ r)).stops accepts least greedy = ds at hstop hmem
  induction ds with
  | nil => cases hmem
  | cons d ds ih =>
    rw [findSome?_cons]
    cases hd : k d gs with
    | some x =>
      rcases hstop d mem_cons_self with h | rfl
      · rw [h] at hd; cases hd
      · exact hd.symm
    | none =>
      by_cases hds : between (b ++ t) r ∈ ds
      · exact ih (fun d hd => hstop d (mem_cons_of_mem _ hd)) hds
      · rcases mem_cons.1 hmem with rfl | h
        · rw [hd, findSome?_eq_none_iff]
          intro e he
          rcases hstop e (mem_cons_of_mem _ he) with h | rfl
          · exact h
          · exact hd
        · exact absurd h hds

theorem only_chars :
    (chars accepts t.length greedy).Only b t r gs gs := by
  intro β k
  refine run_chars ht hr (Nat.le_refl _) fun t₁ c t₂ h hlong => ?_
  rw [h, length_append, length_cons] at hlong
  omega

theorem run_chars_none
    (h : ∀ t₁ t₂, t = t₁ ++ t₂ → least ≤ t₁.length → k (between (b ++ t₁) (t₂ ++ r)) gs = none) :
    (chars accepts least greedy).run (between b (t ++ r)) gs k = none := by
  refine findSome?_eq_none_iff.2 fun d hd => ?_
  obtain ⟨t₁, t₂, ht, hlong, rfl⟩ := (mem_stops ht hr).1 hd
  exact h t₁ t₂ ht hlong

theorem rejects_chars_seq
    (h : ∀ t₁ t₂, t = t₁ ++ t₂ → least ≤ t₁.length → q.Rejects (b ++ t₁) (t₂ ++ r)) :
    (chars accepts least greedy ++ q).Rejects b (t ++ r) := by
  intro β gs k
  rw [run_seq]
  exact run_chars_none ht hr fun t₁ t₂ ht hlong => h t₁ t₂ ht hlong β gs k

end Run

/-- The first of the places along a text that `f` accepts, if it rejects those before. -/
theorem findSome?_along {f : Cursor → Option β}
    (hless : ∀ t₁ c t₂, t = t₁ ++ c :: t₂ → f (between (b ++ t₁) (c :: t₂ ++ (u ++ r))) = none)
    (hf : (f (between (b ++ t) (u ++ r))).isSome) :
    (along b (t ++ u) r).findSome? f = f (between (b ++ t) (u ++ r)) := by
  induction t generalizing b with
  | nil =>
    obtain ⟨x, hx⟩ := Option.isSome_iff_exists.1 hf
    rw [append_nil] at hx ⊢
    cases u with
    | nil => simp only [nil_append] at hx ⊢; rw [along, findSome?_cons, hx]
    | cons c u => rw [nil_append, along, findSome?_cons, hx]
  | cons c t ih =>
    have hhere := hless [] c t rfl
    rw [append_nil, ← append_assoc] at hhere
    rw [append_cons] at hf ⊢
    rw [cons_append, along, findSome?_cons, ← cons_append, hhere]
    refine ih (fun t₁ x t₂ h => ?_) hf
    rw [append_assoc]
    exact hless (c :: t₁) x t₂ (by rw [h]; rfl)

theorem run_reluctant (ht : t.all accepts = true)
    (hless : ∀ t₁ c t₂, t = t₁ ++ c :: t₂ → k (between (b ++ t₁) (c :: t₂ ++ r)) gs = none)
    (hk : (k (between (b ++ t) r) gs).isSome) :
    (chars accepts 0 false).run (between b (t ++ r)) gs k = k (between (b ++ t) r) gs := by
  -- the run may go on into what follows `t`
  obtain ⟨u, r', rfl, hu, hr⟩ := Text.exists_run accepts r
  have htu : (t ++ u).all accepts = true := by rw [all_append, ht, hu]; rfl
  have hstops : (between b (t ++ (u ++ r'))).stops accepts 0 false = along b (t ++ u) r' := by
    have hahead := ahead_eq (b := b) htu hr []
    rw [append_assoc, append_nil] at hahead
    have hall : ∀ d ∈ (along b (t ++ u) r').reverse, decide (b.length + 0 ≤ d.pos) = true := by
      intro d hd
      obtain ⟨t₁, t₂, -, rfl⟩ := mem_along.1 (mem_reverse.1 hd)
      simp [between]
    have hfar : ((along b (t ++ u) r').reverse.filter fun d => b.length + 0 ≤ d.pos).reverse =
        along b (t ++ u) r' := by
      rw [filter_eq_self.2 hall, reverse_reverse]
    rw [← hahead] at hfar
    exact hfar
  rw [run, hstops]
  exact findSome?_along hless hk

theorem rejects_chars (h : r.head?.any accepts = false) :
    (chars accepts (least + 1) greedy).Rejects b r := by
  intro β gs k
  rw [run, findSome?_eq_none_iff]
  intro d hd
  obtain ⟨t₁, t₂, ht, hl, -⟩ := (mem_stops (t := []) (b := b) rfl h).1 hd
  rw [nil_eq_append_iff] at ht
  rw [ht.1] at hl
  cases hl

theorem takes_parens (n : Nat) (ht : ')' ∉ t) :
    (parens n).Takes b ('(' :: t ++ [')']) r gs (.held n (b ++ ['(']) t (')' :: r) :: gs) := by
  have hinside : (run0 (except ")")).Takes (b ++ ['(']) t (')' :: r) gs gs := by
    refine takes_chars ?_ rfl (Nat.zero_le _)
    rw [all_eq_true]
    intro c hc
    have hne : c ≠ ')' := fun h => ht (h ▸ hc)
    simpa [except] using hne
  exact ((only_lit "(").takes.seq (hinside.group n)).seq (only_lit ")").takes

theorem takes_restOfLine (ht : '\n' ∉ t) : restOfLine.Takes b (t ++ ['\n']) r gs gs := by
  have hline : (run0 (except "\n")).Takes b t ('\n' :: r) gs gs := by
    refine takes_chars ?_ rfl (Nat.zero_le _)
    rw [all_eq_true]
    intro c hc
    have hne : c ≠ '\n' := fun h => ht (h ▸ hc)
    simpa [except] using hne
  exact hline.seq (only_lit "\n").takes

/-! ## Searching a text -/

/-- The matches of `p` in `r`, a text that stands behind `b`. -/
def matchesFrom (p : Pattern) (b r : List Char) : List Match := p.scan 0 b.getLast? b.length r

theorem findAll_eq (cs : List Char) : p.findAll cs = p.matchesFrom [] cs := rfl

theorem Takes.matchAt (h : p.Takes b t r [] hs) :
    p.matchAt (between b (t ++ r)) = some ⟨between b (t ++ r), between (b ++ t) r, hs⟩ :=
  h _ _ rfl

theorem Rejects.matchAt (h : p.Rejects b r) : p.matchAt (between b r) = none := h _ _ _

theorem find?_of_matchAt {cs : List Char} (h : p.matchAt (between [] cs) = some m) :
    p.find? cs = some m := by
  have hstart : p.matchAt ⟨none, cs, 0⟩ = some m := h
  cases cs with
  | nil => exact hstart
  | cons c cs => rw [find?, seek, hstart]

/-- A pattern that matches at the start of a line only. -/
def Anchored (p : Pattern) : Prop :=
  ∀ b r, b.getLast?.all (· == '\n') = false → p.Rejects b r

theorem anchored_lineStart : lineStart.Anchored := by
  intro b r hb β gs k
  rw [run, if_neg]
  simpa [between] using hb

theorem Anchored.seq (h : p.Anchored) : (p ++ q).Anchored := fun b r hb => (h b r hb).seq

theorem Anchored.group (n : Nat) (h : p.Anchored) : (Pattern.group n p).Anchored :=
  fun b r hb => (h b r hb).group n

variable {n i : Nat} {prev : Option Char} {cs : List Char}

/-- A bound that is reached does not matter. -/
theorem scan_reached (h : n ≤ i) : p.scan n prev i cs = p.scan 0 prev i cs := by
  induction cs generalizing prev i with
  | nil => rw [scan, scan, if_neg (by omega), if_neg (by omega)]
  | cons c cs ih =>
    rw [scan, scan, if_neg (by omega), if_neg (by omega), ih (by omega)]

theorem scan_skip (h : (b ++ t).length ≤ n) :
    p.scan n b.getLast? b.length (t ++ r) = p.scan n (b ++ t).getLast? (b ++ t).length r := by
  induction t generalizing b with
  | nil => rw [append_nil, nil_append]
  | cons c t ih =>
    rw [append_cons] at h ⊢
    have hlt : b.length < n := by
      simp only [length_append, length_singleton] at h
      omega
    rw [cons_append, scan, if_pos hlt, ← ih h]
    simp

theorem Anchored.scan (hp : p.Anchored) (hb : b.getLast?.all (· == '\n') = false)
    (ht : '\n' ∉ t) : p.scan n b.getLast? b.length (t ++ '\n' :: r) =
      p.scan n (b ++ t ++ ['\n']).getLast? (b ++ t ++ ['\n']).length r := by
  have hnone (r : List Char) : p.matchAt ⟨b.getLast?, r, b.length⟩ = none := (hp b r hb).matchAt
  induction t generalizing b with
  | nil => rw [nil_append, Pattern.scan, hnone]; simp
  | cons c t ih =>
    simp only [mem_cons, not_or] at ht
    have hc : (b ++ [c]).getLast?.all (· == '\n') = false := by simpa using fun h => ht.1 h.symm
    rw [append_cons b, ← ih hc ht.2 fun r => (hp _ r hc).matchAt, cons_append,
      Pattern.scan, hnone]
    simp

theorem Anchored.matchesFrom_none (hp : p.Anchored) (ht : '\n' ∉ t)
    (h : p.matchAt (between b (t ++ '\n' :: r)) = none) :
    p.matchesFrom b (t ++ '\n' :: r) = p.matchesFrom (b ++ t ++ ['\n']) r := by
  have hstart : p.matchAt ⟨b.getLast?, t ++ '\n' :: r, b.length⟩ = none := h
  cases t with
  | nil =>
    rw [nil_append] at hstart ⊢
    rw [matchesFrom, Pattern.scan, hstart]
    simp [matchesFrom]
  | cons c t =>
    simp only [mem_cons, not_or] at ht
    have hc : (b ++ [c]).getLast?.all (· == '\n') = false := by simpa using fun h => ht.1 h.symm
    rw [append_cons b, matchesFrom, matchesFrom, ← hp.scan hc ht.2, cons_append,
      Pattern.scan, ← cons_append, hstart]
    simp

theorem Anchored.matchesFrom_some (hp : p.Anchored) (ht : '\n' ∉ t) (hne : t ≠ [])
    (h : p.matchAt (between b (t ++ '\n' :: r)) = some m) (hstop : m.stop.pos ≤ (b ++ t).length) :
    p.matchesFrom b (t ++ '\n' :: r) = m :: p.matchesFrom (b ++ t ++ ['\n']) r := by
  have hstart : p.matchAt ⟨b.getLast?, t ++ '\n' :: r, b.length⟩ = some m := h
  obtain ⟨c, t, rfl⟩ := exists_cons_of_ne_nil hne
  simp only [mem_cons, not_or] at ht
  have hc : (b ++ [c]).getLast?.all (· == '\n') = false := by simpa using fun h => ht.1 h.symm
  have hreached : max m.stop.pos (b.length + 1) ≤ (b ++ [c] ++ t ++ ['\n']).length := by
    simp only [length_append, length_cons, length_nil] at hstop ⊢
    omega
  rw [append_cons b, matchesFrom, matchesFrom, ← scan_reached hreached, ← hp.scan hc ht.2,
    cons_append, Pattern.scan, ← cons_append, hstart]
  simp

/-- A pattern that matches at the start of lines that start with `x` only. -/
structure Keyed (p : Pattern) (x : Char) : Prop where
  anchored : p.Anchored
  rejects {b r : List Char} : r.head? ≠ some x → p.Rejects b r

variable {x : Char}

theorem keyed_lit {w : String} (hw : w.toList.head? = some x) : (lineStart ++ lit w).Keyed x := by
  refine ⟨anchored_lineStart.seq, fun {b r} hr => ?_⟩
  have hlit : (lit w).Rejects (b ++ []) r := by
    refine rejects_lit fun ⟨u, hu⟩ => hr ?_
    rw [← hu, head?_append, hw]
    rfl
  by_cases hb : b.getLast?.all (· == '\n') = true
  · exact Only.rejects (t := []) (fun _ => only_lineStart hb) hlit
  · exact (anchored_lineStart b r (by simpa using hb)).seq

theorem Keyed.seq (h : p.Keyed x) : (p ++ q).Keyed x :=
  ⟨h.anchored.seq, fun hr => (h.rejects hr).seq⟩

theorem Keyed.matchesFrom_lines {ls : List (List Char)} (hp : p.Keyed x)
    (hls : ∀ l ∈ ls, '\n' ∉ l ∧ (l ++ ['\n']).head? ≠ some x) :
    p.matchesFrom b (Text.unlines ls ++ r) = p.matchesFrom (b ++ Text.unlines ls) r := by
  induction ls generalizing b with
  | nil => simp
  | cons l ls ih =>
    obtain ⟨⟨hl, hx⟩, hls⟩ := forall_mem_cons.1 hls
    have hnone : p.matchAt (between b (l ++ '\n' :: (Text.unlines ls ++ r))) = none := by
      refine (hp.rejects ?_).matchAt
      cases l with
      | nil => exact hx
      | cons c l => exact hx
    rw [Text.unlines_cons, append_assoc, cons_append,
      hp.anchored.matchesFrom_none hl hnone, ih hls]
    simp

theorem matchesFrom_whole (hne : t ≠ [])
    (h : p.matchAt (between b (t ++ r)) = some m) (hstop : m.stop.pos = (b ++ t).length) :
    p.matchesFrom b (t ++ r) = m :: p.matchesFrom (b ++ t) r := by
  have hstart : p.matchAt ⟨b.getLast?, t ++ r, b.length⟩ = some m := h
  obtain ⟨c, t, rfl⟩ := exists_cons_of_ne_nil hne
  rw [append_cons] at hstop ⊢
  have hnext : max m.stop.pos (b.length + 1) = (b ++ [c] ++ t).length := by
    simp only [length_append, length_singleton] at hstop ⊢
    omega
  have hrest := scan_skip (p := p) (r := r) (Nat.le_refl (b ++ [c] ++ t).length)
  rw [scan_reached (Nat.le_refl _)] at hrest
  rw [matchesFrom, matchesFrom, ← hrest, cons_append, scan, ← cons_append, hstart]
  simp [hnext]

end Pattern

/-! ## Characters that a pattern needs -/

namespace Cursor

theorem mem_ahead {accepts : Char → Bool} {d : Cursor} {cs : List Char} :
    ∀ {before : Option Char} {pos : Nat} {nearer : List Cursor},
      d ∈ ahead accepts before pos cs nearer → d.rest <:+ cs ∨ d ∈ nearer := by
  induction cs with
  | nil =>
    intro before pos nearer h
    rcases mem_cons.1 h with rfl | h
    · exact .inl (suffix_refl _)
    · exact .inr h
  | cons c cs ih =>
    intro before pos nearer h
    rw [ahead] at h
    split at h
    · rcases ih h with h | h
      · exact .inl (h.trans (suffix_cons c cs))
      · rcases mem_cons.1 h with rfl | h
        · exact .inl (suffix_refl _)
        · exact .inr h
    · rcases mem_cons.1 h with rfl | h
      · exact .inl (suffix_refl _)
      · exact .inr h

theorem suffix_of_mem_stops {accepts : Char → Bool} {least : Nat} {greedy : Bool} {c d : Cursor}
    (h : d ∈ c.stops accepts least greedy) : d.rest <:+ c.rest := by
  have hahead : d ∈ ahead accepts c.before c.pos c.rest [] := by
    simp only [stops] at h
    split at h
    · exact (mem_filter.1 h).1
    · exact (mem_filter.1 (mem_reverse.1 h)).1
  exact (mem_ahead hahead).resolve_right not_mem_nil

end Cursor

namespace Pattern

variable {β : Type} {y : β} {c : Cursor} {gs : List Capture} {k : Cursor → List Capture → Option β}

theorem exists_of_rounds
    {step : Cursor → List Capture → (Cursor → List Capture → Option β) → Option β}
    (hstep : ∀ {c gs k}, step c gs k = some y → ∃ d hs, d.rest <:+ c.rest ∧ k d hs = some y)
    (room : List Char) (h : rounds step k room c gs = some y) :
    ∃ d hs, d.rest <:+ c.rest ∧ k d hs = some y := by
  induction room generalizing c gs with
  | nil => exact ⟨c, gs, suffix_refl _, h⟩
  | cons _ room ih =>
    rw [rounds] at h
    split at h
    · rename_i r hr
      obtain ⟨d, hs, hd, hnext⟩ := hstep (hr.trans h)
      split at hnext
      · obtain ⟨e, is, he, hk⟩ := ih hnext
        exact ⟨e, is, he.trans hd, hk⟩
      · cases hnext
    · exact ⟨c, gs, suffix_refl _, h⟩

/-- Whatever a pattern takes, what follows goes on with the rest of the text. -/
theorem exists_of_run (p : Pattern) (h : p.run c gs k = some y) :
    ∃ d hs, d.rest <:+ c.rest ∧ k d hs = some y := by
  induction p generalizing c gs k with
  | empty => exact ⟨c, gs, suffix_refl _, h⟩
  | one accepts =>
    rw [run] at h
    split at h
    · rename_i x xs hrest
      split at h
      · exact ⟨_, gs, hrest ▸ suffix_cons x xs, h⟩
      · cases h
    · cases h
  | chars accepts least greedy =>
    obtain ⟨d, hd, hk⟩ := exists_of_findSome?_eq_some h
    exact ⟨d, gs, Cursor.suffix_of_mem_stops hd, hk⟩
  | seq p q hp hq =>
    obtain ⟨d, hs, hd, hnext⟩ := hp h
    obtain ⟨e, is, he, hk⟩ := hq hnext
    exact ⟨e, is, he.trans hd, hk⟩
  | alt p q hp hq =>
    rw [run] at h
    split at h
    · rename_i r hr
      exact hp (hr.trans h)
    · exact hq h
  | many p hp => exact exists_of_rounds hp c.rest h
  | group n p hp =>
    obtain ⟨d, hs, hd, hk⟩ := hp h
    exact ⟨d, _, hd, hk⟩
  | lineStart | textStart | edge =>
    rw [run] at h
    split at h
    · exact ⟨c, gs, suffix_refl _, h⟩
    · cases h

/-- A pattern does not match before a text without the character `x`. -/
def Needs (p : Pattern) (x : Char) : Prop :=
  ∀ (β : Type) (c : Cursor) (gs : List Capture) (k : Cursor → List Capture → Option β),
    x ∉ c.rest → p.run c gs k = none

variable {p q : Pattern} {x : Char} {b r : List Char}

theorem needs_lit {s : String} {cs : List Char} (hs : s.toList = x :: cs) : (lit s).Needs x := by
  intro β c gs k hx
  rw [lit, hs, foldr_cons, run, run]
  split
  · rename_i d ds hrest
    rw [if_neg]
    intro hd
    rw [hrest, beq_iff_eq.1 hd] at hx
    exact hx mem_cons_self
  · rfl

theorem Needs.seq_left (h : p.Needs x) : (p ++ q).Needs x := fun β c gs _ hx => h β c gs _ hx

theorem Needs.seq_right (h : q.Needs x) : (p ++ q).Needs x := by
  intro β c gs k hx
  cases hrun : (p ++ q).run c gs k with
  | none => rfl
  | some y =>
    obtain ⟨d, hs, hd, hq⟩ := exists_of_run p hrun
    rw [h β d hs k fun hmem => hx (hd.subset hmem)] at hq
    cases hq

theorem Needs.alt (hp : p.Needs x) (hq : q.Needs x) : (Pattern.alt p q).Needs x := by
  intro β c gs k hx
  rw [run, hp β c gs k hx]
  exact hq β c gs k hx

theorem Rejects.alt (hp : p.Rejects b r) (hq : q.Rejects b r) :
    (Pattern.alt p q).Rejects b r := by
  intro β gs k
  rw [run, hp β gs k]
  exact hq β gs k

theorem rejects_oneOf {ws : List String} (h : ∀ w ∈ ws, ¬ w.toList <+: r) :
    (oneOf ws).Rejects b r := by
  fun_induction oneOf ws with
  | case1 => exact rejects_one (by cases r <;> rfl)
  | case2 w => exact rejects_lit (h w mem_cons_self)
  | case3 w ws _ ih =>
    exact (rejects_lit (h w mem_cons_self)).alt
      (ih fun v hv => h v (mem_cons_of_mem _ hv))

/-! ## What is left without the matches -/

section Remains

open Cursor (between)

variable {p : Pattern} {b t r : List Char} {hs : List Capture} {x : Char} {m : Match}

variable {n i : Nat} {prev : Option Char} {cs : List Char}

theorem start_of_matchAt (h : p.matchAt c = some m) : m.start = c := by
  obtain ⟨d, gs, -, hm⟩ := exists_of_run p h
  obtain rfl := Option.some.inj hm
  rfl

/-- A match was found somewhere in the text. -/
theorem exists_of_mem_scan (h : m ∈ p.scan n prev i cs) :
    ∃ b r, cs = b ++ r ∧ p.matchAt ⟨b.getLast?.or prev, r, i + b.length⟩ = some m := by
  induction cs generalizing n i prev with
  | nil =>
    rw [scan] at h
    split at h
    · cases h
    · cases hm : p.matchAt ⟨prev, [], i⟩ with
      | none => simp [hm] at h
      | some m' =>
        obtain rfl : m = m' := by simpa [hm] using h
        exact ⟨[], [], rfl, hm⟩
  | cons c cs ih =>
    have hlater {n : Nat} (h : m ∈ p.scan n (some c) (i + 1) cs) :
        ∃ b r, c :: cs = b ++ r ∧ p.matchAt ⟨b.getLast?.or prev, r, i + b.length⟩ = some m := by
      obtain ⟨b, r, rfl, hm⟩ := ih h
      refine ⟨c :: b, r, rfl, ?_⟩
      have hbefore : (c :: b).getLast?.or prev = b.getLast?.or (some c) := by
        cases hb : b.getLast? <;> simp [getLast?_cons, hb]
      rwa [hbefore, length_cons, Nat.add_comm b.length, ← Nat.add_assoc]
    rw [scan] at h
    split at h
    · exact hlater h
    · split at h
      next m' hm =>
        rcases mem_cons.1 h with rfl | h
        · exact ⟨[], c :: cs, rfl, hm⟩
        · exact hlater h
      next => exact hlater h

theorem le_start_of_mem_scan (h : m ∈ p.scan n prev i cs) : i ≤ m.start.pos := by
  obtain ⟨b, r, -, hm⟩ := exists_of_mem_scan h
  rw [start_of_matchAt hm]
  exact Nat.le_add_right _ _

theorem next_le_of_mem_scan (h : m ∈ p.scan n prev i cs) : n ≤ m.start.pos := by
  induction cs generalizing i prev with
  | nil =>
    by_cases hn : i < n
    · simp [scan, hn] at h
    · exact Nat.le_trans (Nat.not_lt.1 hn) (le_start_of_mem_scan h)
  | cons c cs ih =>
    by_cases hn : i < n
    · rw [scan, if_pos hn] at h
      exact ih h
    · exact Nat.le_trans (Nat.not_lt.1 hn) (le_start_of_mem_scan h)

/-- No match that is found goes over another. -/
theorem pairwise_scan : (p.scan n prev i cs).Pairwise fun m m' => m.stop.pos ≤ m'.start.pos := by
  induction cs generalizing n i prev with
  | nil =>
    rw [scan]
    split
    · exact .nil
    · cases p.matchAt ⟨prev, [], i⟩ <;> simp
  | cons c cs ih =>
    rw [scan]
    split
    · exact ih
    · split
      · exact .cons (fun m' hm' => Nat.le_trans (Nat.le_max_left _ _) (next_le_of_mem_scan hm')) ih
      · exact ih

/-- Whether some of the matches take the character at a position. -/
def covered (ms : List Match) (i : Nat) : Bool :=
  ms.any fun m => decide (m.start.pos ≤ i) && decide (i < m.stop.pos)

/-- What is left of `r`, a text that stands behind `b`, without what `p` matches. -/
def remains (p : Pattern) (b r : List Char) : List Char :=
  ((r.zipIdx b.length).filter fun e => !covered (p.matchesFrom b r) e.2).map Prod.fst

theorem erase_eq (cs : List Char) : p.erase cs = p.remains [] cs := rfl

theorem covered_matchesFrom (hi : i < b.length) : covered (p.matchesFrom b r) i = false := by
  simp only [covered, any_eq_false, Bool.and_eq_true, decide_eq_true_eq]
  intro m hm ⟨hstart, _⟩
  have hle := le_start_of_mem_scan hm
  omega

theorem Rejects.matchesFrom (h : p.Rejects b (x :: r)) :
    p.matchesFrom b (x :: r) = p.matchesFrom (b ++ [x]) r := by
  have hnone : p.matchAt ⟨b.getLast?, x :: r, b.length⟩ = none := h.matchAt
  rw [Pattern.matchesFrom, scan, hnone]
  simp [Pattern.matchesFrom]

theorem Rejects.remains (h : p.Rejects b (x :: r)) :
    p.remains b (x :: r) = x :: p.remains (b ++ [x]) r := by
  have hx : covered (p.matchesFrom (b ++ [x]) r) b.length = false :=
    covered_matchesFrom (by simp)
  rw [Pattern.remains, Pattern.remains, h.matchesFrom, zipIdx_cons, filter_cons, hx]
  simp

theorem remains_of_matchAt (hne : t ≠ []) (hm : p.matchAt (between b (t ++ r)) = some m)
    (hstop : m.stop.pos = (b ++ t).length) : p.remains b (t ++ r) = p.remains (b ++ t) r := by
  have hstart : m.start.pos = b.length := by rw [start_of_matchAt hm]; rfl
  rw [length_append] at hstop
  have hgone : ∀ e ∈ t.zipIdx b.length, ¬ (!covered (m :: p.matchesFrom (b ++ t) r) e.2) = true := by
    intro e he
    have hindex := mem_zipIdx he
    simp only [covered, any_cons, hstart, hstop, Bool.not_eq_true', Bool.not_eq_false,
      Bool.or_eq_true, Bool.and_eq_true, decide_eq_true_eq]
    omega
  have hkept : ∀ e ∈ r.zipIdx (b.length + t.length),
      (!covered (m :: p.matchesFrom (b ++ t) r) e.2) = !covered (p.matchesFrom (b ++ t) r) e.2 := by
    intro e he
    have hindex := mem_zipIdx he
    have hout : decide (e.2 < b.length + t.length) = false := decide_eq_false (by omega)
    simp only [covered, any_cons, hstop, hout, Bool.and_false, Bool.false_or]
  rw [remains, remains, matchesFrom_whole hne hm (by rw [hstop, length_append]),
    zipIdx_append, filter_append, filter_eq_nil_iff.2 hgone, nil_append,
    filter_congr hkept, length_append]

theorem Takes.remains (h : p.Takes b t r [] hs) (hne : t ≠ []) :
    p.remains b (t ++ r) = p.remains (b ++ t) r :=
  remains_of_matchAt hne h.matchAt rfl

end Remains

end Pattern

end Docsmith
