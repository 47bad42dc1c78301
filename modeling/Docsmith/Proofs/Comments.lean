/-
The comments of a text and the positions that they belong to.

Comments in whole lines: the search takes each run of comment lines whole, and a run belongs to the
start of the line behind it. So what belongs to the start of a line that is no comment itself is
read off the lines above, as many comment lines as stand directly there (`LineStyle.docAbove`).

Comments in blocks: the search finds what a scan finds that opens a comment at the next `/**` and
closes it at the next `*/` (`Block.scan`). A block starts with a character that is no blank, so of
the blocks that blanks alone divide from a position there is one at most (`Block.Attached`).
-/
import Docsmith.Language
import Docsmith.Proofs.Reading
import Mathlib.Data.List.DropRight

namespace Docsmith

open Text Comments List

open Pattern
open Cursor (between)

theorem Comments.textAt_eq {cs : Comments} {pos : Nat} {text : String}
    (hall : ∀ e ∈ cs, e.1 = pos → e.2 = text) (hsome : (pos, text) ∈ cs ∨ text = "") :
    cs.textAt pos = text := by
  rw [textAt]
  cases hfind : cs.reverse.find? fun e => e.1 == pos with
  | some e =>
    have hpos := find?_some hfind
    exact hall e (mem_reverse.1 (mem_of_find?_eq_some hfind)) (by simpa using hpos)
  | none =>
    rcases hsome with hmem | rfl
    · have := find?_eq_none.1 hfind _ (mem_reverse.2 hmem)
      simp at this
    · rfl

theorem Comments.textAt_append_left {cs ds : Comments} {pos : Nat} (h : ∀ e ∈ cs, e.1 ≠ pos) :
    textAt (cs ++ ds) pos = ds.textAt pos := by
  have hnone : cs.reverse.find? (fun e => e.1 == pos) = none := by
    simpa [find?_eq_none] using fun n t hmem => h (n, t) hmem
  rw [textAt, textAt, reverse_append, find?_append, hnone, Option.or_none]

/-- Comments in lines that start with one of `leads` behind characters of `margin`. -/
structure LineStyle where
  start : Pattern
  margin : String
  leads : List String
  clean : List Char → String
  run_start {β : Type} (c : Cursor) (gs : List Capture) (k : Cursor → List Capture → Option β) :
    start.run c gs k = (run0 (among margin)).run c gs k
  margin_feed : among margin '\n' = false := by decide
  margin_blank : margin.toList.all isBlank = true := by decide
  solid : (oneOf leads).takesBlank = false := by decide
  feed_notMem : ∀ lead ∈ leads, '\n' ∉ lead.toList := by decide
  head_lead : ∀ lead ∈ leads, lead.toList.head?.any (!among margin ·) = true := by decide

namespace LineStyle

/-- Whether a line is a comment. -/
def isRemark (s : LineStyle) (line : List Char) : Bool :=
  s.leads.any fun lead => lead.toList.isPrefixOf (line.dropWhile (among s.margin))

/-- The comment lines directly above the line of a position. -/
def above (s : LineStyle) (source : List Char) (pos : Nat) : List (List Char) :=
  (cut '\n' (source.take pos)).dropLast.rtakeWhile s.isRemark

def textOf (s : LineStyle) (ls : List (List Char)) : String :=
  if ls = [] then "" else s.clean (unlines ls)

/-- The text of the comment lines directly above the line of a position. -/
def docAbove (s : LineStyle) (source : List Char) (pos : Nat) : String :=
  s.textOf (s.above source pos)

def line (s : LineStyle) : Pattern := lineStart ++ s.start ++ oneOf s.leads ++ restOfLine

def pattern (s : LineStyle) : Pattern := commentLines s.start s.leads

def entry (s : LineStyle) (m : Match) : Nat × String := (m.stop.pos, s.clean (m.group 1))

variable {s : LineStyle} {b l r : List Char} {ls : List (List Char)} {gs : List Capture}

/-! ## One line -/

theorem prefix_line {w : List Char} (hw : '\n' ∉ w) : w <+: l ++ '\n' :: r ↔ w <+: l := by
  refine ⟨fun h => ?_, fun h => h.trans (prefix_append _ _)⟩
  rcases prefix_or_prefix_of_prefix h (prefix_append l _) with hpre | ⟨v, rfl⟩
  · exact hpre
  · have hv := (prefix_append_right_inj l).1 h
    cases v with
    | nil => exact (append_nil l).symm ▸ prefix_refl l
    | cons c v =>
      obtain ⟨rfl, -⟩ := cons_prefix_cons.1 hv
      exact absurd (mem_append_right l mem_cons_self) hw

theorem isRemark_iff : s.isRemark l = true ↔
    ∃ lead ∈ s.leads, lead.toList <+: l.dropWhile (among s.margin) := by
  simp [isRemark]

theorem isRemark_append : s.isRemark (l ++ '\n' :: r) = s.isRemark l := by
  have hdrop : (l ++ '\n' :: r).dropWhile (among s.margin) =
      l.dropWhile (among s.margin) ++ '\n' :: r := by
    rw [dropWhile_append]
    split
    next hnil => simp [List.isEmpty_iff.1 hnil, s.margin_feed]
    next => rfl
  rw [Bool.eq_iff_iff, isRemark_iff, isRemark_iff, hdrop]
  exact exists_congr fun lead => and_congr_right fun hlead => prefix_line (s.feed_notMem lead hlead)

theorem takes_oneOf {ws : List String} (hws : ∀ w ∈ ws, '\n' ∉ w.toList) (hl : '\n' ∉ l)
    (h : ∃ w ∈ ws, w.toList <+: l) : (oneOf ws ++ restOfLine).Takes b (l ++ ['\n']) r gs gs := by
  have hlit {w : String} (h : w.toList <+: l) :
      (lit w ++ restOfLine).Takes b (l ++ ['\n']) r gs gs := by
    obtain ⟨t, rfl⟩ := h
    rw [append_assoc]
    exact (only_lit w).takes.seq (takes_restOfLine fun ht => hl (mem_append_right _ ht))
  fun_induction oneOf ws with
  | case1 => simp at h
  | case2 w => exact hlit (by simpa using h)
  | case3 w ws _ ih =>
    obtain ⟨hw, hws⟩ := forall_mem_cons.1 hws
    by_cases hpre : w.toList <+: l
    · exact (hlit hpre).alt_seq
    · refine Takes.alt_seq_right (rejects_lit ?_).seq (ih hws (by simpa [hpre] using h))
      rwa [append_assoc, singleton_append, prefix_line hw]

theorem takes_line (hb : b.getLast?.all (· == '\n') = true) (hl : '\n' ∉ l)
    (h : s.isRemark l = true) : s.line.Takes b (l ++ ['\n']) r gs gs := by
  obtain ⟨t, u, rfl, ht, hu⟩ := exists_run (among s.margin) l
  rw [isRemark_iff, dropWhile_run ht hu] at h
  have hnext : (u ++ ['\n'] ++ r).head?.any (among s.margin) = false := by
    cases u with
    | nil => exact s.margin_feed
    | cons c u => exact hu
  have hstart : s.start.Takes b t (u ++ ['\n'] ++ r) gs gs := by
    intro β k hk
    rw [s.run_start]
    exact takes_chars ht hnext (Nat.zero_le _) β k hk
  have hlead : (lineStart ++ s.start).Takes b t (u ++ ['\n'] ++ r) gs gs :=
    (only_lineStart hb).takes_seq hstart
  rw [append_assoc]
  exact (hlead.seq (takes_oneOf s.feed_notMem (fun hu => hl (mem_append_right t hu)) h)).assoc

theorem rejects_line (h : s.isRemark r = false) : s.line.Rejects b r := by
  by_cases hb : b.getLast?.all (· == '\n') = true
  · obtain ⟨t, u, rfl, ht, hu⟩ := exists_run (among s.margin) r
    -- No lead stands behind the margin, and none starts within it.
    have hnone (t₁ t₂ : List Char) (hcut : t = t₁ ++ t₂) :
        (oneOf s.leads).Rejects (b ++ t₁) (t₂ ++ u) := by
      refine rejects_oneOf fun lead hlead hpre => ?_
      cases t₂ with
      | nil =>
        have := isRemark_iff.2 ⟨lead, hlead, by rwa [dropWhile_run ht hu]⟩
        exact Bool.false_ne_true (h.symm.trans this)
      | cons c t₂ =>
        have hc : among s.margin c = true := all_eq_true.1 ht c (by simp [hcut])
        have hhead := s.head_lead lead hlead
        cases hlead : lead.toList with
        | nil => simp [hlead] at hhead
        | cons c' cs =>
          rw [hlead] at hpre
          obtain ⟨rfl, -⟩ := cons_prefix_cons.1 hpre
          simp [hlead, hc] at hhead
    intro β gs k
    have hstart : lineStart.Only b [] (t ++ u) gs gs := only_lineStart hb
    have hmargin := hstart β fun d hs => s.start.run d hs
      fun d hs => (oneOf s.leads).run d hs fun d hs => restOfLine.run d hs k
    rw [append_nil, s.run_start] at hmargin
    exact hmargin.trans (run_chars_none ht hu fun t₁ t₂ hcut _ => hnone t₁ t₂ hcut β gs _)
  · exact (anchored_lineStart b r (by simpa using hb)).seq.seq.seq

/-! ## Runs of lines -/

theorem rounds_lines {β : Type} {k : Cursor → List Capture → Option β} {room : List Char}
    (hb : b.getLast?.all (· == '\n') = true) (hls : ∀ l ∈ ls, '\n' ∉ l ∧ s.isRemark l = true)
    (hr : s.isRemark r = false) (hroom : ls.length ≤ room.length)
    (hk : (k (between (b ++ unlines ls) r) gs).isSome) :
    rounds (fun d hs k' => s.line.run d hs k') k room (between b (unlines ls ++ r)) gs =
      k (between (b ++ unlines ls) r) gs := by
  induction ls generalizing b room with
  | nil =>
    simp only [unlines_nil, append_nil, nil_append] at hk ⊢
    cases room with
    | nil => rfl
    | cons _ room => rw [rounds, rejects_line hr]
  | cons l ls ih =>
    obtain _ | ⟨_, room⟩ := room
    · cases hroom
    obtain ⟨⟨hl, hremark⟩, hls⟩ := forall_mem_cons.1 hls
    rw [unlines_cons, append_cons l, ← append_assoc b] at hk ⊢
    rw [append_assoc _ _ r]
    have hround := ih (b := b ++ (l ++ ['\n'])) (by simp) hls (Nat.le_of_succ_le_succ hroom) hk
    have hmoves : (between b (l ++ ['\n'] ++ (unlines ls ++ r))).pos <
        (between (b ++ (l ++ ['\n'])) (unlines ls ++ r)).pos := by
      simp only [between, length_append, length_singleton]
      omega
    rw [rounds, takes_line hb hl hremark, if_pos hmoves, hround]
    · split
      · rename_i h; exact h.symm
      · rename_i h; rw [h] at hk; cases hk
    · rw [if_pos hmoves, hround]
      exact hk

theorem takes_lines (hb : b.getLast?.all (· == '\n') = true) (hne : ls ≠ [])
    (hls : ∀ l ∈ ls, '\n' ∉ l ∧ s.isRemark l = true) (hr : s.isRemark r = false) :
    s.pattern.Takes b (unlines ls) r gs (.held 1 b (unlines ls) r :: gs) := by
  refine Takes.group 1 ?_
  obtain ⟨l, ls, rfl⟩ := exists_cons_of_ne_nil hne
  obtain ⟨⟨hl, hremark⟩, hls⟩ := forall_mem_cons.1 hls
  rw [unlines_cons, append_cons]
  refine (takes_line hb hl hremark).seq fun β k hk => ?_
  rw [run]
  refine rounds_lines (by simp) hls hr ?_ hk
  have := count_le_length (a := '\n') (l := unlines ls)
  rw [count_unlines fun l hl => (hls l hl).1] at this
  simp only [between, length_append]
  omega

theorem rejects_lines (hr : s.isRemark r = false) : s.pattern.Rejects b r :=
  Rejects.group 1 (rejects_line hr).seq

theorem anchored_pattern : s.pattern.Anchored := anchored_lineStart.seq.seq.seq.seq.group 1

theorem lt_of_mem_matchesFrom {m : Match} (h : m ∈ s.pattern.matchesFrom b r) :
    b.length < m.stop.pos := by
  obtain ⟨b', r', rfl, hm⟩ := exists_between_of_mem_scan h
  obtain ⟨t, u, -, ht, -, hstop⟩ := reads_of_matchAt hm
  have hsolid : s.pattern.takesBlank = false := by
    simp [pattern, commentLines, many1, takesBlank, s.solid, HAppend.hAppend, Append.append]
  obtain ⟨c, hc, -⟩ := ht.exists_not_isBlank hsolid
  have := length_pos_of_mem hc
  rw [hstop]
  simp only [between, length_append]
  omega

/-! ## What belongs to a line -/

theorem rtakeWhile_of_not {p : List Char → Bool} {ls' : List (List Char)} (h : p l = false) :
    (ls' ++ l :: ls).rtakeWhile p = ls.rtakeWhile p := by
  have hrev : (ls' ++ l :: ls).reverse = ls.reverse ++ (l :: ls'.reverse) := by simp
  rw [rtakeWhile, rtakeWhile, hrev, takeWhile_append]
  split
  next hlen =>
    rw [(List.takeWhile_prefix p).eq_of_length hlen, takeWhile_cons_of_neg (by simp [h]),
      append_nil]
  next => rfl

/-- The comments found from a run of comment lines on. -/
theorem comments_run (hb : b.getLast?.all (· == '\n') = true)
    (hls : ∀ l ∈ ls, '\n' ∉ l ∧ s.isRemark l = true) (hr : s.isRemark r = false) :
    (s.pattern.matchesFrom b (unlines ls ++ r)).map s.entry =
      (if ls = [] then [] else [((b ++ unlines ls).length, s.textOf ls)]) ++
        (s.pattern.matchesFrom (b ++ unlines ls) r).map s.entry := by
  by_cases hne : ls = []
  · simp [hne]
  · have hlong : unlines ls ≠ [] := by simp [unlines_eq hne]
    rw [matchesFrom_whole hlong (takes_lines hb hne hls hr).matchAt rfl, if_neg hne]
    simp [entry, between, Match.group, Match.group?, textOf, hne]

/-- To the start of a line that is no comment the comment lines directly above belong. -/
theorem textAt_lines (hb : b.getLast?.all (· == '\n') = true) (hls : ∀ l ∈ ls, '\n' ∉ l)
    (hr : s.isRemark r = false) :
    textAt ((s.pattern.matchesFrom b (unlines ls ++ r)).map s.entry)
      (b ++ unlines ls).length = s.textOf (ls.rtakeWhile s.isRemark) := by
  -- By induction on the lines: a run of comments, and then a line that is none.
  induction hn : ls.length using Nat.strong_induction_on generalizing b ls with
  | _ n ih =>
    subst hn
    obtain ⟨run, rest, rfl, hrun, hrest⟩ : ∃ run rest, ls = run ++ rest ∧
        (∀ l ∈ run, s.isRemark l = true) ∧ ∀ l ∈ rest.head?, s.isRemark l = false :=
      ⟨ls.takeWhile s.isRemark, ls.dropWhile s.isRemark, takeWhile_append_dropWhile.symm,
        fun l hl => mem_takeWhile_imp hl, fun l hl => by
          have := head?_dropWhile_not s.isRemark ls; simp_all⟩
    have hruns : ∀ l ∈ run, '\n' ∉ l ∧ s.isRemark l = true :=
      fun l hl => ⟨hls l (mem_append_left _ hl), hrun l hl⟩
    cases rest with
    | nil =>
      rw [append_nil, comments_run hb hruns hr, rtakeWhile_eq_self_iff.2 hrun]
      refine textAt_eq (fun e he hpos => ?_) ?_
      · rcases mem_append.1 he with he | he
        · split at he
          · cases he
          · rw [mem_singleton.1 he]
        · obtain ⟨m, hm, rfl⟩ := mem_map.1 he
          exact absurd hpos (Nat.ne_of_gt (lt_of_mem_matchesFrom hm))
      · by_cases hne : run = []
        · exact .inr (by simp [textOf, hne])
        · exact .inl (by simp [hne])
    | cons l rest =>
      have hl : s.isRemark l = false := hrest l rfl
      have hnone : s.isRemark (l ++ '\n' :: (unlines rest ++ r)) = false := by
        rw [isRemark_append, hl]
      have hnext := ih rest.length (by simp; omega) (b := b ++ unlines run ++ l ++ ['\n'])
        (by simp) (fun l' hl' => hls l' (by simp [hl'])) rfl
      rw [rtakeWhile_of_not hl, ← hnext, unlines_append, unlines_cons, append_assoc,
        append_assoc, cons_append, comments_run hb hruns hnone,
        anchored_pattern.matchesFrom_none (hls l (by simp)) (rejects_lines hnone).matchAt,
        textAt_append_left]
      · simp
      · intro e he
        split at he
        · cases he
        · rw [mem_singleton.1 he]
          simp

def marks (s : LineStyle) : List Char := s.leads.filterMap fun lead => lead.toList.head?

theorem not_isRemark_of_reads {p : Pattern} {t xs : List Char} (ht : p.Reads b t)
    (hsolid : p.takesBlank = false) (hopens : p.opensWith xs = false) (hmarks : s.marks ⊆ xs) :
    s.isRemark (t ++ r) = false := by
  obtain ⟨m, v, rfl, hm, hv⟩ := exists_run (among s.margin) t
  have hblank : m.all isBlank = true := by
    refine all_eq_true.2 fun c hc => all_eq_true.1 s.margin_blank c ?_
    simpa [among] using all_eq_true.1 hm c hc
  cases v with
  | nil =>
    obtain ⟨c, hc, hsolid⟩ := ht.exists_not_isBlank hsolid
    rw [append_nil] at hc
    exact absurd (all_eq_true.1 hblank c hc) (by simp [hsolid])
  | cons c v =>
    refine Bool.eq_false_iff.2 fun hremark => ?_
    rw [append_assoc, isRemark_iff, dropWhile_run hm (by simpa using hv)] at hremark
    obtain ⟨lead, hlead, hpre⟩ := hremark
    cases htext : lead.toList with
    | nil => simpa [htext] using s.head_lead lead hlead
    | cons x xs =>
      rw [htext, cons_append] at hpre
      obtain ⟨rfl, -⟩ := cons_prefix_cons.1 hpre
      have hmark : x ∈ s.marks := mem_filterMap.2 ⟨lead, hlead, by rw [htext]; rfl⟩
      exact ht.not_mem_opening hopens (hmarks hmark) (mem_opening hblank)

def comments (s : LineStyle) (source : List Char) : Comments :=
  ofLines s.pattern s.clean source

theorem textAt_comments {source : List Char} {pos : Nat}
    (hpos : (source.take pos).getLast?.all (· == '\n') = true) (hle : pos ≤ source.length)
    (h : s.isRemark (source.drop pos) = false) :
    (s.comments source).textAt pos = s.docAbove source pos := by
  obtain ⟨ls, htake, hls⟩ := exists_unlines hpos
  have hcut : (cut '\n' (source.take pos)).dropLast = ls := by
    rw [htake, cut_unlines hls, dropLast_concat]
  have hlen : (unlines ls).length = pos := by rw [← htake, length_take_of_le hle]
  have htext := textAt_lines (b := []) rfl hls h
  rw [nil_append, hlen, ← htake, take_append_drop] at htext
  rw [docAbove, above, hcut]
  exact htext

end LineStyle

def Go.lineStyle : LineStyle where
  start := empty
  margin := ""
  leads := ["//"]
  clean := cleanComment
  run_start c _ _ := by
    cases c with
    | mk before rest pos => cases rest <;> simp [run0, run, Cursor.stops, Cursor.ahead, among]

def LineStyle.indented (leads : List String) (clean : List Char → String)
    (hsolid : (oneOf leads).takesBlank = false) (hfeed : ∀ lead ∈ leads, '\n' ∉ lead.toList)
    (hhead : ∀ lead ∈ leads, lead.toList.head?.any (!among " \t" ·) = true) : LineStyle where
  start := Pattern.margin
  margin := " \t"
  leads := leads
  clean := clean
  run_start _ _ _ := rfl
  solid := hsolid
  feed_notMem := hfeed
  head_lead := hhead

def Cpp.lineStyle : LineStyle :=
  .indented ["///", "//!"] cleanLines (by decide) (by decide) (by decide)

def CSharp.lineStyle : LineStyle :=
  .indented ["///"] cleanComment (by decide) (by decide) (by decide)

def Ruby.lineStyle : LineStyle := .indented ["#"] cleanComment (by decide) (by decide) (by decide)

def Rust.lineStyle : LineStyle :=
  .indented ["///"] (cleanComment false) (by decide) (by decide) (by decide)

/-! ## Blocks -/

/-- A comment between `/**` and `*/`: where it starts, what is in it and where it ends. -/
structure Block where
  start : Nat
  inside : List Char
  stop : Nat

namespace Block

/-- The comments in a text from left to right. Where one is open, its start and the inside so far,
from the back, are at hand. -/
def scan : Option (Nat × List Char) → Nat → List Char → List Block
  | none, pos, '/' :: '*' :: '*' :: cs => scan (some (pos, [])) (pos + 3) cs
  | none, pos, _ :: cs => scan none (pos + 1) cs
  | some (start, inside), pos, '*' :: '/' :: cs =>
    ⟨start, inside.reverse, pos + 2⟩ :: scan none (pos + 2) cs
  | some (start, inside), pos, c :: cs => scan (some (start, c :: inside)) (pos + 1) cs
  | _, _, [] => []

def all (source : List Char) : List Block := scan none 0 source

/-- Whether a comment ends before a position with blanks alone between. -/
def isBefore (source : List Char) (pos : Nat) (c : Block) : Bool :=
  decide (c.stop ≤ pos) && ((source.take pos).drop c.stop).all isBlank

def ofMatch (m : Match) : Block := ⟨m.start.pos, m.group 1, m.stop.pos⟩

variable {b t r : List Char} {gs : List Capture}

theorem takes_starBlock
    (h : ∀ t₁ c t₂, t = t₁ ++ c :: t₂ → ¬ "*/".toList <+: c :: t₂ ++ ("*/".toList ++ r)) :
    starBlock.Takes b ("/**".toList ++ (t ++ "*/".toList)) r gs
      (.held 1 (b ++ "/**".toList) t ("*/".toList ++ r) :: gs) := by
  have hinside : (group 1 (chars (fun _ => true) 0 false) ++ lit "*/").Takes (b ++ "/**".toList)
      (t ++ "*/".toList) r gs (.held 1 (b ++ "/**".toList) t ("*/".toList ++ r) :: gs) := by
    intro β k hk
    rw [← append_assoc] at hk ⊢
    have hclose : (lit "*/").run (between (b ++ "/**".toList ++ t) ("*/".toList ++ r))
        (.held 1 (b ++ "/**".toList) t ("*/".toList ++ r) :: gs) k = _ := only_lit "*/" β k
    rw [run_seq, run_group, append_assoc]
    refine (run_reluctant (by simp) (fun t₁ c t₂ ht => ?_) ?_).trans hclose
    · exact rejects_lit (h t₁ c t₂ ht) β _ k
    · exact (congrArg Option.isSome hclose).trans hk
  exact ((only_lit "/**").takes.seq hinside).assoc

theorem rejects_starBlock (h : ∀ t₁ t₂, t = t₁ ++ t₂ → ¬ "*/".toList <+: t₂) :
    starBlock.Rejects b ("/**".toList ++ t) := by
  have hinside : (group 1 (chars (fun _ => true) 0 false) ++ lit "*/").Rejects
      (b ++ "/**".toList) t := by
    intro β gs k
    rw [run_seq, run_group, ← append_nil t]
    refine run_chars_none (by simp) rfl fun t₁ t₂ ht _ => ?_
    exact rejects_lit (by simpa using h t₁ t₂ ht) β _ k
  have hall : (lit "/**" ++ (group 1 (chars (fun _ => true) 0 false) ++ lit "*/")).Rejects b
      ("/**".toList ++ t) := Only.rejects (fun _ => only_lit "/**") hinside
  exact hall

theorem rejects_other (h : ¬ "/**".toList <+: r) : starBlock.Rejects b r := (rejects_lit h).seq.seq

theorem matchesFrom_unclosed (h : ∀ t₁ t₂, t = t₁ ++ t₂ → ¬ "*/".toList <+: t₂) :
    starBlock.matchesFrom b t = [] := by
  induction t generalizing b with
  | nil =>
    have hnone : starBlock.matchAt ⟨b.getLast?, [], b.length⟩ = none :=
      (rejects_other (by decide)).matchAt
    rw [matchesFrom, Pattern.scan, hnone]
    rfl
  | cons c t ih =>
    have hrejects : starBlock.Rejects b (c :: t) := by
      by_cases hopen : "/**".toList <+: c :: t
      · obtain ⟨t', ht'⟩ := hopen
        rw [← ht'] at h ⊢
        exact rejects_starBlock fun t₁ t₂ ht => h ("/**".toList ++ t₁) t₂ (by simp [ht])
      · exact rejects_other hopen
    rw [hrejects.matchesFrom]
    exact ih fun t₁ t₂ ht => h (c :: t₁) t₂ (by simp [ht])

/-- What has been read of the comment that is open. -/
def pending : Option (Nat × List Char) → List Char
  | none => []
  | some (_, inside) => "/**".toList ++ inside.reverse

/-- The search for comments goes as the scan does, by induction along the text; while a comment is
open, nothing in it ends it. -/
theorem map_matchesFrom {opened : Option (Nat × List Char)} {pos : Nat}
    (hstart : ∀ o ∈ opened, o.1 = b.length) (hpos : pos = (b ++ pending opened).length)
    (hopen : ∀ o ∈ opened, ∀ t₁ c t₂, o.2.reverse = t₁ ++ c :: t₂ →
      ¬ "*/".toList <+: c :: t₂ ++ r) :
    (starBlock.matchesFrom b (pending opened ++ r)).map ofMatch = scan opened pos r := by
  fun_induction scan opened pos r generalizing b with
  | case1 pos cs ih =>
    have hlen : pos = b.length := by simpa [pending] using hpos
    rw [← ih (b := b) (by simp [hlen]) (by simp [pending, hlen]) (by simp)]
    simp [pending]
  | case2 pos c cs hother ih =>
    have hrejects : starBlock.Rejects b (c :: cs) := by
      refine rejects_other fun ⟨u, hu⟩ => ?_
      injection hu with hc hcs
      exact hother u hc.symm hcs.symm
    rw [← ih (b := b ++ [c]) (by simp) (by simpa [pending] using hpos) (by simp)]
    exact congrArg _ hrejects.matchesFrom
  | case3 start inside pos cs ih =>
    have hlen : start = b.length := hstart _ rfl
    have htakes : starBlock.Takes b ("/**".toList ++ (inside.reverse ++ "*/".toList)) cs [] _ :=
      takes_starBlock (hopen _ rfl)
    have hnext := ih (b := b ++ ("/**".toList ++ (inside.reverse ++ "*/".toList))) (by simp)
      (by simp [hpos, pending]; omega) (by simp)
    have htext : pending (some (start, inside)) ++ '*' :: '/' :: cs =
        "/**".toList ++ (inside.reverse ++ "*/".toList) ++ cs := by simp [pending]
    rw [htext, matchesFrom_whole (by simp) htakes.matchAt rfl, map_cons, ← hnext]
    simp [ofMatch, Match.group, Match.group?, between, hpos, hlen, pending]
    omega
  | case4 start inside pos c cs hother ih =>
    rw [← ih (b := b) ?_ ?_ ?_]
    · simp [pending]
    · simpa using hstart
    · simp [hpos, pending]
      omega
    · intro o ho t₁ x t₂ ht
      obtain rfl := Option.some.inj ho
      rw [reverse_cons] at ht
      rcases eq_nil_or_concat t₂ with rfl | ⟨t₂, y, rfl⟩
      · obtain ⟨-, hx⟩ := append_inj' ht rfl
        obtain rfl := singleton_inj.1 hx
        rintro ⟨u, hu⟩
        obtain ⟨hc, hcs⟩ : '*' = c ∧ '/' :: u = cs := by simpa using hu
        exact hother u hc.symm hcs.symm
      · rw [concat_eq_append, ← cons_append, ← append_assoc] at ht
        obtain ⟨hinside, hy⟩ := append_inj' ht rfl
        obtain rfl := singleton_inj.1 hy
        simpa using hopen _ rfl t₁ x t₂ hinside
  | case5 opened pos =>
    rw [append_nil, map_eq_nil_iff]
    cases opened with
    | none => exact matchesFrom_unclosed fun t₁ t₂ ht => by simp_all [pending]
    | some o =>
      have hinside : ∀ t₁ t₂, o.2.reverse = t₁ ++ t₂ → ¬ "*/".toList <+: t₂ := by
        intro t₁ t₂ ht
        cases t₂ with
        | nil => simp
        | cons c t₂ => simpa using hopen o rfl t₁ c t₂ ht
      have hopened : starBlock.Rejects b ('/' :: '*' :: '*' :: o.2.reverse) :=
        rejects_starBlock hinside
      have hstars (t : List Char) {b : List Char} : starBlock.Rejects b ('*' :: t) :=
        rejects_other (by simp)
      exact hopened.matchesFrom.trans ((hstars _).matchesFrom.trans
        ((hstars _).matchesFrom.trans (matchesFrom_unclosed hinside)))

theorem all_eq (source : List Char) : all source = (starBlock.findAll source).map ofMatch := by
  have hmap : (starBlock.matchesFrom [] (pending none ++ source)).map ofMatch = all source :=
    map_matchesFrom (by simp) rfl (by simp)
  exact hmap.symm

/-! ## What belongs to a position -/

/-- At most one comment stands before a position, and `doc` is its text. -/
def Attached (clean : List Char → String) (source : List Char) (pos : Nat) (doc : String) : Prop :=
  ∃ c : Option Block, (all source).filter (isBefore source pos) = c.toList ∧
    doc = (c.map fun c => clean c.inside).getD ""

variable {p : Pattern} {source : List Char} {pos : Nat} {m : Match}

theorem isBefore_iff (hle : pos ≤ source.length)
    (hpos : (source.drop pos).head?.any isBlank = false) (hm : m ∈ p.findAll source) :
    (ofMatch m).isBefore source pos = true ↔
      m.stop.pos + (m.stop.rest.takeWhile isBlank).length = pos := by
  obtain ⟨b, t, u, rfl, -, -, hstop⟩ := reads_of_mem_findAll hm
  obtain ⟨w, v, rfl, hw, hv⟩ := exists_run isBlank u
  rw [← append_assoc] at hle hpos ⊢
  simp only [isBefore, ofMatch, hstop, between, takeWhile_run hw hv, Bool.and_eq_true,
    decide_eq_true_eq]
  constructor
  · rintro ⟨hbehind, hall⟩
    obtain ⟨n, rfl⟩ := Nat.exists_eq_add_of_le hbehind
    rw [take_length_add_append, drop_left] at hall
    rw [drop_length_add_append] at hpos
    obtain ⟨hrun, -⟩ := run_unique hall hpos hw hv (take_append_drop n _)
    have hlen := congrArg length hrun
    simp only [length_append, length_take] at hle hlen
    omega
  · rintro rfl
    rw [take_length_add_append, drop_left, take_left]
    exact ⟨Nat.le_add_right _ _, hw⟩

/-- A comment starts with a character that is no blank, so none stands before a position in front of
another one that does. -/
theorem not_isBefore_of_le {c : Block} (hm : m ∈ starBlock.findAll source)
    (hle : c.stop ≤ m.start.pos) (hc : c.isBefore source pos = true) :
    (ofMatch m).isBefore source pos = false := by
  obtain ⟨b, t, u, rfl, ht, hstart, hstop⟩ := reads_of_mem_findAll hm
  have hopens : starBlock.opensWith blankChars = false := by decide
  obtain ⟨x, t, rfl, hx⟩ := ht.exists_cons (by decide) hopens (List.Subset.refl _)
  refine Bool.eq_false_iff.2 fun hbefore => ?_
  simp only [isBefore, ofMatch, hstart, hstop, between, Bool.and_eq_true, decide_eq_true_eq,
    length_append, length_cons] at hle hc hbefore
  obtain ⟨n, hn⟩ := Nat.exists_eq_add_of_le hle
  have hmem : x ∈ ((b ++ (x :: t ++ u)).take pos).drop c.stop := by
    refine mem_of_getElem? (i := n) ?_
    rw [getElem?_drop, ← hn, getElem?_take_of_lt (by omega), getElem?_append_right]
    · simp
    · exact Nat.le_refl _
  exact Bool.false_ne_true (hx.symm.trans (all_eq_true.1 hc.2 x hmem))

theorem exists_filter_eq (source : List Char) (pos : Nat) : ∃ c : Option Block,
    (all source).filter (isBefore source pos) = c.toList := by
  have hpair : (all source).Pairwise fun c c' => c.stop ≤ c'.start := by
    rw [all_eq, pairwise_map]
    exact pairwise_scan
  have hfilter := hpair.filter (isBefore source pos)
  rcases hall : (all source).filter (isBefore source pos) with _ | ⟨c, _ | ⟨c', cs⟩⟩
  · exact ⟨none, rfl⟩
  · exact ⟨some c, rfl⟩
  · rw [hall] at hfilter
    have hle := rel_of_pairwise_cons hfilter mem_cons_self
    have hc := mem_filter.1 (hall ▸ mem_cons_self : c ∈ (all source).filter _)
    have hc' := mem_filter.1
      (hall ▸ mem_cons_of_mem _ mem_cons_self : c' ∈ (all source).filter _)
    rw [all_eq] at hc'
    obtain ⟨m, hm, rfl⟩ := mem_map.1 hc'.1
    exact absurd hc'.2 (by simp [not_isBefore_of_le hm hle hc.2])

theorem ne_of_mem_ofBlocks {clean : List Char → String} {e : Nat × String}
    (he : e ∈ ofBlocks p clean source)
    (hpos : (source.drop pos).head?.any isBlank = true) : e.1 ≠ pos := by
  obtain ⟨m, hm, rfl⟩ := mem_map.1 he
  obtain ⟨b, t, u, rfl, -, -, hstop⟩ := reads_of_mem_findAll hm
  obtain ⟨w, v, rfl, hw, hv⟩ := exists_run isBlank u
  rintro rfl
  rw [hstop, ← append_assoc] at hpos
  simp only [between, takeWhile_run hw hv] at hpos
  rw [drop_length_add_append, drop_left] at hpos
  exact Bool.false_ne_true (hv.symm.trans hpos)

theorem attached_textAt (clean : List Char → String) (hle : pos ≤ source.length)
    (hpos : (source.drop pos).head?.any isBlank = false) :
    Attached clean source pos ((ofBlocks starBlock clean source).textAt pos) := by
  obtain ⟨c, hc⟩ := exists_filter_eq source pos
  refine ⟨c, hc, textAt_eq (fun e he hkey => ?_) ?_⟩
  · obtain ⟨m, hm, rfl⟩ := mem_map.1 he
    have hmem : ofMatch m ∈ c.toList := by
      rw [← hc, mem_filter, all_eq]
      exact ⟨mem_map_of_mem hm, (isBefore_iff hle hpos hm).2 hkey⟩
    rw [Option.mem_toList.1 hmem]
    rfl
  · cases c with
    | none => exact .inr rfl
    | some c =>
      have hmem : c ∈ (all source).filter (isBefore source pos) := by simp [hc]
      obtain ⟨hmem, hbefore⟩ := mem_filter.1 hmem
      rw [all_eq] at hmem
      obtain ⟨m, hm, rfl⟩ := mem_map.1 hmem
      refine .inl (mem_map.2 ⟨m, hm, ?_⟩)
      rw [(isBefore_iff hle hpos hm).1 hbefore]
      rfl

end Block

end Docsmith
