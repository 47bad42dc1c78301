/-
Which methods a type gets from a body in braces.

A body is read from a place on up to the brace that closes one more than are opened behind that
place (`ClosedAt`, `IsBody`), and methods are searched in it from left to right (`Lists`). In Rust a
function is found at the start of a line only, so one that is indented in its `impl` block is no
method. In Kotlin the place is the end of what was read of the class, whether or not that has taken a
brace, so a class without a body gets the methods that follow it.
-/
import Docsmith.Proofs.Members

namespace Docsmith

open List

/-! ## Braces -/

namespace Text

/-- A text with `depth` braces and one more open before it is `inner` up to the brace that closes
the last of them, with which `after` starts, or to the end if there is none. -/
def ClosedBelow (depth : Nat) (inner after : List Char) : Prop :=
  (∀ t, t <+: inner → t.count '}' ≤ t.count '{' + depth) ∧
    (after = [] ∨ after.head? = some '}' ∧ inner.count '}' = inner.count '{' + depth)

/-- A text behind an open brace is `inner` up to the brace that closes it, with which `after`
starts, or to the end if there is none. -/
abbrev ClosedAt : List Char → List Char → Prop := ClosedBelow 0

variable {depth next : Nat} {inner after : List Char}

theorem ClosedBelow.cons {c : Char} (h : ClosedBelow next inner after)
    (hcount : [c].count '}' + next = [c].count '{' + depth) :
    ClosedBelow depth (c :: inner) after := by
  have hcons (x : Char) (t : List Char) : (c :: t).count x = [c].count x + t.count x := by
    rw [← count_append]
    rfl
  refine ⟨fun t ht => ?_, h.2.imp_right fun hend => ⟨hend.1, ?_⟩⟩
  · rcases prefix_cons_iff.1 ht with rfl | ⟨t, rfl, hinner⟩
    · simp
    · have := h.1 t hinner
      rw [hcons '}' t, hcons '{' t]
      omega
  · rw [hcons '}' inner, hcons '{' inner]
    omega

theorem take_bodyLength (depth : Nat) (cs : List Char) : ∃ inner after, cs = inner ++ after ∧
    ClosedBelow depth inner after ∧
      cs.take (bodyLength (depth + 1) cs) = inner ++ after.take 1 := by
  induction cs generalizing depth with
  | nil => exact ⟨[], [], rfl, ⟨by simp, .inl rfl⟩, rfl⟩
  | cons c cs ih =>
    have hlength : bodyLength (depth + 1) (c :: cs) =
        bodyLength (braceDepth (depth + 1) c) cs + 1 := if_pos (by omega)
    -- The body goes on behind `c` with `next` braces open and one more.
    have hon (next : Nat) (hnext : braceDepth (depth + 1) c = next + 1)
        (hcount : [c].count '}' + next = [c].count '{' + depth) :
        ∃ inner after, c :: cs = inner ++ after ∧ ClosedBelow depth inner after ∧
          (c :: cs).take (bodyLength (depth + 1) (c :: cs)) = inner ++ after.take 1 := by
      obtain ⟨inner, after, rfl, hclosed, htake⟩ := ih next
      refine ⟨c :: inner, after, rfl, hclosed.cons hcount, ?_⟩
      rw [hlength, hnext, take_succ_cons, htake]
      rfl
    by_cases hopen : c = '{'
    · subst hopen
      exact hon (depth + 1) rfl (by simp; omega)
    · by_cases hclose : c = '}'
      · subst hclose
        cases depth with
        | zero =>
          refine ⟨[], '}' :: cs, rfl, ⟨by simp, .inr ⟨rfl, rfl⟩⟩, ?_⟩
          have hclosed : bodyLength 0 cs = 0 := by cases cs <;> rfl
          rw [hlength]
          simp [braceDepth, hclosed]
        | succ depth => exact hon depth (by simp [braceDepth]) (by simp; omega)
      · exact hon depth (by simp [braceDepth, hopen, hclose]) (by simp [hopen, hclose])

theorem braceBody_closed (cs : List Char) : ∃ inner after, cs = inner ++ after ∧
    ClosedAt inner after ∧ braceBody cs = inner ++ after.take 1 :=
  take_bodyLength 0 cs

/-- One more brace is closed in the text than is opened. -/
def Closes (t : List Char) : Prop := t.count '}' = t.count '{' + 1

/-- The shortest start of a text that closes one more brace than it opens, or all of it if there is
none. -/
def IsBody (cs body : List Char) : Prop :=
  body <+: cs ∧ ((Closes body ∧ ∀ t, t <+: cs → Closes t → body.length ≤ t.length) ∨
    body = cs ∧ ∀ t, t <+: cs → ¬ Closes t)

/-- Every brace that is opened is closed, and none before it is opened. -/
def Balanced (b : List Char) : Prop :=
  b.count '}' = b.count '{' ∧ ∀ t, t <+: b → t.count '}' ≤ t.count '{'

variable {cs body body' : List Char}

theorem IsBody.unique (h : IsBody cs body) (h' : IsBody cs body') : body = body' := by
  obtain ⟨hstart, ⟨hcloses, hleast⟩ | ⟨rfl, hnone⟩⟩ := h
  · obtain ⟨hstart', ⟨hcloses', hleast'⟩ | ⟨rfl, hnone'⟩⟩ := h'
    · have hle := hleast _ hstart' hcloses'
      exact (prefix_of_prefix_length_le hstart hstart' hle).eq_of_length_le
        (hleast' _ hstart hcloses)
    · exact absurd hcloses (hnone' _ hstart)
  · obtain ⟨hstart', ⟨hcloses', -⟩ | ⟨rfl, -⟩⟩ := h'
    · exact absurd hcloses' (hnone _ hstart')
    · rfl

theorem ClosedBelow.isBody (h : ClosedAt inner after) :
    IsBody (inner ++ after) (inner ++ after.take 1) := by
  -- No start of `inner` closes more than it opens, so what does goes on behind it.
  have hlong (t : List Char) (ht : t <+: inner ++ after) (hcloses : Closes t) :
      inner.length < t.length := by
    by_contra hle
    have hinner := prefix_of_prefix_length_le ht (prefix_append ..) (Nat.not_lt.1 hle)
    have := h.1 t hinner
    rw [Closes] at hcloses
    omega
  rcases h.2 with rfl | ⟨hhead, hcount⟩
  · simp only [append_nil, take_nil] at hlong ⊢
    exact ⟨prefix_refl _, .inr ⟨rfl, fun t ht hcloses =>
      absurd ht.length_le (Nat.not_le.2 (hlong t ht hcloses))⟩⟩
  · obtain ⟨rest, rfl⟩ := head?_eq_some_iff.1 hhead
    refine ⟨⟨rest, by simp⟩, .inl ⟨?_, fun t ht hcloses => ?_⟩⟩
    · simp [Closes, count_append, hcount]
    · simpa using Nat.succ_le_of_lt (hlong t ht hcloses)

theorem isBody_braceBody (cs : List Char) : IsBody cs (braceBody cs) := by
  obtain ⟨inner, after, rfl, hclosed, hbody⟩ := braceBody_closed cs
  rw [hbody]
  exact hclosed.isBody

theorem Balanced.isBody (h : Balanced inner) (rest : List Char) :
    IsBody (inner ++ '}' :: rest) (inner ++ ['}']) :=
  ClosedBelow.isBody (show ClosedAt inner ('}' :: rest) from ⟨h.2, .inr ⟨rfl, h.1⟩⟩)

end Text

/-! ## Searching -/

namespace Pattern

open Cursor (between)

variable {p : Pattern} {cs b t u : List Char} {m : Match}

/-- The matches `ms` stand in order, and one starts wherever the pattern can read something that no
other goes over. -/
structure Lists (p : Pattern) (cs : List Char) (ms : List Match) : Prop where
  ordered : ms.Pairwise fun m m' => m.stop.pos ≤ m'.start.pos
  starts_iff : ∀ b r, cs = b ++ r → ((∃ m ∈ ms, m.start.pos = b.length) ↔
    (∃ t, t <+: r ∧ p.Reads b t) ∧ ∀ m ∈ ms, m.stop.pos ≤ b.length ∨ b.length ≤ m.start.pos)

theorem lists_findAll (hlocal : p.isLocal = true) (cs : List Char) : p.Lists cs (p.findAll cs) where
  ordered := pairwise_scan
  starts_iff := by
    rintro b r rfl
    constructor
    · rintro ⟨m, hm, hpos⟩
      obtain ⟨b', t, u, hcs, ht, hstart, hstop⟩ := reads_of_mem_findAll hm
      have hlen : b.length = b'.length := by
        rw [← hpos, hstart]
        rfl
      obtain ⟨rfl, rfl⟩ := append_inj hcs hlen
      refine ⟨⟨t, prefix_append t u, ht⟩, fun m' hm' => ?_⟩
      have hordered : (p.findAll (b ++ (t ++ u))).Pairwise fun m m' => m.stop.pos ≤ m'.start.pos :=
        pairwise_scan
      obtain ⟨xs, ys, hfound⟩ := append_of_mem hm
      rw [hfound, pairwise_append, pairwise_cons] at hordered
      rw [hfound] at hm'
      rcases mem_append.1 hm' with hm' | hm'
      · exact .inl ((hordered.2.2 m' hm' m mem_cons_self).trans_eq hpos)
      · rcases mem_cons.1 hm' with rfl | hm'
        · exact .inr hpos.ge
        · have hlater := hordered.2.1.1 m' hm'
          have hspan : b.length ≤ m.stop.pos := by
            rw [hstop]
            simp [between]
          exact .inr (hspan.trans hlater)
    · rintro ⟨⟨t, ⟨u, rfl⟩, ht⟩, hfree⟩
      obtain ⟨m, hm, hle, hcovers⟩ := exists_mem_findAll hlocal ht u
      have := hfree m hm
      exact ⟨m, hm, by omega⟩

end Pattern

open Pattern
open Cursor (between)

theorem exists_closed {p : Pattern} {source : List Char} {m : Match} (hm : m ∈ p.findAll source) :
    ∃ header inner after, source = header ++ (inner ++ after) ∧ header.length = m.stop.pos ∧
      header.getLast? = m.stop.before ∧ inner ++ after = m.stop.rest ∧ Text.ClosedAt inner after ∧
      Text.braceBody m.stop.rest = inner ++ after.take 1 := by
  obtain ⟨b, t, u, rfl, -, -, hstop⟩ := reads_of_mem_findAll hm
  obtain ⟨inner, after, rfl, hclosed, hbody⟩ := Text.braceBody_closed u
  rw [hstop]
  exact ⟨b ++ t, inner, after, (append_assoc ..).symm, rfl, rfl, rfl, hclosed, hbody⟩

/-! ## Rust -/

namespace Rust

def implBodies (source type : List Char) : List (List Char) :=
  ((implPattern.findAll source).filter fun m => m.group 2 == type).map fun m =>
    Text.braceBody (source.drop m.stop.pos)

theorem map_name_methods (ep : Bool) (source type : List Char) :
    (methods ep source type).map Callable.name = (implBodies source type).flatMap fun body =>
      ((functionPattern.findAll body).filter fun f => keepsName ep (f.group 1)).map (·.name 1) := by
  rw [methods, implBodies, map_flatMap, flatMap_map]
  simp only [methodsAt, map_map]
  rfl

theorem before_stop {source : List Char} {m : Match} (hm : m ∈ implPattern.findAll source) :
    m.stop.before = some '{' := by
  obtain ⟨b, t, u, -, ht, -, hstop⟩ := reads_of_mem_findAll hm
  rw [implPattern] at ht
  cases ht
  next t v _ hv =>
    rw [hstop, reads_lit.1 hv, ← append_assoc]
    exact getLast?_concat

theorem exists_of_mem_implBodies {source type body : List Char}
    (h : body ∈ implBodies source type) :
    ∃ before inner after, source = before ++ '{' :: (inner ++ after) ∧ Text.ClosedAt inner after ∧
      body = inner ++ after.take 1 := by
  obtain ⟨m, hm, rfl⟩ := mem_map.1 h
  have hm := (mem_filter.1 hm).1
  obtain ⟨header, inner, after, hsource, -, hbefore, -, hclosed, hbody⟩ := exists_closed hm
  rw [before_stop hm] at hbefore
  obtain ⟨before, rfl⟩ := getLast?_eq_some_iff.1 hbefore
  refine ⟨before, inner, after, ?_, hclosed, ?_⟩
  · rw [hsource, append_assoc]
    rfl
  · rw [← rest_stop hm, hbody]

/-- **Methods of a structure.** They are the functions that are found in its `impl` blocks, block by
block. A function that stands in a block is found exactly if nothing is before it on its line and
nothing that is found goes over it. -/
theorem document_implMethods (ep : Bool) (path : Path) (source : List Char) :
    ∃ (type : Match → TypeDecl) (others : List TypeDecl),
      (document ep path source).types =
        ((structPattern.findAll source).filter fun m => keepsName ep (m.group 1)).map type ++
          others ∧
      (∀ t ∈ others, t.methods = []) ∧
      (∀ m, (type m).name = m.name 1 ∧ (type m).methods.map Callable.name =
        (implBodies source (m.group 1)).flatMap fun body =>
          ((functionPattern.findAll body).filter fun f => keepsName ep (f.group 1)).map
            (·.name 1)) ∧
      (∀ name, ∀ body ∈ implBodies source name, ∃ before inner after,
        source = before ++ '{' :: (inner ++ after) ∧ Text.ClosedAt inner after ∧
          body = inner ++ after.take 1) ∧
      ∀ body, functionPattern.Lists body (functionPattern.findAll body) ∧
        ∀ b item u, body = b ++ (item ++ u) → functionPattern.Reads [] item →
          ((∃ m ∈ functionPattern.findAll body, m.start.pos = b.length) ↔
            b.getLast?.all (· == '\n') = true ∧ ∀ m ∈ functionPattern.findAll body,
              m.stop.pos ≤ b.length ∨ b.length ≤ m.start.pos) := by
  refine ⟨_, _, append_assoc .., ?_, fun m => ⟨rfl, map_name_methods ep source _⟩,
    fun _ _ hbody => exists_of_mem_implBodies hbody, fun body => ?_⟩
  · simp only [mem_append, mem_map]
    rintro _ (⟨m, -, rfl⟩ | ⟨m, -, rfl⟩) <;> rfl
  · have hlists := lists_findAll (p := functionPattern) (by decide) body
    refine ⟨hlists, fun b item u hbody hitem => (hlists.starts_iff b _ hbody).trans ?_⟩
    refine and_congr_left fun _ => ⟨?_, fun hline => ?_⟩
    · rintro ⟨t, -, ht⟩
      exact ht.startsLine rfl
    · exact ⟨item, prefix_append item u, hitem.elsewhere fun _ => hline⟩

/-- A structure with a method in a block, indented as usual. -/
def indented : List Char :=
  "struct T \x7b\x7d\nimpl T \x7b\n    fn f(&self) \x7b\x7d\n\x7d\n".toList

theorem document_implMethods_indented :
    (document false (.ofString "a.rs") indented).types.map
      (fun t => (t.name, t.methods.map Callable.name)) = [("T", [])] ∧
    ∃ b t u, implBodies indented "T".toList = [b ++ (t ++ u)] ∧ functionPattern.Reads [] t ∧
      "fn f".toList <+: t ++ u ∧
      ¬ ∃ m ∈ functionPattern.findAll (b ++ (t ++ u)), m.start.pos = b.length := by
  have hfacts : (document false (.ofString "a.rs") indented).types.map
        (fun t => (t.name, t.methods.map Callable.name)) = [("T", [])] ∧
      implBodies indented "T".toList = ["\n    fn f(&self) \x7b\x7d\n\x7d".toList] ∧
      (functionPattern.matchAt (between [] "fn f(&self) \x7b\x7d\n\x7d".toList)).isSome = true := by
    decide +kernel
  obtain ⟨htypes, hbodies, hmatch⟩ := hfacts
  obtain ⟨m, hm⟩ := Option.isSome_iff_exists.1 hmatch
  obtain ⟨t, u, hitem, ht, -, -⟩ := reads_of_matchAt hm
  have hbody : "\n    fn f(&self) \x7b\x7d\n\x7d".toList = "\n    ".toList ++ (t ++ u) := by
    rw [← hitem]
    rfl
  obtain ⟨-, -, -, -, -, -, hfound⟩ := document_implMethods false (.ofString "a.rs") indented
  refine ⟨htypes, "\n    ".toList, t, u, by rw [hbodies, hbody], ht, ?_, fun hstarts => ?_⟩
  · rw [← hitem]
    decide
  · exact absurd (((hfound _).2 _ t u rfl ht).1 hstarts).1 (by decide)

end Rust

/-! ## Kotlin -/

namespace Kotlin

theorem brace_taken {source : List Char} {m : Match} (hm : m ∈ classPattern.findAll source) :
    m.stop.before = some '{' ∨ m.stop.rest.head? ≠ some '{' := by
  obtain ⟨b, r, -, hat⟩ := exists_between_of_mem_scan (b := []) hm
  have hlast {p : Pattern} (h : (p ++ opt (lit "\x7b")).matchAt (between b r) = some m) :
      m.stop.before = some '{' ∨ m.stop.rest.head? ≠ some '{' := by
    obtain ⟨t, u, gs, -, -, hstop⟩ := reads_of_run (p := p) h
    cases u with
    | nil =>
      obtain rfl := Option.some.inj hstop
      exact .inr nofun
    | cons c u =>
      by_cases hc : c = '{'
      · subst hc
        obtain rfl := Option.some.inj hstop
        exact .inl rfl
      · have hrun : (lit "\x7b").run (between (b ++ t) (c :: u)) gs
            (fun d hs => some (⟨between b r, d, hs⟩ : Match)) = none := by
          simp [lit, run, between, hc]
        simp only [opt, run, hrun] at hstop
        obtain rfl := Option.some.inj hstop
        exact .inr (by simpa [between] using hc)
  exact hlast hat

theorem start_lt_of_closed {inner after : List Char} (hclosed : Text.ClosedAt inner after)
    {f : Match} (hf : f ∈ methodPattern.findAll (inner ++ after.take 1)) :
    f.start.pos < inner.length := by
  obtain ⟨b, t, u, hbody, ht, hstart, -⟩ := reads_of_mem_findAll hf
  have hpos : f.start.pos = b.length := by rw [hstart]; rfl
  obtain ⟨d, hd, -⟩ := ht.exists_not_isBlank (by decide)
  obtain ⟨c, t, rfl⟩ := exists_cons_of_ne_nil (ne_nil_of_mem hd)
  have hat : (inner ++ after.take 1)[b.length]? = some c := by
    rw [hbody, getElem?_append_right (Nat.le_refl _), Nat.sub_self]
    rfl
  rw [hpos]
  by_contra hle
  rw [getElem?_append_right (Nat.not_lt.1 hle)] at hat
  have hlast : c ∈ after.take 1 := mem_of_getElem? hat
  rcases hclosed.2 with rfl | ⟨hhead, -⟩
  · cases hlast
  · obtain ⟨rest, rfl⟩ := head?_eq_some_iff.1 hhead
    obtain rfl : c = '}' := mem_singleton.1 hlast
    have hopens : methodPattern.opensWith ['}'] = false := by decide
    exact ht.not_mem_opening hopens (mem_singleton_self _) (mem_opening (t := []) rfl)

/-- **Methods of a class.** They are the functions that are found behind what was read of it, up to
the brace that closes more than is opened there: in its own body if its brace was read, and in
whatever follows if it has none. -/
theorem document_classMethods (ep : Bool) (path : Path) (source : List Char) :
    ∃ (type : Match → TypeDecl) (others : List TypeDecl),
      (document ep path source).types =
        ((classPattern.findAll source).filter fun m => keepsName ep (m.group 1)).map type ++
          others ∧
      (∀ t ∈ others, t.methods = []) ∧
      ∀ m ∈ classPattern.findAll source, ∃ header inner after,
        source = header ++ (inner ++ after) ∧ header.length = m.stop.pos ∧
        (header.getLast? = some '{' ∨ (inner ++ after).head? ≠ some '{') ∧
        Text.ClosedAt inner after ∧
        (type m).name = m.name 1 ∧
        (type m).methods.map Callable.name =
          ((methodPattern.findAll (inner ++ after.take 1)).filter fun f =>
            keepsName ep (f.group 1)).map (·.name 1) ∧
        methodPattern.Lists (inner ++ after.take 1)
          (methodPattern.findAll (inner ++ after.take 1)) ∧
        ∀ f ∈ methodPattern.findAll (inner ++ after.take 1), f.start.pos < inner.length := by
  refine ⟨_, _, append_assoc .., ?_, fun m hm => ?_⟩
  · simp only [mem_append, mem_map]
    rintro _ (⟨m, -, rfl⟩ | ⟨m, -, rfl⟩) <;> rfl
  · obtain ⟨header, inner, after, hsource, hlen, hbefore, hrest, hclosed, hbody⟩ := exists_closed hm
    refine ⟨header, inner, after, hsource, hlen, ?_, hclosed, rfl, ?_, lists_findAll (by decide) _,
      fun f hf => ?_⟩
    · rw [hbefore, hrest]
      exact brace_taken hm
    · rw [← hbody, methods, map_map]
      rfl
    · exact start_lt_of_closed hclosed hf

/-- A class without a body, and one with a method. -/
def bodiless : List Char := "class A\n\nclass B \x7b\n    fun f() \x7b\x7d\n\x7d\n".toList

theorem document_classMethods_bodiless :
    (document false (.ofString "a.kt") bodiless).types.map
      (fun t => (t.name, t.methods.map Callable.name)) = [("A", ["f"]), ("B", ["f"])] ∧
    ∃ m ∈ classPattern.findAll bodiless, m.name 1 = "A" ∧ ∃ header inner after,
      bodiless = header ++ (inner ++ after) ∧ header.length = m.stop.pos ∧
      header.getLast? ≠ some '{' ∧ (inner ++ after).head? ≠ some '{' := by
  have hfacts : (document false (.ofString "a.kt") bodiless).types.map
        (fun t => (t.name, t.methods.map Callable.name)) = [("A", ["f"]), ("B", ["f"])] ∧
      (classPattern.findAll bodiless).map (fun m => (m.name 1, m.stop.pos)) =
        [("A", 9), ("B", 18)] := by
    decide +kernel
  obtain ⟨htypes, hfound⟩ := hfacts
  have hmem : ("A", 9) ∈ (classPattern.findAll bodiless).map fun m => (m.name 1, m.stop.pos) := by
    rw [hfound]
    exact mem_cons_self
  obtain ⟨m, hm, heq⟩ := mem_map.1 hmem
  obtain ⟨hname, hpos⟩ := Prod.mk.inj heq
  obtain ⟨_, _, -, -, hclasses⟩ := document_classMethods false (.ofString "a.kt") bodiless
  obtain ⟨header, inner, after, hsource, hlen, hbrace, -⟩ := hclasses m hm
  have hlast : header.getLast? ≠ some '{' := by
    have hheader : bodiless.take 9 = header := by
      rw [hsource, ← hpos, ← hlen, take_left]
    rw [← hheader]
    decide
  exact ⟨htypes, m, hm, hname, header, inner, after, hsource, hlen, hlast,
    hbrace.resolve_left hlast⟩

end Kotlin

/-! ## All bodies in braces -/

/-- The names of the methods of types. -/
def methodNames (ts : List TypeDecl) : List String :=
  ts.flatMap fun t => t.methods.map Callable.name

/-- The names that are found in a body and shown. -/
def shownNames (p : Pattern) (n : Nat) (reserved : List String) (ep : Bool) (body : List Char) :
    List String :=
  ((p.findAll body).filter fun m =>
    !reserved.contains (m.name n) && keepsName ep (m.group n)).map (·.name n)

namespace Language

/-- The names of the methods that are found in a body. -/
def namesOf : Language → Bool → List Char → List String
  | cpp => shownNames Cpp.methodPattern 2 Cpp.reserved
  | csharp => shownNames CSharp.methodPattern 2 CSharp.reserved
  | java => shownNames Java.methodPattern 2 []
  | kotlin => shownNames Kotlin.methodPattern 1 []
  | rust => shownNames Rust.functionPattern 1 []
  | typescript => shownNames TypeScript.methodPattern 1 TypeScript.reserved
  | _ => fun _ _ => []

/-- Where the bodies start in which the methods of the types of a file are searched. -/
def bodyStarts (lang : Language) (ep : Bool) (source : List Char) : List Nat :=
  let found (p : Pattern) : List Match :=
    (p.findAll source).filter fun m => keepsName ep (m.group 1)
  let behind (p : Pattern) : List Nat := (found p).map fun m => m.stop.pos
  match lang with
  | cpp => behind Cpp.classPattern
  | csharp => behind CSharp.classPattern ++ behind CSharp.structPattern
  | java => behind Java.classPattern
  | kotlin => behind Kotlin.classPattern
  | rust => (found Rust.structPattern).flatMap fun m =>
      ((Rust.implPattern.findAll source).filter fun i => i.group 2 == m.group 1).map (·.stop.pos)
  | typescript => behind TypeScript.classPattern
  | _ => []

end Language

section Names

open Text

variable {lang : Language} {ep : Bool} {path : Path} {source : List Char} {d : ModuleDoc}

theorem methodNames_append_bare {ms : List Match} {type : Match → TypeDecl} {ts : List TypeDecl}
    (h : ∀ m, (type m).methods = []) :
    methodNames (ts ++ ms.map type) = methodNames ts := by
  simp [methodNames, h]

theorem methodNames_map {p : Pattern} {keeps : Match → Bool} {type : Match → TypeDecl}
    {names : List Char → List String}
    (h : ∀ m, (type m).methods.map Callable.name = names (braceBody m.stop.rest)) :
    methodNames (((p.findAll source).filter keeps).map type) =
      (((p.findAll source).filter keeps).map fun m => m.stop.pos).flatMap fun start =>
        names (braceBody (source.drop start)) := by
  rw [methodNames, flatMap_map, flatMap_map]
  refine flatMap_congr fun m hm => ?_
  rw [h, rest_stop (mem_filter.1 hm).1]

theorem methodNames_mapM {ms : List Match} {methods : Match → Except Fault (List Callable)}
    {type : Match → List Callable → TypeDecl} {ts : List TypeDecl} {f : Nat → List String}
    (h : ms.mapM (fun m => do pure (type m (← methods m))) = .ok ts)
    (htype : ∀ m fs, (type m fs).methods = fs)
    (hmethods : ∀ m ∈ ms, ∀ fs, methods m = .ok fs → fs.map Callable.name = f m.stop.pos) :
    methodNames ts = (ms.map fun m => m.stop.pos).flatMap f := by
  rw [methodNames, flatMap_def, flatMap_map, flatMap_def]
  refine congrArg flatten (Except.map_of_mapM_bind h fun m hm fs hfs => ?_)
  rw [htype, hmethods m hm fs hfs]

/-- The methods of the types of a file are found in its bodies, body by body. -/
theorem methodNames_document (hlang : lang ∈ [.typescript, .java, .csharp, .cpp, .rust, .kotlin])
    (h : lang.document ep path source = .ok (some d)) :
    methodNames d.types = (lang.bodyStarts ep source).flatMap fun start =>
      lang.namesOf ep (braceBody (source.drop start)) := by
  cases lang with
  | cpp | typescript =>
    obtain rfl := Option.some.inj (Except.ok.inj h)
    refine (methodNames_append_bare fun _ => rfl).trans ?_
    exact methodNames_map fun _ => map_map
  | csharp =>
    have hd : CSharp.document ep path source = .ok d := Language.map_some_inj.1 h
    obtain ⟨classes, hclasses, hd⟩ := Except.bind_ok_iff.1 hd
    obtain ⟨structs, hstructs, hd⟩ := Except.bind_ok_iff.1 hd
    obtain rfl := Except.pure_ok_iff.1 hd
    have hnames (m : Match) (fs : List Callable)
        (hfs : CSharp.methods ep source m.stop.pos = .ok fs) : fs.map Callable.name =
          Language.csharp.namesOf ep (braceBody (source.drop m.stop.pos)) :=
      Except.map_of_mapM_bind hfs fun _ _ _ _ => rfl
    -- Interfaces and enumerations have no methods and stand behind classes and structures.
    refine (methodNames_append_bare fun _ => rfl).trans ?_
    refine flatMap_append.trans (Eq.trans ?_ flatMap_append.symm)
    refine congrArg₂ _ ((methodNames_append_bare fun _ => rfl).trans ?_) ?_
    · exact methodNames_mapM hclasses (fun _ _ => rfl) fun m _ => hnames m
    · exact methodNames_mapM hstructs (fun _ _ => rfl) fun m _ => hnames m
  | java =>
    have hd : Java.document ep path source = .ok d := Language.map_some_inj.1 h
    obtain ⟨classes, hclasses, hd⟩ := Except.bind_ok_iff.1 hd
    obtain rfl := Except.pure_ok_iff.1 hd
    refine (methodNames_append_bare fun _ => rfl).trans ?_
    refine (methodNames_append_bare fun _ => rfl).trans ?_
    refine methodNames_mapM hclasses (fun _ _ => rfl) fun m hm fs hfs => ?_
    rw [← rest_stop (mem_filter.1 hm).1]
    exact Except.map_of_mapM_bind hfs fun _ _ _ _ => rfl
  | kotlin =>
    obtain rfl := Option.some.inj (Except.ok.inj h)
    refine (methodNames_append_bare fun _ => rfl).trans ?_
    refine (methodNames_append_bare fun _ => rfl).trans ?_
    exact methodNames_map fun _ => map_map
  | rust =>
    obtain rfl := Option.some.inj (Except.ok.inj h)
    refine (methodNames_append_bare fun _ => rfl).trans ?_
    refine (methodNames_append_bare fun _ => rfl).trans ?_
    simp only [methodNames, Language.bodyStarts, flatMap_map, flatMap_assoc]
    refine flatMap_congr fun m _ => ?_
    exact (Rust.map_name_methods ep source _).trans (flatMap_map ..)
  | _ => simp at hlang

end Names

open Text

/-- **Bodies.** Behind any place of a text, the body is the shortest part that closes one more brace
than it opens, or all that follows if there is none. So a balanced text with a brace behind it is a
body whatever follows, and in every language with braces the methods of the types of a file are
those that are found in such bodies. -/
theorem bodyAt_shortest :
    (∀ (source : List Char) (start : Nat),
      bodyAt source start = some (braceBody (source.drop start)) ∧
        ∀ body, IsBody (source.drop start) body ↔ body = braceBody (source.drop start)) ∧
    (∀ b rest, Balanced b → braceBody (b ++ '}' :: rest) = b ++ ['}']) ∧
    ∀ lang ∈ [.typescript, .java, .csharp, .cpp, .rust, .kotlin], ∀ ep path source d,
      Language.document lang ep path source = .ok (some d) →
        methodNames d.types = (lang.bodyStarts ep source).flatMap fun start =>
          lang.namesOf ep (braceBody (source.drop start)) := by
  refine ⟨fun source start => ⟨rfl, fun body => ⟨fun h => ?_, ?_⟩⟩, fun b rest h => ?_,
    fun lang hlang ep path source d => methodNames_document hlang⟩
  · exact h.unique (isBody_braceBody _)
  · rintro rfl
    exact isBody_braceBody _
  · exact (isBody_braceBody _).unique (h.isBody rest)

/-- A class with a method that opens a brace of its own. -/
def bracing : List Char := "class A \x7b\n  void f() \x7b if (a) \x7b\x7d \x7d\n\x7d;\n".toList

theorem bodyAt_shortest_nested : Balanced ['{', '}'] ∧
    braceBody ['{', '}', '}', '}'] = ['{', '}', '}'] ∧
    ∃ d, Language.cpp.document false (.ofString "a.cpp") bracing = .ok (some d) ∧
      methodNames d.types = ["f"] ∧ ((Language.cpp.bodyStarts false bracing).flatMap fun start =>
        Language.cpp.namesOf false (braceBody (bracing.drop start))) = ["f"] := by
  have hbalanced : Balanced ['{', '}'] := by
    refine ⟨rfl, fun t ht => ?_⟩
    have hall : ∀ n ≤ 2, (['{', '}'].take n).count '}' ≤ (['{', '}'].take n).count '{' := by decide
    rw [prefix_iff_eq_take.1 ht]
    exact hall _ ht.length_le
  have hnames : methodNames (Cpp.document false (.ofString "a.cpp") bracing).types = ["f"] := by
    decide +kernel
  refine ⟨hbalanced, bodyAt_shortest.2.1 _ ['}'] hbalanced, _, rfl, hnames, ?_⟩
  rw [← hnames]
  exact (bodyAt_shortest.2.2 .cpp (by decide) false (.ofString "a.cpp") bracing _ rfl).symm

end Docsmith
