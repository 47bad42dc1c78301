/-
Methods that are documented as functions too.

In Kotlin, Ruby and C++ the functions of a file are searched for without regard to its classes, and
their pattern reads whatever the pattern for methods reads (`Within`), but for a C++ method that ends
in `=`. So a method that starts on a line of its own is taken for a function once more, unless it is
part of the text of another one; and a function stands in the body of a class only at the start of a
line (`methods_taken_for_functions`).
-/
import Docsmith.Proofs.Findings

namespace Docsmith

open List

namespace Pattern

/-- Whatever one pattern reads, another reads. -/
def Within (p q : Pattern) : Prop := ∀ b t, p.Reads b t → q.Reads b t

variable {p p' q q' : Pattern} {b t : List Char}

namespace Within

theorem refl (p : Pattern) : Within p p := fun _ _ h => h

theorem seq (hp : Within p p') (hq : Within q q') : Within (p ++ q) (p' ++ q') := by
  intro b t h
  cases h
  next t u ht hu => exact .seq (hp b t ht) (hq _ u hu)

theorem left (hp : Within p p') : Within (p ++ q) (p' ++ q) := hp.seq (refl q)

theorem many (hp : Within p p') : Within (many p) (many p') := by
  intro b t h
  generalize hmany : Pattern.many p = r at h
  induction h with
  | done => exact .done
  | round hne ht _ _ ih =>
    obtain rfl : _ = p := by injection hmany.symm
    exact .round hne (hp _ _ ht) (ih rfl)
  | _ => cases hmany

end Within

theorem reads_lit {s : String} : (lit s).Reads b t ↔ t = s.toList := by
  rw [lit]
  generalize s.toList = cs
  induction cs generalizing b t with
  | nil =>
    constructor
    · rintro ⟨⟩
      rfl
    · rintro rfl
      exact .empty
  | cons c cs ih =>
    constructor
    · intro h
      cases h
      next u v hu hv =>
        cases hu
        next x hx => rw [ih.1 hv, beq_iff_eq.1 hx]; rfl
    · rintro rfl
      exact .seq (t := [c]) (.one (beq_self_eq_true c)) (ih.2 rfl)

theorem reads_oneOf {ws : List String} : (oneOf ws).Reads b t ↔ ∃ w ∈ ws, t = w.toList := by
  fun_induction oneOf ws with
  | case1 =>
    constructor
    · intro h
      cases h
      next hc => cases hc
    · rintro ⟨w, hw, -⟩
      cases hw
  | case2 w => simp [reads_lit]
  | case3 w ws _ ih =>
    constructor
    · intro h
      cases h
      next h => exact ⟨w, mem_cons_self, reads_lit.1 h⟩
      next h =>
        obtain ⟨v, hv, ht⟩ := ih.1 h
        exact ⟨v, mem_cons_of_mem _ hv, ht⟩
    · rintro ⟨v, hv, rfl⟩
      rcases mem_cons.1 hv with rfl | hv
      · exact .altLeft (reads_lit.2 rfl)
      · exact .altRight (ih.2 ⟨v, hv, rfl⟩)

theorem within_modifiers {ws vs : List String} (h : ws ⊆ vs) :
    Within (modifiers ws) (modifiers vs) := by
  refine Within.many (Within.left fun b t ht => ?_)
  obtain ⟨w, hw, rfl⟩ := reads_oneOf.1 ht
  exact reads_oneOf.2 ⟨w, h hw, rfl⟩

theorem within_margin : Within margin1 margin := by
  intro b t h
  cases h
  next ht _ => exact .chars ht (Nat.zero_le _)

theorem all_of_reads_modifiers {ws : List String} {accepts : Char → Bool}
    (hws : (ws.all fun w => w.toList.all accepts) = true)
    (hblank : ∀ c, Text.isBlank c = true → accepts c = true) (h : (modifiers ws).Reads b t) :
    t.all accepts = true := by
  have hkeyword {b t : List Char} (h : (keyword ws).Reads b t) : t.all accepts = true := by
    cases h
    next u v hu hv =>
      obtain ⟨w, hw, rfl⟩ := reads_oneOf.1 hu
      cases hv
      next hv _ =>
        rw [all_append, all_eq_true.1 hws w hw, Bool.true_and, all_eq_true]
        exact fun c hc => hblank c (all_eq_true.1 hv c hc)
  rw [modifiers] at h
  generalize hmany : many (keyword ws) = r at h
  induction h with
  | done => rfl
  | round _ ht _ _ ih =>
    obtain rfl : _ = keyword ws := by injection hmany.symm
    rw [all_append, hkeyword ht, ih rfl]
    rfl
  | _ => cases hmany

/-- What is read in one place is read in another, if that is the start of a line too. -/
theorem Reads.elsewhere (h : p.Reads b t) {b' : List Char}
    (hb : b.getLast?.all (· == '\n') = true → b'.getLast?.all (· == '\n') = true) :
    p.Reads b' t := by
  have hstep {b b' t : List Char}
      (hb : b.getLast?.all (· == '\n') = true → b'.getLast?.all (· == '\n') = true)
      (h : (b ++ t).getLast?.all (· == '\n') = true) :
      (b' ++ t).getLast?.all (· == '\n') = true := by
    rw [getLast?_append] at h ⊢
    cases hlast : t.getLast? with
    | none => exact hb (by simpa [hlast] using h)
    | some c => simpa [hlast] using h
  induction h generalizing b' with
  | empty => exact .empty
  | one h => exact .one h
  | chars h hlong => exact .chars h hlong
  | seq _ _ ihp ihq => exact .seq (ihp hb) (ihq (hstep hb))
  | altLeft _ ih => exact .altLeft (ih hb)
  | altRight _ ih => exact .altRight (ih hb)
  | done => exact .done
  | round hne _ _ ihp ih => exact .round hne (ihp hb) (ih (hstep hb))
  | group _ ih => exact .group (ih hb)
  | lineStart h => exact .lineStart (hb h)
  | textStart => exact .textStart
  | edge => exact .edge

/-- A pattern that reads `v` with whatever it reads behind it. -/
def Absorbs (p : Pattern) (v : List Char) : Prop := ∀ b t, p.Reads (b ++ v) t → p.Reads b (v ++ t)

theorem Absorbs.seq {v : List Char} (h : p.Absorbs v) : (p ++ q).Absorbs v := by
  intro b t ht
  cases ht
  next t u ht hu =>
    rw [← append_assoc]
    exact .seq (h b t ht) (by rwa [← append_assoc])

end Pattern

open Pattern Language

/-! ## Methods and functions -/

theorem Kotlin.within_functionPattern : Within methodPattern functionPattern := by
  have htail : Within (functionTail empty) (functionTail (opt (word ++ lit "."))) :=
    .left (.left (.left (.left (.left (.left (.seq (.refl _) fun b t h => .altRight h))))))
  exact ((Within.refl _).seq within_margin |>.seq (within_modifiers (by decide))).seq htail

def Cpp.isTypeChar (c : Char) : Bool := Text.isWord c || among ":*&<>," c || Text.isBlank c

theorem Cpp.reads_functionPattern {b t : List Char} (h : methodPattern.Reads b t)
    (hlast : t.getLast? ≠ some '=') : functionPattern.Reads b t := by
  have hblank (c : Char) (hc : Text.isBlank c = true) : isTypeChar c = true := by
    simp [isTypeChar, hc]
  cases h
  next lead tail hlead htail =>
  cases hlead
  next start mods hstart hmods =>
  cases hstart
  next t₀ margin hline hmargin =>
  cases hline
  next hb =>
  cases htail
  next front last hfront hstop =>
  cases hstop
  next c hc =>
  -- The margin and the modifiers are read as the start of the type.
  have hmargin : margin.all isTypeChar = true := by
    cases hmargin
    next h _ =>
      rw [all_eq_true]
      intro c hc
      have hmem : c = ' ' ∨ c = '\t' := by simpa [among] using all_eq_true.1 h c hc
      exact hblank c (by rcases hmem with rfl | rfl <;> rfl)
  have hmods : mods.all isTypeChar = true := all_of_reads_modifiers (by decide) hblank hmods
  have habsorbs : (group 1 (chars isTypeChar 1 false)).Absorbs (margin ++ mods) := by
    rintro b t (_ | _ | _ | _ | _ | _ | _ | _ | ⟨h⟩)
    cases h
    next h hlong =>
      refine .group (.chars ?_ (by simp only [length_append]; omega))
      rw [all_append, all_append, hmargin, hmods, h]
      rfl
  have hc : c ∈ ['\x7b', ';'] := by
    have hne : c ≠ '=' := by simpa using hlast
    have hmem : c ∈ ['\x7b', ';', '='] := by simpa [among] using hc
    simpa [hne] using hmem
  rw [nil_append] at hfront
  have hfront := habsorbs.seq.seq.seq.seq.seq.seq.seq b front hfront
  have hread : (functionTail "\x7b;").Reads b ((margin ++ mods ++ front) ++ [c]) :=
    .seq hfront (.one (by simpa [among] using hc))
  have hall : functionPattern.Reads b (([] ++ []) ++ ((margin ++ mods ++ front) ++ [c])) :=
    .seq (.seq (.lineStart hb) .done) (by simpa using hread)
  simpa using hall

/-- Whether a function that was found is documented. -/
def Language.keepsFunction (ep : Bool) : Language → Match → Bool
  | .cpp, m => keepsName ep (m.group 2) &&
      !(Cpp.reserved ++ ["sizeof", "typedef"]).contains (m.name 2) && !Text.allUpper (m.group 2)
  | _, m => keepsName ep (m.group 1)

section Methods

variable {lang : Language} {ep : Bool} {path : Path} {source b t : List Char} {d : ModuleDoc}

theorem reads_function (hlang : lang ∈ [.cpp, .kotlin, .ruby]) {p : Pattern}
    (hp : p ∈ lang.patterns .method) (h : p.Reads b t)
    (hlast : lang = .cpp → t.getLast? ≠ some '=') :
    ∃ q ∈ lang.patterns .function, q.isLocal = true ∧ q.Reads b t := by
  simp only [mem_cons, not_mem_nil, or_false] at hlang
  rcases hlang with rfl | rfl | rfl <;> obtain rfl := mem_singleton.1 hp
  · exact ⟨_, mem_singleton_self _, by decide, Cpp.reads_functionPattern h (hlast rfl)⟩
  · exact ⟨_, mem_singleton_self _, by decide, Kotlin.within_functionPattern b t h⟩
  · exact ⟨_, mem_singleton_self _, by decide, h⟩

theorem exists_mem_functions (hlang : lang ∈ [.cpp, .kotlin, .ruby])
    (h : lang.document ep path source = .ok (some d)) {p : Pattern}
    (hp : p ∈ lang.patterns .function) {m : Match} (hm : m ∈ p.findAll source)
    (hkeeps : lang.keepsFunction ep m = true) :
    ∃ g ∈ d.functions, lang.Sited .function source g.name 0 g.line ⟨0, source, m⟩ := by
  simp only [mem_cons, not_mem_nil, or_false] at hlang
  rcases hlang with rfl | rfl | rfl <;> obtain rfl := mem_singleton.1 hp <;>
    obtain rfl := Option.some.inj (Except.ok.inj h)
  · exact ⟨_, mem_map.2 ⟨m, mem_filter.2 ⟨hm, hkeeps⟩, rfl⟩,
      (documented_of_mem_file hm 2 hp).toSited⟩
  · exact ⟨_, mem_map.2 ⟨m, mem_filter.2 ⟨hm, hkeeps⟩, rfl⟩,
      (documented_of_mem_file hm 1 hp).toSited⟩
  · exact ⟨_, mem_map.2 ⟨m, mem_filter.2 ⟨hm, hkeeps⟩, rfl⟩,
      (documented_of_mem_file hm 1 hp).toSited⟩

/-- The place of a method that starts on a line of its own is the start of a function, or lies in
the text of one. -/
theorem Language.Sited.covered (hlang : lang ∈ [.cpp, .kotlin, .ruby]) {name : String} {origin : Nat}
    {line : Int} {s : Finding} (h : lang.Sited .method source name origin line s)
    (hstart : (source.take s.pos).getLast?.all (· == '\n') = true)
    (hlast : lang = .cpp → s.found.stop.before ≠ some '=') :
    ∃ p ∈ lang.patterns .function, ∃ m ∈ p.findAll source, m.start.pos ≤ s.pos ∧
      (m.start.pos = s.pos ∨ s.pos < m.stop.pos) := by
  obtain ⟨p, hp, hm⟩ := h.found
  obtain ⟨b, t, u, htext, ht, hbegin, hstop⟩ := reads_of_mem_findAll hm
  have hend : lang = .cpp → t.getLast? ≠ some '=' := by
    intro hcpp hequals
    refine hlast hcpp ?_
    rw [hstop]
    simp [Cursor.between, getLast?_append, hequals]
  obtain ⟨q, hq, hlocal, hread⟩ := reads_function hlang hp ht hend
  obtain ⟨v, hv⟩ := h.piece
  have hpos : s.pos = s.start + b.length := by rw [Finding.pos, hbegin]; rfl
  have hrest : source.drop s.pos = t ++ (u ++ v) := by
    rw [hpos, ← drop_drop, ← hv, htext, append_assoc, drop_left, append_assoc]
  have hlen : (source.take s.pos).length = s.pos := by
    rw [length_take_of_le]
    have hpiece := congrArg length hv
    rw [htext] at hpiece
    obtain ⟨c, hc, -⟩ := ht.exists_not_isBlank (opens_patterns hp).1
    have := length_pos_of_mem hc
    simp only [length_append, length_drop] at hpiece
    omega
  have hmatch := exists_mem_findAll hlocal (hread.elsewhere fun _ => hstart) (u ++ v)
  rw [← hrest, take_append_drop, hlen] at hmatch
  obtain ⟨m, hm, hcovers⟩ := hmatch
  exact ⟨q, hq, m, hm, hcovers⟩

/-- Functions start at the start of a line, in the body of a class or elsewhere. A method that
does so, and in C++ does not end in `=`, is the start of what is found as a function or lies in its
text, and whatever is found so is documented, unless its name excludes it. -/
theorem methods_taken_for_functions (lang : Language) (ep : Bool) (path : Path) (source : List Char)
    (d : ModuleDoc) (hlang : lang ∈ [.cpp, .kotlin, .ruby])
    (h : lang.document ep path source = .ok (some d)) :
    (∀ g ∈ d.functions, ∃ m, lang.Sited .function source g.name 0 g.line ⟨0, source, m⟩ ∧
      (source.take m.start.pos).getLast?.all (· == '\n') = true) ∧
    ∀ t ∈ d.types, ∀ f ∈ t.methods, ∃ origin ∈ lang.origins source t.name,
      ∃ s, lang.Sited .method source f.name origin f.line s ∧
        ((source.take s.pos).getLast?.all (· == '\n') = true →
          (lang = .cpp → s.found.stop.before ≠ some '=') →
          ∃ p ∈ lang.patterns .function, ∃ m ∈ p.findAll source, m.start.pos ≤ s.pos ∧
            (m.start.pos = s.pos ∨ s.pos < m.stop.pos) ∧
            (lang.keepsFunction ep m = true →
              ∃ g ∈ d.functions, lang.Sited .function source g.name 0 g.line ⟨0, source, m⟩)) := by
  have hpython : lang ≠ .python := by
    rintro rfl
    simp at hlang
  obtain ⟨hfunctions, htypes⟩ := locates_of_document hpython h
  refine ⟨fun g hg => ?_, fun t ht f hf => ?_⟩
  · obtain ⟨m, hm⟩ := hfunctions g hg
    exact ⟨m, hm.toSited, hm.toSited.startsLine⟩
  · obtain ⟨origin, horigin, s, hs⟩ := (htypes t ht).2 f hf
    refine ⟨origin, horigin, s, hs.toSited, fun hstart hlast => ?_⟩
    obtain ⟨p, hp, m, hm, hle, hcovers⟩ := hs.toSited.covered hlang hstart hlast
    exact ⟨p, hp, m, hm, hle, hcovers, exists_mem_functions hlang h hp hm⟩

/-- A class with one method, on a line of its own. -/
def oneMember : List Char := "class A\n  def f\n  end\nend\n".toList

theorem methods_taken_for_functions_oneMember :
    (Ruby.document false (.ofString "a.rb") oneMember).functions.map (fun f => (f.name, f.line)) =
      [("f", 2)] ∧
    (Ruby.document false (.ofString "a.rb") oneMember).types.flatMap
      (fun t => t.methods.map fun f => (f.name, f.line)) = [("f", 1)] ∧
    ∀ t ∈ (Ruby.document false (.ofString "a.rb") oneMember).types, ∀ f ∈ t.methods,
      ∃ origin ∈ ruby.origins oneMember t.name,
        ∃ s, ruby.Sited .method oneMember f.name origin f.line s := by
  have hfound : (Ruby.document false (.ofString "a.rb") oneMember).functions.map
        (fun f => (f.name, f.line)) = [("f", 2)] ∧
      (Ruby.document false (.ofString "a.rb") oneMember).types.flatMap
        (fun t => t.methods.map fun f => (f.name, f.line)) = [("f", 1)] := by decide +kernel
  refine ⟨hfound.1, hfound.2, fun t ht f hf => ?_⟩
  obtain ⟨origin, horigin, s, hs, -⟩ := (methods_taken_for_functions .ruby false
    (.ofString "a.rb") oneMember _ (by decide) rfl).2 t ht f hf
  exact ⟨origin, horigin, s, hs⟩

end Methods

end Docsmith
