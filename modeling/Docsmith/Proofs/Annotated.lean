/-
Functions with an annotated result in TypeScript.

The pattern takes the type of a result up to a blank and wants the brace of the body next. So a
declaration `function name(params): type {` is reported if its type has no blank in it, and with a
blank it is not reported at all.
-/
import Docsmith.Proofs.Findings

namespace Docsmith

open List Pattern
open Text (isBlank lineAt)

theorem Pattern.Rejects.opt {p : Pattern} {b r : List Char} {gs : List Capture}
    (h : p.Rejects b r) : (opt p).Takes b [] r gs gs := by
  intro β k _
  rw [Pattern.opt, run, nil_append, h β gs k, append_nil]
  exact run_empty ..

namespace TypeScript

/-- A declaration `function name(params): type {`, possibly exported or asynchronous. -/
structure Annotated where
  isExported : Bool
  isAsync : Bool
  name : List Char
  params : List Char
  type : List Char
  name_ne : name ≠ []
  name_isWord : name.all Text.isWord = true
  params_closed : ')' ∉ params
  type_ne : type ≠ []
  type_closed : '\x7b' ∉ type

def modifier (isThere : Bool) (w : String) : List Char := if isThere then w.toList ++ [' '] else []

def Annotated.text (d : Annotated) : List Char :=
  modifier d.isExported "export" ++ modifier d.isAsync "async" ++ "function".toList ++ [' '] ++
    d.name ++ ('(' :: d.params ++ [')']) ++ ([':'] ++ [' '] ++ d.type) ++ [' '] ++ ['\x7b']

variable {b r : List Char} {gs : List Capture}

theorem takes_modifier {isThere : Bool} {w : String} (hr : r.head?.any isBlank = false)
    (hw : ¬ w.toList <+: r) :
    (opt (lit w ++ blanks1)).Takes b (modifier isThere w) r gs gs := by
  cases isThere with
  | false => exact (rejects_lit hw).seq.opt
  | true => exact ((only_lit w).seq (only_chars (t := [' ']) rfl hr)).takes.alt

theorem takes_blanks {t : List Char} (ht : t.all isBlank = true)
    (hr : r.head?.any isBlank = false) : blanks.Takes b t r gs gs :=
  takes_chars ht hr (Nat.zero_le _)

namespace Annotated

variable (d : Annotated)

theorem takes_words (hb : b.getLast?.all (· == '\n') = true) : (lineStart ++
    opt (lit "export" ++ blanks1) ++ opt (lit "async" ++ blanks1) ++ lit "function" ++ blanks1).Takes b
      (modifier d.isExported "export" ++ modifier d.isAsync "async" ++ "function".toList ++ [' '])
      (d.name ++ r) gs gs := by
  have hname : (d.name ++ r).head?.any isBlank = false := by
    obtain ⟨x, xs, hname⟩ := exists_cons_of_ne_nil d.name_ne
    have hword := all_eq_true.1 d.name_isWord x (hname ▸ mem_cons_self)
    simpa [hname] using Text.isBlank_of_isWord hword
  refine .seq (.seq (.seq ((only_lineStart hb).takes_seq (takes_modifier ?_ ?_))
    (takes_modifier rfl ?_)) (only_lit _).takes) (only_chars rfl hname).takes
  · cases d.isAsync <;> rfl
  · cases d.isAsync <;> simp [modifier]
  · simp

variable {d}

theorem takes_result (htype : d.type.all (!isBlank ·) = true) : (resultPattern 3 "\x7b").Takes b
    ([] ++ [':'] ++ [' '] ++ d.type) (' ' :: r) gs
      (.held 3 (b ++ ([] ++ [':'] ++ [' '])) d.type (' ' :: r) :: gs) := by
  have hhead : (d.type ++ ' ' :: r).head?.any isBlank = false := by
    obtain ⟨x, xs, hcons⟩ := exists_cons_of_ne_nil d.type_ne
    simp_all
  have htaken : d.type.all (fun c => !isBlank c && except "\x7b" c) = true := by
    have := d.type_closed
    simp_all [except]
    grind
  exact .alt (.seq (.seq (.seq (takes_blanks rfl rfl) (only_lit ":").takes) (takes_blanks rfl hhead))
    (.group 3 (takes_chars htaken rfl (length_pos_iff.2 d.type_ne))))

theorem takes (hb : b.getLast?.all (· == '\n') = true)
    (htype : d.type.all (!isBlank ·) = true) (r : List Char) : ∃ hs,
    functionPattern.Takes b d.text r [] hs ∧
      ∀ m : Match, m.groups = hs → m.group 1 = d.name ∧ m.group 3 = d.type := by
  have hopen (u : List Char) : ¬ "<".toList <+: '(' :: u := by simp
  refine ⟨_, .seq (.seq (.seq (.seq (.seq_nil (.seq_nil (.seq_nil (.seq (takes_words d hb)
    (.group 1 (takes_chars d.name_isWord rfl (length_pos_iff.2 d.name_ne))))
    (takes_blanks rfl rfl)) (rejects_lit (hopen _)).seq.seq.opt) (takes_blanks rfl rfl))
    (takes_parens 2 d.params_closed)) (takes_result htype)) (takes_blanks rfl rfl))
    (only_lit "\x7b").takes, fun m hm => ?_⟩
  simp [Match.group, Match.group?, hm]

end Annotated

variable {cs : List Char} {m : Match}

theorem blankless {p : Pattern} (stops : String)
    (hp : p.kept 3 = [run1 fun c => !isBlank c && except stops c]) (h : m ∈ p.findAll cs) :
    (m.group 3).all (!isBlank ·) = true := by
  rcases holds_of_mem_findAll h 3 with h | ⟨q, hq, b, h⟩
  · rw [h]
    rfl
  · rw [hp, mem_singleton] at hq
    subst hq
    cases h
    next h _ => simp_all

theorem Annotated.mem_findAll {d : Annotated} (hb : b.getLast?.all (· == '\n') = true)
    (htype : d.type.all (!isBlank ·) = true)
    (hfree : ∀ m ∈ functionPattern.findAll (b ++ (d.text ++ r)),
      m.stop.pos ≤ b.length ∨ b.length ≤ m.start.pos) :
    ∃ m ∈ functionPattern.findAll (b ++ (d.text ++ r)), m.start.pos = b.length ∧
      m.group 1 = d.name ∧ m.group 3 = d.type := by
  obtain ⟨hs, htakes, hgroups⟩ := takes hb htype r
  obtain ⟨m, hm, hle, hcovers⟩ := exists_mem_scan (a := []) (n := 0)
    (Option.isSome_iff_exists.2 ⟨_, htakes.matchAt⟩) (Nat.zero_le _)
  obtain ⟨b', r', hcs, hmatch⟩ := exists_between_of_mem_scan (b := []) hm
  obtain ⟨t, u, -, -, hstart, -⟩ := reads_of_matchAt hmatch
  have hlength : b'.length = b.length := by
    have := hfree m hm
    simp only [hstart, Cursor.between, nil_append] at this hle hcovers
    omega
  obtain ⟨rfl, rfl⟩ := append_inj hcs.symm hlength
  obtain rfl := Option.some.inj (htakes.matchAt.symm.trans hmatch)
  exact ⟨_, hm, rfl, hgroups _ rfl⟩

/-- **Annotated functions.** No reported result has a blank in it, and a declaration on a line of its
own with a name that is kept, which no match goes over, is reported with its type as the result
exactly if the type has no blank. -/
theorem document_annotated (ep : Bool) (path : Path) (source : List Char) :
    (∀ f ∈ (document ep path source).functions, f.result.toList.all (!isBlank ·) = true) ∧
    ∀ (d : Annotated) (before after : List Char), source = before ++ (d.text ++ after) →
      before.getLast?.all (· == '\n') = true → keepsName ep d.name = true →
      (∀ m ∈ functionPattern.findAll source,
        m.stop.pos ≤ before.length ∨ before.length ≤ m.start.pos) →
      ((∃ f ∈ (document ep path source).functions, f.name = .ofList d.name ∧
        f.result = .ofList d.type ∧ f.line = lineAt source before.length) ↔
          d.type.all (!isBlank ·) = true) := by
  have hblankless : ∀ f ∈ (document ep path source).functions,
      f.result.toList.all (!isBlank ·) = true := by
    simp only [document, mem_append, mem_map, mem_filter]
    rintro _ (⟨m, ⟨hm, -⟩, rfl⟩ | ⟨m, ⟨hm, -⟩, rfl⟩)
    · exact String.toList_ofList ▸ blankless "\x7b" rfl hm
    · exact String.toList_ofList ▸ blankless "=>\x7b" rfl hm
  refine ⟨hblankless, fun d before after hsource hb hkeeps hfree => ⟨?_, fun htype => ?_⟩⟩
  · rintro ⟨f, hf, -, hresult, -⟩
    have := hblankless f hf
    rwa [hresult, String.toList_ofList] at this
  · subst hsource
    obtain ⟨m, hm, hpos, hgroups⟩ := Annotated.mem_findAll hb htype hfree
    refine ⟨_, mem_append_left _ (mem_map.2 ⟨m, mem_filter.2 ⟨hm, ?_⟩, rfl⟩),
      ?_, ?_, ?_⟩
    · rwa [hgroups.1]
    · exact congrArg String.ofList hgroups.1
    · exact congrArg String.ofList hgroups.2
    · exact congrArg (fun n => (lineAt _ n : Int)) hpos

/-- `function f(a: string): Map<string, number> {`. -/
def mapped : Annotated where
  isExported := false
  isAsync := false
  name := "f".toList
  params := "a: string".toList
  type := "Map<string, number>".toList
  name_ne := by decide
  name_isWord := by decide
  params_closed := by decide
  type_ne := by decide
  type_closed := by decide

theorem document_annotated_mapped :
    (document false (.ofString "a.ts") mapped.text).functions.length = 0 ∧
    mapped.type.all (!isBlank ·) = false ∧
    ¬ ∃ f ∈ (document false (.ofString "a.ts") mapped.text).functions, f.name = "f" ∧
      f.result = "Map<string, number>" ∧ f.line = lineAt mapped.text 0 := by
  have hfacts : (functionPattern.findAll mapped.text).isEmpty = true ∧
      (document false (.ofString "a.ts") mapped.text).functions.length = 0 := by decide +kernel
  have hiff := (document_annotated false (.ofString "a.ts") mapped.text).2 mapped [] [] (by simp)
    rfl rfl (by simp [isEmpty_iff.1 hfacts.1])
  exact ⟨hfacts.2, by decide, fun h => absurd (hiff.1 h) (by decide)⟩

end TypeScript

end Docsmith
