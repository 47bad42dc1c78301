/-
What the signature of a Python function says of its parameters.

A signature has an item for each parameter, but neither the slash behind parameters that are given by
place only nor the star before those that are given by name only. So it is that of other parameters
(`unmarked`) too, and the grammar takes it for these. Each item has the default of its parameter,
although the tree lists the defaults apart (`params_eq`). What the printed hints and defaults are read
as is not looked at.
-/
import Docsmith.Language.Python

namespace Docsmith.Language.Python

open Syntax Grammar ParameterItem

def shownItems (ps : Parameters) : List ParameterItem :=
  (ps.positionalOnly ++ ps.positional).map plain ++ ps.variadic.toList.map variadic ++
    ps.keywordOnly.map plain ++ ps.keywords.toList.map keywords

def itemText : ParameterItem → String
  | .plain p => (param "" p p.default).signature
  | .slash => "/"
  | .star => "*"
  | .variadic p => (param "*" p none).signature
  | .keywords p => (param "**" p none).signature

/-- The parameters that the items of a signature stand for. -/
def unmarked (ps : Parameters) : Parameters :=
  match ps.variadic with
  | none => ⟨[], ps.positionalOnly ++ ps.positional ++ ps.keywordOnly, none, [], ps.keywords⟩
  | some v => ⟨[], ps.positionalOnly ++ ps.positional, some v, ps.keywordOnly, ps.keywords⟩

/-! ## The defaults -/

section Defaults

variable {ps : List Parameter}

theorem getElem?_defaults (h : ∀ p ∈ ps, p.default.isSome = true) :
    (ps.filterMap Parameter.default).length = ps.length ∧
      ∀ i : Nat, (ps.filterMap Parameter.default)[i]? = ps[i]?.bind Parameter.default := by
  induction ps with
  | nil => exact ⟨rfl, fun _ => rfl⟩
  | cons p ps ih =>
    obtain ⟨hlen, hget⟩ := ih fun q hq => h q (List.mem_cons_of_mem _ hq)
    obtain ⟨e, he⟩ := Option.isSome_iff_exists.1 (h p List.mem_cons_self)
    rw [List.filterMap_cons_some he]
    refine ⟨congrArg (· + 1) hlen, fun i => ?_⟩
    cases i with
    | zero => exact he.symm
    | succ i => exact hget i

/-- Where defaults come last, each is given back to its parameter. -/
theorem defaultAt_eq (h : defaultsLast ps = true) {p : Parameter} {i : Nat} (hp : ps[i]? = some p) :
    defaultAt ps (ps.filterMap Parameter.default) i = p.default := by
  induction ps generalizing i with
  | nil => cases hp
  | cons q ps ih =>
    cases hq : q.default with
    | none =>
      have hlast : defaultsLast ps = true := by simpa [defaultsLast, hq] using h
      have hle : (ps.filterMap Parameter.default).length ≤ ps.length := List.length_filterMap_le _ _
      rw [List.filterMap_cons_none hq]
      cases i with
      | zero =>
        obtain rfl : q = p := Option.some.inj hp
        rw [defaultAt, List.length_cons, if_neg (by omega), hq]
      | succ i =>
        rw [← ih hlast hp]
        simp only [defaultAt, List.length_cons, Nat.add_right_comm i 1, Nat.add_le_add_iff_right,
          Nat.add_sub_add_right]
    | some e =>
      have hall : ∀ r ∈ q :: ps, r.default.isSome = true := by
        simpa [defaultsLast, hq] using h
      obtain ⟨hlen, hget⟩ := getElem?_defaults hall
      rw [defaultAt, hlen, if_pos (Nat.le_add_left _ _), Nat.add_sub_cancel, hget, hp]
      rfl

theorem map_zipIdx {f : Parameter → Option Expr → Param} {g : Nat → Option Expr}
    (h : ∀ i p, ps[i]? = some p → g i = p.default) :
    ps.zipIdx.map (fun (p, i) => f p (g i)) = ps.map fun p => f p p.default := by
  refine List.ext_getElem? fun i => ?_
  rw [List.getElem?_map, List.getElem?_map, List.getElem?_zipIdx]
  cases hi : ps[i]? with
  | none => rfl
  | some p => simp [h i p hi]

end Defaults

theorem params_eq {ps : Parameters} (h : defaultsLast (ps.positionalOnly ++ ps.positional) = true) :
    params ps = (ps.positionalOnly ++ ps.positional).map (fun p => param "" p p.default) ++
      ps.variadic.toList.map (param "*" · none) ++
      ps.keywordOnly.map (fun p => param "" p p.default) ++
      ps.keywords.toList.map (param "**" · none) := by
  have hnamed (i : Nat) (p : Parameter) (hp : ps.keywordOnly[i]? = some p) :
      (ps.keywordOnly.map Parameter.default)[i]?.join = p.default := by
    rw [List.getElem?_map, hp]
    rfl
  rw [params, map_zipIdx fun i p => defaultAt_eq h, map_zipIdx hnamed]

theorem map_signature_params {ps : Parameters}
    (h : defaultsLast (ps.positionalOnly ++ ps.positional) = true) :
    (params ps).map Param.signature = (shownItems ps).map itemText := by
  simp only [params_eq h, shownItems, List.map_append, List.map_map]
  rfl

theorem shownItems_unmarked (ps : Parameters) : shownItems (unmarked ps) = shownItems ps := by
  obtain ⟨posOnly, pos, v, only, kw⟩ := ps
  cases v <;> simp [shownItems, unmarked]

theorem unmarked_eq_self {ps : Parameters} : unmarked ps = ps ↔
    ps.positionalOnly = [] ∧ (ps.keywordOnly = [] ∨ ps.variadic.isSome = true) := by
  obtain ⟨posOnly, pos, v, only, kw⟩ := ps
  cases v <;> simp +contextual [unmarked]

/-! ## Sorting the items -/

theorem defaultsLast_of_sortParameters {items : List ParameterItem} {ps : Parameters}
    (h : sortParameters items = some ps) :
    defaultsLast (ps.positionalOnly ++ ps.positional) = true := by
  simp only [sortParameters, Option.bind_eq_bind, Option.bind_eq_some_iff] at h
  obtain ⟨front, -, behind, -, h⟩ := h
  split at h
  next hlast =>
    obtain rfl := Option.some.inj h
    exact hlast
  next => cases h

theorem mapM_plain? (ps : List Parameter) : (ps.map plain).mapM plain? = some ps := by
  induction ps with
  | nil => rfl
  | cons p ps ih =>
    rw [List.map_cons, List.mapM_cons, ih]
    rfl

theorem sortParameters_plain (ps : List Parameter) {rest : List ParameterItem}
    (hrest : rest.head?.all (·.isBound) = true) :
    sortParameters (ps.map plain ++ rest) = (sortBehind rest).bind fun b =>
      if defaultsLast ps then some ⟨[], ps, b.1, b.2.1, b.2.2⟩ else none := by
  have hplain : ∀ i ∈ ps.map plain, (!i.isBound) = true := by simp [isBound]
  have hslash : (ps.map plain).any (·.isSlash) = false := by simp [isSlash]
  have hfront : sortFront (ps.map plain) = some ([], ps) := by
    rw [sortFront, hslash, if_neg (by decide), mapM_plain?]
    rfl
  have hcut : rest.takeWhile (!·.isBound) = [] ∧ rest.dropWhile (!·.isBound) = rest := by
    cases rest <;> simp_all
  rw [sortParameters, List.takeWhile_append_of_pos hplain, List.dropWhile_append_of_pos hplain,
    hcut.1, hcut.2, List.append_nil, hfront]
  rfl

theorem sortBehind_variadic (v : Parameter) (ps : List Parameter) (kw : Option Parameter) :
    sortBehind (variadic v :: (ps.map plain ++ kw.toList.map keywords)) = some (some v, ps, kw) := by
  have hplain : ∀ i ∈ ps.map plain, (!i.isKeywords) = true := by simp [isKeywords]
  have hcut : (kw.toList.map keywords).takeWhile (!·.isKeywords) = [] ∧
      (kw.toList.map keywords).dropWhile (!·.isKeywords) = kw.toList.map keywords := by
    cases kw <;> exact ⟨rfl, rfl⟩
  simp only [sortBehind, List.takeWhile_append_of_pos hplain, List.dropWhile_append_of_pos hplain,
    hcut, List.append_nil, mapM_plain?]
  cases kw <;> rfl

theorem sortParameters_shownItems (ps : Parameters) : sortParameters (shownItems ps) =
    if defaultsLast (unmarked ps).positional then some (unmarked ps) else none := by
  obtain ⟨posOnly, pos, v, only, kw⟩ := ps
  cases v with
  | none =>
    have hbehind : sortBehind (kw.toList.map keywords) = some (none, [], kw) := by cases kw <;> rfl
    have hitems : shownItems ⟨posOnly, pos, none, only, kw⟩ =
        (posOnly ++ pos ++ only).map plain ++ kw.toList.map keywords := by simp [shownItems]
    rw [hitems, sortParameters_plain _ (by cases kw <;> rfl), hbehind]
    rfl
  | some v =>
    have hitems : shownItems ⟨posOnly, pos, some v, only, kw⟩ = (posOnly ++ pos).map plain ++
        variadic v :: (only.map plain ++ kw.toList.map keywords) := by simp [shownItems]
    rw [hitems, sortParameters_plain _ rfl, sortBehind_variadic]
    rfl

/-- **Signatures.** The signature of a definition with the parameters `ps` is written from items that
it shares with `unmarked ps`. The grammar takes the items for these, if their defaults come last, so
for `ps` exactly if no parameter is given by place only, and none by name only without a variadic one
before it. -/
theorem callable_signature {s : Stmt} {isAsync : Bool} {name : String} {ps : Parameters}
    {result : Option Expr} {decorators : List Expr} {body : List Stmt}
    (hform : s.form = .function isAsync name ps result decorators body)
    {items : List ParameterItem} (hps : sortParameters items = some ps) (isMethod : Bool) :
    ∃ f, callable? isMethod s = some f ∧
      f.signature = (if isAsync then "async def " else "def ") ++ name ++ "(" ++
        ", ".intercalate ((shownItems ps).map itemText) ++ ")" ++
        (if (shown? result).isEmpty then "" else " -> " ++ shown? result) ∧
      shownItems (unmarked ps) = shownItems ps ∧
      (∀ qs, sortParameters (shownItems ps) = some qs ↔
        qs = unmarked ps ∧ defaultsLast qs.positional = true) ∧
      (sortParameters (shownItems ps) = some ps ↔
        ps.positionalOnly = [] ∧ (ps.keywordOnly = [] ∨ ps.variadic.isSome = true)) := by
  have hsort (qs : Parameters) : sortParameters (shownItems ps) = some qs ↔
      qs = unmarked ps ∧ defaultsLast qs.positional = true := by
    rw [sortParameters_shownItems]
    grind
  have hlast := defaultsLast_of_sortParameters hps
  refine ⟨_, by rw [callable?, hform], ?_, shownItems_unmarked ps, hsort, ?_⟩
  · rw [← map_signature_params hlast]
    rfl
  · rw [hsort, ← unmarked_eq_self]
    refine ⟨fun h => h.1.symm, fun h => ⟨h.symm, ?_⟩⟩
    rwa [(unmarked_eq_self.1 h).1] at hlast

def slashed : Parameters := ⟨[⟨"a", none, none⟩], [⟨"b", none, none⟩], none, [], none⟩

theorem callable_signature_slashed :
    sortParameters [plain ⟨"a", none, none⟩, slash, plain ⟨"b", none, none⟩] = some slashed ∧
    ∃ f, callable? false ⟨1, 1, .function false "f" slashed none [] []⟩ = some f ∧
      f.signature = "def f(a, b)" ∧ sortParameters (shownItems slashed) ≠ some slashed := by
  have hps : sortParameters [plain ⟨"a", none, none⟩, slash, plain ⟨"b", none, none⟩] =
      some slashed := rfl
  obtain ⟨f, hf, hsignature, -, -, hiff⟩ :=
    callable_signature (s := ⟨1, 1, .function false "f" slashed none [] []⟩) rfl hps false
  exact ⟨hps, f, hf, hsignature.trans (by decide), fun h => nomatch (hiff.1 h).1⟩

end Docsmith.Language.Python
