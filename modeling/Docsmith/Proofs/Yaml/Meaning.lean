/-
What the tokens of a document mean. The composer turns them into nodes, and the nodes are built into
the values that were written: scalars as they were, lists and maps with a number of their own. With
`Document` this gives that reading a document undoes writing it, whatever texts and numbers it
holds, as long as no number has more digits than a number may have.
-/
import Docsmith.Proofs.Yaml.Document

namespace Docsmith.Yaml

open Composer List Value

/-- What is left to read in a document without anchors and directives. -/
def reading (ts : List Token) (n : Nat) : Reading := ⟨ts, n, [], knownHandles⟩

/-- The tokens before which a value is missing. -/
def valueStops : List Token := [.key, .value, .blockEnd]

variable {ts : List Token} {fuel n m m' : Nat} {room : Room}

/-- The kind of a scalar without a tag. -/
def untagged (isPlain : Bool) (text : List Char) : Tag := if isPlain then formTag text else .str

theorem node_scalar (isPlain : Bool) (text : List Char) :
    (node (fuel + 1) room).run (reading (.scalar isPlain text :: ts) n) =
      some (.scalar n (untagged isPlain text) text, reading ts (n + 1)) := by
  cases room <;> cases isPlain <;> rfl

theorem node_brackets :
    (node (fuel + 2) room).run (reading (.flowSequence :: .flowSequenceEnd :: ts) n) =
      some (.sequence n .seq [], reading ts (n + 1)) := by
  cases room <;> rfl

theorem node_entries {us : List Token} {xs : List Node}
    (h : (entries fuel).run (reading (.blockEntry :: ts) n) = some (xs, reading us m)) :
    (node (fuel + 1) .blockOrEntries).run (reading (.blockEntry :: ts) n) =
      some (.sequence m .seq xs, reading us (m + 1)) := by
  have hstep : (node (fuel + 1) .blockOrEntries).run (reading (.blockEntry :: ts) n) =
      ((entries fuel).run (reading (.blockEntry :: ts) n)).bind fun (xs, r) =>
        some (.sequence r.next .seq xs, { r with next := r.next + 1 }) := rfl
  rw [hstep, h]
  rfl

variable {ps : List (Node × Node)} {vs : List (String × Value)} {es : List (String × Field)}

theorem node_mapping {us : List Token} (room : Room) (hroom : room ≠ .flow)
    (h : (blockPairs fuel).run (reading ts n) = some (ps, reading us m)) :
    (node (fuel + 1) room).run (reading (.blockMapping :: ts) n) =
      some (.mapping m .map ps, reading us (m + 1)) := by
  have hstep : (node (fuel + 1) room).run (reading (.blockMapping :: ts) n) =
      ((blockPairs fuel).run (reading ts n)).bind fun (ps, r) =>
        some (.mapping r.next .map ps, { r with next := r.next + 1 }) := by
    cases room with
    | flow => exact absurd rfl hroom
    | block | blockOrEntries => rfl
  rw [hstep, h]
  rfl

theorem entries_scalar {us : List Token} {xs : List Node} (isPlain : Bool) (text : List Char)
    (h : (entries (fuel + 2)).run (reading ts (n + 1)) = some (xs, reading us m)) :
    (entries (fuel + 3)).run (reading (.blockEntry :: .scalar isPlain text :: ts) n) =
      some (.scalar n (untagged isPlain text) text :: xs, reading us m) := by
  have hstep : (entries (fuel + 3)).run (reading (.blockEntry :: .scalar isPlain text :: ts) n) =
      ((entries (fuel + 2)).run (reading ts (n + 1))).bind fun (xs, r) =>
        some (.scalar n (untagged isPlain text) text :: xs, r) := by
    cases isPlain <;> rfl
  rw [hstep, h]
  rfl

theorem entries_end (hts : ts.head? ≠ some .blockEntry) :
    (entries (fuel + 1)).run (reading ts n) = some ([], reading ts n) := by
  simp [entries, takes, sees, peek, reading, hts]

theorem nodeUnless_eq {t : Token} (ht : t ∉ valueStops) :
    (nodeUnless (fuel + 1) room valueStops).run (reading (t :: ts) n) =
      (node fuel room).run (reading (t :: ts) n) := by
  simp [nodeUnless, sees, peek, reading, ht]

theorem blockPairs_key {us vs : List Token} {v : Node} (k : List Char)
    (hv : (nodeUnless (fuel + 1) .blockOrEntries valueStops).run (reading ts (n + 1)) =
      some (v, reading us m))
    (hps : (blockPairs (fuel + 2)).run (reading us m) = some (ps, reading vs m')) :
    (blockPairs (fuel + 3)).run (reading (.key :: .scalar true k :: .value :: ts) n) =
      some ((.scalar n (formTag k) k, v) :: ps, reading vs m') := by
  have hstep : (blockPairs (fuel + 3)).run (reading (.key :: .scalar true k :: .value :: ts) n) =
      ((nodeUnless (fuel + 1) .blockOrEntries valueStops).run (reading ts (n + 1))).bind
        fun (v, r) => ((blockPairs (fuel + 2)).run r).bind
          fun (ps, r) => some ((.scalar n (formTag k) k, v) :: ps, r) := rfl
  simp only [hstep, hv, Option.bind_some, hps]

theorem blockPairs_end :
    (blockPairs (fuel + 1)).run (reading (.blockEnd :: ts) n) = some ([], reading ts n) := rfl

/-! ## Scalars and lists -/

namespace Atom

theorem number_value (a : Atom) (n : Nat) : number n a.value = a.value := by
  cases a <;> rfl

theorem bare_value (a : Atom) : a.value.bare = a.value := by
  cases a <;> simp [value, bare]

theorem untagged_scalar (a : Atom) :
    untagged (a.scalar.style false = .plain) a.scalar.text = a.scalar.tag := by
  rw [untagged]
  by_cases hstyle : a.scalar.style false = .plain
  · rw [if_pos (decide_eq_true hstyle)]
    rcases Scalar.style_cases a.prefersBlock_scalar with ⟨-, hform, -⟩ | ⟨hother, -⟩ | hother
    · exact hform
    · simp [hstyle] at hother
    · simp [hstyle] at hother
  · rw [if_neg (by simpa using hstyle)]
    exact (a.style_or_tag.resolve_left hstyle).symm

theorem scalarValue?_scalar {a : Atom} (ha : isWritable a.value = true) :
    scalarValue? a.scalar.tag a.scalar.text = some a.value := by
  cases a with
  | bool b => cases b <;> rfl
  | int i =>
    have hdigits : (Nat.toDigits 10 i.natAbs).length ≤ Written.maxDigits := by
      simpa [value, isWritable] using ha
    simp only [scalar, value, scalarValue?]
    rw [int?_toString hdigits]
    rfl
  | text s => simp [scalar, value, scalarValue?]

theorem build_scalar {a : Atom} (ha : isWritable a.value = true) (n : Nat) :
    build (.scalar n (untagged (a.scalar.style false = .plain) a.scalar.text) a.scalar.text) =
      some a.value := by
  rw [untagged_scalar, build, scalarValue?_scalar ha, Option.map_some, number_value]

end Atom

theorem bareItems_map (as : List Atom) :
    bareItems (as.map Atom.value) = as.map Atom.value := by
  induction as with
  | nil => rfl
  | cons a as ih => rw [map_cons, bareItems, a.bare_value, ih]

theorem areWritable_iff {vs : List Value} :
    areWritable vs = true ↔ ∀ v ∈ vs, isWritable v = true := by
  induction vs with
  | nil => simp [areWritable]
  | cons v vs ih => simp [areWritable, ih]

theorem exists_entries_items (fuel : Nat) (as : List Atom)
    (has : ∀ a ∈ as, isWritable a.value = true) (hts : ts.head? ≠ some .blockEntry)
    (hfuel : as.length + 3 ≤ fuel) (n : Nat) :
    ∃ xs m, (entries fuel).run (reading (itemTokens (as.map Atom.scalar) ++ ts) n) =
        some (xs, reading ts m) ∧ buildItems xs = some (as.map Atom.value) := by
  induction as generalizing fuel n with
  | nil =>
    obtain ⟨fuel, rfl⟩ : ∃ k, fuel = k + 1 := ⟨fuel - 1, by omega⟩
    exact ⟨[], n, entries_end hts, by simp [buildItems]⟩
  | cons a as ih =>
    rw [length_cons] at hfuel
    obtain ⟨fuel, rfl⟩ : ∃ k, fuel = k + 3 := ⟨fuel - 3, by omega⟩
    obtain ⟨xs, m, hxs, hbuild⟩ := ih (fuel + 2) (fun x hx => has x (mem_cons_of_mem _ hx))
      (by omega) (n + 1)
    refine ⟨_, m, entries_scalar _ _ hxs, ?_⟩
    simp only [buildItems, Atom.build_scalar (has a mem_cons_self), hbuild]
    rfl

theorem length_itemTokens (xs : List Scalar) : (itemTokens xs).length = 2 * xs.length := by
  induction xs with
  | nil => rfl
  | cons x xs ih =>
    rw [itemTokens, flatMap_cons, ← itemTokens, length_append, ih]
    show 2 + 2 * xs.length = 2 * (xs.length + 1)
    omega

theorem Field.exists_node (f : Field) (fuel : Nat) (hf : isWritable f.value = true)
    (hts : ts.head? ≠ some .blockEntry) (hfuel : f.content.tokens.length + 5 ≤ fuel) (n : Nat) :
    ∃ x m v, (nodeUnless fuel .blockOrEntries valueStops).run (reading (f.content.tokens ++ ts) n) =
        some (x, reading ts m) ∧ build x = some v ∧ v.bare = f.value := by
  obtain ⟨fuel, rfl⟩ : ∃ k, fuel = k + 4 := ⟨fuel - 4, by omega⟩
  cases f with
  | atom a =>
    refine ⟨_, n + 1, a.value, (nodeUnless_eq ?_).trans (node_scalar _ _), a.build_scalar hf n,
      a.bare_value⟩
    simp [valueStops, Scalar.token]
  | list as =>
    cases as with
    | nil =>
      refine ⟨_, n + 1, .shared n (.list []), (nodeUnless_eq (by decide)).trans node_brackets,
        ?_, ?_⟩
      · simp [build, buildItems, number]
      · simp [bare, bareItems, value]
    | cons a as =>
      have hlong : (a :: as).length + 3 ≤ fuel + 2 := by
        have : (itemTokens ((a :: as).map Atom.scalar)).length + 5 ≤ fuel + 4 := hfuel
        rw [length_itemTokens, length_map] at this
        omega
      obtain ⟨xs, m, hxs, hbuild⟩ := exists_entries_items (fuel + 2) (a :: as)
        (by simpa [value, isWritable, areWritable_iff] using hf) hts hlong n
      refine ⟨_, m + 1, .shared m (.list ((a :: as).map Atom.value)),
        (nodeUnless_eq (by decide)).trans (node_entries hxs), ?_, ?_⟩
      · simp [build, hbuild, number]
      · rw [bare, bare, bareItems_map, value]

/-! ## Maps -/

/-- Values without the numbers of what they share, under their names. -/
def bares (vs : List (String × Value)) : List (String × Value) := vs.map fun e => (e.1, e.2.bare)

/-- Fields as values under their names. -/
def namedValues (es : List (String × Field)) : List (String × Value) :=
  es.map fun e => (e.1, e.2.value)

/-- Pairs of nodes mean values under names. -/
structure Mean (ps : List (Node × Node)) (vs : List (String × Value)) : Prop where
  merged : buildMerged ps = some []
  own : buildOwn ps = some (vs.map fun e => (.str e.1, e.2))

theorem Mean.nil : Mean [] [] := ⟨by simp [buildMerged], by simp [buildOwn]⟩

theorem Mean.cons {k : String} {x : Node} {v : Value} (n : Nat) (hx : build x = some v)
    (h : Mean ps vs) : Mean ((.scalar n .str k.toList, x) :: ps) ((k, v) :: vs) := by
  refine ⟨?_, ?_⟩
  · rw [buildMerged.eq_def]
    exact (if_neg Tag.noConfusion).trans h.merged
  · have hkey : build (.scalar n .str k.toList) = some (.str k) := by
      simp [build, scalarValue?, number]
    rw [buildOwn.eq_def]
    simp [Node.tag, hkey, hx, h.own, bare, isKey]

theorem mapOf_eq (h : (vs.map Prod.fst).Nodup) :
    mapOf (vs.map fun e => (.str e.1, e.2)) = vs.map fun e => (.str e.1, e.2) := by
  rw [mapOf, foldl_map]
  exact @Json.insertAll_new [] vs h

theorem Mean.build_mapping (h : Mean ps vs) (hnodup : (vs.map Prod.fst).Nodup) (n : Nat) :
    build (.mapping n .map ps) = some (.shared n (.object vs)) := by
  have hentries : buildEntries ps = some (vs.map fun e => (.str e.1, e.2)) := by
    simp [buildEntries, h.merged, h.own]
  simp [build, hentries, mapOf_eq hnodup, number, object]

/-- With room for its tokens a map is read up to its end, and its pairs mean values of which `P`
holds. -/
def ReadsMap (ts rest : List Token) (P : List (String × Value) → Prop) : Prop :=
  ∀ fuel n, ts.length + 6 ≤ fuel → ∃ ps m vs,
    (blockPairs fuel).run (reading ts n) = some (ps, reading rest m) ∧ Mean ps vs ∧ P vs

variable {rest us : List Token} {P Q : List (String × Value) → Prop} {k : String}

theorem ReadsMap.mono (h : ReadsMap ts rest P) (hPQ : ∀ vs, P vs → Q vs) : ReadsMap ts rest Q := by
  intro fuel n hfuel
  obtain ⟨ps, m, vs, hps, hmean, hP⟩ := h fuel n hfuel
  exact ⟨ps, m, vs, hps, hmean, hPQ vs hP⟩

theorem readsMap_end (ts : List Token) : ReadsMap (.blockEnd :: ts) ts (· = []) := by
  intro fuel n hfuel
  obtain ⟨fuel, rfl⟩ : ∃ k, fuel = k + 1 := ⟨fuel - 1, by omega⟩
  exact ⟨[], n, [], blockPairs_end, .nil, rfl⟩

theorem formTag_of_isKeyName (hk : isKeyName k = true) : formTag k.toList = .str := by
  simp only [isKeyName, Bool.and_eq_true, beq_iff_eq] at hk
  have hstyle := hk.1.2
  simp only [Scalar.style] at hstyle
  split at hstyle
  · rename_i hplain
    simp only [Bool.and_eq_true, decide_eq_true_eq] at hplain
    exact hplain.1.1.2
  · split at hstyle
    · cases hstyle
    · split at hstyle <;> cases hstyle

theorem ReadsMap.field {f : Field} (hk : isKeyName k = true) (hf : isWritable f.value = true)
    (hts : ts.head? ≠ some .blockEntry) (h : ReadsMap ts rest P) :
    ReadsMap (keyTokens k ++ f.content.tokens ++ ts) rest fun vs =>
      ∃ v vs', vs = (k, v) :: vs' ∧ v.bare = f.value ∧ P vs' := by
  intro fuel n hfuel
  simp only [length_append, keyTokens, length_cons] at hfuel
  obtain ⟨fuel, rfl⟩ : ∃ k, fuel = k + 3 := ⟨fuel - 3, by omega⟩
  obtain ⟨x, m, v, hx, hbuild, hv⟩ := f.exists_node (fuel + 1) hf hts (by omega) (n + 1)
  obtain ⟨ps, m', vs, hps, hmean, hP⟩ := h (fuel + 2) m (by omega)
  refine ⟨_, m', (k, v) :: vs, blockPairs_key _ hx hps, ?_, v, vs, rfl, hv, hP⟩
  rw [formTag_of_isKeyName hk]
  exact hmean.cons n hbuild

theorem ReadsMap.group (hk : isKeyName k = true) (hnodup : ∀ vs, Q vs → (vs.map Prod.fst).Nodup)
    (hlength : us.length ≤ ts.length) (hgroup : ReadsMap ts us Q) (h : ReadsMap us rest P) :
    ReadsMap (keyTokens k ++ .blockMapping :: ts) rest fun vs =>
      ∃ m ws vs', vs = (k, .shared m (.object ws)) :: vs' ∧ Q ws ∧ P vs' := by
  intro fuel n hfuel
  simp only [length_append, keyTokens, length_cons] at hfuel
  obtain ⟨fuel, rfl⟩ : ∃ k, fuel = k + 4 := ⟨fuel - 4, by omega⟩
  obtain ⟨ps, m, ws, hps, hmean, hQ⟩ := hgroup fuel (n + 1) (by omega)
  obtain ⟨ps', m', vs, hps', hmean', hP⟩ := h (fuel + 3) (m + 1) (by omega)
  have hnode := (nodeUnless_eq (by decide)).trans
    (node_mapping .blockOrEntries (by decide) hps)
  refine ⟨_, m', (k, .shared m (.object ws)) :: vs, blockPairs_key _ hnode hps', ?_, m, ws, vs, rfl,
    hQ, hP⟩
  rw [formTag_of_isKeyName hk]
  exact hmean'.cons n (hmean.build_mapping (hnodup ws hQ) m)

theorem head?_entryTokens {es : List (String × Content)} (hts : ts.head? ≠ some .blockEntry) :
    (entryTokens es ++ ts).head? ≠ some .blockEntry := by
  cases es with
  | nil => exact hts
  | cons e es => simp [entryTokens, keyTokens]

theorem ReadsMap.fields (hk : ∀ e ∈ es, isKeyName e.1 = true)
    (hes : ∀ e ∈ es, isWritable e.2.value = true) (hts : ts.head? ≠ some .blockEntry)
    (h : ReadsMap ts rest P) : ReadsMap (entryTokens (contentsOf es) ++ ts) rest fun vs =>
      ∃ vs₁ vs₂, vs = vs₁ ++ vs₂ ∧ bares vs₁ = namedValues es ∧ P vs₂ := by
  induction es with
  | nil =>
    intro fuel n hfuel
    obtain ⟨ps, m, vs, hps, hmean, hP⟩ := h fuel n hfuel
    exact ⟨ps, m, vs, hps, hmean, [], vs, rfl, rfl, hP⟩
  | cons e es ih =>
    have hrest := ih (fun x hx => hk x (mem_cons_of_mem _ hx))
      fun x hx => hes x (mem_cons_of_mem _ hx)
    have hfield := hrest.field (hk e mem_cons_self) (hes e mem_cons_self)
      (head?_entryTokens hts)
    intro fuel n hfuel
    have htokens : entryTokens (contentsOf (e :: es)) ++ ts =
        keyTokens e.1 ++ e.2.content.tokens ++ (entryTokens (contentsOf es) ++ ts) := by
      simp [entryTokens, contentsOf]
    rw [htokens] at hfuel ⊢
    obtain ⟨ps, m, vs, hps, hmean, v, -, rfl, hv, vs₁, vs₂, rfl, hbares, hP⟩ := hfield fuel n hfuel
    refine ⟨ps, m, _, hps, hmean, (e.1, v) :: vs₁, vs₂, rfl, ?_, hP⟩
    show (e.1, v.bare) :: bares vs₁ = (e.1, e.2.value) :: namedValues es
    rw [hv, hbares]

/-! ## Documents -/

theorem entriesWritable_append (es fs : List (Value × Value)) :
    entriesWritable (es ++ fs) = (entriesWritable es && entriesWritable fs) := by
  induction es with
  | nil => simp [entriesWritable]
  | cons e es ih => simp [entriesWritable, ih, Bool.and_assoc]

theorem entriesWritable_valuesOf
    (h : entriesWritable (valuesOf es) = true) : ∀ e ∈ es, isWritable e.2.value = true := by
  induction es with
  | nil => simp
  | cons e es ih =>
    simp only [valuesOf, map_cons, entriesWritable, Bool.and_eq_true] at h
    exact forall_mem_cons.2 ⟨h.1.2, ih h.2⟩

theorem map_fst_of_bares (h : bares vs = namedValues es) : vs.map Prod.fst = es.map Prod.fst := by
  have hfst := congrArg (List.map Prod.fst) h
  simpa [bares, namedValues, Function.comp_def] using hfst

theorem ofTokens?_mapping
    (h : (blockPairs (4 * (ts.length + 1) + 7)).run (reading ts 1) = some (ps, reading [] m)) :
    Node.ofTokens? (.blockMapping :: ts) = some (some (.mapping m .map ps)) := by
  have hstep : Node.ofTokens? (.blockMapping :: ts) =
      ((((node (4 * (ts.length + 1) + 8) .block).run (reading (.blockMapping :: ts) 1)).bind
        fun (n, r) => some (some n, r)).bind
          fun (n, r) => (finish.run r).bind fun (_, r) => some (n, r)).map Prod.fst := rfl
  rw [hstep, node_mapping .block (by decide) h]
  rfl

namespace Document

variable (d : Document)

theorem readsMap_inner (hd : entriesWritable (valuesOf d.inner) = true) (ts : List Token) :
    ReadsMap (entryTokens (contentsOf d.inner) ++ .blockEnd :: ts) ts
      fun ws => bares ws = namedValues d.inner := by
  refine ((readsMap_end ts).fields d.inner_names (entriesWritable_valuesOf hd) (by simp)).mono ?_
  rintro vs ⟨ws, -, rfl, hws, rfl⟩
  rw [append_nil, hws]

def mapTokens : List Token :=
  entryTokens (contentsOf d.outer) ++ (keyTokens d.group ++ .blockMapping ::
    (entryTokens (contentsOf d.inner) ++ [.blockEnd, .blockEnd]))

theorem readsMap_outer (houter : entriesWritable (valuesOf d.outer) = true)
    (hinner : entriesWritable (valuesOf d.inner) = true) :
    ReadsMap d.mapTokens [] fun vs => ∃ us m ws, vs = us ++ [(d.group, .shared m (.object ws))] ∧
      bares us = namedValues d.outer ∧ bares ws = namedValues d.inner := by
  have hnodup : ∀ ws, bares ws = namedValues d.inner → (ws.map Prod.fst).Nodup := fun ws hws => by
    rw [map_fst_of_bares hws]
    exact d.inner_nodup
  have hlength : [Token.blockEnd].length ≤
      (entryTokens (contentsOf d.inner) ++ [Token.blockEnd, Token.blockEnd]).length := by
    rw [length_append]
    exact Nat.le_add_left_of_le (by decide)
  have hgroup := (d.readsMap_inner hinner [.blockEnd]).group d.group_name hnodup hlength
    (readsMap_end [])
  refine (hgroup.fields d.outer_names (entriesWritable_valuesOf houter)
    (by simp [keyTokens])).mono ?_
  rintro vs ⟨us, -, rfl, hus, m, ws, -, rfl, hws, rfl⟩
  exact ⟨us, m, ws, rfl, hus, hws⟩

/-- What is written for a document is read as its entries, the maps and lists in it numbered. -/
theorem exists_readShared (hd : entriesWritable d.entries = true) : ∃ n us m ws,
    readShared (write d.entries).toList =
      some (.shared n (.object (us ++ [(d.group, .shared m (.object ws))]))) ∧
    bares us = namedValues d.outer ∧ bares ws = namedValues d.inner := by
  have hwritable : entriesWritable (valuesOf d.outer) = true ∧
      entriesWritable (valuesOf d.inner) = true := by
    simpa [entries, entriesWritable_append, entriesWritable, isWritable] using hd
  have htokens : d.lineTokens ++ [.blockEnd, .blockEnd] = .blockMapping :: d.mapTokens := by
    simp [lineTokens, mapTokens]
  obtain ⟨ps, n, -, hps, hmean, us, m, ws, rfl, hus, hws⟩ :=
    d.readsMap_outer hwritable.1 hwritable.2 (4 * (d.mapTokens.length + 1) + 7) 1 (by omega)
  have hnodup : ((us ++ [(d.group, shared m (.object ws))]).map Prod.fst).Nodup := by
    rw [map_append, map_fst_of_bares hus]
    exact d.outer_nodup
  refine ⟨n, us, m, ws, ?_, hus, hws⟩
  simp only [readShared, d.tokensOf_write, htokens, Option.bind_eq_bind, Option.bind_some,
    ofTokens?_mapping hps]
  exact hmean.build_mapping hnodup n

end Document

end Docsmith.Yaml
