/-
Files and folders: what each operation on a tree changes.

A tree that a file system can hold is `WellFormed`: its places are distinct, consist of names, and
lie in folders. `Grown P Q t t'` says that `t'` comes from `t` by writing files at places in `P`
and making folders at places in `Q`; every operation that succeeds is of this kind
(`grown_of_writeBytes`, `makeFolders_spec`), and such operations keep folders and well-formed
trees. `Action.Grows` says the same of an action, however it ends.
-/
import Docsmith.Proofs.Action
import Docsmith.Proofs.Path

namespace Docsmith

open List

namespace FileTree

open Path (IsName Proper)

/-! ## Entries -/

@[simp] theorem at?_nil (t : FileTree) : t.at? [] = some .folder := rfl

variable {loc names : List String} {es : List (List String × Entry)} {e : Entry} {t t' : FileTree}
  {p : Path} {bytes : List UInt8}

theorem at?_of_ne_nil (t : FileTree) (h : loc ≠ []) :
    t.at? loc = (t.entries.find? fun e => e.1 == loc).map Prod.snd := by
  simp [at?, h]

@[simp] theorem put_cwd (t : FileTree) (loc : List String) (e : Entry) :
    (t.put loc e).cwd = t.cwd := by
  unfold put; split <;> rfl

theorem find?_replaced {loc' : List String} (hne : loc' ≠ loc) :
    (es.map fun old => if old.1 == loc then (loc, e) else old).find? (fun x => x.1 == loc') =
      es.find? fun x => x.1 == loc' := by
  induction es with
  | nil => rfl
  | cons x es ih =>
    rw [map_cons, find?_cons, find?_cons, ih]
    by_cases hx : x.1 = loc
    · have h₁ : (loc == loc') = false := by simpa using fun h => hne h.symm
      have h₂ : (x.1 == loc') = false := by rw [hx]; exact h₁
      simp [hx, h₁]
    · simp [hx]

theorem find?_replaced_self (h : es.any fun old => old.1 == loc) :
    (es.map fun old => if old.1 == loc then (loc, e) else old).find? (fun x => x.1 == loc) =
      some (loc, e) := by
  induction es with
  | nil => simp at h
  | cons x es ih =>
    rw [map_cons, find?_cons]
    by_cases hx : x.1 = loc
    · simp [hx]
    · have h' : es.any fun old => old.1 == loc := by simpa [hx] using h
      have hb : (x.1 == loc) = false := by simpa using hx
      simp only [hb, Bool.false_eq_true, if_false]
      exact ih h'

theorem at?_put_self (t : FileTree) (e : Entry) (hloc : loc ≠ []) :
    (t.put loc e).at? loc = some e := by
  rw [at?_of_ne_nil _ hloc, put]
  split
  next h => rw [find?_replaced_self h]; rfl
  next h =>
    have hn : t.entries.find? (fun x => x.1 == loc) = none := by
      rw [find?_eq_none]
      intro x hx hxl
      exact h (any_eq_true.2 ⟨x, hx, hxl⟩)
    simp [find?_append, hn]

theorem at?_put_other (t : FileTree) {loc' : List String} (e : Entry) (hne : loc' ≠ loc) :
    (t.put loc e).at? loc' = t.at? loc' := by
  by_cases hnil : loc' = []
  · subst hnil; rfl
  · rw [at?_of_ne_nil _ hnil, at?_of_ne_nil _ hnil, put]
    split
    · simp only [find?_replaced hne]
    · simp only [find?_append]
      cases t.entries.find? (fun x => x.1 == loc') with
      | some x => rfl
      | none =>
        have : (loc == loc') = false := by simpa using fun h => hne h.symm
        simp [this]

theorem at?_put (t : FileTree) (e : Entry) (hloc : loc ≠ []) (loc' : List String) :
    (t.put loc e).at? loc' = if loc' = loc then some e else t.at? loc' := by
  split
  next h => rw [h, at?_put_self t e hloc]
  next h => exact at?_put_other t e h

/-! ## Well-formed trees -/

/-- What a file system guarantees: places are distinct, consist of names, and lie in folders. -/
structure WellFormed (t : FileTree) : Prop where
  cwd : ∀ name ∈ t.cwd.parts, IsName name
  names : ∀ e ∈ t.entries, ∀ name ∈ e.1, IsName name
  distinct : (t.entries.map Prod.fst).Nodup
  ne_root : ∀ e ∈ t.entries, e.1 ≠ []
  nested : ∀ {loc e}, t.at? loc = some e → t.at? loc.dropLast = some .folder

theorem find?_of_mem (hd : (es.map Prod.fst).Nodup) {x : List String × Entry} (hx : x ∈ es) :
    es.find? (fun y => y.1 == x.1) = some x := by
  induction es with
  | nil => simp at hx
  | cons y es ih =>
    simp only [map_cons, nodup_cons, mem_map, not_exists, not_and] at hd
    rw [find?_cons]
    simp only [mem_cons] at hx
    rcases hx with rfl | hx
    · simp
    · have hne : (y.1 == x.1) = false := by
        simp only [beq_eq_false_iff_ne]
        exact fun he => hd.1 x hx he.symm
      rw [hne]
      exact ih hd.2 hx

theorem WellFormed.mem_entries (ht : t.WellFormed) :
    (loc, e) ∈ t.entries ↔ loc ≠ [] ∧ t.at? loc = some e := by
  constructor
  · intro h
    have hne : loc ≠ [] := ht.ne_root _ h
    have hf : t.entries.find? (fun y => y.1 == loc) = some (loc, e) := find?_of_mem ht.distinct h
    exact ⟨hne, by rw [at?_of_ne_nil _ hne, hf]; rfl⟩
  · rintro ⟨hne, h⟩
    rw [at?_of_ne_nil _ hne, Option.map_eq_some_iff] at h
    obtain ⟨⟨loc', e'⟩, hf, rfl⟩ := h
    have hk : loc' = loc := by simpa using find?_some hf
    exact hk ▸ mem_of_find?_eq_some hf

theorem WellFormed.isName (ht : t.WellFormed) (h : t.at? loc = some e) {name : String}
    (hn : name ∈ loc) : IsName name :=
  ht.names (loc, e) (ht.mem_entries.2 ⟨ne_nil_of_mem hn, h⟩) name hn

theorem wellFormed_iff : t.WellFormed ↔ (∀ name ∈ t.cwd.parts, IsName name) ∧
      (∀ e ∈ t.entries, ∀ name ∈ e.1, IsName name) ∧ (t.entries.map Prod.fst).Nodup ∧
      (∀ e ∈ t.entries, e.1 ≠ []) ∧ ∀ e ∈ t.entries, t.at? e.1.dropLast = some .folder := by
  constructor
  · intro ht
    exact ⟨ht.cwd, ht.names, ht.distinct, ht.ne_root, fun e he => ht.nested (ht.mem_entries.1 he).2⟩
  · rintro ⟨hcwd, hnames, hdistinct, hroot, hnested⟩
    refine ⟨hcwd, hnames, hdistinct, hroot, fun {loc e} h => ?_⟩
    by_cases hloc : loc = []
    · rw [hloc]; rfl
    · rw [at?_of_ne_nil _ hloc, Option.map_eq_some_iff] at h
      obtain ⟨x, hx, -⟩ := h
      have hk : x.1 = loc := by simpa using find?_some hx
      exact hk ▸ hnested x (mem_of_find?_eq_some hx)

instance (t : FileTree) : Decidable t.WellFormed := decidable_of_iff _ wellFormed_iff.symm

theorem WellFormed.folder_above {t : FileTree} (ht : t.WellFormed)
    {loc more : List String} {e : Entry}
    (h : t.at? (loc ++ more) = some e) (hne : more ≠ []) : t.at? loc = some .folder := by
  have hf := ht.nested h
  rw [dropLast_append_of_ne_nil hne] at hf
  by_cases hm : more.dropLast = []
  · rwa [hm, append_nil] at hf
  · exact ht.folder_above hf hm
termination_by more.length
decreasing_by
  have := length_pos_iff.2 hne
  simp
  omega

theorem map_fst_replaced (es : List (List String × Entry)) (loc : List String) (e : Entry) :
    (es.map fun old => if old.1 == loc then (loc, e) else old).map Prod.fst = es.map Prod.fst := by
  rw [map_map]
  refine map_congr_left fun x _ => ?_
  simp only [Function.comp]
  split
  next h => exact (by simpa using h : x.1 = loc).symm
  next => rfl

theorem mem_put {x : List String × Entry}
    (h : x ∈ (t.put loc e).entries) : x = (loc, e) ∨ x ∈ t.entries := by
  rw [put] at h
  split at h
  · simp only [mem_map] at h
    obtain ⟨y, hy, rfl⟩ := h
    split
    · exact .inl rfl
    · exact .inr hy
  · simp only [mem_append, mem_singleton] at h
    exact h.symm

/-- An entry put into a folder keeps a tree well formed, unless it replaces a folder by a file. -/
theorem WellFormed.put (ht : t.WellFormed)
    (hloc : loc ≠ []) (hnames : ∀ name ∈ loc, IsName name) (hup : t.at? loc.dropLast = some .folder)
    (hfolder : t.at? loc = some .folder → e = .folder) : (t.put loc e).WellFormed where
  cwd := by rw [put_cwd]; exact ht.cwd
  names x hx := by
    rcases mem_put hx with rfl | hx
    · exact hnames
    · exact ht.names x hx
  distinct := by
    rw [FileTree.put]
    split
    · rw [map_fst_replaced]; exact ht.distinct
    next h =>
      simp only [map_append, map_cons, map_nil]
      rw [nodup_append]
      refine ⟨ht.distinct, by simp, ?_⟩
      intro a ha b hb hab
      simp only [mem_singleton] at hb
      obtain ⟨x, hx, rfl⟩ := mem_map.1 ha
      exact h (any_eq_true.2 ⟨x, hx, by simp [hab, hb]⟩)
  ne_root x hx := by
    rcases mem_put hx with rfl | hx
    · exact hloc
    · exact ht.ne_root x hx
  nested {loc' e'} h := by
    have hdrop : loc.dropLast ≠ loc := fun he => by
      have := congrArg length he
      have := length_pos_iff.2 hloc
      simp at *; omega
    rw [at?_put t e hloc] at h ⊢
    split at h
    next he => subst he; rw [if_neg hdrop]; exact hup
    next =>
      have hf := ht.nested h
      split
      next he => rw [hfolder (he ▸ hf)]
      next => exact hf

/-! ## Where paths lead -/

theorem join_parts (t : FileTree) (p : Path) (names : List String) :
    (t.cwd.join ⟨p.root, p.parts ++ names⟩).parts = (t.cwd.join p).parts ++ names := by
  simp only [Path.join, Path.isAbsolute]
  by_cases h : (!p.root.isEmpty) = true
  · simp only [h, if_true]
  · simp [h]

theorem place_append (t : FileTree) (p : Path) (h : ∀ x ∈ names, x ≠ "..") :
    t.place ⟨p.root, p.parts ++ names⟩ = t.place p ++ names := by
  simp only [place, Path.resolve, join_parts, Path.climb_append, Path.climb_names h,
    reverse_reverse]

theorem WellFormed.isName_place (ht : t.WellFormed) (hp : p.Proper) {name : String}
    (h : name ∈ t.place p) : IsName name := by
  simp only [place, Path.resolve] at h
  rcases Path.mem_climb h with h | ⟨h, hne⟩
  · simp at h
  · simp only [Path.join] at h
    split at h
    · exact (hp name h).resolve_left hne
    · simp only [mem_append] at h
      rcases h with h | h
      · exact ht.cwd name h
      · exact (hp name h).resolve_left hne

/-- The places that parts go back from. -/
def turnsOf (parts : List String) : List (List String) :=
  ((range parts.length).filter fun n => parts[n]? == some "..").map fun n =>
    Path.climb [] (parts.take n)

theorem turns_eq (t : FileTree) (p : Path) : t.turns p = turnsOf (t.cwd.join p).parts := rfl

theorem turnsOf_append {parts : List String} (h : ∀ x ∈ names, x ≠ "..") :
    turnsOf (parts ++ names) = turnsOf parts := by
  have hback : ((range names.length).map (parts.length + ·)).filter
      (fun n => (parts ++ names)[n]? == some "..") = [] := by
    rw [filter_eq_nil_iff]
    intro n hn
    obtain ⟨k, -, rfl⟩ := mem_map.1 hn
    rw [getElem?_append_right (by omega), Nat.add_sub_cancel_left]
    intro hk
    exact h ".." (mem_of_getElem? (by simpa using hk)) rfl
  have hfront : (range parts.length).filter (fun n => (parts ++ names)[n]? == some "..") =
      (range parts.length).filter fun n => parts[n]? == some ".." := by
    refine filter_congr fun n hn => ?_
    rw [getElem?_append_left (mem_range.1 hn)]
  rw [turnsOf, turnsOf, length_append, range_add, filter_append, hback, hfront,
    append_nil]
  refine map_congr_left fun n hn => ?_
  have hn' : n < parts.length := mem_range.1 (mem_filter.1 hn).1
  rw [take_append_of_le_length (by omega)]

theorem turns_append (t : FileTree) (p : Path) (h : ∀ x ∈ names, x ≠ "..") :
    t.turns ⟨p.root, p.parts ++ names⟩ = t.turns p := by
  rw [turns_eq, turns_eq, join_parts, turnsOf_append h]

theorem gap?_append (t : FileTree) (p : Path) (h : ∀ x ∈ names, x ≠ "..") :
    t.gap? ⟨p.root, p.parts ++ names⟩ = t.gap? p := by
  rw [gap?, gap?, turns_append t p h]

theorem gap?_eq_none : t.gap? p = none ↔ ∀ loc ∈ t.turns p, t.at? loc = some .folder := by
  simp [gap?, find?_eq_none]

theorem find?_eq_some : t.find? p = some e ↔ t.gap? p = none ∧ t.at? (t.place p) = some e := by
  rw [find?]
  cases t.gap? p <;> simp

theorem find?_of_gap? (h : t.gap? p = none) : t.find? p = t.at? (t.place p) := by
  simp [find?, h]

theorem isFolder_iff :
    t.isFolder p = true ↔ t.gap? p = none ∧ t.at? (t.place p) = some .folder := by
  rw [isFolder, beq_iff_eq, find?_eq_some]

theorem isFolder_kept (hcwd : t'.cwd = t.cwd)
    (h : ∀ loc, t.at? loc = some .folder → t'.at? loc = some .folder) (hf : t.isFolder p = true) :
    t'.isFolder p = true := by
  have hplace : t'.place p = t.place p := by simp only [place, hcwd]
  have hturns : t'.turns p = t.turns p := by simp only [turns, hcwd]
  rw [isFolder_iff, gap?_eq_none] at hf ⊢
  rw [hplace, hturns]
  exact ⟨fun loc hl => h loc (hf.1 loc hl), h _ hf.2⟩

/-- A path that ends in a name, as that of a file does. -/
structure IsLeaf (p : Path) : Prop where
  proper : p.Proper
  ends : ∃ last, p.parts.getLast? = some last ∧ last ≠ ".."

theorem IsLeaf.eq_append (hp : IsLeaf p) : ∃ last, last ≠ ".." ∧
    p = ⟨p.parent.root, p.parent.parts ++ [last]⟩ := by
  obtain ⟨last, hlast, hne⟩ := hp.ends
  obtain ⟨front, hfront⟩ := getLast?_eq_some_iff.1 hlast
  exact ⟨last, hne, Path.eq_of_root_parts rfl (by simp [Path.parent, hfront])⟩

theorem IsLeaf.proper_parent (hp : IsLeaf p) : p.parent.Proper := hp.proper.parent

theorem IsLeaf.dropLast_place (hp : IsLeaf p) (t : FileTree) :
    (t.place p).dropLast = t.place p.parent := by
  obtain ⟨last, hne, he⟩ := hp.eq_append
  rw [he, place_append t p.parent (by simpa using hne), dropLast_concat]
  simp [Path.parent]

theorem IsLeaf.gap?_parent (hp : IsLeaf p) (t : FileTree) : t.gap? p = t.gap? p.parent := by
  obtain ⟨last, hne, he⟩ := hp.eq_append
  rw [he, gap?_append t p.parent (by simpa using hne)]
  simp [Path.parent]

theorem IsLeaf.isFolder_parent (hp : IsLeaf p) (ht : t.WellFormed) (h : t.find? p = some e) :
    t.isFolder p.parent = true := by
  obtain ⟨hg, ha⟩ := find?_eq_some.1 h
  exact isFolder_iff.2 ⟨hp.gap?_parent t ▸ hg, hp.dropLast_place t ▸ ht.nested ha⟩

/-! ## What operations change -/

/-- A tree with files written at places in `P` and folders made at places in `Q`. -/
structure Grown (P Q : List String → Prop) (t t' : FileTree) : Prop where
  cwd : t'.cwd = t.cwd
  entry : ∀ loc, t'.at? loc = t.at? loc ∨ (Q loc ∧ t.at? loc = none ∧ t'.at? loc = some .folder) ∨
    (P loc ∧ t.at? loc ≠ some .folder ∧ ∃ bytes, t'.at? loc = some (.file bytes))

namespace Grown

variable {P Q P' Q' : List String → Prop} {t u v : FileTree}

theorem refl (P Q : List String → Prop) (t : FileTree) : Grown P Q t t := ⟨rfl, fun _ => .inl rfl⟩

theorem trans (h : Grown P Q t u) (h' : Grown P Q u v) : Grown P Q t v := by
  refine ⟨h'.cwd.trans h.cwd, fun loc => ?_⟩
  rcases h'.entry loc with he' | ⟨hq, hn, hf⟩ | ⟨hp, hn, bytes, hb⟩
  · rw [he']; exact h.entry loc
  · rcases h.entry loc with he | ⟨-, -, hf'⟩ | ⟨-, -, bytes, hb⟩
    · exact .inr (.inl ⟨hq, he ▸ hn, hf⟩)
    · rw [hn] at hf'; cases hf'
    · rw [hn] at hb; cases hb
  · refine .inr (.inr ⟨hp, fun hf => ?_, bytes, hb⟩)
    rcases h.entry loc with he | ⟨-, hn', -⟩ | ⟨-, hn', -⟩
    · exact hn (he.trans hf)
    · rw [hf] at hn'; cases hn'
    · exact hn' hf

theorem mono (h : Grown P Q t u) (hP : ∀ loc, P loc → P' loc) (hQ : ∀ loc, Q loc → Q' loc) :
    Grown P' Q' t u := by
  refine ⟨h.cwd, fun loc => ?_⟩
  rcases h.entry loc with he | ⟨hq, he⟩ | ⟨hp, he⟩
  · exact .inl he
  · exact .inr (.inl ⟨hQ loc hq, he⟩)
  · exact .inr (.inr ⟨hP loc hp, he⟩)

variable {loc : List String} {p : Path}

theorem folder (h : Grown P Q t u) (hf : t.at? loc = some .folder) : u.at? loc = some .folder := by
  rcases h.entry loc with he | ⟨-, -, hu⟩ | ⟨-, hn, -⟩
  · exact he.trans hf
  · exact hu
  · exact absurd hf hn

theorem kept (h : Grown P Q t u) {e : Entry} (hP : ¬ P loc) (he : t.at? loc = some e) :
    u.at? loc = some e := by
  rcases h.entry loc with heq | ⟨-, hn, -⟩ | ⟨hp, -⟩
  · exact heq.trans he
  · rw [he] at hn; cases hn
  · exact absurd hp hP

theorem place_eq (h : Grown P Q t u) (p : Path) : u.place p = t.place p := by
  simp only [place, h.cwd]

theorem turns_eq (h : Grown P Q t u) (p : Path) : u.turns p = t.turns p := by
  simp only [turns, h.cwd]

theorem gap? (h : Grown P Q t u) (hg : t.gap? p = none) : u.gap? p = none := by
  rw [gap?_eq_none, h.turns_eq]
  exact fun loc hl => h.folder (gap?_eq_none.1 hg loc hl)

theorem find? (h : Grown P Q t u) {e : Entry} (hP : ¬ P (t.place p)) (hf : t.find? p = some e) :
    u.find? p = some e := by
  obtain ⟨hg, ha⟩ := find?_eq_some.1 hf
  refine find?_eq_some.2 ⟨h.gap? hg, ?_⟩
  rw [h.place_eq]
  exact h.kept hP ha

theorem isFolder (h : Grown P Q t u) (hf : t.isFolder p = true) : u.isFolder p = true :=
  isFolder_kept h.cwd (fun _ => h.folder) hf

theorem isFolder_back (h : Grown P Q t u) (hQ : ∀ loc, ¬ Q loc) (hf : u.isFolder p = true) :
    t.isFolder p = true := by
  have hback : ∀ loc, u.at? loc = some .folder → t.at? loc = some .folder := fun loc hu => by
    rcases h.entry loc with he | ⟨hq, -⟩ | ⟨-, -, bytes, hb⟩
    · exact he.symm.trans hu
    · exact absurd hq (hQ loc)
    · rw [hu] at hb; cases hb
  rw [isFolder_iff, gap?_eq_none, h.turns_eq, h.place_eq] at hf
  rw [isFolder_iff, gap?_eq_none]
  exact ⟨fun loc hl => hback loc (hf.1 loc hl), hback _ hf.2⟩

theorem put_file {bytes : List UInt8} (hloc : loc ≠ []) (hP : P loc)
    (hn : t.at? loc ≠ some .folder) : Grown P Q t (t.put loc (.file bytes)) := by
  refine ⟨put_cwd .., fun loc' => ?_⟩
  rw [at?_put t _ hloc]
  split
  next he => subst he; exact .inr (.inr ⟨hP, hn, bytes, rfl⟩)
  next => exact .inl rfl

theorem put_folder (hloc : loc ≠ []) (hQ : Q loc) (hn : t.at? loc = none) :
    Grown P Q t (t.put loc .folder) := by
  refine ⟨put_cwd .., fun loc' => ?_⟩
  rw [at?_put t _ hloc]
  split
  next he => subst he; exact .inr (.inl ⟨hQ, hn, rfl⟩)
  next => exact .inl rfl

end Grown

/-! ## Reading a file -/

theorem readText_ok {text : List Char} : t.readText p = .ok text ↔
    ∃ bytes cs, t.find? p = some (.file bytes) ∧ Text.Utf8.decode bytes = .ok cs ∧
      Text.unifyLineEnds cs = text := by
  rw [readText, Except.bind_ok_iff, readBytes]
  constructor
  · rintro ⟨bytes, hbytes, h⟩
    split at hbytes
    next hfind =>
      cases hbytes
      split at h
      next cs hcs => exact ⟨bytes, cs, hfind, hcs, Except.pure_ok_iff.1 h⟩
      next => cases h
    all_goals cases hbytes
  · rintro ⟨bytes, cs, hfind, hcs, rfl⟩
    rw [hfind]
    exact ⟨bytes, rfl, by rw [hcs]; rfl⟩

/-! ## Writing a file -/

theorem ne_nil_of_at? (h : t.at? loc ≠ some .folder) : loc ≠ [] := by
  rintro rfl; exact h rfl

theorem writeBytes_put (h : t.writeBytes p bytes = .ok t') :
    t' = t.put (t.place p) (.file bytes) ∧ t.gap? p = none ∧
      ((∃ old, t.at? (t.place p) = some (.file old)) ∨
        t.at? (t.place p) = none ∧ t.at? (t.place p).dropLast = some .folder) := by
  simp only [writeBytes] at h
  split at h
  · cases h
  next old hf =>
    obtain ⟨hg, ha⟩ := find?_eq_some.1 hf
    cases h
    exact ⟨rfl, hg, .inl ⟨old, ha⟩⟩
  next hf =>
    split at h
    next hc =>
      simp only [Bool.and_eq_true, Option.isNone_iff_eq_none, beq_iff_eq] at hc
      cases h
      rw [find?_of_gap? hc.1] at hf
      exact ⟨rfl, hc.1, .inr ⟨hf, hc.2⟩⟩
    · cases h

theorem writeBytes_ok (ht : t.WellFormed) (h : t.writeBytes p bytes = .ok t') :
    t' = t.put (t.place p) (.file bytes) ∧ t.gap? p = none ∧ t.at? (t.place p) ≠ some .folder ∧
      t.at? (t.place p).dropLast = some .folder := by
  obtain ⟨hput, hg, ⟨old, ha⟩ | ⟨ha, hup⟩⟩ := writeBytes_put h
  · exact ⟨hput, hg, by simp [ha], ht.nested ha⟩
  · exact ⟨hput, hg, by simp [ha], hup⟩

theorem find?_of_writeBytes (h : t.writeBytes p bytes = .ok t') :
    t'.find? p = some (.file bytes) := by
  obtain ⟨rfl, hg, hcases⟩ := writeBytes_put h
  have hn : t.at? (t.place p) ≠ some .folder := by
    rcases hcases with ⟨old, ha⟩ | ⟨ha, -⟩ <;> simp [ha]
  have hgrown : Grown (· = t.place p) (fun _ => False) t (t.put (t.place p) (.file bytes)) :=
    .put_file (ne_nil_of_at? hn) rfl hn
  rw [find?_of_gap? (hgrown.gap? hg), hgrown.place_eq, at?_put_self t _ (ne_nil_of_at? hn)]

theorem writeBytes_eq (bytes : List UInt8) (hg : t.gap? p = none)
    (hn : t.at? (t.place p) ≠ some .folder) (hup : t.at? (t.place p).dropLast = some .folder) :
    t.writeBytes p bytes = .ok (t.put (t.place p) (.file bytes)) := by
  simp only [writeBytes, find?_of_gap? hg]
  cases ha : t.at? (t.place p) with
  | none => simp [hg, hup]
  | some e =>
    cases e with
    | folder => exact absurd ha hn
    | file old => rfl

theorem WellFormed.writeBytes (ht : t.WellFormed) (hp : p.Proper)
    (h : t.writeBytes p bytes = .ok t') : t'.WellFormed := by
  obtain ⟨rfl, -, hn, hup⟩ := writeBytes_ok ht h
  exact ht.put (ne_nil_of_at? hn) (fun _ => ht.isName_place hp) hup fun hf => absurd hf hn

theorem grown_of_writeBytes {P Q : List String → Prop} (ht : t.WellFormed) (hP : P (t.place p))
    (h : t.writeBytes p bytes = .ok t') : Grown P Q t t' := by
  obtain ⟨rfl, -, hn, -⟩ := writeBytes_ok ht h
  exact .put_file (ne_nil_of_at? hn) hP hn

/-! ## Making folders -/

/-- A place that a path leads through, its own included. -/
def OnWay (t : FileTree) (p : Path) (loc : List String) : Prop :=
  ∃ parts, parts <+: p.parts ∧ loc = t.place ⟨p.root, parts⟩

theorem makeFolder_ok (h : t.makeFolder p = .ok t') : (t' = t ∧ t.isFolder p = true) ∨
      (t' = t.put (t.place p) .folder ∧ t.gap? p = none ∧ t.at? (t.place p) = none ∧
        t.at? (t.place p).dropLast = some .folder) := by
  simp only [makeFolder] at h
  split at h
  next hf => cases h; exact .inl ⟨rfl, by simp [isFolder, hf]⟩
  · cases h
  next hf =>
    split at h
    next hc =>
      simp only [Bool.and_eq_true, Option.isNone_iff_eq_none, beq_iff_eq] at hc
      cases h
      exact .inr ⟨rfl, hc.1, find?_of_gap? hc.1 ▸ hf, hc.2⟩
    · cases h

theorem makeFolder_spec (ht : t.WellFormed) (hp : p.Proper) (h : t.makeFolder p = .ok t') :
    Grown (fun _ => False) (t.OnWay p) t t' ∧ t'.isFolder p = true ∧ t'.WellFormed := by
  rcases makeFolder_ok h with ⟨rfl, hf⟩ | ⟨rfl, hg, hn, hup⟩
  · exact ⟨.refl _ _ _, hf, ht⟩
  · have hloc : t.place p ≠ [] := ne_nil_of_at? (t := t) (by simp [hn])
    have hgrown : Grown (fun _ => False) (t.OnWay p) t (t.put (t.place p) .folder) :=
      .put_folder hloc ⟨p.parts, prefix_refl _, rfl⟩ hn
    refine ⟨hgrown, ?_, ht.put hloc (fun _ => ht.isName_place hp) hup fun _ => rfl⟩
    rw [isFolder_iff, hgrown.place_eq]
    exact ⟨hgrown.gap? hg, at?_put_self t _ hloc⟩

theorem makeFoldersTo_spec {root : String} (ht : t.WellFormed) (hp : Proper ⟨root, names.reverse⟩)
    (h : t.makeFoldersTo root names = .ok t') :
    Grown (fun _ => False) (t.OnWay ⟨root, names.reverse⟩) t t' ∧
      t'.isFolder ⟨root, names.reverse⟩ = true ∧ t'.WellFormed := by
  induction names generalizing t' with
  | nil => exact makeFolder_spec ht hp h
  | cons name up ih =>
    rw [makeFoldersTo] at h
    split at h
    next =>
      simp only [Except.bind_ok_iff] at h
      obtain ⟨u, hu, h⟩ := h
      have hpre : up.reverse <+: (name :: up).reverse := ⟨[name], by simp⟩
      obtain ⟨hgu, -, hwu⟩ := ih (fun part hm => hp part (hpre.subset hm)) hu
      obtain ⟨hgv, hfv, hwv⟩ := makeFolder_spec hwu hp h
      refine ⟨(hgu.mono (fun _ hf => hf) ?_).trans (hgv.mono (fun _ hf => hf) ?_), hfv, hwv⟩
      · rintro loc ⟨parts, hparts, rfl⟩
        exact ⟨parts, hparts.trans hpre, rfl⟩
      · rintro loc ⟨parts, hparts, rfl⟩
        exact ⟨parts, hparts, hgu.place_eq _⟩
    next => exact makeFolder_spec ht hp h

theorem makeFolders_eq (h : t.isFolder p = true) : t.makeFolders p = .ok t := by
  have hrev : (⟨p.root, p.parts.reverse.reverse⟩ : Path) = p := by rw [reverse_reverse]
  have hone : t.makeFolder p = .ok t := by
    simp only [isFolder, beq_iff_eq] at h
    simp only [makeFolder, h]
  rw [makeFolders]
  rcases hn : p.parts.reverse with _ | ⟨name, up⟩
  · rw [hn] at hrev; rw [makeFoldersTo, ← reverse_nil, hrev, hone]
  · rw [hn] at hrev; rw [makeFoldersTo, hrev, hone]

/-- A place where a folder has to be made for a path to lead to one. -/
def MadeFor (t : FileTree) (p : Path) (loc : List String) : Prop :=
  t.isFolder p = false ∧ t.OnWay p loc

/-- **Making folders** makes only folders on the way, none if the last is there, and then it is. -/
theorem makeFolders_spec (ht : t.WellFormed) (hp : p.Proper) (h : t.makeFolders p = .ok t') :
    Grown (fun _ => False) (t.MadeFor p) t t' ∧ t'.isFolder p = true ∧ t'.WellFormed := by
  cases hf : t.isFolder p with
  | true =>
    obtain rfl : t = t' := Except.ok.inj ((makeFolders_eq hf).symm.trans h)
    exact ⟨.refl _ _ _, hf, ht⟩
  | false =>
    have hrev : (⟨p.root, p.parts.reverse.reverse⟩ : Path) = p := by rw [reverse_reverse]
    have hproper : Proper ⟨p.root, p.parts.reverse.reverse⟩ := by rw [hrev]; exact hp
    obtain ⟨hg, hfolder, hw⟩ := makeFoldersTo_spec ht hproper h
    rw [hrev] at hg hfolder
    exact ⟨hg.mono (fun _ => False.elim) fun _ hq => ⟨hf, hq⟩, hfolder, hw⟩

theorem Grown.madeFor {P Q : List String → Prop} {u : FileTree} (h : Grown P Q t u)
    (hu : u.MadeFor p loc) : t.MadeFor p loc := by
  obtain ⟨hf, parts, hparts, rfl⟩ := hu
  refine ⟨Bool.eq_false_iff.2 fun ht => ?_, parts, hparts, h.place_eq _⟩
  rw [h.isFolder ht] at hf
  cases hf

/-! ## Searching -/

theorem mem_below (ht : t.WellFormed) : (names, e) ∈ t.below p ↔
      t.isFolder p = true ∧ names ≠ [] ∧ t.at? (t.place p ++ names) = some e := by
  simp only [below]
  split
  next hf =>
    simp only [mem_map, mem_filter, Bool.and_eq_true, List.isPrefixOf_iff_prefix,
      decide_eq_true_eq, Prod.mk.injEq, Prod.exists, hf, true_and]
    constructor
    · rintro ⟨loc, e', ⟨hmem, ⟨rest, rfl⟩, hlen⟩, rfl, rfl⟩
      rw [drop_left]
      exact ⟨fun he => by simp [he] at hlen, (ht.mem_entries.1 hmem).2⟩
    · rintro ⟨hne, ha⟩
      refine ⟨t.place p ++ names, e, ⟨ht.mem_entries.2 ⟨by simp [hne], ha⟩,
        prefix_append _ _, ?_⟩, drop_left, rfl⟩
      simpa using length_pos_iff.2 hne
  next hf => simp [hf]

theorem mem_search (ht : t.WellFormed) {q : Path} {accepts : String → Bool} :
    q ∈ t.search p accepts ↔ t.isFolder p = true ∧ ∃ names e, names ≠ [] ∧
      q = ⟨p.root, p.parts ++ names⟩ ∧ t.at? (t.place p ++ names) = some e ∧
      accepts (names.getLast?.getD "") = true := by
  simp only [search, Path.mem_sort, mem_map, mem_filter, Prod.exists, mem_below ht]
  constructor
  · rintro ⟨names, e, ⟨⟨hf, hne, ha⟩, hacc⟩, rfl⟩
    exact ⟨hf, names, e, hne, rfl, ha, hacc⟩
  · rintro ⟨hf, names, e, hne, rfl, ha, hacc⟩
    exact ⟨names, e, ⟨⟨hf, hne, ha⟩, hacc⟩, rfl⟩

theorem find?_below (ht : t.WellFormed) (hf : t.isFolder p = true)
    (h : t.at? (t.place p ++ names) = some e) : t.find? ⟨p.root, p.parts ++ names⟩ = some e := by
  have hdots : ∀ x ∈ names, x ≠ ".." :=
    fun x hx => (ht.isName h (mem_append_right _ hx)).ne_dots
  rw [find?_eq_some, gap?_append t p hdots, place_append t p hdots]
  exact ⟨(isFolder_iff.1 hf).1, h⟩

theorem nodup_below (ht : t.WellFormed) (p : Path) : ((t.below p).map Prod.fst).Nodup := by
  simp only [below]
  split
  · rw [map_map]
    have hsub : ((t.entries.filter fun e => (t.place p).isPrefixOf e.1 &&
        decide ((t.place p).length < e.1.length)).map Prod.fst).Nodup :=
      (filter_sublist.map _).nodup ht.distinct
    rw [Nodup, pairwise_map] at hsub ⊢
    refine hsub.imp_of_mem fun {a b} ha hb hab => ?_
    simp only [mem_filter, Bool.and_eq_true, List.isPrefixOf_iff_prefix] at ha hb
    obtain ⟨ra, hra⟩ := ha.2.1
    obtain ⟨rb, hrb⟩ := hb.2.1
    simp only [Function.comp, ← hra, ← hrb, drop_left]
    exact fun he => hab (by rw [← hra, ← hrb, he])
  · simp

theorem nodup_search (ht : t.WellFormed) (p : Path) (accepts : String → Bool) :
    (t.search p accepts).Nodup := by
  refine Path.nodup_sort ?_
  have h : (((t.below p).filter fun e => accepts (e.1.getLast?.getD "")).map Prod.fst).Nodup :=
    (filter_sublist.map _).nodup (nodup_below ht p)
  rw [Nodup, pairwise_map] at h ⊢
  exact h.imp fun {a b} hab he => hab (append_cancel_left (Path.mk.inj he).2)

variable {bytes : List UInt8} in
theorem mem_files : (names, bytes) ∈ t.files p ↔ (names, .file bytes) ∈ t.below p := by
  rw [files, mem_filterMap]
  constructor
  · rintro ⟨⟨names', e⟩, hmem, he⟩
    cases e with
    | folder => cases he
    | file bytes' => cases he; exact hmem
  · exact fun h => ⟨_, h, rfl⟩

theorem nodup_files (ht : t.WellFormed) (p : Path) : ((t.files p).map Prod.fst).Nodup := by
  have hbelow := nodup_below ht p
  rw [Nodup, pairwise_map] at hbelow ⊢
  rw [files, pairwise_filterMap]
  refine hbelow.imp fun {a b} hne f hf g hg => ?_
  obtain ⟨a, ea⟩ := a
  obtain ⟨b, eb⟩ := b
  cases ea <;> cases eb <;> cases hf <;> cases hg
  exact hne

end FileTree

/-! ## Paths without `..` -/

namespace Path.Normal

variable {p : Path} (h : p.Normal)

include h

theorem proper : p.Proper := fun part hpart => .inr (h.2 part hpart)

theorem join_eq (cwd : Path) : cwd.join p = p := by
  rw [join, isAbsolute, h.1]
  rfl

theorem place (t : FileTree) : t.place p = p.parts := by
  rw [FileTree.place, resolve, h.join_eq]
  exact climb_names fun x hx => (h.2 x hx).ne_dots

theorem resolve_eq (cwd : Path) : p.resolve cwd = p := by
  rw [resolve, h.join_eq]
  exact eq_of_root_parts h.1.symm (climb_names fun x hx => (h.2 x hx).ne_dots)

theorem gap? (t : FileTree) : t.gap? p = none := by
  have hturns : t.turns p = [] := by
    rw [FileTree.turns_eq, h.join_eq, ← nil_append p.parts,
      FileTree.turnsOf_append fun x hx => (h.2 x hx).ne_dots]
    rfl
  rw [FileTree.gap?, hturns]
  rfl

theorem find?_eq (t : FileTree) : t.find? p = t.at? p.parts := by
  rw [FileTree.find?_of_gap? (h.gap? t), h.place]

end Path.Normal

/-! ## What actions change -/

namespace Action

open FileTree (Grown)

variable {α β : Type} {cwd : Path} {P Q : List String → Prop}

/-- However an action ends, it has only written files at places in `P` and made folders at places in
`Q`, and the tree is still well formed. -/
def Grows (cwd : Path) (P Q : List String → Prop) (a : Action α) : Prop :=
  ∀ w, w.files.WellFormed → w.files.cwd = cwd →
    (a.exec w).2.files.WellFormed ∧ Grown P Q w.files (a.exec w).2.files

namespace Grows

variable {a : Action α}

theorem of_files (h : ∀ w, (a.exec w).2.files = w.files) : Grows cwd P Q a :=
  fun w hw _ => by rw [h w]; exact ⟨hw, .refl _ _ _⟩

theorem pure (x : α) : Grows cwd P Q (Pure.pure x : Action α) := of_files fun _ => rfl

theorem ofExcept (r : Except Fault α) : Grows cwd P Q (ofExcept r) :=
  of_files fun w => by rw [exec_ofExcept]

theorem ofFiles (f : FileTree → Except Fault α) : Grows cwd P Q (ofFiles f) :=
  of_files fun w => by rw [exec_ofFiles]

theorem mono {P' Q' : List String → Prop} (h : Grows cwd P Q a) (hP : ∀ loc, P loc → P' loc)
    (hQ : ∀ loc, Q loc → Q' loc) : Grows cwd P' Q' a :=
  fun w hw hcwd => ⟨(h w hw hcwd).1, (h w hw hcwd).2.mono hP hQ⟩

theorem bind {f : α → Action β} (ha : Grows cwd P Q a)
    (hf : ∀ x, Grows cwd P Q (f x)) : Grows cwd P Q (a >>= f) := by
  intro w hw hcwd
  obtain ⟨hw₁, hg₁⟩ := ha w hw hcwd
  rw [exec_bind]
  rcases he : a.exec w with ⟨e | x, w₁⟩
  · rw [he] at hw₁ hg₁
    exact ⟨hw₁, hg₁⟩
  · rw [he] at hw₁ hg₁
    obtain ⟨hw₂, hg₂⟩ := hf x w₁ hw₁ (hg₁.cwd.trans hcwd)
    exact ⟨hw₂, hg₁.trans hg₂⟩

theorem mapM {f : α → Action β} {xs : List α} (h : ∀ x ∈ xs, Grows cwd P Q (f x)) :
    Grows cwd P Q (xs.mapM f) := by
  induction xs with
  | nil => exact pure _
  | cons x xs ih =>
    rw [mapM_cons]
    exact bind (h x mem_cons_self) fun y =>
      bind (ih fun z hz => h z (mem_cons_of_mem _ hz)) fun ys => pure _

theorem attempt (h : Grows cwd P Q a) : Grows cwd P Q a.attempt :=
  fun w hw hcwd => by rw [exec_attempt]; exact h w hw hcwd

theorem makeFolders {p : Path} (hp : p.Proper)
    (hQ : ∀ t : FileTree, t.cwd = cwd → ∀ loc, t.OnWay p loc → Q loc) :
    Grows cwd P Q (makeFolders p) := by
  intro w hw hcwd
  rw [Action.makeFolders, exec_changeFiles]
  split
  next t ht =>
    obtain ⟨hg, -, hwt⟩ := FileTree.makeFolders_spec hw hp ht
    exact ⟨hwt, hg.mono (fun _ => False.elim) fun loc hloc => hQ _ hcwd loc hloc.2⟩
  next => exact ⟨hw, .refl _ _ _⟩

theorem writeText {p : Path} (hp : p.Proper) (hP : ∀ t : FileTree, t.cwd = cwd → P (t.place p))
    (s : String) : Grows cwd P Q (writeText p s) := by
  intro w hw hcwd
  rw [Action.writeText, exec_changeFiles]
  split
  next t ht => exact ⟨hw.writeBytes hp ht, FileTree.grown_of_writeBytes hw (hP _ hcwd) ht⟩
  next => exact ⟨hw, .refl _ _ _⟩

end Grows

end Action

end Docsmith
