/-
The state of a build as a map from names of files to digests.

`Holds v d` says that a value is such a map `d`. Every operation on a state is described by what it
does to the map; `load_text` reads a state back from the file that it was written to, and
`describes_of_diff` shows that a state brought up to date holds exactly the files of a tree.
-/
import Docsmith.Proofs.FileTree
import Docsmith.Proofs.Json
import Docsmith.Proofs.Utf8
import Docsmith.Snapshot

namespace Docsmith.Snapshot

open FileTree Snapshot List
open Path (IsName)

/-! ## Maps of digests -/

/-- A value that maps names to digests as `d` does. -/
def Holds (v : Value) (d : String → Option String) : Prop :=
  ∃ es : List (String × String), (es.map Prod.fst).Nodup ∧
    v = .object (es.map fun e => (e.1, .str e.2)) ∧ ∀ name, es.lookup name = d name

variable {v : Value} {d : String → Option String}

theorem holds_empty : Holds (.map []) fun _ => none := ⟨[], by simp, rfl, fun _ => rfl⟩

theorem object_digests (es : List (String × String)) :
    Value.object (es.map fun e => (e.1, .str e.2)) =
      .map (es.map fun e => (.str e.1, .str e.2)) := by
  simp [Value.object]

theorem lookup_digests (es : List (String × String)) (name : String) :
    Value.lookup (es.map fun e => (.str e.1, .str e.2)) name = (es.lookup name).map .str := by
  induction es with
  | nil => rfl
  | cons e es ih =>
    rw [map_cons, lookup_cons, Value.lookup, find?_cons]
    by_cases h : name = e.1
    · simp [h]
    · have h' : (e.1 == name) = false := by simpa using fun he => h he.symm
      have h'' : (name == e.1) = false := by simpa using h
      simp only [h', h'']
      exact ih

theorem mem_names_iff {es : List (String × String)} {name : String} :
    name ∈ es.map Prod.fst ↔ es.lookup name ≠ none := by
  induction es with
  | nil => simp
  | cons e es ih =>
    rw [map_cons, mem_cons, lookup_cons, ih]
    by_cases h : name = e.1
    · simp [h]
    · have h' : (name == e.1) = false := by simpa using h
      simp [h, h']

theorem Holds.member (h : Holds v d) (name : String) :
    v.member name (.str "") = .ok (.str ((d name).getD "")) := by
  obtain ⟨es, -, rfl, hd⟩ := h
  rw [object_digests, Value.member, lookup_digests, hd]
  cases d name <;> rfl

theorem lookup_replaced (es : List (String × String)) (name digest n : String) :
    (es.map fun e => (e.1, if e.1 = name then digest else e.2)).lookup n =
      if n = name then (es.lookup n).map fun _ => digest else es.lookup n := by
  induction es with
  | nil => simp
  | cons e es ih =>
    rw [map_cons, lookup_cons, lookup_cons, ih]
    by_cases h : n = e.1
    · subst h
      by_cases hn : e.1 = name <;> simp [hn]
    · have h' : (n == e.1) = false := by simpa using h
      simp only [h']

theorem Holds.insert {entries : List (Value × Value)} (h : Holds (.map entries) d)
    (name digest : String) :
    Holds (.map (Value.insert entries (.str name) (.str digest)))
      fun n => if n = name then some digest else d n := by
  obtain ⟨es, hnodup, he, hd⟩ := h
  rw [object_digests, Value.map.injEq] at he
  subst he
  have hany : (es.map fun e => ((.str e.1, .str e.2) : Value × Value)).any
      (fun e => Value.sameKey e.1 (.str name)) = true ↔ name ∈ es.map Prod.fst := by
    simp only [any_map, any_eq_true, Function.comp, Json.sameKey_str, beq_iff_eq,
      mem_map]
  rw [Value.insert]
  split
  next hmem =>
    obtain ⟨old, hold⟩ := Option.ne_none_iff_exists'.1 (mem_names_iff.1 (hany.1 hmem))
    refine ⟨es.map fun e => (e.1, if e.1 = name then digest else e.2), ?_, ?_, fun n => ?_⟩
    · simpa [map_map, Function.comp_def] using hnodup
    · rw [object_digests, map_map, map_map]
      congr 1
      refine map_congr_left fun e _ => ?_
      simp only [Function.comp, Json.sameKey_str, beq_iff_eq]
      split <;> rfl
    · simp only [lookup_replaced, hd]
      split
      next hn => rw [hn, ← hd, hold]; rfl
      next => rfl
  next hmem =>
    have hnew : name ∉ es.map Prod.fst := fun hn => hmem (hany.2 hn)
    have hnone : es.lookup name = none :=
      Classical.byContradiction fun hn => hnew (mem_names_iff.2 hn)
    refine ⟨es ++ [(name, digest)], ?_, ?_, fun n => ?_⟩
    · rw [map_append, nodup_append]
      refine ⟨hnodup, by simp, ?_⟩
      rintro a ha b hb rfl
      have hab : a = name := by simpa using hb
      exact hnew (hab ▸ ha)
    · rw [object_digests, map_append]
      rfl
    · simp only [lookup_append, hd]
      by_cases hn : n = name
      · rw [if_pos hn, hn, ← hd, hnone]; simp
      · have hn' : (n == name) = false := by simpa using hn
        simp [hn, hn', lookup_cons]

theorem Holds.filter {entries : List (Value × Value)} (h : Holds (.map entries) d) (name : String) :
    Holds (.map (entries.filter fun e => !(e.1 == .str name)))
      fun n => if n = name then none else d n := by
  obtain ⟨es, hnodup, he, hd⟩ := h
  rw [object_digests, Value.map.injEq] at he
  subst he
  refine ⟨es.filter fun e => !(e.1 == name), ?_, ?_, fun n => ?_⟩
  · exact (filter_sublist.map _).nodup hnodup
  · rw [object_digests, filter_map]
    rfl
  · simp only [← hd]
    clear hnodup hd
    induction es with
    | nil => simp
    | cons e es ih =>
      obtain ⟨k, x⟩ := e
      rw [filter_cons, lookup_cons]
      by_cases hk : k = name
      · by_cases hn : n = name
        · simpa [hk, hn] using ih
        · have hn' : (n == name) = false := by simpa using hn
          simpa [hk, hn, hn'] using ih
      · by_cases hn : n = k
        · subst hn; simp [hk]
        · have hn' : (n == k) = false := by simpa using hn
          simpa [hk, hn', lookup_cons] using ih

/-! ## Reading and writing -/

theorem Holds.readsBack (h : Holds v d) (margin : Nat) : Json.ReadsAs margin v (some v) := by
  obtain ⟨es, hnodup, rfl, -⟩ := h
  refine Json.readsBack_object (fun e he => ?_) ?_
  · obtain ⟨e', -, rfl⟩ := mem_map.1 he
    exact Json.readsAs_str _ _
  · simpa [map_map, Function.comp_def] using hnodup

variable {tree : FileTree} {path : Path} {files : List Path} {s : Snapshot}

/-- **A state is read back** from the file that it was written to. -/
theorem load_text (h : Holds v d)
    (hfile : tree.find? path = some (.file (text ⟨path, v⟩).toUTF8.toList)) :
    load tree path = .ok ⟨path, v⟩ := by
  have hback : Json.ReadsAs 0 (.object [("hashes", v)]) (some (.object [("hashes", v)])) :=
    Json.readsBack_object (by simpa using h.readsBack 2) (by simp)
  have hread : tree.readText path = .ok (text ⟨path, v⟩).toList :=
    readText_eq (by rw [readBytes, hfile]) hback.plain
  have hhashes : hashesOf (text ⟨path, v⟩).toList = .ok v := by
    simp only [hashesOf, text, Json.read_pretty hback]
    rfl
  simp only [load, has, hfile, Option.isSome_some, if_true, hread, hhashes, bind,
    Except.bind]
  rfl

/-- Every name is the absolute path of a place. -/
def Named (d : String → Option String) : Prop :=
  ∀ name, d name ≠ none → ∃ loc, (∀ x ∈ loc, IsName x) ∧ name = (Path.ofPlace loc).text

/-- A file that is missing or holds a state that was written to it. -/
def Kept (tree : FileTree) (path : Path) : Prop :=
  ∀ bytes, tree.find? path = some (.file bytes) →
    ∃ v d, Holds v d ∧ Named d ∧ bytes = (text ⟨path, v⟩).toUTF8.toList

theorem load_of_no_file
    (h : ∀ bytes, tree.find? path ≠ some (.file bytes)) : load tree path = .ok ⟨path, .map []⟩ := by
  rcases hf : tree.find? path with _ | _ | bytes
  · simp [load, has, hf]
  · simp [load, has, readText, readBytes, hf, bind, Except.bind]
  · exact absurd hf (h bytes)

theorem load_congr {t t' : FileTree} {p : Path}
    (h : t'.find? p = t.find? p) : load t' p = load t p := by
  by_cases hfile : ∃ bytes, t.find? p = some (.file bytes)
  · obtain ⟨bytes, hbytes⟩ := hfile
    simp only [load, has, readText, readBytes, h, hbytes]
  · have hnone : ∀ bytes, t.find? p ≠ some (.file bytes) := fun bytes hb => hfile ⟨bytes, hb⟩
    rw [load_of_no_file hnone, load_of_no_file (h ▸ hnone)]

theorem Kept.load (h : Kept tree path) :
    ∃ v d, Holds v d ∧ Named d ∧ load tree path = .ok ⟨path, v⟩ ∧
      ∀ name, d name ≠ none → ∃ bytes, tree.find? path = some (.file bytes) := by
  by_cases hf : ∃ bytes, tree.find? path = some (.file bytes)
  · obtain ⟨bytes, hf⟩ := hf
    obtain ⟨v, d, hv, hd, rfl⟩ := h bytes hf
    exact ⟨v, d, hv, hd, load_text hv hf, fun _ _ => ⟨_, hf⟩⟩
  · exact ⟨_, _, holds_empty, fun _ hn => absurd rfl hn,
      load_of_no_file fun bytes hb => hf ⟨bytes, hb⟩, fun _ hn => absurd rfl hn⟩

/-! ## Operations on a state -/

section Operations

variable {s : Snapshot} (tree : FileTree)

theorem Holds.hasChanged (h : Holds s.hashes d) (p : Path) :
    s.hasChanged tree p = .ok !((d (key tree p)).getD "" == hashFile tree p) := by
  simp only [Snapshot.hasChanged, h.member, bind, Except.bind]
  rfl

theorem Holds.update (h : Holds s.hashes d) (p : Path) :
    ∃ v, s.update tree p = .ok ⟨s.path, v⟩ ∧
      Holds v fun n => if n = key tree p then some (hashFile tree p) else d n := by
  obtain ⟨path, hashes⟩ := s
  obtain ⟨es, hes⟩ : ∃ es, hashes = .map es := by
    obtain ⟨es, -, he, -⟩ := h
    exact ⟨_, he.trans (object_digests es)⟩
  subst hes
  exact ⟨_, rfl, h.insert (key tree p) (hashFile tree p)⟩

theorem Holds.remove (h : Holds s.hashes d) (p : Path) :
    ∃ v, s.remove tree p = .ok ⟨s.path, v⟩ ∧
      Holds v fun n => if n = key tree p then none else d n := by
  obtain ⟨path, hashes⟩ := s
  obtain ⟨es, hes⟩ : ∃ es, hashes = .map es := by
    obtain ⟨es, -, he, -⟩ := h
    exact ⟨_, he.trans (object_digests es)⟩
  subst hes
  exact ⟨_, rfl, h.filter (key tree p)⟩

theorem Holds.known (h : Holds s.hashes d) :
    ∃ names, s.known = .ok names ∧ names.Nodup ∧ ∀ name, name ∈ names ↔ d name ≠ none := by
  obtain ⟨path, hashes⟩ := s
  obtain ⟨es, hnodup, rfl, hd⟩ := h
  refine ⟨es.map Prod.fst, ?_, hnodup, fun name => by rw [mem_names_iff, hd]⟩
  simp only [known, object_digests]
  rw [filterMap_map, ← filterMap_eq_map]
  rfl

/-- Files of one name have one digest. -/
def Consistent (files : List Path) : Prop :=
  ∀ f ∈ files, ∀ g ∈ files, key tree f = key tree g → hashFile tree f = hashFile tree g

theorem Holds.updateAll {files : List Path} (hfiles : Consistent tree files)
    (h : Holds s.hashes d) :
    ∃ v d', s.updateAll tree files = .ok ⟨s.path, v⟩ ∧ Holds v d' ∧
      (∀ f ∈ files, d' (key tree f) = some (hashFile tree f)) ∧
      ∀ name, name ∉ files.map (key tree) → d' name = d name := by
  induction files generalizing s d with
  | nil => exact ⟨s.hashes, d, rfl, h, by simp, fun _ _ => rfl⟩
  | cons f fs ih =>
    obtain ⟨v, hv, hhold⟩ := h.update tree f
    have hfs : Consistent tree fs := fun g hg g' hg' =>
      hfiles g (mem_cons_of_mem _ hg) g' (mem_cons_of_mem _ hg')
    obtain ⟨v', d', hv', hhold', hin, hout⟩ := ih hfs (s := ⟨s.path, v⟩) hhold
    refine ⟨v', d', ?_, hhold', fun g hg => ?_, fun name hn => ?_⟩
    · simp only [updateAll, foldlM_cons, hv, bind, Except.bind]
      exact hv'
    · rcases mem_cons.1 hg with rfl | hg
      · by_cases hm : key tree g ∈ fs.map (key tree)
        · obtain ⟨g', hg', hk⟩ := mem_map.1 hm
          rw [← hk, hin g' hg', hfiles g' (mem_cons_of_mem _ hg') g mem_cons_self hk]
        · rw [hout _ hm, if_pos rfl]
      · exact hin g hg
    · simp only [map_cons, mem_cons, not_or] at hn
      rw [hout name hn.2, if_neg hn.1]

theorem Holds.removeAll (files : List Path) (h : Holds s.hashes d) :
    ∃ v, s.removeAll tree files = .ok ⟨s.path, v⟩ ∧
      Holds v fun n => if n ∈ files.map (key tree) then none else d n := by
  induction files generalizing s d with
  | nil => exact ⟨s.hashes, rfl, by simpa using h⟩
  | cons f fs ih =>
    obtain ⟨v, hv, hhold⟩ := h.remove tree f
    obtain ⟨v', hv', hhold'⟩ := ih (s := ⟨s.path, v⟩) hhold
    refine ⟨v', ?_, ?_⟩
    · simp only [removeAll, foldlM_cons, hv, bind, Except.bind]
      exact hv'
    · have hfun : (fun n => if n ∈ (f :: fs).map (key tree) then none else d n) = fun n =>
          if n ∈ fs.map (key tree) then none else if n = key tree f then none else d n := by
        funext n
        by_cases hf : n = key tree f <;> by_cases hfs : n ∈ fs.map (key tree) <;> simp_all
      rw [hfun]
      exact hhold'

/-- **What a comparison gives**: the files in their order, split by whether the digest is the one
that is recorded, and the names that are recorded of other files. -/
theorem Holds.diff_eq (h : Holds s.hashes d) {names : List String} (hnames : s.known = .ok names)
    (files : List Path) :
    s.diff tree files = .ok
      { changed := files.filter fun f => !((d (key tree f)).getD "" == hashFile tree f)
        unchanged := files.filter fun f => (d (key tree f)).getD "" == hashFile tree f
        deleted := (sorted (names.filter fun n => !(files.map (key tree)).contains n)).map
          Path.ofString } := by
  have hmark : (files.mapM fun f => do
      let changed ← s.hasChanged tree f
      pure (f, changed)) =
      (pure (files.map fun f => (f, !((d (key tree f)).getD "" == hashFile tree f))) :
        Except Fault (List (Path × Bool))) := by
    simp only [h.hasChanged]
    exact mapM_pure
  refine Except.bind_ok_iff.2
    ⟨names, hnames, Except.bind_ok_iff.2 ⟨_, hmark, congrArg Except.ok ?_⟩⟩
  simp only [filter_map, map_map, Function.comp_def, map_id', Bool.not_not]

theorem Holds.diff (h : Holds s.hashes d) (files : List Path) :
    ∃ r, s.diff tree files = .ok r ∧
      (∀ f, f ∈ r.changed ↔ f ∈ files ∧ (d (key tree f)).getD "" ≠ hashFile tree f) ∧
      ∀ p, p ∈ r.deleted ↔
        ∃ name, d name ≠ none ∧ name ∉ files.map (key tree) ∧ p = Path.ofString name := by
  obtain ⟨names, hnames, -, hmem⟩ := h.known
  refine ⟨_, h.diff_eq tree hnames files, fun f => ?_, fun p => ?_⟩
  · simp only [mem_filter, Bool.not_eq_true', beq_eq_false_iff_ne]
  · simp only [sorted, mem_map, mem_mergeSort, mem_filter, Bool.not_eq_true',
      contains_eq_mem, decide_eq_false_iff_not, hmem, and_assoc]
    exact ⟨fun ⟨name, hd, hn, he⟩ => ⟨name, hd, hn, he.symm⟩,
      fun ⟨name, hd, hn, he⟩ => ⟨name, hd, hn, he.symm⟩⟩

end Operations

theorem mem_of_changed {diff : Diff} (h : s.diff tree files = .ok diff) {p : Path}
    (hp : p ∈ diff.changed) : p ∈ files := by
  simp only [Snapshot.diff, Except.bind_ok_iff, Except.pure_ok_iff] at h
  obtain ⟨names, -, marked, hmark, rfl⟩ := h
  obtain ⟨m, hm, rfl⟩ := mem_map.1 hp
  obtain ⟨f, hf, hfm⟩ := Except.mem_of_mapM hmark (mem_filter.1 hm).1
  obtain ⟨changed, -, hpair⟩ := Except.bind_ok_iff.1 hfm
  rw [← Except.pure_ok_iff.1 hpair]
  exact hf

theorem length_diff {diff : Diff} (h : s.diff tree files = .ok diff) :
    diff.changed.length + diff.unchanged.length = files.length := by
  simp only [Snapshot.diff, Except.bind_ok_iff, Except.pure_ok_iff] at h
  obtain ⟨names, -, marked, hmark, rfl⟩ := h
  rw [← Except.length_of_mapM hmark, length_map, length_map,
    ← countP_eq_length_filter, ← countP_eq_length_filter]
  have hsplit := length_eq_countP_add_countP (l := marked) fun m : Path × Bool => m.2
  simpa using hsplit.symm

/-! ## The file of a state -/

theorem path_of_load (h : load tree path = .ok s) : s.path = path := by
  rw [load] at h
  split at h
  · split at h
    · obtain ⟨v, -, hs⟩ := Except.bind_ok_iff.1 h
      rw [← Except.pure_ok_iff.1 hs]
    · cases h
    · cases h
      rfl
  · cases h
    rfl

theorem path_of_foldlM {f : Snapshot → Path → Except Fault Snapshot}
    (hf : ∀ {s p s'}, f s p = .ok s' → s'.path = s.path) {ps : List Path} {s' : Snapshot}
    (h : ps.foldlM f s = .ok s') : s'.path = s.path := by
  induction ps generalizing s with
  | nil => rw [← Except.pure_ok_iff.1 h]
  | cons p ps ih =>
    rw [foldlM_cons] at h
    obtain ⟨s₁, h₁, h₂⟩ := Except.bind_ok_iff.1 h
    rw [ih h₂, hf h₁]

theorem path_of_update {gone : List Path} {s' : Snapshot}
    (h : (s.updateAll tree files >>= fun s => s.removeAll tree gone) = .ok s') :
    s'.path = s.path := by
  obtain ⟨s₁, h₁, h₂⟩ := Except.bind_ok_iff.1 h
  have hremove : ∀ {s p s'}, remove s tree p = .ok s' → s'.path = s.path := by
    intro s p s' h
    rw [remove] at h
    split at h <;> cases h
    rfl
  have hupdate : ∀ {s p s'}, update s tree p = .ok s' → s'.path = s.path := by
    intro s p s' h
    rw [update] at h
    split at h <;> cases h
    rfl
  rw [path_of_foldlM hremove h₂, path_of_foldlM hupdate h₁]

/-! ## Up to date -/

section UpToDate

variable {s : Snapshot} {tree : FileTree} {files : List Path}

theorem hexDigest_ne_empty (bytes : List UInt8) : Digest.Sha256.hexDigest bytes ≠ "" := by
  intro h
  have hnil := congrArg String.toList h
  simp only [Digest.Sha256.hexDigest, Digest.hex, Digest.Sha256.digest, Digest.bytesOf,
    Digest.Sha256.State.words, Digest.bigEndian, flatMap_cons, String.toList_ofList] at hnil
  cases hnil

variable {p : Path} {r : Diff}

theorem hashFile_of_file {bytes : List UInt8} (h : tree.find? p = some (.file bytes)) :
    hashFile tree p = Digest.Sha256.hexDigest bytes := by
  simp only [hashFile, readBytes, h]

theorem exists_file_of_hashFile (h : hashFile tree p ≠ "") :
    ∃ bytes, tree.find? p = some (.file bytes) := by
  rcases hf : tree.find? p with _ | _ | bytes
  · exact absurd (by simp [hashFile, readBytes, hf]) h
  · exact absurd (by simp [hashFile, readBytes, hf]) h
  · exact ⟨bytes, rfl⟩

theorem hashFile_of_no_file (h : ∀ bytes, tree.find? p ≠ some (.file bytes)) :
    hashFile tree p = "" :=
  Classical.byContradiction fun hn => (exists_file_of_hashFile hn).elim h

theorem key_eq (tree : FileTree) (p : Path) : key tree p = (Path.ofPlace (tree.place p)).text := rfl

theorem key_ofString {loc : List String} (h : ∀ x ∈ loc, IsName x) (tree : FileTree) :
    key tree (Path.ofString (Path.ofPlace loc).text) = (Path.ofPlace loc).text := by
  rw [Path.ofString_text h, key_eq]
  congr 2
  exact Path.climb_names fun x hx => (h x hx).ne_dots

/-- Every file has the digest that is recorded of it, where none stands for an empty one, and every
file that is recorded is there. -/
def Current (tree : FileTree) (files : List Path) (d : String → Option String) : Prop :=
  (∀ f ∈ files, (d (key tree f)).getD "" = hashFile tree f) ∧
    ∀ name, d name ≠ none → name ∈ files.map (key tree)

theorem Holds.deleted_eq_nil_iff (h : Holds s.hashes d) (hr : s.diff tree files = .ok r) :
    r.deleted = [] ↔ ∀ name, d name ≠ none → name ∈ files.map (key tree) := by
  obtain ⟨r', hr', -, hdeleted⟩ := h.diff tree files
  obtain rfl : r' = r := by rw [hr] at hr'; exact (Except.ok.inj hr').symm
  rw [eq_nil_iff_forall_not_mem]
  constructor
  · intro hnil name hname
    exact Classical.byContradiction fun hn => hnil _ ((hdeleted _).2 ⟨name, hname, hn, rfl⟩)
  · intro hnames p hp
    obtain ⟨name, hname, hn, -⟩ := (hdeleted p).1 hp
    exact hn (hnames name hname)

theorem Holds.current_iff (h : Holds s.hashes d) (hr : s.diff tree files = .ok r) :
    (r.changed.isEmpty && r.deleted.isEmpty) = true ↔ Current tree files d := by
  obtain ⟨r', hr', hchanged, -⟩ := h.diff tree files
  obtain rfl : r' = r := by rw [hr] at hr'; exact (Except.ok.inj hr').symm
  rw [Bool.and_eq_true, List.isEmpty_iff, List.isEmpty_iff, eq_nil_iff_forall_not_mem,
    h.deleted_eq_nil_iff hr]
  refine and_congr_left fun _ => ⟨fun hc f hf => ?_, fun hc f hf => ?_⟩
  · exact Classical.byContradiction fun hne => hc f ((hchanged f).2 ⟨hf, hne⟩)
  · obtain ⟨hmem, hne⟩ := (hchanged f).1 hf
    exact hne (hc f hmem)

/-- A state that holds the digests of files, and of no others. -/
def Describes (tree : FileTree) (files : List Path) (v : Value) : Prop :=
  ∃ d, Holds v d ∧ (∀ f ∈ files, d (key tree f) = some (hashFile tree f)) ∧
    ∀ name, d name ≠ none → name ∈ files.map (key tree)

/-- **A state brought up to date** holds exactly the files that are there. -/
theorem describes_of_diff (h : Holds s.hashes d) (hd : Named d) (hfiles : Consistent tree files)
    (hr : s.diff tree files = .ok r) :
    ∃ v, (s.updateAll tree files >>= fun s => s.removeAll tree r.deleted) = .ok ⟨s.path, v⟩ ∧
      Describes tree files v := by
  obtain ⟨r', hr', -, hdeleted⟩ := h.diff tree files
  obtain rfl : r' = r := by rw [hr] at hr'; exact (Except.ok.inj hr').symm
  obtain ⟨v₁, d₁, hv₁, hhold₁, hin, hout⟩ := h.updateAll tree hfiles
  obtain ⟨v₂, hv₂, hhold₂⟩ := Holds.removeAll (s := ⟨s.path, v₁⟩) tree r'.deleted hhold₁
  refine ⟨v₂, by rw [hv₁]; exact hv₂, _, hhold₂, fun f hf => ?_, fun name hn => ?_⟩
  · -- what is deleted has other names than the files
    have hnot : key tree f ∉ r'.deleted.map (key tree) := by
      intro hm
      obtain ⟨p, hp, hk⟩ := mem_map.1 hm
      obtain ⟨name, hn, hnm, rfl⟩ := (hdeleted p).1 hp
      obtain ⟨loc, hloc, rfl⟩ := hd name hn
      rw [key_ofString hloc] at hk
      exact hnm (hk ▸ mem_map_of_mem hf)
    simp only [if_neg hnot]
    exact hin f hf
  · refine Classical.byContradiction fun hm => hn ?_
    show (if name ∈ r'.deleted.map (key tree) then none else d₁ name) = none
    split
    · rfl
    next hnot =>
      rw [hout name hm]
      refine Classical.byContradiction fun hne => hnot ?_
      obtain ⟨loc, hloc, rfl⟩ := hd name hne
      exact mem_map.2 ⟨_, (hdeleted _).2 ⟨_, hne, hm, rfl⟩, key_ofString hloc tree⟩

end UpToDate

end Docsmith.Snapshot
