/-
Files of a state and of settings with any content.

Their text is read as a value, which is then asked for entries. Only maps have any, so that a text
that is not well formed does no harm, while one that says something else than a map fails: on
opening, or on the first use if only what a state has under `hashes` is no map.
-/
import Docsmith.Proofs.Settings
import Docsmith.Proofs.Snapshot

namespace Docsmith

open Text (unifyLineEnds)
open Text.Utf8 (decode)

/-! ## Entries of a value -/

namespace Value

/-- The entries of a map. No other value has any. -/
def entries? : Value → Option (List (Value × Value))
  | .map es => some es
  | .shared _ v => v.entries?
  | _ => none

variable {v : Value} {name : String} {d : Value}

theorem member_of_entries {es : List (Value × Value)} (h : v.entries? = some es) :
    v.member name d = .ok ((lookup es name).getD d) := by
  fun_induction entries? v with
  | case1 => cases h; rfl
  | case2 n v ih => exact ih h
  | case3 => cases h

theorem member_of_none (h : v.entries? = none) :
    v.member name d = .error (.noMember v.kind "get") := by
  fun_induction entries? v with
  | case1 => cases h
  | case2 n v ih => exact ih h
  | case3 v hmap hshared =>
    cases v with
    | map es => exact absurd rfl (hmap es)
    | shared n v => exact absurd rfl (hshared n v)
    | _ => rfl

theorem given_iff {P : Value → Prop} (hd : P d) {o : Option Value} :
    P (o.getD d) ↔ ∀ v, o = some v → P v := by
  cases o <;> simp [hd]

end Value

theorem FileTree.readText_file {t : FileTree} {p : Path} {bytes : List UInt8}
    (h : t.find? p = some (.file bytes)) :
    t.readText p = ((decode bytes).mapError .undecodable).map unifyLineEnds := by
  cases hd : decode bytes <;> simp only [readText, readBytes, h, bind, Except.bind, hd] <;> rfl

/-! ## The state -/

namespace Snapshot

variable {tree : FileTree} {path : Path} {bytes : List UInt8} {s : Snapshot}

def IsJson (bytes : List UInt8) (v : Value) : Prop :=
  ∃ cs, decode bytes = .ok cs ∧ Json.read (unifyLineEnds cs) = .ok v

/-- Bytes of a text that is not well formed. An integer is so with any number of digits. -/
def IsNoJson (bytes : List UInt8) : Prop :=
  ∃ cs e, decode bytes = .ok cs ∧ Json.read (unifyLineEnds cs) = .error e ∧
    ∀ n, e.problem ≠ .digits n

theorem hashesOf_ok_iff {text : List Char} {h : Value} : hashesOf text = .ok h ↔
    (∃ e, Json.read text = .error e ∧ ∀ n, e.problem ≠ .digits n) ∧ h = .map [] ∨
      ∃ v es, Json.read text = .ok v ∧ v.entries? = some es ∧
        h = (Value.lookup es "hashes").getD (.map []) := by
  rw [hashesOf]
  cases hread : Json.read text with
  | ok v =>
    cases hes : v.entries? with
    | none => simp [Value.member_of_none hes, hes]
    | some es => simp [Value.member_of_entries hes, hes, eq_comm]
  | error e =>
    obtain ⟨problem, pos⟩ := e
    cases problem <;> simp [Json.Error.fault, eq_comm]

theorem load_ok_iff (hfile : tree.find? path = some (.file bytes)) :
    load tree path = .ok s ↔ s.path = path ∧ (IsNoJson bytes ∧ s.hashes = .map [] ∨
      ∃ v es, IsJson bytes v ∧ v.entries? = some es ∧
        s.hashes = (Value.lookup es "hashes").getD (.map [])) := by
  have hload : load tree path = ((decode bytes).mapError Fault.undecodable).bind fun cs =>
      (hashesOf (unifyLineEnds cs)).map (mk path) := by
    rw [load, FileTree.has, hfile, FileTree.readText_file hfile]
    cases decode bytes <;> rfl
  rw [hload]
  cases hd : decode bytes with
  | error e => simp [IsJson, IsNoJson, hd, Except.mapError, Except.bind]
  | ok cs =>
    have hok : (hashesOf (unifyLineEnds cs)).map (mk path) = .ok s ↔
        s.path = path ∧ hashesOf (unifyLineEnds cs) = .ok s.hashes := by
      obtain ⟨p, h⟩ := s
      cases hashesOf (unifyLineEnds cs) <;> simp [Except.map, eq_comm]
    refine hok.trans (and_congr_right fun _ => hashesOf_ok_iff.trans ?_)
    simp [IsJson, IsNoJson, hd]

theorem exists_load_iff (P : Value → Prop) (hP : P (.map []))
    (hfile : tree.find? path = some (.file bytes)) :
    (∃ s, load tree path = .ok s ∧ P s.hashes) ↔ IsNoJson bytes ∨
      ∃ v es, IsJson bytes v ∧ v.entries? = some es ∧
        ∀ h, Value.lookup es "hashes" = some h → P h := by
  simp only [load_ok_iff hfile, ← Value.given_iff hP]
  constructor
  · rintro ⟨s, ⟨-, h | ⟨v, es, hv, hes, hs⟩⟩, hPs⟩
    · exact .inl h.1
    · exact .inr ⟨v, es, hv, hes, hs ▸ hPs⟩
  · rintro (h | ⟨v, es, hv, hes, hPs⟩)
    · exact ⟨⟨path, .map []⟩, ⟨rfl, .inl ⟨h, rfl⟩⟩, hP⟩
    · exact ⟨⟨path, _⟩, ⟨rfl, .inr ⟨v, es, hv, hes, rfl⟩⟩, hPs⟩

/-- All questions to a state are answered, and every file can be recorded. -/
def Works (s : Snapshot) : Prop :=
  ∀ tree p files, (∃ changed, s.hasChanged tree p = .ok changed) ∧ (∃ names, s.known = .ok names) ∧
    (∃ diff, s.diff tree files = .ok diff) ∧ ∃ s', s.update tree p = .ok s'

theorem works_iff : s.Works ↔ ∃ es, s.hashes = .map es := by
  obtain ⟨path, hashes⟩ := s
  constructor
  · intro h
    obtain ⟨-, ⟨names, hnames⟩, -⟩ := h ⟨.ofString "/", []⟩ path []
    cases hashes with
    | map es => exact ⟨es, rfl⟩
    | _ => cases hnames
  · rintro ⟨es, rfl⟩ tree p files
    have hchanged (p : Path) :
        ∃ changed, (mk path (.map es)).hasChanged tree p = .ok changed := ⟨_, rfl⟩
    refine ⟨hchanged p, ⟨_, rfl⟩, ?_, ⟨_, rfl⟩⟩
    obtain ⟨marked, hmarked⟩ := Except.mapM_ok fun f (_ : f ∈ files) =>
      (hchanged f).imp' (Prod.mk f) fun changed h => Except.bind_ok_iff.2 ⟨changed, h, rfl⟩
    exact ⟨_, Except.bind_ok_iff.2 ⟨_, rfl, Except.bind_ok_iff.2 ⟨marked, hmarked, rfl⟩⟩⟩

theorem exec_save (s : Snapshot) (w : World) :
    (s.save.exec w).1 = ((mk s.path (.map [])).save.exec w).1 := by
  have hwrite (t : FileTree) (p : Path) (bs bs' : List UInt8) :
      (t.writeBytes p bs).map (fun _ => ()) = (t.writeBytes p bs').map fun _ => () := by
    simp only [FileTree.writeBytes]
    split
    · rfl
    · rfl
    · split <;> rfl
  have hexec (p : Path) (text : String) (w : World) : ((Action.writeText p text).exec w).1 =
      (w.files.writeText p text).map fun _ => () := by
    rw [Action.writeText, Action.exec_changeFiles]
    cases w.files.writeText p text <;> rfl
  rw [save, save, Action.exec_bind, Action.exec_bind]
  dsimp only
  rcases (Action.makeFolders s.path.parent).exec w with ⟨_ | _, w₁⟩
  · rfl
  · exact (hexec ..).trans ((hwrite ..).trans (hexec ..).symm)

/-- **A state with any content.** It is opened and of use exactly if its file is a text that is not
well formed, or a map in which `hashes`, if it is there, is a map. It is as good as none exactly if
that map is missing or empty. Saving goes as it does without a state. -/
theorem load_content (hfile : tree.find? path = some (.file bytes)) :
    ((∃ s, load tree path = .ok s ∧ s.Works) ↔ IsNoJson bytes ∨
      ∃ v es, IsJson bytes v ∧ v.entries? = some es ∧
        ∀ h, Value.lookup es "hashes" = some h → ∃ fs, h = .map fs) ∧
    (load tree path = .ok { path } ↔ IsNoJson bytes ∨
      ∃ v es, IsJson bytes v ∧ v.entries? = some es ∧
        ∀ h, Value.lookup es "hashes" = some h → h = .map []) ∧
    ∀ s w, load tree path = .ok s → (s.save.exec w).1 = (({ path } : Snapshot).save.exec w).1 := by
  refine ⟨?_, ?_, fun s w hs => path_of_load hs ▸ s.exec_save w⟩
  · simp only [works_iff]
    exact exists_load_iff (fun h => ∃ es, h = .map es) ⟨[], rfl⟩ hfile
  · rw [← exists_load_iff (· = .map []) rfl hfile]
    refine ⟨fun h => ⟨_, h, rfl⟩, fun ⟨⟨p, h⟩, hs, hempty⟩ => ?_⟩
    obtain rfl : p = path := path_of_load hs
    obtain rfl : h = .map [] := hempty
    exact hs

/-- A state file that holds an empty list. -/
def listed : FileTree := ⟨.ofString "/w", [(["w"], .folder), (["w", "s"], .file [91, 93])]⟩

theorem load_content_listed :
    load listed (.ofString "s") = .error (.noMember "list" "get") ∧
    ¬ (∃ s, load listed (.ofString "s") = .ok s ∧ s.Works) ∧
    load listed (.ofString "s") ≠ .ok { path := .ofString "s" } := by
  have hfile : listed.find? (.ofString "s") = some (.file [91, 93]) := by decide +kernel
  have hload := load_content hfile
  have hread {v : Value} (h : IsJson [91, 93] v) : v = .list [] := by
    obtain ⟨_, ⟨⟩, ⟨⟩⟩ := h
    rfl
  have hvalue : ¬ IsNoJson [91, 93] := by
    rintro ⟨_, _, ⟨⟩, ⟨⟩, -⟩
  refine ⟨rfl, fun h => ?_, nofun⟩
  rcases hload.1.1 h with h | ⟨v, es, hv, hes, -⟩
  · exact hvalue h
  · rw [hread hv] at hes
    cases hes

end Snapshot

/-! ## Settings -/

namespace Settings

variable {tree : FileTree} {p : Path} {bytes : List UInt8} {v : Value}

/-- What the bytes of a file say; nothing if they are no text or no document. -/
def said? (bytes : List UInt8) : Option Value :=
  (decode bytes).toOption.bind fun cs => Yaml.readShared (unifyLineEnds cs)

/-- The settings of a file that gives none. The model of the assistant is not the default one. -/
def unset : Settings := { assistant := { model := .str fileModel } }

theorem load_file (hfile : tree.find? p = some (.file bytes)) : load tree p =
    ((said? bytes).elim (.ok {}) fun v => ofValue (if v.isGiven then v else .map [])).map bare := by
  rw [load, read, FileTree.readText_file hfile, said?]
  cases decode bytes with
  | error e => rfl
  | ok cs =>
    show (ofText (unifyLineEnds cs)).map bare = _
    rw [ofText, Except.toOption, Option.bind_some]
    cases Yaml.readShared (unifyLineEnds cs) <;> rfl

theorem assistantOf_ok_iff : (∃ s, assistantOf v = .ok s) ↔ v.entries? ≠ none := by
  cases h : v.entries? with
  | none => simp [assistantOf, Value.member_of_none h, bind, Except.bind]
  | some es =>
    simp only [assistantOf, Value.member_of_entries h, bind, Except.bind]
    exact ⟨fun _ => Option.some_ne_none es, fun _ => ⟨_, rfl⟩⟩

theorem ofValue_ok_iff : (∃ s, ofValue v = .ok s) ↔
    ∃ es, v.entries? = some es ∧ ∀ a, Value.lookup es "ai" = some a → a.entries? ≠ none := by
  cases h : v.entries? with
  | none => simp [ofValue, Value.member_of_none h, bind, Except.bind]
  | some es =>
    have hassistant : (∃ s, ofValue v = .ok s) ↔
        ∃ s, assistantOf ((Value.lookup es "ai").getD (.map [])) = .ok s := by
      simp only [ofValue, Value.member_of_entries h, bind, Except.bind]
      cases assistantOf ((Value.lookup es "ai").getD (.map [])) with
      | ok s => exact ⟨fun _ => ⟨s, rfl⟩, fun _ => ⟨_, rfl⟩⟩
      | error e => simp
    have hmap : (Value.map []).entries? ≠ none := Option.some_ne_none []
    rw [hassistant, assistantOf_ok_iff, Value.given_iff (P := fun a => a.entries? ≠ none) hmap]
    simp

/-- **Settings with any content.** Bytes that are no text or no document give the default settings,
and a document that says nothing those of a map without entries. Any other document is loaded
exactly if it is a map in which `ai`, if it is there, is a map. -/
theorem load_any (hfile : tree.find? p = some (.file bytes)) :
    (said? bytes = none → load tree p = .ok {}) ∧
    ∀ v, said? bytes = some v →
      (v.isGiven = false → load tree p = .ok unset) ∧
      (v.isGiven = true → ((∃ s, load tree p = .ok s) ↔ ∃ es, v.entries? = some es ∧
        ∀ a, Value.lookup es "ai" = some a → a.entries? ≠ none)) := by
  rw [load_file hfile]
  refine ⟨fun h => by rw [h]; rfl, fun v h => ?_⟩
  rw [h]
  refine ⟨fun hgiven => ?_, fun hgiven => ?_⟩
  · rw [Option.elim_some, hgiven]
    rfl
  · rw [Option.elim_some, if_pos hgiven, ← ofValue_ok_iff]
    cases ofValue v <;> simp [Except.map]

/-- A file of settings that holds a letter. -/
def lettered : FileTree := ⟨.ofString "/w", [(["w"], .folder), (["w", "c"], .file [97])]⟩

theorem load_any_lettered : ¬ ∃ s, load lettered (.ofString "c") = .ok s := by
  have hfile : lettered.find? (.ofString "c") = some (.file [97]) := by decide +kernel
  have htext : decode [97] = .ok ['a'] ∧ unifyLineEnds ['a'] = ['a'] := ⟨rfl, rfl⟩
  have htokens : Yaml.tokensOf ['a'] = some [.scalar true ['a']] := by decide +kernel
  have hnode : Yaml.Node.ofTokens? [.scalar true ['a']] = some (some (.scalar 1 .str ['a'])) := rfl
  have hbuild : Yaml.build (.scalar 1 .str ['a']) = some (.str "a") := by
    unfold Yaml.build
    rfl
  have hsaid : said? [97] = some (.str "a") := by
    rw [said?, htext.1, Except.toOption, Option.bind_some, htext.2, Yaml.readShared, htokens,
      Option.bind_eq_bind, Option.bind_some, hnode, Option.bind_eq_bind, Option.bind_some]
    exact hbuild
  rw [((load_any hfile).2 _ hsaid).2 rfl]
  rintro ⟨es, ⟨⟩, -⟩

end Settings

end Docsmith
