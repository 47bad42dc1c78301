/-
Settings in their file. Settings whose fields have the kinds that a project gives them are read from
their file as they were saved, except for the key of the assistant, which is not in the file.
-/
import Docsmith.Proofs.Site
import Docsmith.Proofs.Utf8
import Docsmith.Proofs.Yaml.Meaning
import Docsmith.Settings

namespace Docsmith

/-! ## Settings of the usual kinds -/

/-- Settings whose fields have the kinds that they are meant to have. -/
structure TypedSettings where
  title : String
  source : String
  output : String
  format : String
  exclude : List String
  excludePrivate : Bool
  port : Int
  enabled : Bool
  apiKey : String
  model : String
  style : String
  maxTokens : Int

namespace TypedSettings

def settings (t : TypedSettings) : Settings where
  title := .str t.title
  source := .str t.source
  output := .str t.output
  format := .str t.format
  exclude := .list (t.exclude.map .str)
  excludePrivate := .bool t.excludePrivate
  port := .int t.port
  assistant :=
    { enabled := .bool t.enabled, apiKey := .str t.apiKey, model := .str t.model
      style := .str t.style, maxTokens := .int t.maxTokens }

open Yaml (Field Atom) in
def document (t : TypedSettings) : Yaml.Document where
  outer :=
    [("title", .atom (.text t.title)), ("source", .atom (.text t.source)),
      ("output", .atom (.text t.output)), ("format", .atom (.text t.format)),
      ("exclude", .list (t.exclude.map .text)), ("exclude_private", .atom (.bool t.excludePrivate)),
      ("port", .atom (.int t.port))]
  group := "ai"
  inner :=
    [("enabled", .atom (.bool t.enabled)), ("model", .atom (.text t.model)),
      ("style", .atom (.text t.style)), ("max_tokens", .atom (.int t.maxTokens))]
  outer_ne_nil := by simp
  inner_ne_nil := by simp
  outer_names := by
    have hnames : ∀ k ∈ ["title", "source", "output", "format", "exclude", "exclude_private",
        "port"], Yaml.isKeyName k = true := by decide +kernel
    exact fun e he => hnames e.1 (List.mem_map_of_mem (f := Prod.fst) he)
  group_name := by decide +kernel
  inner_names := by
    have hnames : ∀ k ∈ ["enabled", "model", "style", "max_tokens"], Yaml.isKeyName k = true := by
      decide +kernel
    exact fun e he => hnames e.1 (List.mem_map_of_mem (f := Prod.fst) he)
  outer_nodup := by simp
  inner_nodup := by simp

theorem entries_document (t : TypedSettings) : t.document.entries = t.settings.document := by
  simp [document, settings, Yaml.Document.entries, Yaml.valuesOf, Settings.document,
    Settings.entries, Yaml.Field.value, Yaml.Atom.value, Value.object, Function.comp_def]

/-- Whether the numbers have few enough digits to be saved. -/
def FewDigits (t : TypedSettings) : Prop :=
  (Nat.toDigits 10 t.port.natAbs).length ≤ Written.maxDigits ∧
    (Nat.toDigits 10 t.maxTokens.natAbs).length ≤ Written.maxDigits

instance (t : TypedSettings) : Decidable t.FewDigits := inferInstanceAs (Decidable (_ ∧ _))

theorem entriesWritable_iff (t : TypedSettings) :
    Yaml.entriesWritable t.settings.document = true ↔ t.FewDigits := by
  have hexclude : Yaml.areWritable (t.exclude.map .str) = true :=
    Yaml.areWritable_iff.2 fun v hv => by
      obtain ⟨s, -, rfl⟩ := List.mem_map.1 hv
      rfl
  simp [settings, Settings.document, Settings.entries, Yaml.entriesWritable, Yaml.isWritable,
    Value.object, hexclude, FewDigits]

end TypedSettings

/-! ## Reading settings -/

namespace Value

theorem lookup_object (vs : List (String × Value)) (k : String) :
    lookup (vs.map fun e => (.str e.1, e.2)) k = vs.lookup k := by
  induction vs with
  | nil => rfl
  | cons e vs ih =>
    rw [List.map_cons, lookup, List.find?_cons, List.lookup_cons]
    by_cases hk : e.1 = k
    · simp [hk]
    · have hk' : (k == e.1) = false := beq_eq_false_iff_ne.2 (Ne.symm hk)
      simp only [hk', beq_eq_false_iff_ne.2 hk]
      exact ih

theorem member_object (n : Nat) (vs : List (String × Value)) (k : String) (d : Value) :
    (shared n (object vs)).member k d = .ok ((vs.lookup k).getD d) := by
  rw [member, object, member, lookup_object]

theorem bare_lookup (vs : List (String × Value)) (k : String) (d : Value) :
    ((vs.lookup k).getD d).bare = ((Yaml.bares vs).lookup k).getD d.bare := by
  induction vs with
  | nil => rfl
  | cons e vs ih =>
    rw [Yaml.bares, List.map_cons, ← Yaml.bares, List.lookup_cons, List.lookup_cons]
    split
    · rfl
    · exact ih

end Value

namespace TypedSettings

theorem lookup_group {t : TypedSettings} {us : List (String × Value)} (v : Value)
    (hus : Yaml.bares us = Yaml.namedValues t.document.outer) :
    (us ++ [("ai", v)]).lookup "ai" = some v := by
  have hnone : us.lookup "ai" = none := by
    rw [List.lookup_eq_none_iff]
    intro e he
    have hkey := List.mem_map_of_mem (f := Prod.fst) he
    rw [Yaml.map_fst_of_bares hus] at hkey
    exact (show ∀ k ∈ ["title", "source", "output", "format", "exclude", "exclude_private", "port"],
      ("ai" != k) = true by decide) e.1 hkey
  rw [List.lookup_append, hnone]
  rfl

theorem ofText_text {t : TypedSettings} (ht : t.FewDigits) :
    (Settings.ofText t.settings.text.toList).map Settings.bare =
      .ok ({ t with apiKey := "" } : TypedSettings).settings := by
  have hwritable : Yaml.entriesWritable t.document.entries = true := by
    rw [entries_document]
    exact t.entriesWritable_iff.2 ht
  obtain ⟨n, us, m, ws, hread, hus, hws⟩ := t.document.exists_readShared hwritable
  rw [entries_document] at hread
  have hgroup := lookup_group (.shared m (.object ws)) hus
  have hbares : Yaml.bares (us ++ [("ai", .shared m (.object ws))]) =
      Yaml.namedValues t.document.outer ++ [("ai", (Value.shared m (.object ws)).bare)] := by
    rw [Yaml.bares, List.map_append, ← Yaml.bares, hus]
    rfl
  have hgiven : (Value.shared n (.object (us ++ [("ai", .shared m (.object ws))]))).isGiven =
      true := by
    simp [Value.isGiven, Value.object]
  have hofText : Settings.ofText t.settings.text.toList =
      Settings.ofValue (.shared n (.object (us ++ [("ai", .shared m (.object ws))]))) := by
    rw [Settings.ofText, Settings.text, hread]
    exact congrArg Settings.ofValue (if_pos hgiven)
  rw [hofText]
  simp only [Settings.ofValue, Settings.assistantOf, Value.member_object, bind, Except.bind, pure,
    Except.pure, hgroup, Option.getD_some, Except.map, Settings.bare, Value.bare_lookup, hbares,
    hws]
  simp [Yaml.namedValues, document, settings, Yaml.Field.value, Yaml.Atom.value, List.lookup_cons,
    Function.comp_def, Value.bare]

/-! ## Saving and loading -/

theorem not_mem_text (t : TypedSettings) : '\r' ∉ t.settings.text.toList := by
  obtain ⟨u, hu, hpage, -⟩ := t.document.exists_lines
  rw [entries_document] at hu
  intro hmem
  have hall : Yaml.IsPage ('\n' :: t.settings.text.toList) := by
    rw [Settings.text, ← hu]
    exact Yaml.isPage_append.2 ⟨hpage, by simp; decide⟩
  exact absurd (hall '\r' (List.mem_cons_of_mem _ hmem)) (by decide)

theorem exec_save_ok {s : Settings} {p : Path} {w w' : World} :
    (s.save p).exec w = (.ok (), w') ↔ Yaml.entriesWritable s.document = true ∧
      ∃ files, w.files.writeText p s.text = .ok files ∧ w' = { w with files } := by
  rw [Settings.save]
  split
  · rename_i hfew
    simp only [hfew, true_and]
    exact Page.exec_writeText_ok
  · rename_i hmany
    refine ⟨fun hsave => ?_, fun h => absurd h.1 hmany⟩
    obtain ⟨-, _, -, hthrow⟩ := Action.exec_bind_ok.1 hsave
    cases hthrow

/-- **Loading undoes saving.** The text that is saved does not depend on the key of the assistant.
Saving succeeds whenever the file can be written and neither number has too many digits, and the
settings that are loaded then are those that were saved, except for the key. -/
theorem load_save (t : TypedSettings) (p : Path) (w : World) :
    (∀ key, ({ t with apiKey := key } : TypedSettings).settings.text = t.settings.text) ∧
    (((t.settings.save p).exec w).1 = .ok () ↔
      t.FewDigits ∧ ∃ files, w.files.writeText p t.settings.text = .ok files) ∧
    ∀ w', (t.settings.save p).exec w = (.ok (), w') →
      Settings.load w'.files p = .ok ({ t with apiKey := "" } : TypedSettings).settings := by
  refine ⟨fun _ => rfl, ⟨fun hok => ?_, ?_⟩, fun w' hsave => ?_⟩
  · obtain ⟨hfew, files, hwrite, -⟩ := exec_save_ok.1 (Prod.ext hok rfl)
    exact ⟨t.entriesWritable_iff.1 hfew, files, hwrite⟩
  · rintro ⟨hfew, files, hwrite⟩
    rw [exec_save_ok.2 ⟨t.entriesWritable_iff.2 hfew, files, hwrite, rfl⟩]
  · obtain ⟨hfew, files, hwrite, rfl⟩ := exec_save_ok.1 hsave
    have hfile : files.readBytes p = .ok t.settings.text.toUTF8.toList := by
      rw [FileTree.readBytes, FileTree.find?_of_writeBytes hwrite]
    rw [Settings.load, Settings.read, FileTree.readText_eq hfile t.not_mem_text]
    exact ofText_text (t.entriesWritable_iff.1 hfew)

/-! ### Settings with odd texts -/

/-- Texts that are empty, look like other values, and hold signs, blanks, line ends and letters that
are no ASCII. -/
def oddSettings : TypedSettings where
  title := "é: 'a'  # b\n\n - \"c\"\r"
  source := ""
  output := "~"
  format := "yes"
  exclude := ["*.py", "", "a: b", "-12", "- x", " y "]
  excludePrivate := true
  port := -8000
  enabled := false
  apiKey := "secret"
  model := "\x7b\x7d"
  style := "\u2028😀"
  maxTokens := 0

def emptyFolder : World where
  files := ⟨.ofString "/w", [(["w"], .folder)]⟩

theorem load_save_odd :
    Settings.load ((oddSettings.settings.save (.ofString "conf.yaml")).exec emptyFolder).2.files
      (.ofString "conf.yaml") =
        .ok ({ oddSettings with apiKey := "" } : TypedSettings).settings := by
  have hload := load_save oddSettings (.ofString "conf.yaml") emptyFolder
  have hwrite := FileTree.writeBytes_eq (t := emptyFolder.files) (p := .ofString "conf.yaml")
    oddSettings.settings.text.toUTF8.toList (by decide +kernel) (by decide +kernel)
    (by decide +kernel)
  exact hload.2.2 _ (Prod.ext (hload.2.1.2 ⟨by decide, _, hwrite⟩) rfl)

end TypedSettings

end Docsmith
