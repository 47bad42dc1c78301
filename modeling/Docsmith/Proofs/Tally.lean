/-
What a report counts.

`Tally` is what a reader takes from the file of a report. A build keeps its counts in step with what
it does (`Tallied`): its start, the assistant, and the end each add to both sides, so that what is
read back adds up.
-/
import Docsmith.Proofs.Assistance
import Docsmith.Proofs.JsonValue

namespace Docsmith

open List

/-- The number of functions, classes and methods that are deprecated. -/
def ProjectDoc.deprecatedCount (p : ProjectDoc) : Nat :=
  (p.modules.map fun m =>
    m.functions.countP (·.isDeprecated) + m.types.countP (·.isDeprecated) +
      (m.types.map fun t => t.methods.countP (·.isDeprecated)).foldr (· + ·) 0).foldr (· + ·) 0

/-- The counts of a report, and the action of each change. -/
structure Tally where
  incremental : Bool
  scanned : Int
  changed : Int
  deleted : Int
  unchanged : Int
  generated : Int
  modules : Int
  functions : Int
  classes : Int
  deprecated : Int
  filled : Int
  actions : List String
  deriving DecidableEq, Repr

namespace Tally

def flag? : Value → Option Bool
  | .bool b => some b
  | _ => none

def count? : Value → Option Int
  | .int i => some i
  | _ => none

def text? : Value → Option String
  | .str s => some s
  | _ => none

def items? : Value → Option (List Value)
  | .list xs => some xs
  | _ => none

def ofValue? (v : Value) : Option Tally := do
  let incremental ← v.get? "incremental" >>= flag?
  let summary ← v.get? "summary"
  let count (key : String) := summary.get? key >>= count?
  let changes ← v.get? "changes" >>= items?
  pure
    { incremental
      scanned := ← count "files_scanned"
      changed := ← count "files_changed"
      deleted := ← count "files_deleted"
      unchanged := ← count "files_unchanged"
      generated := ← count "files_generated"
      modules := ← count "modules"
      functions := ← count "functions"
      classes := ← count "classes"
      deprecated := ← count "deprecated"
      filled := ← count "ai_filled"
      actions := ← changes.mapM fun c => c.get? "action" >>= text? }

def ofFile? (t : FileTree) (file : Path) : Option Tally := do
  let text ← (t.readText file).toOption
  let v ← (Json.read text).toOption
  ofValue? v

def ofReport (r : Report) : Tally where
  incremental := r.incremental
  scanned := r.filesScanned
  changed := r.filesChanged
  deleted := r.filesDeleted
  unchanged := r.filesUnchanged
  generated := r.filesGenerated
  modules := r.modules
  functions := r.functions
  classes := r.classes
  deprecated := r.deprecatedCount
  filled := r.aiFilledCount
  actions := r.changes.map (·.action)

/-- A tally that adds up and agrees with what is documented. -/
structure AddsUp (t : Tally) (p : ProjectDoc) : Prop where
  files : t.scanned = t.changed + t.unchanged + t.deleted
  actions_deprecated : t.deprecated = t.actions.count "deprecated"
  items_deprecated : t.deprecated = p.deprecatedCount
  changes : (t.actions.length : Int) =
    (if t.incremental then t.changed + t.deleted else 0) + t.filled + t.deprecated
  pages : t.generated = 1 + t.modules
  modules : t.modules = p.modules.length
  functions : t.functions = ((p.modules.map fun m => m.functions.length).foldr (· + ·) 0 : Nat)
  classes : t.classes = ((p.modules.map fun m => m.types.length).foldr (· + ·) 0 : Nat)

/-! ## Reading a report back -/

theorem mapM_action (cs : List Change) :
    (cs.map Report.changeValue).mapM (fun c => c.get? "action" >>= text?) =
      some (cs.map (·.action)) := by
  induction cs with
  | nil => rfl
  | cons c cs ih =>
    rw [map_cons, mapM_cons, ih]
    rfl

theorem ofValue?_value (r : Report) : ofValue? r.value = some (ofReport r) := by
  show ((r.changes.map Report.changeValue).mapM (fun c => c.get? "action" >>= text?) >>=
    fun actions => some { ofReport r with actions }) = _
  rw [mapM_action]
  rfl

end Tally

namespace Report

open Json

variable {r : Report} {margin : Nat}

def counts (r : Report) : List (String × Int) :=
  [("files_scanned", r.filesScanned), ("files_changed", r.filesChanged),
    ("files_deleted", r.filesDeleted), ("files_unchanged", r.filesUnchanged),
    ("files_generated", r.filesGenerated), ("modules", r.modules), ("functions", r.functions),
    ("classes", r.classes), ("deprecated", r.deprecatedCount), ("ai_filled", r.aiFilledCount)]

/-- A report that a reader takes: no count and no line in it has more digits than may be read. -/
def IsReadable (r : Report) : Prop :=
  (∀ e ∈ r.counts, IsShort e.2) ∧ ∀ c ∈ r.changes, IsShort c.line

instance (r : Report) : Decidable r.IsReadable := inferInstanceAs (Decidable (_ ∧ _))

theorem readsAs_change (margin : Nat) (c : Change) :
    ReadsAs margin (changeValue c) (if IsShort c.line then some (changeValue c) else none) := by
  -- only the line is a number
  have hobject := @readsAs_object _ margin [("name", Value.str c.name),
    ("module", .str c.module), ("kind", .str c.kind), ("action", .str c.action),
    ("line", .int c.line)] Prod.fst Prod.snd Prod.snd (fun e => e.1 = "line" → IsShort c.line) _
    (by simp) fun e he => ?_
  · rwa [if_congr (by simp : _ ↔ IsShort c.line) rfl rfl] at hobject
  · simp only [mem_cons, not_mem_nil, or_false] at he
    rcases he with rfl | rfl | rfl | rfl | rfl
    · exact readsAs_str _ _
    · exact readsAs_str _ _
    · exact readsAs_str _ _
    · exact readsAs_str _ _
    · rw [if_congr (by simp : _ ↔ IsShort c.line) rfl rfl]
      exact readsAs_int _ c.line

/-- **A report is read back**, its format as whatever that is read as, if and only if a reader takes
its numbers. -/
theorem exists_readsAs_value (hformat : unwritable? r.format = none) : ∃ u,
    ReadsAs 0 r.value (if r.IsReadable then some { r with format := u }.value else none) := by
  obtain ⟨u, hu⟩ := exists_readsAs r.format 2 hformat
  let summary : Value := .object (r.counts.map fun e => (e.1, .int e.2))
  let changes : Value := .list (r.changes.map changeValue)
  let errors : Value := .list (r.errors.map .str)
  have hsummary : ReadsAs 2 summary (if ∀ e ∈ r.counts, IsShort e.2 then some summary else none) :=
    readsAs_object (by simp [counts]) fun e _ => readsAs_int 4 e.2
  have hchanges : ReadsAs 2 changes
      (if ∀ c ∈ r.changes, IsShort c.line then some changes else none) :=
    readsAs_list fun c _ => readsAs_change 4 c
  have herrors : ReadsAs 2 errors (if ∀ s ∈ r.errors, True then some errors else none) :=
    readsAs_list fun s _ => readsAs_str 4 s
  rw [if_pos fun _ _ => trivial] at herrors
  have hvalue := @readsAs_object _ 0 [("source", Value.str r.source, Value.str r.source, true),
    ("output", .str r.output, .str r.output, true), ("format", r.format, u, true),
    ("incremental", .bool r.incremental, .bool r.incremental, true),
    ("summary", summary, summary, decide (∀ e ∈ r.counts, IsShort e.2)),
    ("changes", changes, changes, decide (∀ c ∈ r.changes, IsShort c.line)),
    ("errors", errors, errors, true)] Prod.fst (·.2.1) (·.2.2.1) (·.2.2.2 = true) _ (by simp)
    (by simp only [forall_mem_cons, if_true, decide_eq_true_eq]
        exact ⟨readsAs_str _ _, readsAs_str _ _, hu, readsAs_bool _ _, hsummary, hchanges, herrors,
          forall_mem_nil _⟩)
  rw [if_congr (by simp [IsReadable] : _ ↔ r.IsReadable) rfl rfl] at hvalue
  exact ⟨u, hvalue⟩

end Report

/-- **The tally of a report is read from its file** if and only if a reader takes its numbers. -/
theorem Tally.ofFile?_report {t : FileTree} {file : Path} {r : Report}
    (hfile : t.find? file = some (.file r.text.toUTF8.toList))
    (hformat : Report.unwritable? r.format = none) :
    ofFile? t file = if r.IsReadable then some (ofReport r) else none := by
  obtain ⟨u, hu⟩ := Report.exists_readsAs_value hformat
  have htext : t.readText file = .ok r.text.toList :=
    FileTree.readText_eq (by rw [FileTree.readBytes, hfile]) hu.plain
  have hread : (Json.read r.text.toList).toOption = _ := Json.toOption_read_pretty hu
  rw [ofFile?, htext, Except.toOption, Option.bind_eq_bind, Option.bind_some, hread]
  split
  · rw [Option.bind_eq_bind, Option.bind_some, ofValue?_value]
    rfl
  · rfl

/-! ## What is deprecated -/

namespace Build

theorem length_deprecatedIn (module : String) (t : TypeDecl) :
    (deprecatedIn module t).length =
      (if t.isDeprecated then 1 else 0) + t.methods.countP (·.isDeprecated) := by
  rw [deprecatedIn, countP_eq_length_filter]
  split
  · rw [length_cons, length_map, Nat.add_comm]
  · rw [length_map, Nat.zero_add]

theorem length_deprecated_types (module : String) (ts : List TypeDecl) :
    (ts.flatMap (deprecatedIn module)).length =
      ts.countP (·.isDeprecated) +
        (ts.map fun t => t.methods.countP (·.isDeprecated)).foldr (· + ·) 0 := by
  induction ts with
  | nil => rfl
  | cons t ts ih =>
    rw [flatMap_cons, length_append, length_deprecatedIn, ih, countP_cons,
      map_cons, foldr_cons]
    omega

theorem length_deprecated (p : ProjectDoc) : (deprecated p).length = p.deprecatedCount := by
  rw [deprecated, length_flatMap, ProjectDoc.deprecatedCount]
  refine congrArg (foldr (· + ·) 0) (map_congr_left fun m _ => ?_)
  rw [length_append, length_map, ← countP_eq_length_filter, length_deprecated_types,
    Nat.add_assoc]

theorem action_deprecated {p : ProjectDoc} {c : Change} (h : c ∈ deprecated p) :
    c.action = "deprecated" := by
  obtain ⟨m, -, h⟩ := mem_flatMap.1 h
  rcases mem_append.1 h with h | h
  · obtain ⟨f, -, rfl⟩ := mem_map.1 h
    rfl
  · obtain ⟨t, -, h⟩ := mem_flatMap.1 h
    have hmethod : ∀ x ∈ (t.methods.filter (·.isDeprecated)).map fun f =>
        (⟨t.name ++ "." ++ f.name, m.name, "method", "deprecated", f.line⟩ : Change),
        x.action = "deprecated" := fun x hx => by
      obtain ⟨f, -, rfl⟩ := mem_map.1 hx
      rfl
    rw [deprecatedIn] at h
    split at h
    · rcases mem_cons.1 h with rfl | h
      · rfl
      · exact hmethod c h
    · exact hmethod c h

/-! ## Counts in step -/

variable {b : Build} {s s' : Start} {out : List String} {w w' w₁ : World}

/-- A report whose counts are those of what it lists, before anything deprecated is listed. -/
structure Tallied (b : Build) (r : Report) : Prop where
  incremental : r.incremental = b.isIncremental
  files : r.filesScanned = r.filesChanged + r.filesUnchanged + r.filesDeleted
  changes : (r.changes.length : Int) =
    (if r.incremental then r.filesChanged + r.filesDeleted else 0) + r.aiFilledCount
  actions : ∀ c ∈ r.changes, c.action ≠ "deprecated"

theorem tallied_fullStart (hinc : b.isIncremental = false) (files : List Path) (p : ProjectDoc) :
    Tallied b (b.fullStart files p).report where
  incremental := rfl
  files := by simp [fullStart, emptyReport]
  changes := by simp [fullStart, emptyReport, hinc]
  actions := forall_mem_nil _

theorem tallied_startReport (hinc : b.isIncremental = true) {tree : FileTree} {state : Snapshot}
    {files : List Path} {diff : Diff} (hdiff : state.diff tree files = .ok diff) :
    Tallied b (b.startReport state files diff) where
  incremental := rfl
  files := by
    have := Snapshot.length_diff hdiff
    simp only [startReport]
    omega
  changes := by
    simp [startReport, emptyReport, hinc, removedFiles, length_mergeSort]
  actions c hc := by
    rcases mem_append.1 hc with hc | hc
    · obtain ⟨p, -, rfl⟩ := mem_map.1 hc
      rw [changedFile_eq]
      exact (by decide : "added" ≠ "deprecated")
    · obtain ⟨p, -, rfl⟩ := mem_map.1 (mem_mergeSort.1 hc)
      exact (by decide : "removed" ≠ "deprecated")

theorem tallied_start (h : (b.start out).exec w = (.ok (some s), w₁)) :
    Tallied b s.report ∧ s.report.aiFilledCount = 0 := by
  cases hinc : b.isIncremental with
  | true =>
    rw [start_incremental hinc] at h
    obtain ⟨state, diff, -, hdiff, ⟨hnone, -⟩ | h⟩ := startIncremental_ok h
    · cases hnone
    · obtain ⟨_, _, _, -, -, -, -, hs⟩ := startChanged_ok.1 h
      obtain rfl := Option.some.inj hs
      exact ⟨tallied_startReport hinc hdiff, rfl⟩
  | false =>
    obtain ⟨-, project, -, hs⟩ := (start_full_ok hinc).1 h
    obtain rfl := Option.some.inj hs
    exact ⟨tallied_fullStart hinc _ _, rfl⟩

/-- Whatever the assistant writes is listed as added, also if it is stopped. -/
theorem action_fillFiles {a : Assistant} {files : List Path} {changes : List Change}
    {failed : Option Fault} (h : (fillFiles a files).exec w = (.ok (changes, failed), w')) :
    ∀ c ∈ changes, c.action = "added" := by
  induction files generalizing w changes with
  | nil =>
    cases h
    exact forall_mem_nil _
  | cons p files ih =>
    obtain ⟨r, w₁, -, h⟩ := Action.exec_bind_ok.1 h
    cases r with
    | error e =>
      cases h
      exact forall_mem_nil _
    | ok ss =>
      obtain ⟨⟨more, failed'⟩, w₂, hmore, h⟩ := Action.exec_bind_ok.1 h
      cases h
      intro c hc
      rcases mem_append.1 hc with hc | hc
      · obtain ⟨s, -, rfl⟩ := mem_map.1 hc
        rfl
      · exact ih hmore c hc

theorem Tallied.filled {r : Report} (h : Tallied b r) (hnone : r.aiFilledCount = 0)
    {changes : List Change} (hchanges : ∀ c ∈ changes, c.action = "added") :
    Tallied b (filledReport r changes) where
  incremental := h.incremental
  files := h.files
  changes := by
    simp only [filledReport, length_append, Int.natCast_add, h.changes, hnone, Int.add_zero]
    rfl
  actions c hc := by
    rcases mem_append.1 hc with hc | hc
    · exact h.actions c hc
    · rw [hchanges c hc]
      decide

theorem Tallied.of_errors {r : Report} (h : Tallied b r) (errors : List String) :
    Tallied b { r with errors } := ⟨h.incremental, h.files, h.changes, h.actions⟩

theorem tallied_assisted (hs : Tallied b s.report) (hnone : s.report.aiFilledCount = 0)
    (h : (b.assisted out s).exec w = (.ok s', w')) : Tallied b s'.report := by
  rw [assisted] at h
  split at h
  next =>
    cases assist_ok h with
    | noKey => exact hs.of_errors _
    | stopped _ hfill => exact (hs.filled hnone (action_fillFiles hfill)).of_errors _
    | nothing _ hfill => exact hs.filled hnone (action_fillFiles hfill)
    | unreadable _ _ hfill => exact (hs.filled hnone (action_fillFiles hfill)).of_errors _
    | reread _ _ hfill => exact hs.filled hnone (action_fillFiles hfill)
  next =>
    cases h
    exact hs

theorem addsUp_finalReport (hs : Tallied b s.report) :
    (Tally.ofReport (finalReport s (1 + s.project.moduleCount))).AddsUp s.project := by
  have hold : s.report.changes.filter (fun c => c.action == "deprecated") = [] :=
    filter_eq_nil_iff.2 fun c hc => by simpa using hs.actions c hc
  have hnew : (deprecated s.project).filter (fun c => c.action == "deprecated") =
      deprecated s.project :=
    filter_eq_self.2 fun c hc => by rw [action_deprecated hc]; rfl
  have hcount : (finalReport s (1 + s.project.moduleCount)).deprecatedCount =
      s.project.deprecatedCount := by
    simp only [finalReport, filter_append, hold, hnew, nil_append, length_deprecated]
  refine ⟨hs.files, ?_, hcount, ?_, ?_, rfl, rfl, rfl⟩
  · rw [Tally.ofReport, count, countP_map, countP_eq_length_filter]
    rfl
  · simp only [Tally.ofReport, hcount]
    simp only [finalReport, length_map, length_append, length_deprecated,
      Int.natCast_add, hs.changes]
    rfl
  · simp [Tally.ofReport, finalReport]

/-! ## What is reported -/

theorem length_pages {f : Page.Format} {p : ProjectDoc} {dir : Path} {ps : List (Path × String)}
    (h : Page.pages f p dir = .ok ps) : ps.length = 1 + p.moduleCount := by
  obtain ⟨qs, hqs, hps⟩ := Except.bind_ok_iff.1 h
  rw [← Except.pure_ok_iff.1 hps, length_cons, Except.length_of_mapM hqs, Nat.add_comm]
  rfl

theorem find?_reportFile (h : (b.finish s).exec w = (.ok (), w')) :
    w'.files.find? b.reportFile =
        some (.file (finalReport s (1 + s.project.moduleCount)).text.toUTF8.toList) ∧
      Report.unwritable? s.report.format = none := by
  obtain ⟨t₁, ps, t₂, text, t₃, -, hps, -, htext, hwrite, rfl⟩ := finish_ok.1 h
  rw [length_pages hps] at htext
  obtain ⟨hformat, rfl⟩ := text?_ok.1 htext
  exact ⟨FileTree.find?_of_writeBytes hwrite, hformat⟩

/-- What a build documents: the sources as it finds them, or as the assistant leaves them. -/
def Documented (b : Build) (out : List String) (w : World) (p : ProjectDoc) : Prop :=
  b.project out w.files = .ok p ∨
    ∃ s w₁ s' w₂, b.isAssisted = true ∧ (b.start out).exec w = (.ok (some s), w₁) ∧
      (b.assist out s).exec w₁ = (.ok s', w₂) ∧ b.project out w₂.files = .ok p

theorem documented_assisted (hproject : b.project out w.files = .ok s.project)
    (hstart : (b.start out).exec w = (.ok (some s), w₁))
    (h : (b.assisted out s).exec w₁ = (.ok s', w')) : Documented b out w s'.project := by
  obtain ⟨-, hstill | ⟨hai, hread⟩⟩ := project_assisted h
  · exact .inl (hstill ▸ hproject)
  · rw [assisted, if_pos hai] at h
    exact .inr ⟨s, w₁, s', w', hai, hstart, h, hread⟩

/-- **A report adds up.** A build that succeeds has nothing to do, or it leaves the pages of what it
documents and a report of which each count is the sum of its parts and agrees with what is
documented. This is what a reader takes from the file, and it takes it unless a number in it has too
many digits. -/
theorem report_adds_up (hsource : b.source.Proper) (houtput : b.output.Proper)
    (hw : w.files.WellFormed) (h : b.run.exec w = (.ok (), w')) :
    b.isIncremental = true ∧ w' = { w with printed := w.printed ++ [skipNotice] } ∨
      ∃ out p ps r, b.excluded = .ok out ∧ Documented b out w p ∧
        Page.pages (.ofValue b.format) p b.output = .ok ps ∧ Page.InPlace w'.files ps ∧
        w'.files.find? b.reportFile = some (.file r.text.toUTF8.toList) ∧
        Tally.ofFile? w'.files b.reportFile =
          (if r.IsReadable then some (Tally.ofReport r) else none) ∧
        (Tally.ofReport r).incremental = b.isIncremental ∧ (Tally.ofReport r).AddsUp p := by
  obtain ⟨out, hout, hskip | ⟨s, w₁, hstart, hproceed⟩⟩ := run_ok_start.1 h
  · exact .inl (start_none hskip)
  · obtain ⟨s', w₂, hassisted, hfinish⟩ := Action.exec_bind_ok.1 hproceed
    obtain ⟨hw₁, hg₁, hproject, htargets⟩ := start_some houtput hw hstart
    have hw₂ := (grows_assisted hsource hw htargets w₁ hw₁ hg₁.cwd).1
    rw [hassisted] at hw₂
    obtain ⟨ps, hps, -, -, hin, -⟩ := finish_spec hw₂ houtput hfinish
    obtain ⟨hs, hnone⟩ := tallied_start hstart
    have hs' := tallied_assisted hs hnone hassisted
    obtain ⟨hfile, hformat⟩ := find?_reportFile hfinish
    exact .inr ⟨out, s'.project, ps, finalReport s' (1 + s'.project.moduleCount), hout,
      documented_assisted hproject hstart hassisted, hps, hin, hfile,
      Tally.ofFile?_report hfile hformat, hs'.incremental, addsUp_finalReport hs'⟩

/-- What is left of a build after its file is replaced by another, with a function in it that is
deprecated. -/
def replaced : World :=
  { built with
    files := { built.files with
      entries := built.files.entries.filter (fun e => e.1 != ["w", "src", "a.py"]) ++
        [(["w", "src", "b.py"], .file "def f():\n  \"deprecated\"\n".toUTF8.toList)] } }

def reported? : Option Report := do
  let out ← nestedBuild.excluded.toOption
  let s ← ((nestedBuild.start out).exec replaced).1.toOption.join
  pure (finalReport s (1 + s.project.moduleCount))

def counted : Tally where
  incremental := true
  scanned := 2
  changed := 1
  deleted := 1
  unchanged := 0
  generated := 2
  modules := 1
  functions := 1
  classes := 0
  deprecated := 1
  filled := 0
  actions := ["added", "removed", "deprecated"]

theorem facts_replaced : replaced.files.WellFormed ∧
    (nestedBuild.run.exec replaced).1.isOk = true ∧
    (nestedBuild.run.exec replaced).2.printed ≠ replaced.printed ++ [skipNotice] ∧
    (reported?.map fun r => decide r.IsReadable) = some true ∧
    reported?.map Tally.ofReport = some counted := by
  decide +kernel

theorem ofFile?_replaced : Tally.ofFile? (nestedBuild.run.exec replaced).2.files
    nestedBuild.reportFile = some counted := by
  obtain ⟨-, hok, hprinted, hreadable, hcounted⟩ := facts_replaced
  obtain ⟨out, hout, hskip | ⟨s, w₁, hstart, hproceed⟩⟩ := run_ok_start.1 (exec_eq_of_isOk hok)
  · exact absurd (congrArg World.printed (start_none hskip).2) hprinted
  · obtain ⟨s', w₂, hassisted, hfinish⟩ := Action.exec_bind_ok.1 hproceed
    cases hassisted
    have hreported : reported? = some (finalReport s (1 + s.project.moduleCount)) := by
      rw [reported?, hout, Except.toOption, Option.bind_eq_bind, Option.bind_some, hstart]
      rfl
    rw [hreported] at hreadable hcounted
    obtain ⟨hfile, hformat⟩ := find?_reportFile hfinish
    rw [Tally.ofFile?_report hfile hformat, if_pos (of_decide_eq_true (Option.some.inj hreadable)),
      ← hcounted, Option.map_some]

theorem report_adds_up_replaced : ∃ p,
    Tally.ofFile? (nestedBuild.run.exec replaced).2.files nestedBuild.reportFile = some counted ∧
      counted.AddsUp p := by
  obtain ⟨hreplaced, hok, hprinted, -⟩ := facts_replaced
  obtain ⟨-, hskip⟩ | ⟨-, p, -, r, -, -, -, -, -, htally, -, hadds⟩ :=
    report_adds_up (Path.proper_ofString _) (Path.proper_ofString _) hreplaced (exec_eq_of_isOk hok)
  · exact absurd (congrArg World.printed hskip) hprinted
  · refine ⟨p, ofFile?_replaced, ?_⟩
    rw [ofFile?_replaced] at htally
    split at htally
    next =>
      rw [Option.some.inj htally]
      exact hadds
    next => cases htally

end Build

end Docsmith
