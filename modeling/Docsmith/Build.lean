/-
The build of a project's pages: find what changed, let the assistant fill gaps if it is asked to,
write the pages, and report.
-/
import Docsmith.Assistant.Fill
import Docsmith.Page.Site
import Docsmith.Project
import Docsmith.Report
import Docsmith.Settings
import Docsmith.Snapshot

namespace Docsmith

structure Build where
  source : Path
  output : Path
  format : Value
  settings : Settings
  isIncremental : Bool := false
  isAssisted : Bool := false

namespace Build

def setTexts : List Value → Except Fault (List String)
  | [] => .ok []
  | v :: rest => do
    match v with
    | .list _ | .map _ | .set _ => .error (.unhashable v.kind)
    | .str s => do
      let more ← setTexts rest
      pure (s :: more)
    | _ => setTexts rest

/-- The names that a value gives: the items of a list, the keys of a map, the letters of a text. -/
def namesIn : Value → Except Fault (List String)
  | .list xs => setTexts xs
  | .set xs => setTexts xs
  | .pair a b => setTexts [a, b]
  | .map entries => setTexts (entries.map Prod.fst)
  | .str s => .ok (s.toList.map fun c => String.ofList [c])
  | .bytes _ => .ok []
  | v => .error (.notIterable v.kind)

def defaultExcluded : Value := .list (["__pycache__", ".venv", "venv", ".git"].map .str)

def excluded (b : Build) : Except Fault (List String) :=
  namesIn (if b.settings.exclude.isGiven then b.settings.exclude else defaultExcluded)

def project (b : Build) (out : List String) (tree : FileTree) : Except Fault ProjectDoc := do
  let p ← Project.ofAll b.settings.excludePrivate.isGiven tree b.source out
  pure { p with title := b.settings.title.display }

/-! ## Changes -/

/-- What a file is compared with when it is looked up in a state: a path is equal to no text. -/
inductive Key where
  | path (p : Path)
  | text (s : String)
  deriving DecidableEq, Repr

def keys (state : Snapshot) : List Key := (state.known.toOption.getD []).map .text

def changedFile (state : Snapshot) (p : Path) : Change :=
  ⟨p.stem, p.stem, "file", if (keys state).contains (.path p) then "modified" else "added", 0⟩

def removedFile (p : Path) : Change := ⟨p.name, p.stem, "file", "removed", 0⟩

/-- The entries of files that are gone. The files come as a set; here their names order them. -/
def removedFiles (ps : List Path) : List Change :=
  (ps.map removedFile).mergeSort fun a b =>
    decide (a.name < b.name) || (a.name == b.name && !decide (b.module < a.module))

def filled (p : Path) (s : Assistant.Suggestion) : Change := ⟨s.name, p.stem, s.kind, "added", s.line⟩

def deprecatedIn (module : String) (t : TypeDecl) : List Change :=
  let methods := (t.methods.filter (·.isDeprecated)).map fun f =>
    (⟨t.name ++ "." ++ f.name, module, "method", "deprecated", f.line⟩ : Change)
  if t.isDeprecated then ⟨t.name, module, "class", "deprecated", t.line⟩ :: methods else methods

def deprecated (p : ProjectDoc) : List Change :=
  p.modules.flatMap fun m =>
    ((m.functions.filter (·.isDeprecated)).map fun f =>
      (⟨f.name, m.name, "function", "deprecated", f.line⟩ : Change)) ++
    m.types.flatMap (deprecatedIn m.name)

/-! ## Steps -/

/-- What a build starts from: the files to fill gaps in, what they document, and the report so
far. -/
structure Start where
  targets : List Path
  project : ProjectDoc
  report : Report

def emptyReport (b : Build) : Report :=
  { source := b.source.text, output := b.output.text, format := b.format
    incremental := b.isIncremental }

def startFull (b : Build) (out : List String) : Action Start :=
  Action.ofFiles fun tree => do
    let files := Project.sourceFiles tree b.source out
    let project ← b.project out tree
    let count : Int := files.length
    pure ⟨files, project, { b.emptyReport with filesScanned := count, filesChanged := count }⟩

/-- An incremental build starts from the files that changed, and records all files as they are; if
none changed and none is gone, there is nothing to do. -/
def startIncremental (b : Build) (out : List String) : Action (Option Start) := do
  let (state, files, diff) ← Action.ofFiles fun tree => do
    let state ← Snapshot.load tree (b.output / Snapshot.fileName)
    let files := Project.sourceFiles tree b.source out
    let diff ← state.diff tree files
    pure (state, files, diff)
  if diff.changed.isEmpty && diff.deleted.isEmpty then
    Action.say "[dim]No changes detected -- skipping rebuild.[/dim]"
    pure none
  else
    let project ← Action.ofFiles (b.project out)
    let updated ← Action.ofFiles fun tree => do
      let state ← state.updateAll tree files
      state.removeAll tree diff.deleted
    updated.save
    let report : Report :=
      { b.emptyReport with
        filesScanned := files.length + diff.deleted.length
        filesChanged := diff.changed.length
        filesUnchanged := diff.unchanged.length
        filesDeleted := diff.deleted.length
        changes := diff.changed.map (changedFile state) ++ removedFiles diff.deleted }
    pure (some ⟨diff.changed, project, report⟩)

/-- Lets the assistant fill gaps file by file, up to the first failure, which is given with what was
written until then. -/
def fillFiles (a : Assistant) : List Path → Action (List Change × Option Fault)
  | [] => pure ([], none)
  | p :: rest => do
    match ← (a.fill p false).attempt with
    | .error e => pure ([], some e)
    | .ok ss =>
      let (changes, failed) ← fillFiles a rest
      pure (ss.map (filled p) ++ changes, failed)

/-- Lets the assistant fill gaps. Where it wrote something, the sources are read again. A failure
goes into the report. -/
def assist (b : Build) (out : List String) (s : Start) : Action Start := do
  let w ← get
  let config := b.settings.assistant
  let key := config.key w.env
  let failing (r : Report) (e : Fault) : Report :=
    { r with errors := r.errors ++ ["AI fill failed: " ++ e.message] }
  if !key.isGiven then
    let errors := s.report.errors ++ ["AI enabled but no GROQ_API_KEY found"]
    pure { s with report := { s.report with errors } }
  else
    let a : Assistant := ⟨key, config.model, config.style, config.maxTokens⟩
    let (changes, failed) ← fillFiles a s.targets
    let report :=
      { s.report with
        aiFilledCount := changes.length
        changes := s.report.changes ++ changes }
    match failed with
    | some e => pure { s with report := failing report e }
    | none =>
      if changes.isEmpty then pure { s with report }
      else
        match ← (Action.ofFiles (b.project out)).attempt with
        | .ok project => pure { s with project, report }
        | .error e => pure { s with report := failing report e }

def finish (b : Build) (s : Start) : Action Unit := do
  let old := deprecated s.project
  Action.makeFolders b.output
  let files ← Page.writeSite (.ofValue b.format) s.project b.output
  let changes : List Change := s.report.changes ++ old
  let report :=
    { s.report with
      changes
      deprecatedCount := (changes.filter fun (c : Change) => c.action == "deprecated").length
      modules := s.project.moduleCount
      functions := s.project.functionCount
      classes := s.project.typeCount
      filesGenerated := files.length }
  let text ← Action.ofExcept report.text?
  Action.writeText (b.output / Report.fileName) text
  report.notices.forM Action.notify

def run (b : Build) : Action Unit := do
  let out ← Action.ofExcept b.excluded
  let start ← if b.isIncremental then b.startIncremental out else some <$> b.startFull out
  match start with
  | none => pure ()
  | some s =>
    let s ← if b.isAssisted then b.assist out s else pure s
    b.finish s

end Build

end Docsmith
