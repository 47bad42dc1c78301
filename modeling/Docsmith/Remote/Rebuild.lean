/-
A build from afar: the Python files of a project as pages, and the state that they were built from.
-/
import Docsmith.Page.Site
import Docsmith.Project
import Docsmith.Snapshot

namespace Docsmith.Remote

structure Outcome where
  modules : Nat
  files : Nat
  deriving DecidableEq, Repr

def record (source output : Path) : Action Unit := do
  let s ← Action.ofFiles fun t => do
    let s ← Snapshot.load t (output / Snapshot.fileName)
    s.updateAll t (t.search source fun name => ".py".toList.isSuffixOf name.toList)
  s.save

def rebuild (source output : Path) (format : Page.Format) : Action Outcome := do
  let project ← Action.ofFiles fun t =>
    Project.ofLanguage .python false t source (Project.excluded [])
  Action.makeFolders output
  let files ← Page.writeSite format project output
  record source output
  pure ⟨project.modules.length, files.length⟩

end Docsmith.Remote
