/-
Watching a folder: each batch of events that touches a source file is shown and followed by a
rebuild. A rebuild that fails is shown too, and watching goes on.
-/
import Docsmith.World

namespace Docsmith

inductive EventKind where
  | added
  | modified
  | deleted
  | other (name : String)
  deriving DecidableEq, Repr

structure Event where
  kind : EventKind
  path : Path
  deriving DecidableEq, Repr

namespace Watch

variable [Console]

def label : EventKind → String
  | .added => "[green]added[/green]"
  | .modified => "[yellow]modified[/yellow]"
  | .deleted => "[red]deleted[/red]"
  | .other name => name

def extensions (given : List String) : List String := if given.isEmpty then [".py"] else given

def showEvent (dir : Path) (e : Event) : Action Unit := do
  match e.path.relativeTo? dir with
  | some rel => Action.render ("   " ++ label e.kind ++ "  " ++ rel.text)
  | none => throw (.notBelow e.path.text dir.text)

def rebuildShown (rebuild : Action Unit) : Action Unit := do
  Action.say "[dim]   Regenerating docs…[/dim]"
  match ← rebuild.attempt with
  | .ok _ => Action.say "[green]   ✓ Docs updated[/green]\n"
  | .error e => Action.render ("[red]   ✗ Build error: " ++ e.message ++ "[/red]\n")

def batch (dir : Path) (exts : List String) (rebuild : Action Unit) (events : List Event) :
    Action Unit := do
  let relevant := events.filter fun e => exts.contains e.path.suffix
  if relevant.isEmpty then pure ()
  else
    relevant.forM (showEvent dir)
    rebuildShown rebuild

/-- Watches a folder. Each batch comes from an action, as the files change when it does; in the end
watching is interrupted, or the events just end. -/
def run (dir : Path) (exts : List String) (rebuild : Action Unit) (batches : List (Action (List Event)))
    (isInterrupted : Bool) : Action Unit := do
  let dir ← Action.resolve dir
  Action.render ("\n[bold cyan]👁  Watching[/bold cyan] " ++ dir.text ++
    " for changes…\n   Press [bold]Ctrl+C[/bold] to stop.\n")
  batches.forM fun next => do
    let events ← next
    batch dir (extensions exts) rebuild events
  if isInterrupted then Action.say "\n[bold cyan]Stopped watching.[/bold cyan]"

end Watch

end Docsmith
