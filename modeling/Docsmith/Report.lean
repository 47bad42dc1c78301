/-
The report of a build: what was found, changed and written.
-/
import Docsmith.Json.Reader
import Docsmith.Json.Writer
import Docsmith.World

namespace Docsmith

structure Change where
  name : String
  module : String
  kind : String
  action : String
  line : Int := 0
  deriving DecidableEq, Repr

structure Report where
  source : String := ""
  output : String := ""
  format : Value := .str ""
  incremental : Bool := false
  filesScanned : Int := 0
  filesChanged : Int := 0
  filesDeleted : Int := 0
  filesUnchanged : Int := 0
  filesGenerated : Int := 0
  modules : Int := 0
  functions : Int := 0
  classes : Int := 0
  deprecatedCount : Int := 0
  aiFilledCount : Int := 0
  changes : List Change := []
  errors : List String := []

namespace Report

def withAction (r : Report) (action : String) : List Change :=
  r.changes.filter fun c => c.action == action

def changeValue (c : Change) : Value :=
  .object [("name", .str c.name), ("module", .str c.module), ("kind", .str c.kind),
    ("action", .str c.action), ("line", .int c.line)]

def value (r : Report) : Value :=
  .object
    [("source", .str r.source), ("output", .str r.output), ("format", r.format),
      ("incremental", .bool r.incremental),
      ("summary", .object
        [("files_scanned", .int r.filesScanned), ("files_changed", .int r.filesChanged),
          ("files_deleted", .int r.filesDeleted), ("files_unchanged", .int r.filesUnchanged),
          ("files_generated", .int r.filesGenerated), ("modules", .int r.modules),
          ("functions", .int r.functions), ("classes", .int r.classes),
          ("deprecated", .int r.deprecatedCount), ("ai_filled", .int r.aiFilledCount)]),
      ("changes", .list (r.changes.map changeValue)), ("errors", .list (r.errors.map .str))]

def fileName : String := "build_report.json"

def text (r : Report) : String := Json.pretty r.value

def unwritableInt? (i : Int) : Option Fault :=
  if Json.maxDigits < (Nat.toDigits 10 i.natAbs).length then some .tooManyDigits else none

def unwritableKey? : Value → Option Fault
  | .null | .bool _ | .float _ | .str _ => none
  | .int i => unwritableInt? i
  | .shared _ k => unwritableKey? k
  | k => some (.notAKey k.shortKind)

mutual

def unwritable? : Value → Option Fault
  | .null | .bool _ | .float _ | .str _ => none
  | .int i => unwritableInt? i
  | .date _ => some (.notWritable "date")
  | .moment _ => some (.notWritable "datetime")
  | .bytes _ => some (.notWritable "bytes")
  | .set _ => some (.notWritable "set")
  | .list xs => unwritableItem? xs
  | .map es => unwritableField? es
  | .pair a b => unwritable? a <|> unwritable? b
  | .shared _ v => unwritable? v

def unwritableItem? : List Value → Option Fault
  | [] => none
  | x :: xs => unwritable? x <|> unwritableItem? xs

def unwritableField? : List (Value × Value) → Option Fault
  | [] => none
  | (k, v) :: es => unwritableKey? k <|> unwritable? v <|> unwritableField? es

end

def text? (r : Report) : Except Fault String :=
  match unwritable? r.format with
  | some e => .error e
  | none => .ok r.text

def color (action : String) : String :=
  if action = "added" then "green"
  else if action = "modified" then "yellow"
  else if action = "removed" then "red"
  else if action = "deprecated" then "magenta"
  else "white"

def changeTable (r : Report) : Notice :=
  .table "Changes Detected" ["Action", "Kind", "Name", "Module"]
    (r.changes.map fun c =>
      ["[" ++ color c.action ++ "]" ++ c.action ++ "[/" ++ color c.action ++ "]", c.kind, c.name,
        c.module])

def summaryLines (r : Report) : List String :=
  ["[bold]Files:[/bold] " ++ toString r.filesScanned ++ " scanned"] ++
    (if r.incremental then
      ["  [green]+" ++ toString r.filesChanged ++ "[/green] changed | [dim]" ++
        toString r.filesUnchanged ++ " unchanged[/dim] | [red]-" ++ toString r.filesDeleted ++
        " deleted[/red]"]
    else []) ++
    ["[bold]Output:[/bold] " ++ toString r.filesGenerated ++ " docs generated",
      "[bold]Content:[/bold] " ++ toString r.modules ++ " modules | " ++ toString r.functions ++
        " functions | " ++ toString r.classes ++ " classes"] ++
    (if r.deprecatedCount ≠ 0 then
      ["[bold yellow]Deprecated:[/bold yellow] " ++ toString r.deprecatedCount ++ " items"]
    else []) ++
    (if r.aiFilledCount ≠ 0 then
      ["[bold cyan]AI-filled:[/bold cyan] " ++ toString r.aiFilledCount ++ " docstrings"]
    else []) ++
    (if r.errors.isEmpty then []
    else ["[bold red]Errors:[/bold red] " ++ toString r.errors.length])

def notices (r : Report) : List Notice :=
  (if r.changes.isEmpty then [] else [r.changeTable]) ++
    [.panel ("\n".intercalate r.summaryLines) "[bold cyan]Build Report[/bold cyan]" "cyan"]

end Report

end Docsmith
