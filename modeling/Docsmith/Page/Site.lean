/-
The pages of a project as files: an index and a page for each module, in folders that follow the
dots of its name.
-/
import Docsmith.Page.Html
import Docsmith.World

namespace Docsmith.Page

inductive Format where
  | markdown
  | html
  deriving DecidableEq, Repr

namespace Format

def ofName (name : String) : Format := if name = "html" then html else markdown

def ofValue (v : Value) : Format := if v == .str "html" then html else markdown

def extension : Format → String
  | markdown => ".md"
  | html => ".html"

end Format

def indexFile (f : Format) (out : Path) : Path := out / ("index" ++ f.extension)

def moduleFile (f : Format) (out : Path) (m : ModuleDoc) : Path := out / (m.pagePath ++ f.extension)

def stepsUp (file out : Path) : Except Fault String :=
  match file.parent.relativeTo? out with
  | some rel => .ok (String.join (List.replicate rel.parts.length "../"))
  | none => .error (.notBelow file.parent.text out.text)

def indexText (f : Format) (p : ProjectDoc) : String :=
  match f with
  | .markdown => markdownIndex p
  | .html => htmlIndexPage Template.escapes p

def moduleText (f : Format) (p : ProjectDoc) (out : Path) (m : ModuleDoc) : Except Fault String :=
  match f with
  | .markdown => .ok (markdownModule m)
  | .html => do
    let up ← stepsUp (moduleFile f out m) out
    pure (htmlModulePage Template.escapes p m up)

def writeModule (f : Format) (p : ProjectDoc) (out : Path) (m : ModuleDoc) : Action Path := do
  let file := moduleFile f out m
  Action.makeFolders file.parent
  let text ← Action.ofExcept (moduleText f p out m)
  Action.writeText file text
  pure file

def writeSite (f : Format) (p : ProjectDoc) (out : Path) : Action (List Path) := do
  Action.makeFolders out
  Action.writeText (indexFile f out) (indexText f p)
  let files ← p.modules.mapM (writeModule f p out)
  pure (indexFile f out :: files)

end Docsmith.Page
