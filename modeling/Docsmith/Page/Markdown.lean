/-
Pages in Markdown: one for the project and one for each module.
-/
import Docsmith.Doc
import Docsmith.Text.Cut

namespace Docsmith

namespace ModuleDoc

def summary (m : ModuleDoc) : String := String.ofList (m.doc.toList.takeWhile (· ≠ '\n'))

/-- The path of a module's page from the index, without its extension: a dot leads into a folder. -/
def pagePath (m : ModuleDoc) : String := m.name.map fun c => if c = '.' then '/' else c

end ModuleDoc

namespace Page

def on (b : Bool) (s : String) : String := if b then s else ""

def markdownFooter : String := "*Generated by [autoredocs](https://github.com/autoredocs/autoredocs)*"

def markdownEntry (m : ModuleDoc) : String :=
  "- [" ++ m.name ++ "](" ++ m.pagePath ++ ".md)\n" ++ on (!m.doc.isEmpty) ("— " ++ m.summary) ++
    "\n"

def markdownIndex (p : ProjectDoc) : String :=
  "# " ++ p.title ++ "\n\n> Auto-generated documentation\n\n---\n\n**Stats:** " ++
    toString p.moduleCount ++ " modules · " ++ toString p.functionCount ++ " functions · " ++
    toString p.typeCount ++ " classes\n\n## Modules\n\n" ++
    String.join (p.modules.map markdownEntry) ++ "\n---\n\n" ++ markdownFooter

def markdownMark (isDeprecated : Bool) : String := on isDeprecated " ⚠️ DEPRECATED"

def markdownNotes (marks : List String) (doc : String) : String :=
  "\n" ++ String.join (marks.map fun m => "`@" ++ m ++ "`\n") ++ "\n" ++
    on (!doc.isEmpty) (doc ++ "\n") ++ "\n"

def markdownMethod (f : Callable) : String :=
  "##### `" ++ f.signature ++ "`" ++ markdownMark f.isDeprecated ++ markdownNotes f.marks f.doc

def markdownType (t : TypeDecl) : String :=
  "### " ++ t.signature ++ markdownMark t.isDeprecated ++ markdownNotes t.marks t.doc ++
    "**Line:** " ++ toString t.line ++ "\n\n" ++
    on (!t.methods.isEmpty) ("#### Methods\n\n" ++ String.join (t.methods.map markdownMethod)) ++
    "\n---\n\n"

def markdownFunction (f : Callable) : String :=
  "### `" ++ f.signature ++ "`" ++ markdownMark f.isDeprecated ++ markdownNotes f.marks f.doc ++
    "**Line:** " ++ toString f.line ++ "\n\n---\n\n"

def markdownModule (m : ModuleDoc) : String :=
  "# `" ++ m.name ++ "`\n\n" ++ on (!m.doc.isEmpty) (m.doc ++ "\n") ++ "\n**Source:** `" ++ m.path ++
    "`\n\n---\n\n" ++
    on (!m.types.isEmpty) ("## Classes\n\n" ++ String.join (m.types.map markdownType)) ++ "\n" ++
    on (!m.functions.isEmpty)
      ("## Functions\n\n" ++ String.join (m.functions.map markdownFunction)) ++
    "\n" ++ markdownFooter

end Page

end Docsmith
