/-
The media type of a file by the extension of its name. A packed file has the type of what is packed.
-/
import Docsmith.Hosting.MediaType
import Docsmith.Path
import Docsmith.Text.Letter

namespace Docsmith.Hosting

def mediaEntries : Thunk (List (List Char)) :=
  ⟨fun _ => Text.cut '|' (Text.withCapitals (mediaTypes.unpack mediaAlphabet))⟩

def typeIn? (ext kind : List Char) : List (List Char) → Option String
  | [] => none
  | ('=' :: kind) :: entries => typeIn? ext kind entries
  | entry :: entries =>
    match Text.cut ' ' entry with
    | subtype :: exts =>
      if exts.contains ext then some (String.ofList (kind ++ '/' :: subtype))
      else typeIn? ext kind entries
    | [] => typeIn? ext kind entries

def typeOf? (ext : List Char) : Option String := typeIn? ext [] mediaEntries.get

def doubleExtensions : List (String × String) :=
  [(".svgz", ".svg.gz"), (".taz", ".tar.gz"), (".tbz2", ".tar.bz2"), (".tgz", ".tar.gz"),
    (".txz", ".tar.xz"), (".tz", ".tar.gz")]

def packings : List String := [".br", ".bz2", ".gz", ".xz", ".Z"]

/-- A name cut before its last dot, unless only dots stand before that. -/
def cutExtension (name : List Char) : List Char × List Char :=
  match Text.cutLast? '.' name with
  | some (before, after) => if before.all (· == '.') then (name, []) else (before, '.' :: after)
  | none => (name, [])

/-- A name cut before its extension, where an extension that stands for two is written as two. -/
def cutSingle (name : List Char) : List Char × List Char :=
  let (base, ext) := cutExtension name
  match doubleExtensions.lookup (String.ofList (Text.foldCase ext)) with
  | some two => cutExtension (base ++ two.toList)
  | none => (base, ext)

def mediaType? (name : String) : Option String :=
  let (base, ext) := cutSingle name.toList
  let ext := if packings.contains (String.ofList ext) then (cutExtension base).2 else ext
  typeOf? (Text.foldCase (ext.drop 1))

def contentType (p : Path) : String := (mediaType? p.name).getD "application/octet-stream"

end Docsmith.Hosting
