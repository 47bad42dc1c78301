/-
What the assistant suggests, and how suggestions get into a file. Docstrings are put before the
first statement of a body, the last one of the file first, so that lines above keep their numbers.
-/
import Docsmith.Assistant.Declaration
import Docsmith.Fault

namespace Docsmith.Assistant

structure Suggestion where
  name : String
  kind : String
  line : Int
  text : String
  deriving DecidableEq, Repr

/-! ## Docstrings -/

def isQuoteChar (c : Char) : Bool := c == '`' || c == '"' || c == '\''

/-- The docstring that a reply holds: without blanks, quotes and the sign of a language around. -/
def docstringOf (reply : List Char) : List Char :=
  Text.dropLead ["python\n"] (Text.trimWhile isQuoteChar (Text.trim reply))

def docBlock (indent : Nat) (doc : List Char) : List Char :=
  let margin := List.replicate indent ' '
  let quotes := ['"', '"', '"']
  match Text.cut '\n' doc with
  | [] | [_] => margin ++ quotes ++ doc ++ quotes ++ ['\n']
  | first :: rest =>
    margin ++ quotes ++ first ++ '\n' ::
      (rest.flatMap fun line => margin ++ line ++ ['\n']) ++ margin ++ quotes ++ ['\n']

/-- Lines with a docstring before the body of a declaration, four columns further in than it. -/
def insertDoc (lines : List (List Char)) (d : Declaration) (doc : List Char) : List (List Char) :=
  let opening := lines.getD (d.line - 1) []
  let indent := opening.length - (Text.trimStart opening).length + 4
  let before := d.bodyLine - 1
  lines.take before ++ docBlock indent doc :: lines.drop before

/-- The text of a file with suggestions put in. Of two declarations on one line the later counts, and
suggestions for lines without one are dropped. -/
def insertDocs (source : List Char) (ds : List Declaration) (ss : List Suggestion) : List Char :=
  let ordered := ss.mergeSort fun a b => decide (b.line ≤ a.line)
  let step (lines : List (List Char)) (s : Suggestion) : List (List Char) :=
    match ds.reverse.find? fun d => (d.line : Int) = s.line with
    | some d => insertDoc lines d s.text.toList
    | none => lines
  (ordered.foldl step (Text.linesWithEnds source)).flatten

/-! ## Comments -/

def commentMarks : List String := ["/**", "///", "//!", "// ", "#", "\"\"\"", "*"]

def bareMarks : List String := ["*", "*/", "/**", "\"\"\""]

def isComment (line : List Char) : Bool :=
  (commentMarks.any fun m => m.toList.isPrefixOf line) && !bareMarks.contains (String.ofList line)

def newComments (old new : List Char) : List (Nat × List Char) :=
  let known := Text.lines old
  (Text.lines new).zipIdx.filterMap fun (line, i) =>
    let bare := Text.trim line
    if !known.contains line && !bare.isEmpty && isComment bare then some (i + 1, bare) else none

/-- Lines joined to blocks where their numbers follow each other: the first number and the text. -/
def blocks : List (Nat × List Char) → List (Nat × List Char)
  | [] => []
  | (n, line) :: rest =>
    match rest, blocks rest with
    | (m, _) :: _, (first, text) :: more =>
      if m = n + 1 then (n, line ++ '\n' :: text) :: more
      else (n, line) :: (first, text) :: more
    | _, more => (n, line) :: more

def newBlocks (old new : List Char) (language : String) : List Suggestion :=
  (blocks (newComments old new)).map fun (n, text) =>
    ⟨language ++ "_doc", "doc_comment", n, String.ofList text⟩

/-- A reply without the fences around it. A fence that opens has to end its line. -/
def unfenced (reply : List Char) : Except Fault (List Char) := do
  let fence := ['`', '`', '`']
  let opened ←
    if fence.isPrefixOf reply then
      match Text.cutFirst? '\n' reply with
      | some (_, rest) => .ok rest
      | none => .error .noSubstring
    else .ok reply
  pure (if fence.isSuffixOf opened then Text.trimEnd (opened.take (opened.length - 3)) else opened)

end Docsmith.Assistant
