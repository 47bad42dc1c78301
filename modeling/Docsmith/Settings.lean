/-
The settings of a project. They are kept in a file; a field that the file gives is taken as it is,
so that a value of the wrong kind fails where it is used.
-/
import Docsmith.World
import Docsmith.Yaml.Reader
import Docsmith.Yaml.Writer

namespace Docsmith

structure AssistantSettings where
  enabled : Value := .bool true
  apiKey : Value := .str ""
  model : Value := .str "llama-3.1-8b-instant"
  style : Value := .str "google"
  maxTokens : Value := .int 300

structure Settings where
  title : Value := .str "Project Documentation"
  source : Value := .str "."
  output : Value := .str "./docs"
  format : Value := .str "markdown"
  exclude : Value :=
    .list (["__pycache__", ".venv", "venv", ".git", "node_modules", ".tox", ".mypy_cache",
      ".pytest_cache", "dist", "build", "*.egg-info"].map .str)
  excludePrivate : Value := .bool false
  port : Value := .int 8000
  assistant : AssistantSettings := {}

namespace Settings

def fileName : String := "autoredocs.yaml"

/-- The model of the assistant that a file of settings means if it names none. -/
def fileModel : String := "llama-3.3-70b-versatile"

def assistantOf (v : Value) : Except Fault AssistantSettings := do
  let d : AssistantSettings := {}
  let enabled ← v.member "enabled" d.enabled
  let apiKey ← v.member "api_key" d.apiKey
  let model ← v.member "model" (.str fileModel)
  let style ← v.member "style" d.style
  let maxTokens ← v.member "max_tokens" d.maxTokens
  pure ⟨enabled, apiKey, model, style, maxTokens⟩

def ofValue (v : Value) : Except Fault Settings := do
  let d : Settings := {}
  let assistant ← (← v.member "ai" (.map [])) |> assistantOf
  let title ← v.member "title" d.title
  let source ← v.member "source" d.source
  let output ← v.member "output" d.output
  let format ← v.member "format" d.format
  let exclude ← v.member "exclude" d.exclude
  let excludePrivate ← v.member "exclude_private" d.excludePrivate
  let port ← v.member "port" d.port
  pure ⟨title, source, output, format, exclude, excludePrivate, port, assistant⟩

/-- The settings that a text gives, what they share numbered. A text that is not well formed gives
the default ones, and one that says nothing is like a map without entries. -/
def ofText (cs : List Char) : Except Fault Settings :=
  match Yaml.readShared cs with
  | none => .ok {}
  | some v => ofValue (if v.isGiven then v else .map [])

def bare (s : Settings) : Settings :=
  { title := s.title.bare, source := s.source.bare, output := s.output.bare
    format := s.format.bare, exclude := s.exclude.bare, excludePrivate := s.excludePrivate.bare
    port := s.port.bare
    assistant :=
      { enabled := s.assistant.enabled.bare, apiKey := s.assistant.apiKey.bare
        model := s.assistant.model.bare, style := s.assistant.style.bare
        maxTokens := s.assistant.maxTokens.bare } }

/-- The settings in a file, to be written again; the default ones if it is not there or cannot be
read. A document is read however deep it nests: there is no stack here that would run out, which
would give the default ones too. -/
def read (tree : FileTree) (p : Path) : Except Fault Settings :=
  match tree.readText p with
  | .ok cs => ofText cs
  | .error _ => .ok {}

def load (tree : FileTree) (p : Path) : Except Fault Settings := (read tree p).map bare

/-- Settings as a map. The key of the assistant is left out, as it belongs in the environment. -/
def entries (s : Settings) : List (String × Value) :=
  [("title", s.title), ("source", s.source), ("output", s.output), ("format", s.format),
    ("exclude", s.exclude), ("exclude_private", s.excludePrivate), ("port", s.port),
    ("ai", .object
      [("enabled", s.assistant.enabled), ("model", s.assistant.model),
        ("style", s.assistant.style), ("max_tokens", s.assistant.maxTokens)])]

def document (s : Settings) : List (Value × Value) := s.entries.map fun (k, v) => (.str k, v)

def text (s : Settings) : String := Yaml.write s.document

/-- Writes settings to a file. The file is left empty if an integer has too many digits. -/
def save (s : Settings) (p : Path) : Action Unit := do
  if Yaml.entriesWritable s.document then Action.writeText p s.text
  else
    Action.writeText p ""
    throw .tooManyDigits

def defaultPath (tree : FileTree) : Path := tree.cwd / fileName

def below (base : Path) (v : Value) : Except Fault Path :=
  match v with
  | .str s => .ok (base / s)
  | v => .error (.notJoinable v.kind)

def sourcePath (s : Settings) (tree : FileTree) (base : Path) : Except Fault Path := do
  let p ← below base s.source
  pure (p.resolve tree.cwd)

def outputPath (s : Settings) (tree : FileTree) (base : Path) : Except Fault Path := do
  let p ← below base s.output
  pure (p.resolve tree.cwd)

end Settings

def AssistantSettings.key (s : AssistantSettings) (env : List (String × String)) : Value :=
  if s.apiKey.isGiven then s.apiKey else .str ((env.lookup "GROQ_API_KEY").getD "")

end Docsmith
