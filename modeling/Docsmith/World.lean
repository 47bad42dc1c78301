/-
What the program acts on: files, the environment, the console, and services that answer from a list.
An action changes the world and may fail; what it did before it failed stays done.
-/
import Docsmith.FileTree
import Docsmith.Value

namespace Docsmith

inductive Notice where
  | text (markup : String)
  | panel (text title border : String)
  | table (title : String) (columns : List String) (rows : List (List String))
  deriving DecidableEq, Repr

inductive Reply where
  | text (s : String)
  | nothing
  | failure (message : String)
  deriving DecidableEq, Repr

structure ChatCall where
  key : Value
  url : String
  model : Value
  system : String
  user : String
  maxTokens : Value
  temperature : Double

structure Response where
  status : Int := 200
  body : String := ""

inductive Payload where
  | json (v : Value)
  | bytes (bs : List UInt8)

structure Request where
  method : String
  url : String
  headers : List (String × String)
  timeout : Nat
  payload : Payload

structure Upload where
  file : String
  bucket : String
  key : String
  contentType : String
  region : String
  deriving DecidableEq, Repr

structure Service where
  title : String
  description : String
  version : String
  routes : List String
  mounts : List (String × String × Bool × String)
  deriving DecidableEq, Repr

inductive Launch where
  | service (host : String) (port : Value) (logLevel : String) (app : Service)
  | pages (host : String) (port : Value) (folder : String)
  | timer
  | browser (url : String)
  | closed

/-- The world. Answers to posts and to puts are listed apart; puts succeed when no answer is left. -/
structure World where
  files : FileTree
  env : List (String × String) := []
  missing : List Package := []
  printed : List Notice := []
  replies : List Reply := []
  chatCalls : List ChatCall := []
  responses : List Response := []
  putStatuses : List Int := []
  requests : List Request := []
  uploads : List Upload := []
  launches : List Launch := []

/-- The entry of a map under a name, or a default. Only maps have entries. -/
def Value.member (v : Value) (name : String) (default : Value) : Except Fault Value :=
  match v with
  | .map entries => .ok ((Value.lookup entries name).getD default)
  | .shared _ v => v.member name default
  | v => .error (.noMember v.kind "get")

def Path.ofValue (v : Value) : Except Fault Path :=
  match v with
  | .str s => .ok (.ofString s)
  | v => .error (.notAPath v.shortKind)

/-- A console, by the markup that it refuses and what it says then. Markup stands in brackets, so
that a text without any does not matter. -/
class Console where
  refusal? : String → Option String
  plain (a b : String) : (∀ c ∈ b.toList, c ≠ '[' ∧ c ≠ ']') → refusal? (a ++ b) = refusal? a

/-- Where nothing is said of the console, it refuses nothing. -/
instance (priority := low) : Console := ⟨fun _ => none, fun _ _ _ => rfl⟩

def Console.check [Console] (markup : String) : Except Fault Unit :=
  match Console.refusal? markup with
  | some message => .error (.badMarkup message)
  | none => .ok ()

abbrev Action (α : Type) := ExceptT Fault (StateM World) α

namespace Action

def onFiles {α : Type} (f : FileTree → α) : Action α := do
  let w ← get
  pure (f w.files)

def ofFiles {α : Type} (f : FileTree → Except Fault α) : Action α := do
  let w ← get
  liftExcept (f w.files)
where
  liftExcept (r : Except Fault α) : Action α :=
    match r with
    | .ok a => pure a
    | .error e => throw e

def ofExcept {α : Type} (r : Except Fault α) : Action α :=
  match r with
  | .ok a => pure a
  | .error e => throw e

def changeFiles (f : FileTree → Except Fault FileTree) : Action Unit := do
  let w ← get
  match f w.files with
  | .ok files => set { w with files }
  | .error e => throw e

def readText (p : Path) : Action (List Char) := ofFiles fun t => t.readText p

def readBytes (p : Path) : Action (List UInt8) := ofFiles fun t => t.readBytes p

def writeText (p : Path) (s : String) : Action Unit := changeFiles fun t => t.writeText p s

def makeFolders (p : Path) : Action Unit := changeFiles fun t => t.makeFolders p

def resolve (p : Path) : Action Path := onFiles fun t => p.resolve t.cwd

def env? (name : String) : Action (Option String) := do
  let w ← get
  pure (w.env.lookup name)

def env (name default : String) : Action String := do
  let found ← env? name
  pure (found.getD default)

def notify (n : Notice) : Action Unit := modify fun w => { w with printed := w.printed ++ [n] }

def say (markup : String) : Action Unit := notify (.text markup)

/-- Prints markup that holds a text from outside. What the text holds may be taken for markup, too. -/
def renderAs [Console] (markup : String) (n : Notice) : Action Unit := do
  ofExcept (Console.check markup)
  notify n

def render [Console] (markup : String) : Action Unit := renderAs markup (.text markup)

def launch (l : Launch) : Action Unit := modify fun w => { w with launches := w.launches ++ [l] }

def need (package : Package) : Action Unit := do
  let w ← get
  if w.missing.contains package then throw (.missingPackage package)

def attempt {α : Type} (a : Action α) : Action (Except Fault α) :=
  tryCatch (Except.ok <$> a) fun e => pure (.error e)

end Action

end Docsmith
