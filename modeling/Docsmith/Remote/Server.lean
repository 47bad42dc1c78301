/-
The documentation server: it rebuilds pages when it is asked to or when a repository reports a push,
and shows them.
-/
import Docsmith.Remote.Rebuild
import Docsmith.Remote.Signature

namespace Docsmith

namespace Remote

/-- A server: where its sources and pages are, their format, and the key of its messages. -/
structure Server where
  source : Path
  output : Path
  format : Page.Format
  secret : String := ""
  service : Service

inductive Answer where
  | plain (v : Value)
  | json (status : Nat) (v : Value)
  | html (status : Nat) (text : String)
  | file (p : Path)

namespace Server

def routes : List String := ["POST /build", "GET /build/status", "POST /webhook/github", "GET /"]

def create (source output format : Value) (secret : String) : Action Server := do
  Action.need .webFramework
  let source ← Action.resolve (← Action.ofExcept (Path.ofValue source))
  let output ← Action.resolve (← Action.ofExcept (Path.ofValue output))
  let tree ← Action.onFiles id
  let mounts ←
    if tree.has output then
      if tree.isFolder output then pure [("/docs", output.text, true, "docs")]
      else throw (.noPages output.text)
    else pure []
  let service : Service :=
    ⟨"autoredocs API", "Live documentation build service", "0.2.0", routes, mounts⟩
  pure ⟨source, output, .ofValue format, secret, service⟩

def rebuilt (s : Server) (status : String) : Action Answer := do
  let made ← rebuild s.source s.output s.format
  pure (.json 200 (.object
    [("status", .str status), ("modules", .int made.modules), ("files_generated", .int made.files)]))

def build (s : Server) : Action Answer := do
  match ← (s.rebuilt "ok").attempt with
  | .ok a => pure a
  | .error e => throw (.refused 500 e.message)

def hasPages (tree : FileTree) (output : Path) : Except Fault Bool :=
  if !tree.has output then .ok false
  else if tree.isFolder output then .ok (!(tree.below output).isEmpty)
  else .error (.notAFolder output.text)

def status (s : Server) : Action Answer := do
  let hasDocs ← Action.ofFiles fun t => hasPages t s.output
  let hasState ← Action.onFiles fun t => t.has (s.output / Snapshot.fileName)
  pure (.plain (.object
    [("has_docs", .bool hasDocs), ("has_state", .bool hasState),
      ("output_dir", .str s.output.text)]))

def header (headers : List (String × String)) (name : String) : String :=
  let fold (s : String) : List Char := Text.foldCase s.toList
  ((headers.find? fun h => fold h.1 == fold name).map Prod.snd).getD ""

/-- Takes a message of a repository: one that is signed, if there is a key, and reports a push
leads to a rebuild. -/
def webhook (s : Server) (headers : List (String × String)) (body : List UInt8) : Action Answer := do
  let isTrusted ←
    if s.secret.isEmpty then pure true
    else Action.ofExcept (isSigned s.secret body (.str (header headers "X-Hub-Signature-256")))
  if !isTrusted then throw (.refused 403 "Invalid signature")
  else
    let event := header headers "X-GitHub-Event"
    if event = "push" then s.rebuilt "rebuilt"
    else pure (.json 200 (.object [("status", .str "ignored"), ("event", .str event)]))

def index (s : Server) : Action Answer := do
  let file := s.output / "index.html"
  if ← Action.onFiles fun t => t.has file then pure (.file file)
  else
    pure (.html 200
      "<h1>No docs built yet</h1><p>Send a POST to <code>/build</code> first.</p>")

def answer? (s : Server) (route : String) (headers : List (String × String)) (body : List UInt8) :
    Option (Action Answer) :=
  if route = "POST /build" then some s.build
  else if route = "GET /build/status" then some s.status
  else if route = "POST /webhook/github" then some (s.webhook headers body)
  else if route = "GET /" then some s.index
  else none

end Server

end Remote

end Docsmith
