/-
The state of a build: for each source file the digest of what it held when it was last built from.
The state is kept in a file next to the pages. What the file holds under `hashes` is taken as it is,
so that a file that was tampered with fails where its value is of the wrong kind.
-/
import Docsmith.Digest.Sha256
import Docsmith.Json.Reader
import Docsmith.Json.Writer
import Docsmith.World

namespace Docsmith

structure Snapshot where
  path : Path
  hashes : Value := .map []

structure Diff where
  changed : List Path := []
  unchanged : List Path := []
  deleted : List Path := []
  deriving DecidableEq, Repr

namespace Snapshot

def fileName : String := ".autoredocs_state.json"

def hashFile (tree : FileTree) (p : Path) : String :=
  match tree.readBytes p with
  | .ok bytes => Digest.Sha256.hexDigest bytes
  | .error _ => ""

def key (tree : FileTree) (p : Path) : String := (p.resolve tree.cwd).text

/-- The state that a text describes. A text that is not well formed describes none. -/
def hashesOf (text : List Char) : Except Fault Value :=
  match Json.read text with
  | .ok v => v.member "hashes" (.map [])
  | .error e =>
    match e.fault text with
    | .badJson _ => .ok (.map [])
    | f => .error f

/-- Opens the state in a file. One that is not there or cannot be read is empty. -/
def load (tree : FileTree) (path : Path) : Except Fault Snapshot :=
  if tree.has path then
    match tree.readText path with
    | .ok text => do
      let hashes ← hashesOf text
      pure ⟨path, hashes⟩
    | .error (.undecodable e) => .error (.undecodable e)
    | .error _ => .ok { path }
  else .ok { path }

def text (s : Snapshot) : String := Json.pretty (.object [("hashes", s.hashes)])

def save (s : Snapshot) : Action Unit := do
  Action.makeFolders s.path.parent
  Action.writeText s.path s.text

def hasChanged (s : Snapshot) (tree : FileTree) (p : Path) : Except Fault Bool := do
  let recorded ← s.hashes.member (key tree p) (.str "")
  pure (!(recorded == .str (hashFile tree p)))

def update (s : Snapshot) (tree : FileTree) (p : Path) : Except Fault Snapshot :=
  match s.hashes with
  | .map entries =>
    .ok { s with
      hashes := .map (Value.insert entries (.str (key tree p)) (.str (hashFile tree p))) }
  | v => .error (.notAssignable v.kind)

def remove (s : Snapshot) (tree : FileTree) (p : Path) : Except Fault Snapshot :=
  match s.hashes with
  | .map entries =>
    .ok { s with hashes := .map (entries.filter fun e => !(e.1 == .str (key tree p))) }
  | .list _ => .error .removalFromList
  | v => .error (.noMember v.kind "pop")

def known (s : Snapshot) : Except Fault (List String) :=
  match s.hashes with
  | .map entries =>
    .ok (entries.filterMap fun
      | (.str name, _) => some name
      | _ => none)
  | v => .error (.noMember v.kind "keys")

def sorted (names : List String) : List String := names.mergeSort fun a b => !decide (b < a)

/-- What became of files since the last build. Files that are recorded and are not among the given
ones count as deleted, in order of their names. They form a set, so any order is as good. -/
def diff (s : Snapshot) (tree : FileTree) (files : List Path) : Except Fault Diff := do
  let names ← s.known
  let marked ← files.mapM fun f => do
    let changed ← s.hasChanged tree f
    pure (f, changed)
  let current := files.map (key tree)
  pure
    { changed := (marked.filter fun m => m.2).map Prod.fst
      unchanged := (marked.filter fun m => !m.2).map Prod.fst
      deleted := (sorted (names.filter fun n => !current.contains n)).map Path.ofString }

def updateAll (s : Snapshot) (tree : FileTree) (files : List Path) : Except Fault Snapshot :=
  files.foldlM (fun s f => s.update tree f) s

def removeAll (s : Snapshot) (tree : FileTree) (files : List Path) : Except Fault Snapshot :=
  files.foldlM (fun s f => s.remove tree f) s

end Snapshot

end Docsmith
