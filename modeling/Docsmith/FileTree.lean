/-
Files and folders as a value.

A tree maps places, that is the names on the way from the root, to files and folders; the root is a
folder. Every operation takes the working directory that relative paths start from, and a failure
names the path as it was given. A path can go back (`..`) from folders only. There are no symbolic
links, so the place of a path is found from its text alone.
-/
import Docsmith.Fault
import Docsmith.Path

namespace Docsmith

inductive Entry where
  | folder
  | file (bytes : List UInt8)
  deriving DecidableEq, Repr

structure FileTree where
  cwd : Path
  entries : List (List String × Entry) := []
  deriving DecidableEq, Repr

namespace FileTree

def place (t : FileTree) (p : Path) : List String := (p.resolve t.cwd).parts

def at? (t : FileTree) (loc : List String) : Option Entry :=
  if loc.isEmpty then some .folder else (t.entries.find? fun e => e.1 == loc).map Prod.snd

def turns (t : FileTree) (p : Path) : List (List String) :=
  let parts := (t.cwd.join p).parts
  ((List.range parts.length).filter fun n => parts[n]? == some "..").map fun n =>
    Path.climb [] (parts.take n)

/-- The first place that a path goes back from without there being a folder. -/
def gap? (t : FileTree) (p : Path) : Option (List String) :=
  (t.turns p).find? fun loc => t.at? loc != some .folder

def find? (t : FileTree) (p : Path) : Option Entry :=
  if (t.gap? p).isSome then none else t.at? (t.place p)

def has (t : FileTree) (p : Path) : Bool := (t.find? p).isSome

def isFolder (t : FileTree) (p : Path) : Bool := t.find? p == some .folder

def isFile (t : FileTree) (p : Path) : Bool :=
  match t.find? p with
  | some (.file _) => true
  | _ => false

def isFileAt (t : FileTree) (loc : List String) : Bool :=
  match t.at? loc with
  | some (.file _) => true
  | _ => false

def isBlocked (t : FileTree) (loc : List String) : Bool :=
  (List.range loc.length).any fun n => t.isFileAt (loc.take n)

/-- Whether a file stands where a path needs a folder. -/
def isCut (t : FileTree) (p : Path) : Bool :=
  match t.gap? p with
  | some loc => t.isFileAt loc || t.isBlocked loc
  | none => t.isBlocked (t.place p)

def missing (t : FileTree) (p : Path) : Fault :=
  if t.isCut p then .notAFolder p.text else .noSuchFile p.text

def readBytes (t : FileTree) (p : Path) : Except Fault (List UInt8) :=
  match t.find? p with
  | some (.file bytes) => .ok bytes
  | some .folder => .error (.isAFolder p.text)
  | none => .error (t.missing p)

def readText (t : FileTree) (p : Path) : Except Fault (List Char) := do
  let bytes ← t.readBytes p
  match Text.Utf8.decode bytes with
  | .ok cs => pure (Text.unifyLineEnds cs)
  | .error e => .error (.undecodable e)

def put (t : FileTree) (loc : List String) (e : Entry) : FileTree :=
  if t.entries.any fun old => old.1 == loc then
    { t with entries := t.entries.map fun old => if old.1 == loc then (loc, e) else old }
  else { t with entries := t.entries ++ [(loc, e)] }

def writeBytes (t : FileTree) (p : Path) (bytes : List UInt8) : Except Fault FileTree :=
  let loc := t.place p
  match t.find? p with
  | some .folder => .error (.isAFolder p.text)
  | some (.file _) => .ok (t.put loc (.file bytes))
  | none =>
    if (t.gap? p).isNone && t.at? loc.dropLast == some .folder then .ok (t.put loc (.file bytes))
    else .error (t.missing p)

def writeText (t : FileTree) (p : Path) (s : String) : Except Fault FileTree :=
  t.writeBytes p s.toUTF8.toList

def putFolders (t : FileTree) (loc : List String) : FileTree :=
  (List.range loc.length).foldl
    (fun t n =>
      let here := loc.take (n + 1)
      if (t.at? here).isSome then t else t.put here .folder) t

/-- A tree with a folder, whose own folder has to be there; a folder that is there stays. -/
def makeFolder (t : FileTree) (p : Path) : Except Fault FileTree :=
  let loc := t.place p
  match t.find? p with
  | some .folder => .ok t
  | some (.file _) => .error (.fileExists p.text)
  | none =>
    if (t.gap? p).isNone && t.at? loc.dropLast == some .folder then .ok (t.put loc .folder)
    else .error (t.missing p)

/-- A tree with a folder, given by its names from the back, and all folders on the way to it. The way
is only made where the folder itself cannot be. -/
def makeFoldersTo (t : FileTree) (root : String) : List String → Except Fault FileTree
  | [] => t.makeFolder ⟨root, []⟩
  | name :: up =>
    match t.makeFolder ⟨root, (name :: up).reverse⟩ with
    | .error (.noSuchFile _) => do
      let t ← t.makeFoldersTo root up
      t.makeFolder ⟨root, (name :: up).reverse⟩
    | made => made

def makeFolders (t : FileTree) (p : Path) : Except Fault FileTree :=
  t.makeFoldersTo p.root p.parts.reverse

def remove (t : FileTree) (p : Path) : FileTree :=
  let loc := t.place p
  { t with entries := t.entries.filter fun e => !loc.isPrefixOf e.1 }

def below (t : FileTree) (p : Path) : List (List String × Entry) :=
  let loc := t.place p
  if t.isFolder p then
    (t.entries.filter fun e => loc.isPrefixOf e.1 && loc.length < e.1.length).map
      fun e => (e.1.drop loc.length, e.2)
  else []

/-- The paths of everything below a folder whose name `accepts` takes, in order. -/
def search (t : FileTree) (p : Path) (accepts : String → Bool) : List Path :=
  let found := (t.below p).filter fun e => accepts (e.1.getLast?.getD "")
  Path.sort (found.map fun e => ⟨p.root, p.parts ++ e.1⟩)

def files (t : FileTree) (p : Path) : List (List String × List UInt8) :=
  (t.below p).filterMap fun
    | (names, .file bytes) => some (names, bytes)
    | (_, .folder) => none

end FileTree

end Docsmith
