/-
Paths of files, in the manner of POSIX: a root, which may be missing, and parts. Empty parts and
single dots are dropped when a path is read; two dots stay until it is resolved.
-/
import Docsmith.Text.Cut

namespace Docsmith

/-- A path: its root (`""`, `"/"` or `"//"`) and the names below it. -/
structure Path where
  root : String
  parts : List String
  deriving DecidableEq, Repr

namespace Path

def partsOf (s : String) : List String :=
  ((Text.cut '/' s.toList).map String.ofList).filter fun part => part ≠ "" ∧ part ≠ "."

/-- Reads a path. Exactly two slashes at the start are a root of their own. -/
def ofString (s : String) : Path :=
  let root :=
    match s.toList with
    | '/' :: '/' :: '/' :: _ => "/"
    | '/' :: '/' :: _ => "//"
    | '/' :: _ => "/"
    | _ => ""
  ⟨root, partsOf s⟩

/-- The written form of a path; the path with neither root nor parts is a dot. -/
def text (p : Path) : String :=
  if p.root.isEmpty && p.parts.isEmpty then "." else p.root ++ "/".intercalate p.parts

def isAbsolute (p : Path) : Bool := !p.root.isEmpty

def allParts (p : Path) : List String := if p.root.isEmpty then p.parts else p.root :: p.parts

def name (p : Path) : String := p.parts.getLast?.getD ""

/-- A name cut before its last dot, unless the dot is its first or last character. -/
def cutName (name : String) : String × String :=
  match Text.cutLast? '.' name.toList with
  | some (before, after) =>
    if before.isEmpty || after.isEmpty then (name, "")
    else (String.ofList before, String.ofList ('.' :: after))
  | none => (name, "")

def stem (p : Path) : String := (cutName p.name).1

def suffix (p : Path) : String := (cutName p.name).2

def parent (p : Path) : Path := ⟨p.root, p.parts.dropLast⟩

def join (p q : Path) : Path := if q.isAbsolute then q else ⟨p.root, p.parts ++ q.parts⟩

instance : HDiv Path String Path := ⟨fun p s => p.join (ofString s)⟩

def relativeTo? (p base : Path) : Option Path :=
  if p.root == base.root && base.parts.isPrefixOf p.parts then
    some ⟨"", p.parts.drop base.parts.length⟩
  else none

/-- Names with each `..` taken back together with the name before it; `done` holds the names so
far, from the back. -/
def climb (done : List String) : List String → List String
  | [] => done.reverse
  | part :: rest => if part = ".." then climb done.tail rest else climb (part :: done) rest

/-- The absolute path without `..` that `p` means in the working directory `cwd`. -/
def resolve (p cwd : Path) : Path := ⟨"/", climb [] (cwd.join p).parts⟩

def before (p q : Path) : Bool := decide (p.allParts < q.allParts)

def sort (ps : List Path) : List Path := ps.mergeSort fun p q => !q.before p

end Path

end Docsmith
