/-
Syntax trees on a machine. The grammar says which texts are well formed. Whether one of them can be
read depends on the machine as well: what nests too deep exhausts its stack or its memory, and where
that starts depends on what the stack holds already.
-/
import Docsmith.Fault
import Docsmith.Syntax.Statement

namespace Docsmith

/-- A machine, by the texts that are too deep for it and what they exhaust. -/
class Machine where
  overflow? : List Char → Option Overflow

/-- Where nothing is said of the machine, it has room for every text. -/
instance (priority := low) : Machine := ⟨fun _ => none⟩

/-- The tree of a text, if it is well formed. Only a text that is not so counts as having none: one
that is too deep is a failure. -/
def Syntax.readTree [Machine] (source : List Char) : Except Fault (Option (List Stmt)) :=
  match Machine.overflow? source with
  | some what => .error (.overflow what)
  | none => .ok (parse source)

theorem Syntax.parse_of_readTree [Machine] {source : List Char} {body : Option (List Stmt)}
    (h : readTree source = .ok body) : parse source = body := by
  rw [readTree] at h
  split at h
  · cases h
  · exact Except.ok.inj h

end Docsmith
