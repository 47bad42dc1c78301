/-
The set-up of log messages: the first set-up counts as long as its handler is there.
-/
namespace Docsmith

inductive LogLevel where
  | debug
  | warning
  deriving DecidableEq, Repr

namespace LogLevel

def name : LogLevel → String
  | debug => "DEBUG"
  | warning => "WARNING"

end LogLevel

/-- How messages are shown: from which level on, and by how many handlers. -/
structure Logger where
  level : LogLevel := .warning
  handlers : Nat := 0
  deriving DecidableEq, Repr

namespace Logger

def format : String := "%(levelname)s: %(message)s"

def setUp (l : Logger) (isVerbose : Bool) : Logger :=
  if l.handlers = 0 then ⟨if isVerbose then .debug else .warning, 1⟩ else l

end Logger

end Docsmith
