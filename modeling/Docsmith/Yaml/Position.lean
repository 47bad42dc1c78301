/-
The place that a reader has come to in a text, by line and column, and the classes of characters
that the format tells apart. Past the end of a text stands a null character, which no text has.
-/
namespace Docsmith.Yaml

def isAllowed (c : Char) : Bool :=
  c == '\t' || c == '\n' || c == '\r' || (' ' ≤ c && c ≤ '~') || c == '\u0085' ||
    ('\u00a0' ≤ c && c ≤ '\ufffd') || 0x10000 ≤ c.toNat

def isBreak (c : Char) : Bool :=
  c == '\n' || c == '\r' || c == '\u0085' || c == '\u2028' || c == '\u2029'

def isLineStop (c : Char) : Bool := c == '\x00' || isBreak c

def isGap (c : Char) : Bool := c == ' ' || isLineStop c

def isWordStop (c : Char) : Bool := c == '\t' || isGap c

def isNameChar (c : Char) : Bool := c.isAlphanum || c == '-' || c == '_'

def charAt (cs : List Char) (n : Nat) : Char := cs.getD n '\x00'

/-- The end of a line as it counts in a text, and what follows. -/
def takeBreak : List Char → List Char × List Char
  | '\r' :: '\n' :: rest => (['\n'], rest)
  | '\r' :: rest => (['\n'], rest)
  | '\n' :: rest => (['\n'], rest)
  | '\u0085' :: rest => (['\n'], rest)
  | '\u2028' :: rest => (['\u2028'], rest)
  | '\u2029' :: rest => (['\u2029'], rest)
  | cs => ([], cs)

def isSeparator (cs : List Char) : Bool :=
  (cs.take 3 == ['-', '-', '-'] || cs.take 3 == ['.', '.', '.']) && isWordStop (charAt cs 3)

structure Position where
  rest : List Char
  index : Nat := 0
  line : Nat := 0
  column : Nat := 0
  deriving DecidableEq, Repr

namespace Position

def peek (c : Position) : Char := charAt c.rest 0

/-- The position behind the next character. A mark of the byte order takes no column. -/
def step (c : Position) : Position :=
  match c.rest with
  | [] => c
  | ch :: rest =>
    if ch == '\n' || ch == '\u0085' || ch == '\u2028' || ch == '\u2029' ||
        (ch == '\r' && charAt rest 0 != '\n') then
      ⟨rest, c.index + 1, c.line + 1, 0⟩
    else ⟨rest, c.index + 1, c.line, if ch == '\ufeff' then c.column else c.column + 1⟩

def skip : Nat → Position → Position
  | 0, c => c
  | n + 1, c => skip n c.step

def upTo (c : Position) (rest : List Char) : Position := c.skip (c.rest.length - rest.length)

end Position

def dropComment (cs : List Char) : List Char :=
  if charAt cs 0 == '#' then cs.dropWhile fun c => !isLineStop c else cs

/-- What follows spaces, a comment and the end of the line; nothing else may stand there. -/
def restOfLine (cs : List Char) : Option (List Char) :=
  let cs := dropComment (cs.dropWhile fun c => c == ' ')
  if isLineStop (charAt cs 0) then some (takeBreak cs).2 else none

end Docsmith.Yaml
