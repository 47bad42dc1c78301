/-
Scalars as they are written: quoted, plain, and in blocks. Each reader gives the text and what
follows it.
-/
import Docsmith.Json.Reader
import Docsmith.Yaml.Position

namespace Docsmith.Yaml

def isBlankChar (c : Char) : Bool := c == ' ' || c == '\t'

/-- What a line end and the empty lines after it count for in a text that is folded: a single line
end is a space. -/
def foldBreaks (first breaks : List Char) : List Char :=
  if first ≠ ['\n'] then first ++ breaks else if breaks.isEmpty then [' '] else breaks

/-! ## Quoted scalars -/

/-- The line ends of empty lines, and what follows them and the blanks after them. No document may
start or end there. -/
def breaksFrom : (room : Nat) → List Char → Option (List Char × List Char)
  | 0, _ => none
  | room + 1, cs =>
    if isSeparator cs then none
    else
      let cs := cs.dropWhile isBlankChar
      if isBreak (charAt cs 0) then do
        let (first, rest) := takeBreak cs
        let (breaks, rest) ← breaksFrom room rest
        pure (first ++ breaks, rest)
      else some ([], cs)

def escaped? : Char → Option Char
  | '0' => some '\x00'
  | 'a' => some '\x07'
  | 'b' => some '\x08'
  | 't' => some '\t'
  | '\t' => some '\t'
  | 'n' => some '\n'
  | 'v' => some '\x0b'
  | 'f' => some '\x0c'
  | 'r' => some '\r'
  | 'e' => some '\x1b'
  | ' ' => some ' '
  | '"' => some '"'
  | '\\' => some '\\'
  | '/' => some '/'
  | 'N' => some '\u0085'
  | '_' => some '\u00a0'
  | 'L' => some '\u2028'
  | 'P' => some '\u2029'
  | _ => none

def codeLength? : Char → Option Nat
  | 'x' => some 2
  | 'u' => some 4
  | 'U' => some 8
  | _ => none

def hexValue? (ds : List Char) : Option Nat :=
  ds.foldlM (fun n d => (Json.hexDigit? d).map fun v => 16 * n + v) 0

def charOf? (n : Nat) : Option Char := if n < 0x110000 then some (Char.ofNat n) else none

/-- The text of a quoted scalar from behind its opening quote, and what follows the closing one. -/
def quotedFrom (double : Bool) : (room : Nat) → List Char → Option (List Char × List Char)
  | 0, _ => none
  | _, [] => none
  | room + 1, c :: cs =>
    let go (lead : List Char) (rest : List Char) : Option (List Char × List Char) :=
      (quotedFrom double room rest).map fun (text, rest) => (lead ++ text, rest)
    if isBlankChar c || isBreak c then
      let (blanks, rest) := (c :: cs).span isBlankChar
      if isBreak (charAt rest 0) then do
        let (first, rest) := takeBreak rest
        let (breaks, rest) ← breaksFrom (rest.length + 1) rest
        go (foldBreaks first breaks) rest
      else go blanks rest
    else if double then
      if c == '"' then some ([], cs)
      else if c == '\\' then
        let e := charAt cs 0
        match escaped? e, codeLength? e with
        | some ch, _ => go [ch] (cs.drop 1)
        | none, some n => do
          let digits := (cs.drop 1).take n
          if digits.length < n then none
          else
            let ch ← (hexValue? digits).bind charOf?
            go [ch] (cs.drop (1 + n))
        | none, none =>
          if isBreak e then do
            let rest := (takeBreak cs).2
            let (breaks, rest) ← breaksFrom (rest.length + 1) rest
            go breaks rest
          else none
      else go [c] cs
    else if c == '\'' then if charAt cs 0 == '\'' then go ['\''] (cs.drop 1) else some ([], cs)
    else go [c] cs

def quoted (double : Bool) (cs : List Char) : Option (List Char × List Char) :=
  quotedFrom double cs.length (cs.drop 1)

/-! ## Plain scalars -/

/-- Whether a plain word ends before a character, given the one behind it. -/
def endsPlain (flow : Bool) (c next : Char) : Bool :=
  isWordStop c || (c == ':' && (isWordStop next || (flow && [',', '[', ']', '{', '}'].contains next))) ||
    (flow && [',', '?', '[', ']', '{', '}'].contains c)

def plainWord (flow : Bool) : List Char → List Char × List Char
  | [] => ([], [])
  | c :: cs =>
    if endsPlain flow c (charAt cs 0) then ([], c :: cs)
    else
      let (word, rest) := plainWord flow cs
      (c :: word, rest)

/-- Line ends of empty lines between two words of a plain scalar, the spaces before what follows,
and what follows; nothing if a document starts or ends before. -/
def plainBreaks (column : Nat) : (room : Nat) → List Char → Option (List Char) × Nat × List Char
  | 0, cs => (some [], column, cs)
  | room + 1, cs =>
    if charAt cs 0 == ' ' then plainBreaks (column + 1) room (cs.drop 1)
    else if isBreak (charAt cs 0) then
      let (first, rest) := takeBreak cs
      if isSeparator rest then (none, 0, rest)
      else
        let (breaks, column, rest) := plainBreaks 0 room rest
        (breaks.map (first ++ ·), column, rest)
    else (some [], column, cs)

/-- What stands between two words of a plain scalar: the text that it counts for, the column of what
follows if a line ended, and what follows. -/
def plainSpaces (cs : List Char) : List Char × Option Nat × List Char :=
  let (spaces, rest) := cs.span (· == ' ')
  if isBreak (charAt rest 0) then
    let (first, rest) := takeBreak rest
    if isSeparator rest then ([], some 0, rest)
    else
      let (breaks, column, rest) := plainBreaks 0 (rest.length + 1) rest
      match breaks with
      | none => ([], some column, rest)
      | some breaks => (foldBreaks first breaks, some column, rest)
  else (spaces, none, rest)

/-- A plain scalar: its text, whether a line ended behind it, and what follows. Lines that go on
with it have at least `indent` spaces, unless it stands in brackets. -/
def plain (flow : Bool) (indent : Int) : (room : Nat) → List Char → List Char × Bool × List Char
  | 0, cs => ([], false, cs)
  | room + 1, cs =>
    let (word, rest) := plainWord flow cs
    let (spaces, column, rest) := plainSpaces rest
    let outdented :=
      match column with
      | some n => !flow && (n : Int) < indent
      | none => false
    let next := charAt rest 0
    if spaces.isEmpty || next == '#' || outdented || endsPlain flow next (charAt rest 1) then
      (word, column.isSome, rest)
    else
      let (text, broke, rest) := plain flow indent room rest
      (word ++ spaces ++ text, broke, rest)

/-! ## Block scalars -/

/-- What becomes of the line ends at the end of a block: one is kept, none, or all. -/
inductive Chomping where
  | clip
  | strip
  | keep
  deriving DecidableEq, Repr

def chomping? : Char → Option Chomping
  | '+' => some .keep
  | '-' => some .strip
  | _ => none

def increment? (c : Char) : Option Nat := if c.isDigit then some (c.toNat - 48) else none

/-- The signs at the head of a block: the sign of its end and the digit of its indentation, in
either order. -/
def blockSigns (cs : List Char) : Option (Chomping × Option Nat × List Char) :=
  let (chomping, increment, rest) :=
    match chomping? (charAt cs 0) with
    | some ch =>
      match increment? (charAt cs 1) with
      | some n => (ch, some n, cs.drop 2)
      | none => (ch, none, cs.drop 1)
    | none =>
      match increment? (charAt cs 0) with
      | some n =>
        match chomping? (charAt cs 1) with
        | some ch => (ch, some n, cs.drop 2)
        | none => (Chomping.clip, some n, cs.drop 1)
      | none => (Chomping.clip, none, cs)
  if increment = some 0 ∨ !isGap (charAt rest 0) then none else some (chomping, increment, rest)

def dropSpaces : Nat → List Char → Nat × List Char
  | n + 1, ' ' :: cs =>
    let (k, rest) := dropSpaces n cs
    (k + 1, rest)
  | _, cs => (0, cs)

/-- The line ends of empty lines of a block with a known indentation, the column behind them, and
what follows. -/
def blockBreaks (indent : Nat) : (room : Nat) → List Char → List Char × Nat × List Char
  | 0, cs => ([], 0, cs)
  | room + 1, cs =>
    let (column, cs) := dropSpaces indent cs
    if isBreak (charAt cs 0) then
      let (first, rest) := takeBreak cs
      let (breaks, column, rest) := blockBreaks indent room rest
      (first ++ breaks, column, rest)
    else ([], column, cs)

/-- The line ends of the empty lines at the head of a block, the most spaces that one of its lines
up to the first text has, the column behind them, and what follows. -/
def blockMargin (widest column : Nat) : (room : Nat) → List Char → List Char × Nat × Nat × List Char
  | 0, cs => ([], widest, column, cs)
  | room + 1, cs =>
    if charAt cs 0 == ' ' then blockMargin (max widest (column + 1)) (column + 1) room (cs.drop 1)
    else if isBreak (charAt cs 0) then
      let (first, rest) := takeBreak cs
      let (breaks, widest, column, rest) := blockMargin widest 0 room rest
      (first ++ breaks, widest, column, rest)
    else ([], widest, column, cs)

/-- The lines of a block with an indentation, from text at `column` on, after the line ends `breaks`:
the text without the line ends at its end, the last line end, those of the empty lines after it, and
what follows. -/
def blockLines (folded : Bool) (indent : Nat) :
    (room : Nat) → (breaks : List Char) → (column : Nat) → List Char →
      List Char × List Char × List Char × List Char
  | 0, breaks, _, cs => ([], [], breaks, cs)
  | room + 1, breaks, column, cs =>
    if column = indent ∧ !cs.isEmpty then
      let (line, rest) := cs.span fun c => !isLineStop c
      let (first, rest) := takeBreak rest
      let (after, column, rest) := blockBreaks indent (rest.length + 1) rest
      if column = indent ∧ !rest.isEmpty then
        let joint :=
          if folded && first == ['\n'] && !isBlankChar (charAt cs 0) && !isBlankChar (charAt rest 0)
          then if after.isEmpty then [' '] else []
          else first
        let (text, last, tail, rest) := blockLines folded indent room after column rest
        (breaks ++ line ++ joint ++ text, last, tail, rest)
      else (breaks ++ line, first, after, rest)
    else ([], [], breaks, cs)

/-- A block scalar from behind its sign: its text and what follows. The collection around it has
the indentation `outer`. -/
def block (folded : Bool) (outer : Int) (cs : List Char) : Option (List Char × List Char) := do
  let (chomping, increment, rest) ← blockSigns cs
  let rest ← restOfLine rest
  let least := (max (outer + 1) 1).toNat
  let (indent, breaks, column, rest) :=
    match increment with
    | some n =>
      let indent := least + n - 1
      let (breaks, column, rest) := blockBreaks indent (rest.length + 1) rest
      (indent, breaks, column, rest)
    | none =>
      let (breaks, widest, column, rest) := blockMargin 0 0 (rest.length + 1) rest
      (max least widest, breaks, column, rest)
  let (text, last, tail, rest) := blockLines folded indent (rest.length + 1) breaks column rest
  match chomping with
  | .strip => pure (text, rest)
  | .clip => pure (text ++ last, rest)
  | .keep => pure (text ++ last ++ tail, rest)

end Docsmith.Yaml
