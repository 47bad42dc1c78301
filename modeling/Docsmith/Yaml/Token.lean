/-
A text as a list of tokens. Collections by indentation get tokens of their own for their start and
end. A key is known as one only when its colon is seen, so the place where one may have started is
kept for each depth of brackets, and the token of the key is put there later.
-/
import Docsmith.Number.Written
import Docsmith.Yaml.Scalar

namespace Docsmith.Yaml

inductive Token where
  | version (major : Nat)
  | handle (handle lead : List Char)
  | directive
  | documentStart
  | documentEnd
  | blockSequence
  | blockMapping
  | blockEnd
  | flowSequence
  | flowSequenceEnd
  | flowMapping
  | flowMappingEnd
  | key
  | value
  | blockEntry
  | flowEntry
  | alias (name : List Char)
  | anchor (name : List Char)
  | tag (handle : Option (List Char)) (rest : List Char)
  | scalar (isPlain : Bool) (text : List Char)
  deriving DecidableEq, Repr

/-- Where a key may have started: the number of tokens before it, its place, and whether nothing
else than a key may stand there. -/
structure KeyStart where
  token : Nat
  required : Bool
  index : Nat
  line : Nat
  column : Nat
  deriving DecidableEq, Repr

/-- How far a reader has come: its place, the tokens so far, the depth of brackets, the indentation
of the collections that are open, whether a key may start, and where one may have started, by depth
of brackets. -/
structure Scan where
  place : Position
  tokens : List Token := []
  depth : Nat := 0
  indent : Int := -1
  outer : List Int := []
  mayStart : Bool := true
  starts : List (Nat × KeyStart) := []

namespace Scan

def push (s : Scan) (t : Token) (rest : List Char) : Scan :=
  { s with place := s.place.upTo rest, tokens := s.tokens ++ [t] }

def inFlow (s : Scan) : Bool := s.depth != 0

/-- Forgets where a key may have started on an earlier line or too far back. -/
def dropStale (s : Scan) : Option Scan :=
  let isStale (k : KeyStart) : Bool := k.line != s.place.line || k.index + 1024 < s.place.index
  if s.starts.any fun k => isStale k.2 && k.2.required then none
  else some { s with starts := s.starts.filter fun k => !isStale k.2 }

def dropStart (s : Scan) : Option Scan :=
  if s.starts.any fun k => k.1 == s.depth && k.2.required then none
  else some { s with starts := s.starts.filter fun k => k.1 != s.depth }

def saveStart (s : Scan) : Option Scan :=
  if s.mayStart then do
    let s ← s.dropStart
    let required := !s.inFlow && s.indent == s.place.column
    let start : KeyStart :=
      ⟨s.tokens.length, required, s.place.index, s.place.line, s.place.column⟩
    pure { s with starts := s.starts ++ [(s.depth, start)] }
  else some s

def closeFrom (column indent : Int) (outer : List Int) (tokens : List Token) :
    Int × List Int × List Token :=
  match outer with
  | [] => (indent, [], tokens)
  | o :: outer =>
    if column < indent then closeFrom column o outer (tokens ++ [.blockEnd])
    else (indent, o :: outer, tokens)

def close (s : Scan) (column : Int) : Scan :=
  if s.inFlow then s
  else
    let (indent, outer, tokens) := closeFrom column s.indent s.outer s.tokens
    { s with indent, outer, tokens }

def insertAt {α : Type} (n : Nat) (a : α) (xs : List α) : List α := xs.take n ++ a :: xs.drop n

/-- Starts a collection at a column if that is further in, with its token at a position. -/
def openAt (s : Scan) (column : Nat) (position : Nat) (t : Token) : Scan :=
  if s.indent < column then
    { s with
      indent := column
      outer := s.indent :: s.outer
      tokens := insertAt position t s.tokens }
  else s

/-- What lies before the next token is passed over; a new line allows a key, except in brackets. -/
def toNext : (room : Nat) → Scan → Scan
  | 0, s => s
  | room + 1, s =>
    let rest := dropComment (s.place.rest.dropWhile (· == ' '))
    if isBreak (charAt rest 0) then
      toNext room
        { s with place := s.place.upTo (takeBreak rest).2, mayStart := s.mayStart || !s.inFlow }
    else { s with place := s.place.upTo rest }

/-! ## Directives -/

def versionNumber (cs : List Char) : Option (Nat × List Char) := do
  let (digits, rest) := cs.span Char.isDigit
  let n ← Written.nat? 10 digits
  pure (n, rest)

def tagHandle (cs : List Char) : Option (List Char × List Char) :=
  if charAt cs 0 != '!' then none
  else if charAt cs 1 == ' ' then some (['!'], cs.drop 1)
  else
    let (name, rest) := (cs.drop 1).span isNameChar
    if charAt rest 0 == '!' then some ('!' :: name ++ ['!'], rest.drop 1) else none

def isTagChar (c : Char) : Bool := c.isAlphanum || "-;/?:@&=+$,_.!~*'()[]%".toList.contains c

def tagBytes : (room : Nat) → List Char → Option (List UInt8 × List Char)
  | 0, cs => some ([], cs)
  | room + 1, cs =>
    match cs with
    | '%' :: a :: b :: rest => do
      let n ← hexValue? [a, b]
      let (bytes, rest) ← tagBytes room rest
      pure (UInt8.ofNat n :: bytes, rest)
    | '%' :: _ => none
    | cs => some ([], cs)

def tagChars : (room : Nat) → List Char → Option (List Char × List Char)
  | 0, cs => some ([], cs)
  | room + 1, cs =>
    match cs with
    | [] => some ([], [])
    | c :: rest =>
      if c == '%' then do
        let (bytes, rest) ← tagBytes cs.length cs
        let text ← (Text.Utf8.decode bytes).toOption
        let (more, rest) ← tagChars room rest
        pure (text ++ more, rest)
      else if isTagChar c then do
        let (more, rest) ← tagChars room rest
        pure (c :: more, rest)
      else some ([], cs)

def tagRest (cs : List Char) : Option (List Char × List Char) := do
  let (text, rest) ← tagChars cs.length cs
  if rest.length = cs.length then none else pure (text, rest)

def directive (cs : List Char) : Option (Token × List Char) := do
  let (name, rest) := cs.span isNameChar
  if name.isEmpty || !isGap (charAt rest 0) then none
  else if name = "YAML".toList then do
    let (major, rest) ← versionNumber (rest.dropWhile (· == ' '))
    if charAt rest 0 != '.' then none
    else
      let (_, rest) ← versionNumber (rest.drop 1)
      if !isGap (charAt rest 0) then none
      else
        let rest ← restOfLine rest
        pure (.version major, rest)
  else if name = "TAG".toList then do
    let (handle, rest) ← tagHandle (rest.dropWhile (· == ' '))
    if charAt rest 0 != ' ' then none
    else
      let (lead, rest) ← tagRest (rest.dropWhile (· == ' '))
      if !isGap (charAt rest 0) then none
      else
        let rest ← restOfLine rest
        pure (.handle handle lead, rest)
  else do
    let rest ← restOfLine (rest.dropWhile fun c => !isLineStop c)
    pure (.directive, rest)

def anchorName (cs : List Char) : Option (List Char × List Char) :=
  let (name, rest) := cs.span isNameChar
  let next := charAt rest 0
  if name.isEmpty || !(isWordStop next || "?:,]\x7d%@`".toList.contains next) then none
  else some (name, rest)

def tag (cs : List Char) : Option (Token × List Char) := do
  let next := charAt cs 1
  let (t, rest) ←
    if next == '<' then do
      let (text, rest) ← tagRest (cs.drop 2)
      if charAt rest 0 != '>' then none else pure (Token.tag none text, rest.drop 1)
    else if isWordStop next then pure (Token.tag none ['!'], cs.drop 1)
    else
      let named := ((cs.drop 1).takeWhile fun c => !isGap c).contains '!'
      let (handle, rest) ← if named then tagHandle cs else some (['!'], cs.drop 1)
      let (text, rest) ← tagRest rest
      pure (Token.tag (some handle) text, rest)
  if isGap (charAt rest 0) then pure (t, rest) else none

/-! ## Tokens -/

def outermost (s : Scan) (t : Token) (rest : List Char) : Option Scan := do
  let s ← (s.close (-1)).dropStart
  pure ({ s with mayStart := false }.push t rest)

def openBracket (s : Scan) (t : Token) : Option Scan := do
  let s ← s.saveStart
  pure ({ s with depth := s.depth + 1, mayStart := true }.push t (s.place.rest.drop 1))

def closeBracket (s : Scan) (t : Token) : Option Scan := do
  let s ← s.dropStart
  if s.inFlow then
    pure ({ s with depth := s.depth - 1, mayStart := false }.push t (s.place.rest.drop 1))
  else none

/-- A sign at which a key may follow: outside brackets it may open a collection. -/
def sign (s : Scan) (t opener : Token) (mayStart : Bool) : Option Scan :=
  if !s.inFlow && !s.mayStart then none
  else do
    let s := if s.inFlow then s else s.openAt s.place.column s.tokens.length opener
    let s ← { s with mayStart }.dropStart
    pure (s.push t (s.place.rest.drop 1))

/-- The colon of a value. If a key may have started before it, that was one. -/
def valueSign (s : Scan) : Option Scan :=
  match s.starts.find? fun k => k.1 == s.depth with
  | some (_, k) =>
    let s := { s with starts := s.starts.filter fun k => k.1 != s.depth, mayStart := false }
    let s := { s with tokens := insertAt k.token .key s.tokens }
    let s := if s.inFlow then s else s.openAt k.column k.token .blockMapping
    some (s.push .value (s.place.rest.drop 1))
  | none => s.sign .value .blockMapping (!s.inFlow)

def content (s : Scan) (t : Token) (rest : List Char) : Option Scan := do
  let s ← s.saveStart
  pure ({ s with mayStart := false }.push t rest)

def blockScalar (s : Scan) (folded : Bool) : Option Scan := do
  let s ← { s with mayStart := true }.dropStart
  let (text, rest) ← block folded s.indent (s.place.rest.drop 1)
  pure (s.push (.scalar false text) rest)

def plainScalar (s : Scan) : Option Scan := do
  let s ← s.saveStart
  let cs := s.place.rest
  let (text, broke, rest) := plain s.inFlow (s.indent + 1) (cs.length + 1) cs
  pure ({ s with mayStart := broke }.push (.scalar true text) rest)

def startsPlain (s : Scan) (c next : Char) : Bool :=
  !(isWordStop c || "-?:,[]\x7b\x7d#&*!|>'\"%@`".toList.contains c) ||
    (!isWordStop next && (c == '-' || (!s.inFlow && (c == '?' || c == ':'))))

def token (s : Scan) : Option Scan :=
  let cs := s.place.rest
  let c := charAt cs 0
  let next := charAt cs 1
  let atStart := s.place.column == 0
  if c == '%' && atStart then do
    let (t, rest) ← directive (cs.drop 1)
    s.outermost t rest
  else if c == '-' && atStart && isSeparator cs then s.outermost .documentStart (cs.drop 3)
  else if c == '.' && atStart && isSeparator cs then s.outermost .documentEnd (cs.drop 3)
  else if c == '[' then s.openBracket .flowSequence
  else if c == '\x7b' then s.openBracket .flowMapping
  else if c == ']' then s.closeBracket .flowSequenceEnd
  else if c == '\x7d' then s.closeBracket .flowMappingEnd
  else if c == ',' then do
    let s ← { s with mayStart := true }.dropStart
    pure (s.push .flowEntry (cs.drop 1))
  else if c == '-' && isWordStop next then s.sign .blockEntry .blockSequence true
  else if c == '?' && (s.inFlow || isWordStop next) then s.sign .key .blockMapping (!s.inFlow)
  else if c == ':' && (s.inFlow || isWordStop next) then s.valueSign
  else if c == '*' then do
    let (name, rest) ← anchorName (cs.drop 1)
    s.content (.alias name) rest
  else if c == '&' then do
    let (name, rest) ← anchorName (cs.drop 1)
    s.content (.anchor name) rest
  else if c == '!' then do
    let (t, rest) ← tag cs
    s.content t rest
  else if (c == '|' || c == '>') && !s.inFlow then s.blockScalar (c == '>')
  else if c == '\'' || c == '"' then do
    let (text, rest) ← quoted (c == '"') cs
    s.content (.scalar false text) rest
  else if s.startsPlain c next then s.plainScalar
  else none

def run : (room : Nat) → Scan → Option (List Token)
  | 0, _ => none
  | room + 1, s => do
    let s ← (s.toNext (s.place.rest.length + 1)).dropStale
    let s := s.close s.place.column
    if s.place.rest.isEmpty then
      let s ← (s.close (-1)).dropStart
      pure s.tokens
    else
      let s ← s.token
      run room s

end Scan

/-- The tokens of a text. A mark of the byte order at its start is passed over. -/
def tokensOf (cs : List Char) : Option (List Token) :=
  if cs.all isAllowed then
    let start : Position := ⟨cs, 0, 0, 0⟩
    let start := if start.peek == '\ufeff' then start.step else start
    Scan.run (cs.length + 1) { place := start }
  else none

end Docsmith.Yaml
