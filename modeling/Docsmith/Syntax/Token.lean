/-
The tokens of Python source.

Line ends, and changes of indentation between lines, are tokens, except inside brackets. Two
measures of indentation have to agree, one with tab stops every eight columns and one with every
column, so that a mixture of tabs and blanks has one reading only.
-/
import Docsmith.Syntax.Numeral
import Docsmith.Text.Composition
import Docsmith.Text.Identifier
import Docsmith.Text.Word

namespace Docsmith.Syntax

/-- A string literal: what its prefix says and the text between the quotes. -/
structure Quoted where
  isBytes : Bool := false
  isRaw : Bool := false
  isFormat : Bool := false
  isMarked : Bool := false
  body : List Char := []
  deriving DecidableEq, Repr

inductive Lexeme where
  | name (s : String)
  | keyword (s : String)
  | symbol (s : String)
  | number (c : Constant)
  | text (q : Quoted)
  | newline
  | indent
  | dedent
  deriving DecidableEq

/-- A token with its first and last line. A name may have been composed from another spelling of it,
and then is never one of the words that are keywords in some places only. -/
structure Token where
  lexeme : Lexeme
  line : Nat
  endLine : Nat
  isComposed : Bool := false

def Token.on (line : Nat) (lexeme : Lexeme) : Token := { lexeme, line, endLine := line }

def keywords : List String :=
  ["False", "None", "True", "and", "as", "assert", "async", "await", "break", "class", "continue",
    "def", "del", "elif", "else", "except", "finally", "for", "from", "global", "if", "import",
    "in", "is", "lambda", "nonlocal", "not", "or", "pass", "raise", "return", "try", "while",
    "with", "yield"]

def symbols : List String :=
  ["**=", "//=", ">>=", "<<=", "...", "!=", "%=", "&=", "**", "*=", "+=", "-=", "->", "//", "/=",
    ":=", "<<", "<=", "==", ">=", ">>", "@=", "^=", "|=", "%", "&", "(", ")", "*", "+", ",", "-",
    ".", "/", ":", ";", "<", "=", ">", "@", "[", "]", "^", "\x7b", "|", "\x7d", "~"]

structure Columns where
  wide : Nat := 0
  narrow : Nat := 0
  deriving DecidableEq, Repr

/-- Where a scan of the source stands: whether at the start of a line, in which line, which brackets
and levels of indentation are open, innermost first, and what is left. -/
structure Scan where
  atStart : Bool := true
  line : Nat := 1
  opened : List String := []
  levels : List Columns := []
  rest : List Char

namespace Scan

def maxOpen : Nat := 200

def maxIndents : Nat := 99

/-- The blanks at the start of a line. A line that goes on after a backslash has the indentation in
front of the first backslash that is not at the margin (`kept`). Gives the columns, the line, and
what follows the blanks. -/
def margin (col : Columns) (kept line : Nat) : List Char → Option (Columns × Nat × List Char)
  | ' ' :: cs => margin ⟨col.wide + 1, col.narrow + 1⟩ kept line cs
  | '\t' :: cs => margin ⟨(col.wide / 8 + 1) * 8, col.narrow + 1⟩ kept line cs
  | '\x0c' :: cs => margin ⟨0, 0⟩ kept line cs
  | '\\' :: '\n' :: cs =>
    if cs.isEmpty then none
    else margin col (if kept = 0 then col.wide else kept) (line + 1) cs
  | '\\' :: _ => none
  | cs => some (if kept = 0 then col else ⟨kept, kept⟩, line, cs)

/-- The tokens for a change of indentation, and the levels that are open then, innermost first. -/
def indentation (col : Columns) (line : Nat) (levels : List Columns) :
    Option (List Token × List Columns) :=
  let top := levels.headD {}
  if col.wide = top.wide then if col.narrow = top.narrow then some ([], levels) else none
  else if top.wide < col.wide then
    if levels.length < maxIndents ∧ top.narrow < col.narrow then
      some ([.on line .indent], col :: levels)
    else none
  else
    let kept := levels.dropWhile fun level => col.wide < level.wide
    if kept.headD {} = col then
      some (List.replicate (levels.length - kept.length) (.on line .dedent), kept)
    else none

def quotedPrefix (q : Quoted) : List Char → Option (Quoted × Char × List Char)
  | [] => none
  | c :: cs =>
    if c = '\'' ∨ c = '"' then some (q, c, cs)
    else if (c = 'b' ∨ c = 'B') ∧ !(q.isBytes || q.isMarked || q.isFormat) then
      quotedPrefix { q with isBytes := true } cs
    else if (c = 'r' ∨ c = 'R') ∧ !(q.isRaw || q.isMarked) then
      quotedPrefix { q with isRaw := true } cs
    else if (c = 'f' ∨ c = 'F') ∧ !(q.isBytes || q.isMarked || q.isFormat) then
      quotedPrefix { q with isFormat := true } cs
    else if (c = 'u' ∨ c = 'U') ∧ !(q.isBytes || q.isRaw || q.isMarked || q.isFormat) then
      quotedPrefix { q with isMarked := true } cs
    else none

/-- The text up to a quote on the same line. A backslash keeps the character behind it. -/
def untilQuote (quote : Char) : List Char → Option (List Char × List Char)
  | [] => none
  | '\\' :: c :: cs => (untilQuote quote cs).map fun (body, rest) => ('\\' :: c :: body, rest)
  | c :: cs =>
    if c = quote then some ([], cs)
    else if c = '\n' then none
    else (untilQuote quote cs).map fun (body, rest) => (c :: body, rest)

def untilQuotes (quote : Char) : List Char → Option (List Char × List Char)
  | [] => none
  | '\\' :: c :: cs => (untilQuotes quote cs).map fun (body, rest) => ('\\' :: c :: body, rest)
  | c :: cs =>
    if c = quote ∧ [quote, quote].isPrefixOf cs then some ([], cs.drop 2)
    else (untilQuotes quote cs).map fun (body, rest) => (c :: body, rest)

def quotedBody (quote : Char) (cs : List Char) : Option (List Char × List Char) :=
  if [quote, quote].isPrefixOf cs then untilQuotes quote (cs.drop 2) else untilQuote quote cs

/-- A name or a keyword. A name beyond ASCII stands for its compatible composition. -/
def word (line : Nat) (cs : List Char) : Option Token :=
  if cs.all fun c => c.toNat < 128 then
    let s := String.ofList cs
    some (.on line (if keywords.contains s then .keyword s else .name s))
  else if Text.isIdentifier cs then
    some { Token.on line (.name (String.ofList (Text.compose cs))) with isComposed := true }
  else none

def symbol? (cs : List Char) : Option String := symbols.find? fun s => s.toList.isPrefixOf cs

/-- The brackets that are open after a symbol. Fails if it closes another bracket than was opened
last. -/
def brackets (s : String) (opened : List String) : Option (List String) :=
  if s = "(" ∨ s = "[" ∨ s = "\x7b" then
    if opened.length < maxOpen then some (s :: opened) else none
  else if s = ")" then if opened.head? = some "(" then some opened.tail else none
  else if s = "]" then if opened.head? = some "[" then some opened.tail else none
  else if s = "\x7d" then if opened.head? = some "\x7b" then some opened.tail else none
  else some opened

def lexeme (s : Scan) : Option (Token × Scan) :=
  match s.rest with
  | [] => none
  | c :: cs =>
    match quotedPrefix {} s.rest with
    | some (q, quote, inner) => do
      let (body, rest) ← quotedBody quote inner
      let endLine := s.line + body.count '\n'
      let q := { q with body, isMarked := c == 'u' }
      pure ({ lexeme := .text q, line := s.line, endLine }, { s with line := endLine, rest })
    | none =>
      if c.isAlpha ∨ c = '_' ∨ 128 ≤ c.toNat then do
        let token ← word s.line (s.rest.takeWhile Numeral.goesOn)
        pure (token, { s with rest := s.rest.dropWhile Numeral.goesOn })
      else if c.isDigit ∨ (c = '.' ∧ cs.head?.any Char.isDigit) then do
        let (n, rest) ← Numeral.read s.rest
        pure (.on s.line (.number n), { s with rest })
      else do
        let sym ← symbol? s.rest
        let opened ← brackets sym s.opened
        pure (.on s.line (.symbol sym), { s with opened, rest := s.rest.drop sym.length })

def step (s : Scan) : Option (List Token × Scan) :=
  if s.atStart then do
    let (col, line, rest) ← margin {} 0 s.line s.rest
    match rest with
    | '#' :: _ =>
      pure ([], { s with line := line + 1, rest := (rest.dropWhile (· ≠ '\n')).drop 1 })
    | '\n' :: rest => pure ([], { s with line := line + 1, rest })
    | rest =>
      if s.opened.isEmpty then
        let (tokens, levels) ← indentation col line s.levels
        pure (tokens, { s with atStart := false, line, levels, rest })
      else pure ([], { s with atStart := false, line, rest })
  else
    match s.rest with
    | ' ' :: rest => some ([], { s with rest })
    | '\t' :: rest => some ([], { s with rest })
    | '\x0c' :: rest => some ([], { s with rest })
    | '#' :: rest => some ([], { s with rest := rest.dropWhile (· ≠ '\n') })
    | '\n' :: rest =>
      let tokens := if s.opened.isEmpty then [.on s.line .newline] else []
      some (tokens, { s with atStart := true, line := s.line + 1, rest })
    | '\\' :: '\n' :: rest =>
      if rest.isEmpty then none else some ([], { s with line := s.line + 1, rest })
    | _ => (lexeme s).map fun (token, s) => ([token], s)

def tokensFrom : (room : Nat) → (done : List Token) → Scan → Option (List Token)
  | 0, _, _ => none
  | room + 1, done, s =>
    if s.rest.isEmpty ∧ !s.atStart then if s.opened.isEmpty then some done.reverse else none
    else (step s).bind fun (tokens, s) => tokensFrom room (tokens.reverse ++ done) s

end Scan

def tokensOf (source : List Char) : Option (List Token) :=
  let source := if source.getLast? = some '\n' then source else source ++ ['\n']
  Scan.tokensFrom (2 * source.length + 2) [] { rest := source }

end Docsmith.Syntax
