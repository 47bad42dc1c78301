/-
How string and bytes literals are written.

A literal inside an interpolated one has no backslash in it where that can be helped: the quotes are
chosen, out of single and triple ones, so that none has to be escaped.
-/
import Docsmith.Text.Quote

namespace Docsmith.Syntax.StringText

abbrev Codes := List Nat

def codesOf (s : String) : Codes := s.toList.map Char.toNat

def textOf (cs : Codes) : String := String.ofList (cs.map Char.ofNat)

def allQuotes : List String := ["'", "\"", "\"\"\"", "'''"]

def tripleQuotes : List String := ["\"\"\"", "'''"]

def occurs (needle : Codes) : Codes → Bool
  | [] => needle.isEmpty
  | c :: cs => needle.isPrefixOf (c :: cs) || occurs needle cs

/-- A code point as it is written when backslashes are to be avoided: line ends and tabs stay,
unless they are to be escaped too. -/
def shown (escapesBlanks : Bool) (n : Nat) : Codes :=
  if !escapesBlanks && (n == 10 || n == 9) then [n] else (Text.showCode n).map Char.toNat

def quoteCode (quote : String) : Nat := (quote.toList.headD '\'').toNat

/-- A text as it stands between quotes, and the quotes it can stand between: those of `quotes` that
are not in it, those that differ from its last character first. If there are none, the text is
written with escapes. -/
def fit (quotes : List String) (escapesBlanks : Bool) (text : Codes) : Codes × List String :=
  let escaped := text.flatMap (shown escapesBlanks)
  let possible :=
    if escaped.contains 10 then quotes.filter fun q => tripleQuotes.contains q else quotes
  let possible := possible.filter fun q => !occurs (codesOf q) escaped
  if possible.isEmpty then
    let written := (Text.quoteCodes text).map Char.toNat
    let first := written.headD 39
    let quote := (quotes.find? fun q => (codesOf q).contains first).getD (textOf [first])
    ((written.drop 1).dropLast, [quote])
  else
    match escaped.getLast? with
    | none => (escaped, possible)
    | some last =>
      let isLast : String → Bool := fun q => quoteCode q == last
      let possible := (possible.filter fun q => !isLast q) ++ possible.filter isLast
      if (possible.head?.map isLast).getD false then
        (escaped.dropLast ++ [0x5C, last], possible)
      else (escaped, possible)

def between (quotes : List String) (text : Codes) : String :=
  let (inner, possible) := fit quotes false text
  let quote := possible.headD "'"
  quote ++ textOf inner ++ quote

/-- Parts of an interpolated literal, one after another, of which those with `true` are texts, with
the quotes that all of them can stand between. -/
def fitParts (quotes : List String) : List (Codes × Bool) → Option (List Codes × List String)
  | [] => some ([], quotes)
  | (text, isText) :: rest =>
    let (inner, possible) := fit quotes isText text
    if possible.any fun q => quotes.contains q then
      (fitParts possible rest).map fun (more, quotes) => (inner :: more, quotes)
    else none

/-- A part of an interpolated literal with escapes, to stand between single quotes. -/
def escapedPart (text : Codes) : Codes :=
  (((Text.quoteCodes (34 :: text)).map Char.toNat).drop 2).dropLast

def interpolated (parts : List (Codes × Bool)) : String :=
  let (inner, quotes) :=
    (fitParts allQuotes parts).getD (parts.map fun part => escapedPart part.1, ["'''"])
  let quote := quotes.headD "'"
  quote ++ textOf inner.flatten ++ quote

def showByte (quote : Nat) (b : UInt8) : List Char :=
  let n := b.toNat
  if n = quote ∨ n = 0x5C then ['\\', Char.ofNat n]
  else if n = 9 then ['\\', 't']
  else if n = 10 then ['\\', 'n']
  else if n = 13 then ['\\', 'r']
  else if n < 32 ∨ 127 ≤ n then '\\' :: 'x' :: Text.hexDigits 2 n
  else [Char.ofNat n]

def bytes (bs : List UInt8) : String :=
  let quote := if bs.contains 39 && !bs.contains 34 then 34 else 39
  let inner := bs.flatMap (showByte quote)
  "b" ++ String.ofList (Char.ofNat quote :: (inner ++ [Char.ofNat quote]))

end Docsmith.Syntax.StringText
