/-
Interpolated string literals: texts with expressions in braces.

A doubled brace is a brace. An expression may be followed by `=`, which puts its source in front of
its value, by a conversion and by a format, in which there may again be expressions. The source of an
expression has no backslash and no number sign.
-/
import Docsmith.Syntax.Escape

namespace Docsmith.Syntax

/-- A part of an interpolated literal: text, or the source of an expression with its conversion and
format. -/
inductive Piece where
  | text (codes : List Nat)
  | field (source : List Char) (conversion : Option Char) (format : Option (List Piece))

namespace Piece

/-- What ends a run of text: nothing more to read, a brace at the start of the rest, or a doubled
brace that has been read. -/
structure Run where
  text : List Char
  rest : List Char
  doubled : Bool := false

/-- A run that ends at the brace `c`, with `done` from the back in front of it. At the top a brace
may be doubled, and a lone closing one is wrong. -/
def atBrace (top : Bool) (done : List Char) (c : Char) (cs : List Char) : Option Run :=
  if top && cs.head? == some c then some ⟨(c :: done).reverse, cs.tail, true⟩
  else if top && c == '\x7d' then none
  else some ⟨done.reverse, c :: cs, false⟩

/-- The text up to a brace. Outside raw literals a backslash keeps its character, and the braces
around a character's name are no braces (`inName`). -/
def run (raw top inName : Bool) (done : List Char) : List Char → Option Run
  | [] => some ⟨done.reverse, [], false⟩
  | '\\' :: c :: cs =>
    if inName || raw then
      if c = '\x7b' ∨ c = '\x7d' then
        if inName then run raw top (c == '\x7b') (c :: '\\' :: done) cs
        else atBrace top ('\\' :: done) c cs
      else run raw top inName (c :: '\\' :: done) cs
    else if c = 'N' then run raw top (cs.head? == some '\x7b') ('N' :: '\\' :: done) cs
    else if c = '\x7b' ∨ c = '\x7d' then atBrace top ('\\' :: done) c cs
    else run raw top false (c :: '\\' :: done) cs
  | c :: cs =>
    if inName then run raw top (c != '\x7d') (c :: done) cs
    else if c = '\x7b' ∨ c = '\x7d' then atBrace top done c cs
    else run raw top false (c :: done) cs

def closing (c : Char) : Char := if c = '(' then ')' else if c = '[' then ']' else '\x7d'

def isComparison (c d : Char) : Bool := d == '=' && (c == '!' || c == '=' || c == '<' || c == '>')

/-- The source of an expression up to what ends it. `quote` is the quote of the string that is open
and whether it is tripled, `opened` the brackets that are. -/
def source (quote : Option (Char × Bool)) (opened done : List Char) :
    List Char → Option (List Char × List Char)
  | [] => none
  | '\\' :: _ => none
  | c :: cs =>
    match quote with
    | some (q, tripled) =>
      if c ≠ q then source quote opened (c :: done) cs
      else if !tripled then source none opened (c :: done) cs
      else
        match cs with
        | d :: e :: cs' =>
          if d = q ∧ e = q then source none opened (e :: d :: c :: done) cs'
          else source quote opened (c :: done) (d :: e :: cs')
        | [d] => source quote opened (c :: done) [d]
        | [] => none
    | none =>
      if c = '\'' ∨ c = '"' then
        match cs with
        | d :: e :: cs' =>
          if d = c ∧ e = c then source (some (c, true)) opened (e :: d :: c :: done) cs'
          else source (some (c, false)) opened (c :: done) (d :: e :: cs')
        | [d] => source (some (c, false)) opened (c :: done) [d]
        | [] => none
      else if c = '(' ∨ c = '[' ∨ c = '\x7b' then source none (c :: opened) (c :: done) cs
      else if c = '#' then none
      else if opened.isEmpty && (c == '!' || c == ':' || c == '\x7d' || c == '=') then
        match cs with
        | d :: cs' =>
          if isComparison c d then source none opened (d :: c :: done) cs'
          else some (done.reverse, c :: d :: cs')
        | [] => some (done.reverse, [c])
      else if opened.isEmpty && (c == '<' || c == '>') then
        match cs with
        | d :: cs' =>
          if isComparison c d then source none opened (d :: c :: done) cs'
          else source none opened (c :: done) (d :: cs')
        | [] => none
      else if c = ')' ∨ c = ']' ∨ c = '\x7d' then
        match opened with
        | o :: opened => if closing o = c then source none opened (c :: done) cs else none
        | [] => none
      else source none opened (c :: done) cs

def isSpace (c : Char) : Bool := c == ' ' || c == '\t' || c == '\n' || c == '\x0c'

def isGap (c : Char) : Bool := isSpace c || c == '\r' || c == '\x0b'

def conversion : List Char → Option (Option Char × List Char)
  | '!' :: c :: cs => if c = 's' ∨ c = 'r' ∨ c = 'a' then some (some c, cs) else none
  | '!' :: [] => none
  | cs => some (none, cs)

def codesOf (raw : Bool) (text : List Char) : Option (List Nat) :=
  if raw then some (text.map Char.toNat) else Escape.text text

/-- The pieces up to the end of the text or, in a format, up to a closing brace. Formats nest
once. -/
def read (raw : Bool) : (room level : Nat) → List Char → Option (List Piece × List Char)
  | 0, _, _ => none
  | room + 1, level, cs => do
    let r ← run raw (level == 0) false [] cs
    let codes ← codesOf raw r.text
    if r.doubled then
      let (pieces, rest) ← read raw room level r.rest
      pure (text codes :: pieces, rest)
    else
      match r.rest with
      | '\x7b' :: inner =>
        if 2 ≤ level then none
        else
          let (src, rest) ← source none [] [] inner
          if src.all isSpace then none
          else
            let isShown := rest.head? == some '='
            let gap := (rest.drop 1).takeWhile isGap
            let rest := if isShown then rest.drop (1 + gap.length) else rest
            let (conv, rest) ← conversion rest
            let (format, rest) ←
              match rest with
              | ':' :: rest => do
                let (pieces, rest) ← read raw room (level + 1) rest
                pure (some pieces, rest)
              | rest => pure (none, rest)
            match rest with
            | '\x7d' :: rest =>
              let shown := if isShown then (src ++ '=' :: gap).map Char.toNat else []
              let conv := if isShown && conv.isNone && format.isNone then some 'r' else conv
              let (pieces, rest) ← read raw room level rest
              pure (text codes :: text shown :: field src conv format :: pieces, rest)
            | _ => none
      | rest => pure ([text codes], rest)

def ofBody (raw : Bool) (body : List Char) : Option (List Piece) := do
  let (pieces, rest) ← read raw (body.length + 1) 0 body
  if rest.isEmpty then pure pieces else none

def joined : List Piece → List Piece
  | [] => []
  | text codes :: rest =>
    match joined rest with
    | text more :: rest => text (codes ++ more) :: rest
    | rest => if codes.isEmpty then rest else text codes :: rest
  | p :: rest => p :: joined rest

end Piece

end Docsmith.Syntax
