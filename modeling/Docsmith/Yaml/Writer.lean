/-
Values as documents: collections by indentation, empty ones in brackets, and each scalar in the
plainest form that reads back as the same value. Lines break at a space behind column 80. A shared
value that is used again gets an anchor where it is written first, and aliases stand for it later.
-/
import Docsmith.Number.Written
import Docsmith.Text.Base64
import Docsmith.Value
import Docsmith.Yaml.Position
import Docsmith.Yaml.Tag

namespace Docsmith.Yaml

/-! ## Forms of scalars -/

structure Traits where
  /-- Something that would not be read as a part of a plain scalar. -/
  hasSign : Bool
  hasBreak : Bool
  hasSpecial : Bool
  /-- A space or a line end at the start or the end. -/
  hasEdge : Bool
  endsInSpace : Bool
  /-- A space behind a line end. -/
  hasBreakSpace : Bool
  /-- A line end behind a space. -/
  hasSpaceBreak : Bool
  deriving DecidableEq, Repr

def isValueBreak (c : Char) : Bool :=
  c == '\n' || c == '\u0085' || c == '\u2028' || c == '\u2029'

def isSpecial (c : Char) : Bool := !(c == '\n' || (' ' ≤ c && c ≤ '~'))

def isFirstSign (c next : Char) : Bool :=
  "#,[]\x7b\x7d&*!|>'\"%@`".toList.contains c ||
    ((c == '?' || c == ':' || c == '-') && isWordStop next)

/-- Whether a text has a sign behind its first character, which follows `before`. -/
def hasSignAfter (before : Char) : List Char → Bool
  | [] => false
  | c :: cs =>
    (c == ':' && isWordStop (charAt cs 0)) || (c == '#' && isWordStop before) || hasSignAfter c cs

def hasPair (first second : Char → Bool) : List Char → Bool
  | a :: b :: cs => (first a && second b) || hasPair first second (b :: cs)
  | _ => false

def traits (cs : List Char) : Traits :=
  let first := charAt cs 0
  let last := cs.getLast?.getD '\x00'
  let isEdge (c : Char) : Bool := c == ' ' || isValueBreak c
  { hasSign :=
      cs.take 3 == ['-', '-', '-'] || cs.take 3 == ['.', '.', '.'] ||
        isFirstSign first (charAt cs 1) || hasSignAfter first cs.tail
    hasBreak := cs.any isValueBreak
    hasSpecial := cs.any isSpecial
    hasEdge := isEdge first || isEdge last
    endsInSpace := last == ' '
    hasBreakSpace := hasPair isValueBreak (· == ' ') cs
    hasSpaceBreak := hasPair (· == ' ') isValueBreak cs }

def mayBePlain (cs : List Char) : Bool :=
  let t := traits cs
  cs.isEmpty ||
    !(t.hasSign || t.hasBreak || t.hasSpecial || t.hasEdge || t.hasBreakSpace || t.hasSpaceBreak)

def mayBeSingle (cs : List Char) : Bool :=
  let t := traits cs
  cs.isEmpty || !(t.hasSpecial || t.hasBreakSpace || t.hasSpaceBreak)

def mayBeBlock (cs : List Char) : Bool :=
  let t := traits cs
  !cs.isEmpty && !(t.endsInSpace || t.hasSpecial || t.hasSpaceBreak)

inductive Style where
  | plain
  | single
  | double
  | literal
  deriving DecidableEq, Repr

structure Scalar where
  tag : Tag
  text : List Char
  prefersBlock : Bool := false

/-- How a scalar is written; as a key on one line, a block and lines of its own are out. -/
def Scalar.style (s : Scalar) (isKey : Bool) : Style :=
  let lines := s.text.any isValueBreak
  if !s.prefersBlock && formTag s.text = s.tag && mayBePlain s.text &&
      !(isKey && (s.text.isEmpty || lines)) then .plain
  else if s.prefersBlock && !isKey && mayBeBlock s.text then .literal
  else if !s.prefersBlock && mayBeSingle s.text && !(isKey && lines) then .single
  else .double

def floatText (x : Double) : String :=
  match x with
  | .nan => ".nan"
  | .infinite negative => if negative then "-.inf" else ".inf"
  | x =>
    let text := (x.write .value).toList
    let mantissa := text.takeWhile (· != 'e')
    if mantissa.length < text.length && !mantissa.contains '.' then
      String.ofList (mantissa ++ ".0".toList ++ text.drop mantissa.length)
    else String.ofList text

def scalarOf? : Value → Option Scalar
  | .shared _ v => scalarOf? v
  | .null => some ⟨.null, "null".toList, false⟩
  | .bool b => some ⟨.bool, (if b then "true" else "false").toList, false⟩
  | .int i => some ⟨.int, (toString i).toList, false⟩
  | .float x => some ⟨.float, (floatText x).toList, false⟩
  | .str s => some ⟨.str, s.toList, false⟩
  | .date d => some ⟨.timestamp, d.text.toList, false⟩
  | .moment m => some ⟨.timestamp, m.text.toList, false⟩
  | .bytes bs => some ⟨.binary, Text.Base64.encodeLines bs, true⟩
  | .list _ | .map _ | .set _ | .pair _ _ => none

def Tag.text : Tag → String
  | .other name => "!<" ++ name ++ ">"
  | tag => "!!" ++ ((named.find? fun e => e.2 == tag).map Prod.fst).getD ""

/-! ## Pages -/

/-- What is written so far, from the back; its column; whether it ends in a blank; and whether the
line so far holds only what may stand before a nested collection. Then the numbers of the values that
get anchors, and of those that have theirs. -/
structure Sheet where
  written : List Char := []
  column : Nat := 0
  endsBlank : Bool := true
  isMargin : Bool := true
  anchored : List Nat := []
  placed : List Nat := []

namespace Sheet

def width : Nat := 80

def stepWidth : Nat := 2

def put (s : Sheet) (cs : List Char) : Sheet :=
  { s with written := cs.reverse ++ s.written, column := s.column + cs.length }

def endLineWith (s : Sheet) (cs : List Char) : Sheet :=
  { s with written := cs.reverse ++ s.written, column := 0, endsBlank := true, isMargin := true }

def endLine (s : Sheet) : Sheet := s.endLineWith ['\n']

def sign (s : Sheet) (text : String) (needsBlank : Bool) (keepsMargin : Bool) : Sheet :=
  let cs := text.toList
  let s := s.put (if s.endsBlank || !needsBlank then cs else ' ' :: cs)
  { s with endsBlank := false, isMargin := s.isMargin && keepsMargin }

def toIndent (s : Sheet) (indent : Nat) : Sheet :=
  let s :=
    if !s.isMargin || indent < s.column || (s.column == indent && !s.endsBlank) then s.endLine
    else s
  if s.column < indent then
    { s.put (List.replicate (indent - s.column) ' ') with endsBlank := true }
  else s

/-- Writes a plain scalar: runs of spaces and of other characters in turn. A single space behind
the width becomes a new line. -/
def plainText (indent : Nat) (split : Bool) : (room : Nat) → List Char → Sheet → Sheet
  | 0, _, s => s
  | room + 1, cs, s =>
    if cs.isEmpty then s
    else
      let (spaces, rest) := cs.span (· == ' ')
      if spaces.isEmpty then
        let (word, rest) := cs.span (· != ' ')
        plainText indent split room rest (s.put word)
      else if spaces.length = 1 && width < s.column && split then
        plainText indent split room rest
          { s.toIndent indent with endsBlank := false, isMargin := false }
      else plainText indent split room rest (s.put spaces)

def plain (indent : Nat) (split : Bool) (cs : List Char) (s : Sheet) : Sheet :=
  if cs.isEmpty then s
  else
    let s := if s.endsBlank then s else s.put [' ']
    plainText indent split (cs.length + 1) cs { s with endsBlank := false, isMargin := false }

def lineEnds (cs : List Char) (s : Sheet) : Sheet := cs.foldl (fun s c => s.endLineWith [c]) s

/-- Writes what stands between single quotes: spaces, line ends, and other characters in turn. A
single space behind the width becomes a new line, except at the start and the end. A first line end
is written twice, and a quote too. -/
def singleText (indent : Nat) (split : Bool) : (room : Nat) → (isFirst : Bool) → List Char →
    Sheet → Sheet
  | 0, _, _, s => s
  | room + 1, isFirst, cs, s =>
    match cs with
    | [] => s
    | '\'' :: rest => singleText indent split room false rest (s.put ['\'', '\''])
    | c :: _ =>
      if c == ' ' then
        let (spaces, rest) := cs.span (· == ' ')
        if spaces.length = 1 && width < s.column && split && !isFirst && !rest.isEmpty then
          singleText indent split room false rest (s.toIndent indent)
        else singleText indent split room false rest (s.put spaces)
      else if isValueBreak c then
        let (breaks, rest) := cs.span isValueBreak
        let s := if c == '\n' then s.endLine else s
        singleText indent split room false rest ((lineEnds breaks s).toIndent indent)
      else
        let (word, rest) := cs.span fun c => !(c == ' ' || c == '\'' || isValueBreak c)
        singleText indent split room false rest (s.put word)

def single (indent : Nat) (split : Bool) (cs : List Char) (s : Sheet) : Sheet :=
  (singleText indent split (cs.length + 1) true cs (s.sign "'" true false)).sign "'" false false

def escapeLetters : List (Char × Char) :=
  [('\x00', '0'), ('\x07', 'a'), ('\x08', 'b'), ('\t', 't'), ('\n', 'n'), ('\x0b', 'v'),
    ('\x0c', 'f'), ('\r', 'r'), ('\x1b', 'e'), ('"', '"'), ('\\', '\\'), ('\u0085', 'N'),
    ('\u00a0', '_'), ('\u2028', 'L'), ('\u2029', 'P')]

def capitalHex (count n : Nat) : List Char :=
  let digits := (Nat.toDigits 16 n).map Char.toUpper
  List.replicate (count - digits.length) '0' ++ digits

def escape? (c : Char) : Option (List Char) :=
  match escapeLetters.lookup c with
  | some letter => some ['\\', letter]
  | none =>
    if ' ' ≤ c && c ≤ '~' then none
    else if c.toNat ≤ 0xff then some ('\\' :: 'x' :: capitalHex 2 c.toNat)
    else if c.toNat ≤ 0xffff then some ('\\' :: 'u' :: capitalHex 4 c.toNat)
    else some ('\\' :: 'U' :: capitalHex 8 c.toNat)

/-- Breaks a line between double quotes, with backslashes for the break and for a space behind it. -/
def breakDouble (indent : Nat) (next : Char) (s : Sheet) : Sheet :=
  let s := { (s.put ['\\']).toIndent indent with endsBlank := false, isMargin := false }
  if next == ' ' then s.put ['\\'] else s

/-- Writes what stands between double quotes. Lines that are too long break at a space or behind an
escape, except at the start and the end; `held` is what was read and not written yet. -/
def doubleText (indent : Nat) (split : Bool) (isFirst : Bool) (held : List Char) :
    List Char → Sheet → Sheet
  | [], s => s.put held
  | c :: rest, s =>
    let mayBreak := !isFirst && !rest.isEmpty && split
    match escape? c with
    | some escaped =>
      let s := (s.put held).put escaped
      doubleText indent split false [] rest
        (if mayBreak && width + 1 < s.column then breakDouble indent (charAt rest 0) s else s)
    | none =>
      if mayBreak && (c == ' ' || held.isEmpty) && width < s.column + held.length then
        doubleText indent split false [c] rest (breakDouble indent c (s.put held))
      else doubleText indent split false (held ++ [c]) rest s

def double (indent : Nat) (split : Bool) (cs : List Char) (s : Sheet) : Sheet :=
  (doubleText indent split true [] cs (s.sign "\"" true false)).sign "\"" false false

/-- The signs at the head of a block: whether it starts with a blank, and what becomes of the line
ends at its end. -/
def blockHints (cs : List Char) : String :=
  let last := cs.getLast?.getD '\x00'
  let beforeLast := cs.dropLast.getLast?.getD '\n'
  (if charAt cs 0 == ' ' || isValueBreak (charAt cs 0) then toString stepWidth else "") ++
    (if !isValueBreak last then "-" else if isValueBreak beforeLast then "+" else "")

def literalText (indent : Nat) : (room : Nat) → List Char → Sheet → Sheet
  | 0, _, s => s
  | room + 1, cs, s =>
    let (breaks, rest) := cs.span isValueBreak
    let s := lineEnds breaks s
    if rest.isEmpty then s
    else
      let (line, rest) := rest.span fun c => !isValueBreak c
      let s := (s.toIndent indent).put line
      if rest.isEmpty then s.endLine else literalText indent room rest s

def literal (indent : Nat) (cs : List Char) (s : Sheet) : Sheet :=
  literalText indent (cs.length + 1) cs ((s.sign ("|" ++ blockHints cs) true false).endLine)

def scalar (indent : Nat) (isKey : Bool) (x : Scalar) (s : Sheet) : Sheet :=
  let style := x.style isKey
  let isTagged := style != .plain && x.tag != .str
  let s := if isTagged then s.sign x.tag.text true false else s
  let indent := indent + stepWidth
  match style with
  | .plain => plain indent (!isKey) x.text s
  | .single => single indent (!isKey) x.text s
  | .double => double indent (!isKey) x.text s
  | .literal => literal indent x.text s

end Sheet

/-! ## Anchors -/

/-- The numbers of shared values that have been met, and of those met again, in that order. -/
structure Meeting where
  met : List Nat := []
  again : List Nat := []

namespace Meeting

def meet (m : Meeting) (n : Nat) : Meeting :=
  if m.again.contains n then m
  else if m.met.contains n then { m with again := m.again ++ [n] }
  else { m with met := n :: m.met }

mutual

/-- Meets the shared values in a value; inside one, only the first time. -/
def value : Value → Meeting → Meeting
  | .shared n v, m => if m.met.contains n then m.meet n else value v (m.meet n)
  | .list xs, m => items xs m
  | .map es, m => entries es m
  | .pair a b, m => value b (value a m)
  | _, m => m

def items : List Value → Meeting → Meeting
  | [], m => m
  | x :: xs, m => items xs (value x m)

def entries : List (Value × Value) → Meeting → Meeting
  | [], m => m
  | (_, v) :: es, m => entries es (value v m)

end

end Meeting

def anchorName (i : Nat) : String :=
  let digits := toString (i + 1)
  "id" ++ String.ofList (List.replicate (3 - digits.length) '0') ++ digits

def isSimpleKey (v : Value) : Bool :=
  match scalarOf? v with
  | some x =>
    x.tag.text.length + x.text.length < 128 && !x.text.isEmpty && !x.text.any isValueBreak
  | none => false

mutual

/-- Writes a value below an indentation. The items of a list directly behind a key are not indented
further. -/
def writeNode (indent : Nat) (inMapping isKey : Bool) : Value → Sheet → Sheet
  | .list items, s =>
    if items.isEmpty then s.sign "[]" true false
    else
      let inner := if inMapping && !s.isMargin then indent else indent + Sheet.stepWidth
      writeItems inner items s
  | .map entries, s =>
    if entries.isEmpty then s.sign "\x7b\x7d" true false
    else writeEntries (indent + Sheet.stepWidth) entries s
  | .set items, s =>
    let s := s.sign "!!set" true false
    if items.isEmpty then s.sign "\x7b\x7d" true false
    else writeKeys (indent + Sheet.stepWidth) items s
  | .pair a b, s =>
    let s := s.sign "!!python/tuple" true false
    let inner := if inMapping then indent else indent + Sheet.stepWidth
    let s := writeNode inner false false a ((s.toIndent inner).sign "-" true true)
    writeNode inner false false b ((s.toIndent inner).sign "-" true true)
  | .shared n v, s =>
    match s.anchored.idxOf? n with
    | none => writeNode indent inMapping isKey v s
    | some i =>
      if s.placed.contains n then s.sign ("*" ++ anchorName i) true false
      else
        writeNode indent inMapping isKey v
          { s.sign ("&" ++ anchorName i) true false with placed := n :: s.placed }
  | v, s =>
    match scalarOf? v with
    | some x => s.scalar indent isKey x
    | none => s

def writeItems (indent : Nat) : List Value → Sheet → Sheet
  | [], s => s
  | v :: rest, s =>
    writeItems indent rest
      (writeNode indent false false v ((s.toIndent indent).sign "-" true true))

def writeEntries (indent : Nat) : List (Value × Value) → Sheet → Sheet
  | [], s => s
  | (k, v) :: rest, s =>
    let s := s.toIndent indent
    if isSimpleKey k then
      let s := (writeNode indent true true k s).sign ":" false false
      writeEntries indent rest (writeNode indent true false v s)
    else
      let s := writeNode indent true false k (s.sign "?" true true)
      let s := (s.toIndent indent).sign ":" true true
      writeEntries indent rest (writeNode indent true false v s)

def writeKeys (indent : Nat) : List Value → Sheet → Sheet
  | [], s => s
  | k :: rest, s =>
    let s := s.toIndent indent
    let nothing : Scalar := ⟨.null, "null".toList, false⟩
    if isSimpleKey k then
      let s := (writeNode indent true true k s).sign ":" false false
      writeKeys indent rest (s.scalar indent false nothing)
    else
      let s := writeNode indent true false k (s.sign "?" true true)
      let s := (s.toIndent indent).sign ":" true true
      writeKeys indent rest (s.scalar indent false nothing)

end

mutual

def isWritable : Value → Bool
  | .int i => (Nat.toDigits 10 i.natAbs).length ≤ Written.maxDigits
  | .list xs | .set xs => areWritable xs
  | .map es => entriesWritable es
  | .pair a b => isWritable a && isWritable b
  | .shared _ v => isWritable v
  | _ => true

def areWritable : List Value → Bool
  | [] => true
  | x :: xs => isWritable x && areWritable xs

def entriesWritable : List (Value × Value) → Bool
  | [] => true
  | (k, v) :: es => isWritable k && isWritable v && entriesWritable es

end

def write (entries : List (Value × Value)) : String :=
  let blank : Sheet := { anchored := (Meeting.entries entries {}).again }
  let s := if entries.isEmpty then blank.sign "\x7b\x7d" true false else writeEntries 0 entries blank
  String.ofList (s.toIndent 0).written.reverse

end Docsmith.Yaml
