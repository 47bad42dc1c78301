/-
Reading JSON text.

Besides the values of the format, `NaN`, `Infinity` and `-Infinity` are read. A failure names what
was expected and where: the position in characters, and the line and column that it lies in. An
integer has a limited number of digits.
-/
import Docsmith.Fault
import Docsmith.Value

namespace Docsmith.Json

inductive Problem where
  | value
  | propertyName
  | colon
  | comma
  | openString
  | controlCharacter
  | escape
  | unicodeEscape
  | extra
  | byteOrderMark
  | digits (count : Nat)
  deriving DecidableEq, Repr

structure Error where
  problem : Problem
  pos : Nat
  deriving DecidableEq, Repr

namespace Problem

def message : Problem → String
  | value => "Expecting value"
  | propertyName => "Expecting property name enclosed in double quotes"
  | colon => "Expecting ':' delimiter"
  | comma => "Expecting ',' delimiter"
  | openString => "Unterminated string starting at"
  | controlCharacter => "Invalid control character at"
  | escape => "Invalid \\escape"
  | unicodeEscape => "Invalid \\uXXXX escape"
  | extra => "Extra data"
  | byteOrderMark => "Unexpected UTF-8 BOM (decode using utf-8-sig)"
  | digits _ => "Too many digits"

end Problem

namespace Error

def message (e : Error) (cs : List Char) : String :=
  let before := cs.take e.pos
  let line := before.count '\n' + 1
  let column := (before.reverse.takeWhile (· != '\n')).length + 1
  e.problem.message ++ ": line " ++ toString line ++ " column " ++ toString column ++
    " (char " ++ toString e.pos ++ ")"

def fault (e : Error) (cs : List Char) : Fault :=
  match e.problem with
  | .digits count => .tooManyDigitsRead count
  | _ => .badJson (e.message cs)

end Error

structure Rest where
  chars : List Char
  pos : Nat

namespace Rest

def drop (r : Rest) (n : Nat) : Rest := ⟨r.chars.drop n, r.pos + n⟩

def skipBlanks (r : Rest) : Rest :=
  r.drop (r.chars.takeWhile fun c => c == ' ' || c == '\t' || c == '\n' || c == '\r').length

end Rest

def hexDigit? (c : Char) : Option Nat :=
  if '0' ≤ c ∧ c ≤ '9' then some (c.toNat - 48)
  else if 'a' ≤ c ∧ c ≤ 'f' then some (c.toNat - 87)
  else if 'A' ≤ c ∧ c ≤ 'F' then some (c.toNat - 55)
  else none

def hex4? (cs : List Char) : Option Nat :=
  if cs.length < 4 then none
  else (cs.take 4).foldlM (fun n c => (hexDigit? c).map fun d => 16 * n + d) 0

def simpleEscape? : Char → Option Char
  | '"' => some '"'
  | '\\' => some '\\'
  | '/' => some '/'
  | 'b' => some '\x08'
  | 'f' => some '\x0c'
  | 'n' => some '\n'
  | 'r' => some '\r'
  | 't' => some '\t'
  | _ => none

/-- The character behind a `\u` at `r`, and the rest. Two halves of a pair make one character; a half
that stands alone becomes the replacement character. -/
def unicodeEscape (r : Rest) : Except Error (Char × Rest) :=
  match if r.chars.length < 5 then none else hex4? r.chars with
  | none => .error ⟨.unicodeEscape, r.pos - 1⟩
  | some high =>
    let next := r.drop 4
    if 0xD800 ≤ high ∧ high ≤ 0xDBFF then
      match next.chars with
      | '\\' :: 'u' :: more =>
        if more.length < 5 then .ok ('�', next)
        else
          match hex4? more with
          | none => .error ⟨.unicodeEscape, next.pos + 1⟩
          | some low =>
            if 0xDC00 ≤ low ∧ low ≤ 0xDFFF then
              .ok (Char.ofNat (0x10000 + (high - 0xD800) * 0x400 + (low - 0xDC00)), next.drop 6)
            else .ok ('�', next)
      | _ => .ok ('�', next)
    else if 0xDC00 ≤ high ∧ high ≤ 0xDFFF then .ok ('�', next)
    else .ok (Char.ofNat high, next)

/-- The inside of a string whose opening quote stands at `start`; `done` holds the characters so
far, from the back. Each round takes a character at least, so `room` need not exceed the text. -/
def stringFrom (start : Nat) : (room : Nat) → List Char → Rest → Except Error (String × Rest)
  | 0, _, _ => .error ⟨.openString, start⟩
  | room + 1, done, r =>
    match r.chars with
    | [] => .error ⟨.openString, start⟩
    | '"' :: _ => .ok (String.ofList done.reverse, r.drop 1)
    | '\\' :: 'u' :: _ => do
      let (c, rest) ← unicodeEscape (r.drop 2)
      stringFrom start room (c :: done) rest
    | '\\' :: c :: _ =>
      match simpleEscape? c with
      | some d => stringFrom start room (d :: done) (r.drop 2)
      | none => .error ⟨.escape, r.pos⟩
    | ['\\'] => .error ⟨.openString, start⟩
    | c :: _ =>
      if c.toNat < 32 then .error ⟨.controlCharacter, r.pos⟩
      else stringFrom start room (c :: done) (r.drop 1)

def readString (r : Rest) : Except Error (String × Rest) :=
  stringFrom r.pos r.chars.length [] (r.drop 1)

def digitsValue (ds : List Char) : Nat := ds.foldl (fun n d => 10 * n + (d.toNat - 48)) 0

def fraction (cs : List Char) : List Char × List Char :=
  match cs with
  | '.' :: more =>
    let ds := more.takeWhile Char.isDigit
    if ds.isEmpty then ([], cs) else (ds, more.drop ds.length)
  | _ => ([], cs)

def exponent (cs : List Char) : Option Int × List Char :=
  match cs with
  | e :: more =>
    if e = 'e' ∨ e = 'E' then
      let (negative, unsigned) :=
        match more with
        | '-' :: ds => (true, ds)
        | '+' :: ds => (false, ds)
        | ds => (false, ds)
      let ds := unsigned.takeWhile Char.isDigit
      if ds.isEmpty then (none, cs)
      else
        let n : Int := digitsValue ds
        (some (if negative then -n else n), unsigned.drop ds.length)
    else (none, cs)
  | [] => (none, cs)

def maxDigits : Nat := 4300

def readNumber (r : Rest) : Except Error (Value × Rest) :=
  let negative := r.chars.head? == some '-'
  let cs := if negative then r.chars.drop 1 else r.chars
  let whole :=
    match cs with
    | '0' :: _ => ['0']
    | _ => cs.takeWhile Char.isDigit
  if whole.isEmpty then .error ⟨.value, r.pos⟩
  else
    let (frac, behind) := fraction (cs.drop whole.length)
    let (exp, behind) := exponent behind
    let rest := r.drop (r.chars.length - behind.length)
    if frac.isEmpty ∧ exp = none then
      let n : Int := digitsValue whole
      if maxDigits < whole.length then .error ⟨.digits whole.length, r.pos⟩
      else .ok (.int (if negative then -n else n), rest)
    else
      let m := digitsValue (whole ++ frac)
      .ok (.float (.ofDecimal negative m (exp.getD 0 - frac.length)), rest)

def words : List (String × Value) :=
  [("null", .null), ("true", .bool true), ("false", .bool false), ("NaN", .float .nan),
    ("Infinity", .float (.infinite false)), ("-Infinity", .float (.infinite true))]

mutual

/-- The value at `r`; `room` bounds the depth and the number of elements. -/
def readValue : (room : Nat) → Rest → Except Error (Value × Rest)
  | 0, r => .error ⟨.value, r.pos⟩
  | room + 1, r =>
    match r.chars with
    | '"' :: _ => do
      let (s, rest) ← readString r
      pure (.str s, rest)
    | '{' :: _ =>
      let inside := (r.drop 1).skipBlanks
      match inside.chars with
      | '}' :: _ => .ok (.map [], inside.drop 1)
      | _ => readEntries room [] inside
    | '[' :: _ =>
      let inside := (r.drop 1).skipBlanks
      match inside.chars with
      | ']' :: _ => .ok (.list [], inside.drop 1)
      | _ => readItems room [] inside
    | _ =>
      match words.find? fun (w, _) => w.toList.isPrefixOf r.chars with
      | some (w, v) => .ok (v, r.drop w.length)
      | none => readNumber r

def readItems : (room : Nat) → List Value → Rest → Except Error (Value × Rest)
  | 0, _, r => .error ⟨.value, r.pos⟩
  | room + 1, done, r => do
    let (v, behind) ← readValue room r
    let behind := behind.skipBlanks
    match behind.chars with
    | ']' :: _ => pure (.list (v :: done).reverse, behind.drop 1)
    | ',' :: _ => readItems room (v :: done) (behind.drop 1).skipBlanks
    | _ => .error ⟨.comma, behind.pos⟩

/-- The entries of a map from `r` on, added to `done`; a key that comes again takes the new value. -/
def readEntries : (room : Nat) → List (Value × Value) → Rest → Except Error (Value × Rest)
  | 0, _, r => .error ⟨.value, r.pos⟩
  | room + 1, done, r =>
    match r.chars with
    | '"' :: _ => do
      let (key, behind) ← readString r
      let behind := behind.skipBlanks
      match behind.chars with
      | ':' :: _ => do
        let (v, behind) ← readValue room (behind.drop 1).skipBlanks
        let behind := behind.skipBlanks
        let entries := Value.insert done (.str key) v
        match behind.chars with
        | '}' :: _ => pure (.map entries, behind.drop 1)
        | ',' :: _ => readEntries room entries (behind.drop 1).skipBlanks
        | _ => .error ⟨.comma, behind.pos⟩
      | _ => .error ⟨.colon, behind.pos⟩
    | _ => .error ⟨.propertyName, r.pos⟩

end

def read (cs : List Char) : Except Error Value := do
  if cs.head? = some '\ufeff' then throw ⟨.byteOrderMark, 0⟩
  let (v, rest) ← readValue (cs.length + 1) (Rest.mk cs 0).skipBlanks
  let rest := rest.skipBlanks
  if rest.chars.isEmpty then pure v else .error ⟨.extra, rest.pos⟩

end Docsmith.Json
