/-
Texts packed by prediction. A packed text is one long fraction. To read it is to ask, for each bit
of each character, how likely a one is after what stands before it, and to see on which side of that
share of what is left of the range the fraction lies. The likelihood is mixed from tallies, one for
each of a few contexts, that count what followed the same context so far.
-/
namespace Docsmith.Text

def tableDigits : List Char :=
  "!#$%&()*+,.0123456789:;<=>?@ABCDEFGHIJKLMNOPQRSTUVWXYZ[]^_abcdefghijklmnopqrstuvwxyz|~".toList

/-- A packed text: how many characters it has, and the digits of its fraction, in lines. -/
structure Packed where
  size : Nat
  digits : String

namespace Packed

def capitals : Array Char := " |ABCDEFGHIJKLMNOPQRSTUVWXYZ0123456789-+=".toList.toArray

/-- What is left of a fraction: where it lies in what is left of the range, and the digits that come
next. -/
structure Fraction where
  place : Nat
  range : Nat
  rest : List Char

/-- A fraction with digits taken in until the range is wide enough. -/
def Fraction.fill (place range : Nat) : List Char → Fraction
  | [] => ⟨place, range, []⟩
  | c :: cs =>
    if range < 86 ^ 5 then fill (86 * place + tableDigits.idxOf c) (86 * range) cs
    else ⟨place, range, c :: cs⟩

/-- The next bit of a fraction, where a one has a chance out of 4096. -/
def Fraction.bit (f : Fraction) (chance : Int) : Bool × Fraction :=
  let share := f.range / 4096 * chance.toNat
  if f.place < share then (true, fill f.place share f.rest)
  else (false, fill (f.place - share) (f.range - share) f.rest)

def curve : Array Int :=
  #[1, 2, 3, 6, 10, 16, 27, 45, 73, 120, 194, 310, 488, 747, 1101, 1546, 2047, 2549, 2994, 3348,
    3607, 3785, 3901, 3975, 4022, 4050, 4068, 4079, 4085, 4089, 4092, 4093, 4094]

/-- The chance out of 4096 for some odds, on a straight line between two points of the curve. -/
def chanceOf (odds : Int) : Int :=
  if odds < -2047 then 1
  else if 2047 < odds then 4095
  else
    let i := (odds / 128 + 16).toNat
    (curve.getD i 0 * (128 - odds % 128) + curve.getD (i + 1) 0 * (odds % 128) + 64) / 128

/-- The odds for each chance: the least that have it. -/
def oddsTable : Array Int :=
  (List.range 4095).foldl
    (fun table (i : Nat) =>
      let odds : Int := i - 2047
      table ++ Array.replicate ((chanceOf odds).toNat + 1 - table.size) odds)
    #[]

/-- How often a context was seen, how likely a one is in it, out of 65536, and the last bits that
followed, at most seven behind a one, as one number: five bits, sixteen bits and eight bits from the
lowest on. Contexts may have a slot in common; the bits above tell whose tally it is. -/
abbrev Tally := UInt64

namespace Tally

def unseen (owner : UInt64) : Tally := owner <<< 29 ||| 0x300000

def owner (t : Tally) : UInt64 := t >>> 29

def last (t : Tally) : UInt64 := t >>> 21 &&& 0xFF

def odds (t : Tally) : Int := oddsTable.getD (t >>> 9 &&& 0xFFF).toNat 2047

def after (t : Tally) (bit : Bool) : Tally :=
  let seen := t &&& 0x1F
  let chance := t >>> 5 &&& 0xFFFF
  let chance :=
    if bit then chance + (65535 - chance) * 2 / (2 * seen + 3)
    else chance - chance * 2 / (2 * seen + 3)
  let last := 2 * t.last + bit.toUInt64
  let last := if last < 256 then last else last &&& 0x7F ||| 0x80
  t.owner <<< 29 ||| last <<< 21 ||| chance <<< 5 ||| if seen < 31 then seen + 1 else seen

end Tally

/-- The contexts' tallies, by slot; how likely a one is after some last bits, for each of the
contexts; and how much each opinion weighs, by how long the word is and by its place, with the bits
of the character that are known. -/
structure Model where
  tallies : Array Nat
  chances : Array Int
  weights : Array Int

def Model.start : Model where
  tallies := Array.replicate 0x800000 (Tally.unseen 0).toNat
  chances := Array.replicate (11 * 256) 0x8000
  weights := Array.replicate (53 * 64 * 22) 4000

def spread : UInt64 := 0x9E3779B97F4A7C15

/-- What a context says: its tally, the place of the chance after its last bits, and the odds that
either gives. -/
structure Opinion where
  slot : Nat
  tally : Tally
  place : Nat
  odds : Int
  lastOdds : Int

/-- What contexts say after the bits of the character that are known, counted from `n` on. -/
def Model.opinions (m : Model) (known : UInt64) (n : Nat) : List UInt64 → List Opinion
  | [] => []
  | context :: contexts =>
    let key := (context + known) * spread
    let slot := (key >>> 41).toNat
    let owner := key >>> 30 &&& 0x7FF
    let held : Tally := (m.tallies.getD slot 0).toUInt64
    let tally := if held.owner = owner then held else .unseen owner
    let place := 256 * n + tally.last.toNat
    ⟨slot, tally, place, tally.odds, oddsTable.getD (m.chances.getD place 0 / 16).toNat 2047⟩ ::
      m.opinions known (n + 1) contexts

/-- All odds together, where each has two weights, from `p` and from `q` on. -/
def mixed (weights : Array Int) (p q : Nat) (sum : Int) : List Opinion → Int
  | [] => sum
  | o :: os =>
    let weight (n : Nat) : Int := weights.getD (p + n) 0 + weights.getD (q + n) 0
    mixed weights (p + 2) (q + 2) (sum + weight 0 * o.odds + weight 1 * o.lastOdds) os

/-- The weights after a bit, by how far all odds together were off. -/
def weighed (weights : Array Int) (miss : Int) (p q : Nat) : List Opinion → Array Int
  | [] => weights
  | o :: os =>
    let add (weights : Array Int) (n : Nat) (odds : Int) : Array Int :=
      weights.setIfInBounds n (weights.getD n 0 + odds * miss / 65536)
    let weights := add (add weights p o.odds) q o.odds
    weighed (add (add weights (p + 1) o.lastOdds) (q + 1) o.lastOdds) miss (p + 2) (q + 2) os

def Model.learn (bit : Bool) : Model → List Opinion → Model
  | m, [] => m
  | ⟨tallies, chances, weights⟩, o :: os =>
    let chance := chances.getD o.place 0
    learn bit
      ⟨tallies.setIfInBounds o.slot (o.tally.after bit).toNat,
        chances.setIfInBounds o.place (chance + ((if bit then 65535 else 0) - chance) / 64),
        weights⟩ os

/-- The next bit of a fraction, by contexts, the rows of their weights and the bits of the character
that are known, and the model that has learned it. -/
def Model.bit (m : Model) (contexts : List UInt64) (rows : Nat × Nat) (known : Nat) (f : Fraction) :
    Bool × Model × Fraction :=
  let os := m.opinions known.toUInt64 0 contexts
  let p := 22 * (64 * rows.1 + known)
  let q := 22 * (64 * rows.2 + known)
  let chance := chanceOf (mixed m.weights p q 0 os / 65536)
  let (bit, f) := f.bit chance
  let miss := ((if bit then 4096 else 0) - chance) * 14
  let ⟨tallies, chances, weights⟩ := m
  (bit, .learn bit ⟨tallies, chances, weighed weights miss p q os⟩ os, f)

def Model.char (m : Model) (contexts : List UInt64) (rows : Nat × Nat) (known : Nat)
    (f : Fraction) : Nat → Nat × Model × Fraction
  | 0 => (known - 64, m, f)
  | n + 1 =>
    let (bit, m, f) := m.bit contexts rows known f
    char m contexts rows (2 * known + bit.toNat) f n

/-- The text so far, where each three characters ended last, and how the text went on where its last
ones stood before, for how many it has been alike. -/
structure Echo where
  codes : Array Nat
  ends : Array Nat
  twin : Nat
  alike : Nat

/-- The character that stood here before, with how long the text has been alike. -/
def Echo.context (e : Echo) : UInt64 :=
  if e.twin = 0 then 0 else ((e.codes.getD e.twin 0 + 1) * 64 + min e.alike 7).toUInt64

def Echo.after (e : Echo) (code last : Nat) : Echo :=
  let isAlike := e.twin != 0 && e.codes.getD e.twin 0 == code
  let twin := if isAlike then e.twin + 1 else e.ends.getD last 0
  let stop := e.codes.size + 1
  ⟨e.codes.push code, e.ends.setIfInBounds last stop, twin, if isAlike then e.alike + 1 else 1⟩

/-- What the contexts tell of the text before a character: its last characters, the start of the
word and its length, and the words that stood last at each place of a name, with the place of this
one. -/
structure Past where
  recent : UInt64
  opened : Bool
  word : UInt64
  length : Nat
  place : Nat
  words : Array UInt64
  echo : Echo

def Past.start : Past :=
  ⟨0, true, 0, 0, 0, Array.replicate 32 0, ⟨#[], Array.replicate 0x40000 0, 0, 0⟩⟩

/-- The contexts: one, three and seven characters, the start of the word, that with the first word of
the name or with the last word that stood in its place, the place with one character, the start of
the word with the last word in its place and in the one before, the character that stood here
before, two characters and none. -/
def Past.contexts (p : Past) : List UInt64 :=
  let word := p.word * spread
  let above := p.words.getD p.place 0
  let one := p.recent &&& 0x3F
  let all := [one, p.recent &&& 0x3FFFF, p.recent &&& 0x3FFFFFFFFFF, p.word,
    word + p.words.getD 0 0, word + above, p.place.toUInt64 * 64 + one,
    word + p.words.getD (p.place - 1) 0 * 3 + above * 11, p.echo.context, p.recent &&& 0xFFF, 0]
  all.zipIdx.map fun (context, i) => (context * 16 + i.toUInt64) * spread

/-- The past after one more character. The first of an entry is the place of its first word. -/
def Past.after (p : Past) (code : Nat) : Past :=
  let recent := p.recent * 64 + code.toUInt64
  let words := p.words.setIfInBounds p.place p.word
  let p := { p with recent, echo := p.echo.after code (recent &&& 0x3FFFF).toNat }
  let next := { p with word := 0, length := 0 }
  if p.opened then { next with opened := false, place := code - 28 }
  else if code = 0 then { next with words, place := p.place + 1 }
  else if code = 1 then { next with words, opened := true }
  else { p with word := (p.word + code.toUInt64 + 1) * spread, length := p.length + 1 }

/-- The next so many characters of a text behind those that are read, with the model and the past
after them. -/
def readOn (alphabet : Array Char) (m : Model) (p : Past) (f : Fraction) (read : List Char) :
    Nat → List Char × Model × Past
  | 0 => (read.reverse, m, p)
  | n + 1 =>
    let (code, m, f) := m.char p.contexts (min p.length 20, 21 + min p.place 31) 1 f 6
    readOn alphabet m (p.after code) f (alphabet.getD code ' ' :: read) n

def read (text : Packed) (alphabet : Array Char) (m : Model) (p : Past) :
    List Char × Model × Past :=
  readOn alphabet m p (.fill 0 1 (text.digits.toList.filter tableDigits.contains)) [] text.size

def unpack (text : Packed) (alphabet : Array Char) : List Char :=
  (text.read alphabet .start .start).1

end Packed

/-- A text in which a letter behind `^` is a capital. -/
def withCapitals : List Char → List Char
  | '^' :: c :: cs => c.toUpper :: withCapitals cs
  | c :: cs => c :: withCapitals cs
  | [] => []

def nameDigit (c : Char) : Nat :=
  if c.isDigit then c.toNat - '0'.toNat else c.toUpper.toNat - 'A'.toNat + 10

def nameNumber (cs : List Char) : Nat := cs.foldl (fun n c => 16 * n + nameDigit c) 0

end Docsmith.Text
