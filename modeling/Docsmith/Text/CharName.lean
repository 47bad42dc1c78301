/-
Characters by name. The tables hold the names in the order of the code points, as packed texts with
a `|` behind each entry. An entry `=` with a hexadecimal number says which code point comes next,
and one `+` with a hexadecimal number that so many names count on from the one before. Any other
entry starts with a digit, the number of words that it shares with the name before it, and goes on
with its other words. Ideographs and Korean syllables have names that follow from their code points
and stand in no table.
-/
import Docsmith.Text.CharName.Alias
import Docsmith.Text.CharName.Ancient
import Docsmith.Text.CharName.EastAsian
import Docsmith.Text.CharName.FirstScripts
import Docsmith.Text.CharName.OtherScripts
import Docsmith.Text.CharName.Pictures
import Docsmith.Text.CharName.Symbols
import Docsmith.Text.Cut

namespace Docsmith.Text

abbrev NameWords := List (List Char)

/-- The word that counts on: the next letter, or the next number in as many digits. -/
def nextWord : List Char → List Char
  | [c] => if c.isDigit then digitsAfter [c] else [Char.ofNat (c.toNat + 1)]
  | word =>
    let digits := (word.reverse.takeWhile Char.isDigit).reverse
    word.take (word.length - digits.length) ++ digitsAfter digits
where
  digitsAfter (digits : List Char) : List Char :=
    let after := Nat.toDigits 10 (digits.foldl (fun n c => 10 * n + nameDigit c) 0 + 1)
    List.replicate (digits.length - after.length) '0' ++ after

def nextName (words : NameWords) : NameWords := words.dropLast ++ [nextWord (words.getLastD [])]

def runNamed? (name : NameWords) (next : Nat) (last : NameWords) : Nat → Nat ⊕ NameWords
  | 0 => .inr last
  | n + 1 =>
    let words := nextName last
    if words = name then .inl next else runNamed? name (next + 1) words n

/-- The code point of a name in the entries of a table; `next` is the code point that comes next
and `last` the name before it. -/
def entryNamed? (name : NameWords) (next : Nat) (last : NameWords) : List (List Char) → Option Nat
  | [] => none
  | [] :: entries => entryNamed? name next last entries
  | (c :: cs) :: entries =>
    if c = '=' then entryNamed? name (nameNumber cs) last entries
    else if c = '+' then
      match runNamed? name next last (nameNumber cs) with
      | .inl code => some code
      | .inr last => entryNamed? name (next + nameNumber cs) last entries
    else
      let words := last.take (nameDigit c) ++ (cut ' ' cs).filter (!·.isEmpty)
      if words = name then some next else entryNamed? name (next + 1) words entries

def nameTables : List Packed :=
  [aliasNames, firstScriptsNames, otherScriptsNames, symbolsNames, eastAsianNames, ancientNames,
    picturesNames]

/-- The entries of tables that are read one behind another. -/
def tableEntries (m : Packed.Model) (p : Packed.Past) : List Packed → List (List (List Char))
  | [] => []
  | table :: tables =>
    let (cs, m, p) := table.read Packed.capitals m p
    cut '|' cs :: tableEntries m p tables

def nameEntries : Thunk (List (List (List Char))) :=
  ⟨fun _ => tableEntries .start .start nameTables⟩

/-- A name that is a lead followed by the code point in at least four hexadecimal digits, for a
code point in one of the ranges. -/
def numbered? (lead : String) (ranges : List (Nat × Nat)) (name : List Char) : Option Nat := do
  let digits ← dropPrefix? lead.toList name
  let code := nameNumber digits
  let exact := Nat.toDigits 16 code |>.map Char.toUpper
  if exact = digits ∧ ranges.any (fun (lo, hi) => lo ≤ code && code ≤ hi) then some code else none

/-- Ideographs, by code point; their names are read in capital letters only. -/
def ideograph? (name : List Char) : Option Nat :=
  numbered? "CJK UNIFIED IDEOGRAPH-"
    [(0x3400, 0x4DBF), (0x4E00, 0x9FFF), (0x20000, 0x2A6DF), (0x2A700, 0x2B738),
      (0x2B740, 0x2B81D), (0x2B820, 0x2CEA1), (0x2CEB0, 0x2EBE0), (0x30000, 0x3134A)] name

/-- The other families of characters that are named by code point, in letters of either case. -/
def numberedFamilies : List (String × List (Nat × Nat)) :=
  [("CJK COMPATIBILITY IDEOGRAPH-", [(0xF900, 0xFA6D), (0xFA70, 0xFAD9), (0x2F800, 0x2FA1D)]),
    ("NUSHU CHARACTER-", [(0x1B170, 0x1B2FB)]),
    ("KHITAN SMALL SCRIPT CHARACTER-", [(0x18B00, 0x18CD5)])]

def syllableStarts : List String :=
  ["G", "GG", "N", "D", "DD", "R", "M", "B", "BB", "S", "SS", "", "J", "JJ", "C", "K", "T", "P", "H"]

def syllableMiddles : List String :=
  ["A", "AE", "YA", "YAE", "EO", "E", "YEO", "YE", "O", "WA", "WAE", "OE", "YO", "U", "WEO", "WE",
    "WI", "YU", "EU", "YI", "I"]

def syllableEnds : List String :=
  ["", "G", "GG", "GS", "N", "NJ", "NH", "D", "L", "LG", "LM", "LB", "LS", "LT", "LP", "LH", "M",
    "B", "BS", "S", "SS", "NG", "J", "C", "K", "T", "P", "H"]

/-- The longest of the sounds that a text starts with: its place in the list and what follows. -/
def longestSound? (sounds : List String) (cs : List Char) : Option (Nat × List Char) :=
  let found := sounds.zipIdx.filterMap fun (sound, i) =>
    (dropPrefix? sound.toList cs).map fun rest => (i, rest)
  found.foldl (fun best hit =>
    match best with
    | none => some hit
    | some old => if hit.2.length < old.2.length then some hit else some old) none

/-- A Korean syllable by its sounds; its name is read in capital letters only. -/
def syllable? (name : List Char) : Option Nat := do
  let cs ← dropPrefix? "HANGUL SYLLABLE ".toList name
  let (start, cs) ← longestSound? syllableStarts cs
  let (middle, cs) ← longestSound? syllableMiddles cs
  let (last, cs) ← longestSound? syllableEnds cs
  if cs.isEmpty then some (0xAC00 + (start * 21 + middle) * 28 + last) else none

def selector? (name : List Char) : Option Nat := do
  let digits ← dropPrefix? "VS".toList name
  let n := digits.foldl (fun n c => 10 * n + nameDigit c) 0
  if Nat.toDigits 10 n ≠ digits then none
  else if 1 ≤ n ∧ n ≤ 16 then some (0xFE00 + n - 1)
  else if 17 ≤ n ∧ n ≤ 256 then some (0xE0100 + n - 17)
  else none

def listed? (name : List Char) : Option Nat :=
  (numberedFamilies.findSome? fun (lead, ranges) => numbered? lead ranges name)
  <|> selector? name
  <|> nameEntries.get.findSome? (entryNamed? (cut ' ' name) 0 [])

def charNamed? (name : List Char) : Option Nat :=
  syllable? name <|> ideograph? name <|> listed? (name.map Char.toUpper)

end Docsmith.Text
