/-
The kinds of values, and the kind that a plain scalar has by its form.
-/
import Docsmith.Pattern.Token

namespace Docsmith.Yaml

inductive Tag where
  | null
  | bool
  | int
  | float
  | binary
  | timestamp
  | omap
  | pairs
  | set
  | str
  | seq
  | map
  | merge
  | value
  | other (name : String)
  deriving DecidableEq, Repr

namespace Tag

def standard : String := "tag:yaml.org,2002:"

def named : List (String × Tag) :=
  [("null", null), ("bool", bool), ("int", int), ("float", float), ("binary", binary),
    ("timestamp", timestamp), ("omap", omap), ("pairs", pairs), ("set", set), ("str", str),
    ("seq", seq), ("map", map), ("merge", merge), ("value", value)]

def ofName (name : String) : Tag :=
  (named.find? fun e => standard ++ e.1 == name).map Prod.snd |>.getD (other name)

end Tag

namespace Form

open Pattern

def whole? (p : Pattern) (cs : List Char) : Option Match :=
  let start : Cursor := .ofText cs
  p.run start [] fun d gs => if d.rest.isEmpty || d.rest == ['\n'] then some ⟨start, d, gs⟩ else none

def takes (p : Pattern) (cs : List Char) : Bool := (whole? p cs).isSome

def digit : Pattern := one Char.isDigit

def digits : Pattern := digit ++ run0 fun c => c.isDigit || c == '_'

def sign : Pattern := opt (oneAmong "+-")

def exponent : Pattern := opt (oneAmong "eE" ++ oneAmong "+-" ++ run1 Char.isDigit)

def sixties : Pattern := many1 (lit ":" ++ opt (oneAmong "012345") ++ digit)

def truths : List String :=
  ["yes", "Yes", "YES", "no", "No", "NO", "true", "True", "TRUE", "false", "False", "FALSE", "on",
    "On", "ON", "off", "Off", "OFF"]

def float : Pattern :=
  let places := run0 fun c => c.isDigit || c == '_'
  alt (sign ++ digits ++ lit "." ++ places ++ exponent)
    (alt (lit "." ++ digits ++ exponent)
      (alt (sign ++ digits ++ sixties ++ lit "." ++ places)
        (alt (sign ++ lit "." ++ oneOf ["inf", "Inf", "INF"])
          (lit "." ++ oneOf ["nan", "NaN", "NAN"]))))

def int : Pattern :=
  let above := oneAmong "123456789" ++ run0 fun c => c.isDigit || c == '_'
  alt (sign ++ lit "0b" ++ run1 (among "01_"))
    (alt (sign ++ lit "0" ++ run1 (among "01234567_"))
      (alt (sign ++ lit "0x" ++ run1 (among "0123456789abcdefABCDEF_"))
        (alt (sign ++ above ++ sixties) (alt (sign ++ above) (sign ++ lit "0")))))

/-- The parts of a day, and of a moment behind it: year 1, month 2, day 3, hour 4, minute 5,
second 6, fraction 7, zone 8, its sign 9, hours 10, minutes 11. -/
def moment : Pattern :=
  let two := digit ++ digit
  let upToTwo := digit ++ opt digit
  group 1 (two ++ two) ++ lit "-" ++ group 2 upToTwo ++ lit "-" ++ group 3 upToTwo ++
    alt (oneAmong "Tt") margin1 ++ group 4 upToTwo ++ lit ":" ++ group 5 two ++ lit ":" ++
    group 6 two ++ opt (lit "." ++ group 7 (run0 Char.isDigit)) ++
    opt (margin ++ group 8 (alt (lit "Z")
      (group 9 (oneAmong "+-") ++ group 10 upToTwo ++ opt (lit ":" ++ group 11 two))))

def date : Pattern :=
  let two := digit ++ digit
  group 1 (two ++ two) ++ lit "-" ++ group 2 two ++ lit "-" ++ group 3 two

end Form

def formTag (cs : List Char) : Tag :=
  let isWord (ws : List String) : Bool := Form.takes (Pattern.oneOf ws) cs
  match cs with
  | [] => .null
  | c :: _ =>
    if isWord Form.truths then .bool
    else if (c.isDigit || c == '-' || c == '+' || c == '.') && Form.takes Form.float cs then .float
    else if (c.isDigit || c == '-' || c == '+') && Form.takes Form.int cs then .int
    else if isWord ["<<"] then .merge
    else if isWord ["~", "null", "Null", "NULL"] then .null
    else if c.isDigit && (Form.takes Form.date cs || Form.takes Form.moment cs) then .timestamp
    else if isWord ["="] then .value
    else if isWord ["!", "&", "*"] then .other (Tag.standard ++ "yaml")
    else .str

end Docsmith.Yaml
