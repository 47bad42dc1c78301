/-
Values of data files: what a settings file or the answer of a service may hold. Maps keep their
keys in the order in which these were first given. A document can use one value in several places;
where that is to be kept, the value has a number (`shared`), and `bare` drops all numbers.
-/
import Docsmith.Calendar
import Docsmith.Number.Double
import Docsmith.Text.Quote

namespace Docsmith

inductive Value where
  | null
  | bool (b : Bool)
  | int (i : Int)
  | float (x : Double)
  | str (s : String)
  | list (xs : List Value)
  | map (entries : List (Value × Value))
  | date (d : Date)
  | moment (m : Moment)
  | bytes (bs : List UInt8)
  | set (xs : List Value)
  | pair (a b : Value)
  | shared (number : Nat) (v : Value)
  deriving Inhabited

namespace Value

mutual

def same : Value → Value → Bool
  | null, null => true
  | bool a, bool b => a == b
  | int a, int b => a == b
  | float a, float b => a == b
  | str a, str b => a == b
  | list xs, list ys => sameList xs ys
  | map es, map fs => sameEntries es fs
  | date a, date b => a == b
  | moment a, moment b => a == b
  | bytes a, bytes b => a == b
  | set xs, set ys => sameList xs ys
  | pair a b, pair c d => same a c && same b d
  | shared i v, shared j w => i == j && same v w
  | _, _ => false

def sameList : List Value → List Value → Bool
  | [], [] => true
  | x :: xs, y :: ys => same x y && sameList xs ys
  | _, _ => false

def sameEntries : List (Value × Value) → List (Value × Value) → Bool
  | [], [] => true
  | (k, v) :: es, (l, w) :: fs => same k l && same v w && sameEntries es fs
  | _, _ => false

end

instance : BEq Value := ⟨same⟩

mutual

def bare : Value → Value
  | list xs => list (bareItems xs)
  | map es => map (bareEntries es)
  | set xs => set (bareItems xs)
  | pair a b => pair (bare a) (bare b)
  | shared _ v => bare v
  | v => v

def bareItems : List Value → List Value
  | [] => []
  | x :: xs => bare x :: bareItems xs

def bareEntries : List (Value × Value) → List (Value × Value)
  | [] => []
  | (k, v) :: es => (bare k, bare v) :: bareEntries es

end

def kind : Value → String
  | null => "NoneType"
  | bool _ => "bool"
  | int _ => "int"
  | float _ => "float"
  | str _ => "str"
  | list _ => "list"
  | map _ => "dict"
  | date _ => "datetime.date"
  | moment _ => "datetime.datetime"
  | bytes _ => "bytes"
  | set _ => "set"
  | pair _ _ => "tuple"
  | shared _ v => kind v

def shortKind : Value → String
  | date _ => "date"
  | moment _ => "datetime"
  | v => v.kind

/-- Whether a value counts as given: nothing, zero and what is empty do not. -/
def isGiven : Value → Bool
  | null => false
  | bool b => b
  | int i => i != 0
  | float x => !x.isZero
  | str s => !s.isEmpty
  | list xs => !xs.isEmpty
  | map es => !es.isEmpty
  | bytes bs => !bs.isEmpty
  | set xs => !xs.isEmpty
  | date _ | moment _ | pair _ _ => true
  | shared _ v => isGiven v

mutual

def quoted : Value → String
  | null => "None"
  | bool b => if b then "True" else "False"
  | int i => toString i
  | float x => x.write .value
  | str s => Text.quote s
  | list xs => "[" ++ ", ".intercalate (quotedItems xs) ++ "]"
  | map es => "\x7b" ++ ", ".intercalate (quotedEntries es) ++ "\x7d"
  | date d => "datetime.date(" ++ ", ".intercalate (d.numbers.map toString) ++ ")"
  | moment m => "datetime.datetime(" ++ ", ".intercalate m.arguments ++ ")"
  | bytes bs => "b" ++ String.ofList (Text.quoteCodes (bs.map UInt8.toNat))
  | set xs => if xs.isEmpty then "set()" else "\x7b" ++ ", ".intercalate (quotedItems xs) ++ "\x7d"
  | pair a b => "(" ++ quoted a ++ ", " ++ quoted b ++ ")"
  | shared _ v => quoted v

def quotedItems : List Value → List String
  | [] => []
  | x :: xs => quoted x :: quotedItems xs

def quotedEntries : List (Value × Value) → List String
  | [] => []
  | (k, v) :: es => (quoted k ++ ": " ++ quoted v) :: quotedEntries es

end

def display : Value → String
  | str s => s
  | date d => d.text
  | moment m => m.text
  | v => v.quoted

def object (entries : List (String × Value)) : Value := map (entries.map fun (k, v) => (str k, v))

def lookup (entries : List (Value × Value)) (key : String) : Option Value :=
  (entries.find? fun
    | (str k, _) => k == key
    | _ => false).map Prod.snd

def whole? : Value → Option Int
  | bool b => some (if b then 1 else 0)
  | int i => some i
  | float x => x.toInt?
  | _ => none

/-- Whether two values are the same key: numbers and truth values are by what they count as. -/
def sameKey (a b : Value) : Bool :=
  match a.whole?, b.whole? with
  | some i, some j => i == j
  | _, _ => a == b

def insert (entries : List (Value × Value)) (key value : Value) : List (Value × Value) :=
  if entries.any fun e => sameKey e.1 key then
    entries.map fun e => if sameKey e.1 key then (e.1, value) else e
  else entries ++ [(key, value)]

def get? (v : Value) (key : String) : Option Value :=
  match v with
  | map entries => lookup entries key
  | _ => none

end Value

end Docsmith
