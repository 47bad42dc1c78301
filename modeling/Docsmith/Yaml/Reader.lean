/-
The value of a document. Kinds that have no value of their own, and texts that are not of the form
of their kind, are failures.
-/
import Docsmith.Text.Base64
import Docsmith.Text.Cut
import Docsmith.Yaml.Node

namespace Docsmith.Yaml

def dropUnderscores (cs : List Char) : List Char := cs.filter (· != '_')

def sixties? (cs : List Char) : Option Int :=
  (Text.cut ':' cs).foldlM (fun n part => (Written.int? 10 part).map fun d => 60 * n + d) 0

def int? (cs : List Char) : Option Int :=
  let cs := dropUnderscores cs
  if cs.isEmpty then none
  else
    let (negative, cs) := Written.cutSign cs
    let size :=
      match cs with
      | [] => none
      | '0' :: 'b' :: rest => Written.int? 2 rest
      | '0' :: 'x' :: rest => Written.int? 16 rest
      | '0' :: _ => Written.int? 8 cs
      | cs => if cs.contains ':' then sixties? cs else Written.int? 10 cs
    size.map fun n => if negative then -n else n

/-- The sum of numbers, the last of which counts once and each other sixty times as much as the next;
it is rounded at each step. -/
def sumOfSixties? (xs : List Double) : Option Double :=
  let step (done : Double × Int) (x : Double) : Option (Double × Int) :=
    match Double.ofInt done.2 with
    | .finite s m p => some (done.1.add (x.mul (.finite s m p)), 60 * done.2)
    | _ => none
  (xs.reverse.foldlM step (.finite false 0 0, 1)).map Prod.fst

def float? (cs : List Char) : Option Double :=
  let cs := (dropUnderscores cs).map Text.lowerAscii
  if cs.isEmpty then none
  else
    let (negative, cs) := Written.cutSign cs
    let size :=
      if cs = ".inf".toList then some (.infinite false)
      else if cs = ".nan".toList then some .nan
      else if cs.contains ':' then ((Text.cut ':' cs).mapM Written.float?).bind sumOfSixties?
      else Written.float? cs
    size.map fun x => if negative then x.neg else x

def bool? (cs : List Char) : Option Bool :=
  let word := String.ofList (cs.map Text.lowerAscii)
  if word = "yes" ∨ word = "true" ∨ word = "on" then some true
  else if word = "no" ∨ word = "false" ∨ word = "off" then some false
  else none

def dateOf (m : Match) : Date :=
  ⟨Json.digitsValue (m.group 1), Json.digitsValue (m.group 2), Json.digitsValue (m.group 3)⟩

def momentOf (m : Match) : Moment :=
  let part (n : Nat) : Nat := Json.digitsValue (m.group n)
  let fraction := (m.group 7).take 6
  let micro := Json.digitsValue (fraction ++ List.replicate (6 - fraction.length) '0')
  let shift : Int := 60 * part 10 + part 11
  let offset :=
    if m.group 9 = ['-'] then some (-shift)
    else if m.group 9 = ['+'] then some shift
    else if m.group 8 = ['Z'] then some 0
    else none
  ⟨dateOf m, part 4, part 5, part 6, micro, offset⟩

def looseDate : Pattern :=
  let upToTwo := Form.digit ++ Pattern.opt Form.digit
  Pattern.group 1 (Form.digit ++ Form.digit ++ Form.digit ++ Form.digit) ++ Pattern.lit "-" ++
    Pattern.group 2 upToTwo ++ Pattern.lit "-" ++ Pattern.group 3 upToTwo

def timestamp? (cs : List Char) : Option Value :=
  match Form.whole? looseDate cs with
  | some m => if (dateOf m).isValid then some (.date (dateOf m)) else none
  | none => do
    let m ← Form.whole? Form.moment cs
    if (momentOf m).isValid then some (.moment (momentOf m)) else none

def scalarValue? (tag : Tag) (cs : List Char) : Option Value :=
  match tag with
  | .null => some .null
  | .bool => (bool? cs).map .bool
  | .int => (int? cs).map .int
  | .float => (float? cs).map .float
  | .binary => if cs.all (·.toNat < 128) then (Text.Base64.decode cs).map .bytes else none
  | .timestamp => timestamp? cs
  | .str => some (.str (String.ofList cs))
  | _ => none

def isScalarTag : Tag → Bool
  | .null | .bool | .int | .float | .binary | .timestamp | .str => true
  | _ => false

/-- The text of a scalar, or of the scalar under the equals sign of a mapping. -/
def scalarText? : Node → Option (List Char)
  | .scalar _ _ text => some text
  | .sequence _ _ _ => none
  | .mapping _ _ entries => underEquals entries
where
  underEquals : List (Node × Node) → Option (List Char)
    | [] => none
    | (k, v) :: rest => if k.tag = .value then scalarText? v else underEquals rest

/-- A value of a node with the node's number, if it can be told from one like it. -/
def number (n : Nat) (v : Value) : Value :=
  match v with
  | .list _ | .map _ | .set _ | .date _ | .moment _ => .shared n v
  | v => v

def isKey : Value → Bool
  | .list _ | .map _ | .set _ => false
  | _ => true

def mapOf (entries : List (Value × Value)) : List (Value × Value) :=
  entries.foldl (fun done (k, v) => Value.insert done k v) []

mutual

def build : Node → Option Value
  | .scalar n tag text => (scalarValue? tag text).map (number n)
  | .sequence n tag items =>
    match tag with
    | .seq => (buildItems items).map fun xs => number n (.list xs)
    | .omap | .pairs => (buildPairs items).map fun xs => number n (.list xs)
    | _ => none
  | .mapping n tag entries =>
    match tag with
    | .map => (buildEntries entries).map fun es => number n (.map (mapOf es))
    | .set => (buildEntries entries).map fun es => number n (.set ((mapOf es).map Prod.fst))
    | .timestamp => none
    | tag =>
      if isScalarTag tag then (scalarText?.underEquals entries).bind (scalarValue? tag) else none

def buildItems : List Node → Option (List Value)
  | [] => some []
  | n :: ns => do
    let v ← build n
    let vs ← buildItems ns
    pure (v :: vs)

def buildPairs : List Node → Option (List Value)
  | [] => some []
  | .mapping _ _ [(k, v)] :: ns => do
    let k ← build k
    let v ← build v
    let rest ← buildPairs ns
    pure (.pair k v :: rest)
  | _ :: _ => none

/-- The entries of a mapping: first those of the mappings that are merged into it, then its own. -/
def buildEntries (entries : List (Node × Node)) : Option (List (Value × Value)) := do
  let merged ← buildMerged entries
  let own ← buildOwn entries
  pure (merged ++ own)

def buildMerged : List (Node × Node) → Option (List (Value × Value))
  | [] => some []
  | (k, v) :: rest =>
    if k.tag = .merge then
      match v with
      | .mapping _ _ entries => do
        let here ← buildEntries entries
        let more ← buildMerged rest
        pure (here ++ more)
      | .sequence _ _ items => do
        let here ← buildSources items
        let more ← buildMerged rest
        pure (here ++ more)
      | .scalar _ _ _ => none
    else buildMerged rest

def buildSources : List Node → Option (List (Value × Value))
  | [] => some []
  | .mapping _ _ entries :: ns => do
    let here ← buildEntries entries
    let more ← buildSources ns
    pure (more ++ here)
  | _ :: _ => none

/-- The entries that a mapping has itself. An equals sign as a key is a text. -/
def buildOwn : List (Node × Node) → Option (List (Value × Value))
  | [] => some []
  | (k, v) :: rest =>
    if k.tag = .merge then buildOwn rest
    else if k.tag = .value then do
      let text ← scalarText? k
      let v ← build v
      let more ← buildOwn rest
      pure ((.str (String.ofList text), v) :: more)
    else do
      let key ← build k
      if isKey key.bare then
        let v ← build v
        let more ← buildOwn rest
        pure ((key.bare, v) :: more)
      else none

end

/-- The value of a text that holds one document, its shared parts numbered; a text without one means
nothing. -/
def readShared (cs : List Char) : Option Value := do
  let tokens ← tokensOf cs
  let n ← Node.ofTokens? tokens
  match n with
  | none => pure .null
  | some n => build n

def read (cs : List Char) : Option Value := (readShared cs).map Value.bare

end Docsmith.Yaml
