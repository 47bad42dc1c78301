/-
Source text of a syntax tree.

Parentheses stand where the levels of operators need them. What is nested deeper than a limit, what
would need a backslash inside the braces of an interpolated literal, and an integer of too many digits
have no text.
-/
import Docsmith.Syntax.StringText
import Docsmith.Syntax.Tree
import Docsmith.Text.Cut

namespace Docsmith.Syntax

inductive Unprintable where
  | depth
  | backslash
  | digits
  deriving DecidableEq, Repr

abbrev Printed := Except Unprintable String

/-- Levels of operators, from the loosest. An expression is put in parentheses where its own level
is below the one that its place asks for. -/
inductive Level where
  | assignment
  | tuple
  | yield
  | test
  | or
  | and
  | not
  | compare
  | bitOr
  | bitXor
  | bitAnd
  | shift
  | sum
  | product
  | sign
  | power
  | await
  | atom
  deriving DecidableEq, Repr

namespace Level

def all : List Level :=
  [assignment, tuple, yield, test, or, and, not, compare, bitOr, bitXor, bitAnd, shift, sum,
    product, sign, power, await, atom]

def rank (l : Level) : Nat := all.idxOf l

def next (l : Level) : Level := all.getD (l.rank + 1) atom

end Level

namespace BinaryOp

def symbol : BinaryOp → String
  | add => "+"
  | sub => "-"
  | mul => "*"
  | matMul => "@"
  | div => "/"
  | mod => "%"
  | shiftLeft => "<<"
  | shiftRight => ">>"
  | bitOr => "|"
  | bitXor => "^"
  | bitAnd => "&"
  | floorDiv => "//"
  | pow => "**"

def level : BinaryOp → Level
  | add => .sum
  | sub => .sum
  | mul => .product
  | matMul => .product
  | div => .product
  | mod => .product
  | shiftLeft => .shift
  | shiftRight => .shift
  | bitOr => .bitOr
  | bitXor => .bitXor
  | bitAnd => .bitAnd
  | floorDiv => .product
  | pow => .power

end BinaryOp

def UnaryOp.symbol : UnaryOp → String
  | not => "not "
  | plus => "+"
  | minus => "-"
  | invert => "~"

def UnaryOp.level : UnaryOp → Level
  | not => .not
  | _ => .sign

def LogicOp.symbol : LogicOp → String
  | and => "and"
  | or => "or"

def LogicOp.level : LogicOp → Level
  | and => .and
  | or => .or

def CompareOp.symbol : CompareOp → String
  | eq => "=="
  | notEq => "!="
  | less => "<"
  | lessEq => "<="
  | greater => ">"
  | greaterEq => ">="
  | is => "is"
  | isNot => "is not"
  | isIn => "in"
  | notIn => "not in"

/-- How numbers are written in source. No literal stands for infinity, but one that is too large
does; an imaginary number has no empty fraction. -/
def numberStyle (isReal : Bool) : Double.Style := ⟨isReal, "1e309", "(1e309-1e309)"⟩

/-- The text of a literal; with `inField`, a string avoids backslashes. An integer of more digits
than can be read back has no text. -/
def Constant.print (inField : Bool) : Constant → Printed
  | none => .ok "None"
  | bool b => .ok (if b then "True" else "False")
  | ellipsis => .ok "..."
  | int n => if n < Nat.pow 10 4300 then .ok (toString n) else .error .digits
  | float d => .ok (d.write (numberStyle true))
  | imaginary d => .ok (d.write (numberStyle false) ++ "j")
  | str codes marked =>
    .ok ((if marked then "u" else "") ++
      if inField then StringText.between StringText.allQuotes codes
      else String.ofList (Text.quoteCodes codes))
  | bytes bs => .ok (StringText.bytes bs)

/-- Whether an expression is an integer or truth value, behind which a dot needs a blank. -/
def Expr.isWhole : Expr → Bool
  | .constant (.int _) => true
  | .constant (.bool _) => true
  | _ => false

namespace Printer

/-- What prints the expressions inside one, given the level of their place. -/
abbrev Inner := Level → Expr → Printed

def parens (own place : Level) (s : String) : String :=
  if own.rank < place.rank then "(" ++ s ++ ")" else s

def items : List String → String
  | [s] => s ++ ","
  | ss => ", ".intercalate ss

def parameter (inner : Inner) (p : Parameter) : Printed := do
  let note ← p.hint.mapM (inner .test)
  let default ← p.default.mapM (inner .test)
  pure (p.name ++ ((note.map (": " ++ ·)).getD "") ++ ((default.map ("=" ++ ·)).getD ""))

def parameters (inner : Inner) (ps : Parameters) : Printed := do
  let posOnly ← ps.positionalOnly.mapM (parameter inner)
  let pos ← ps.positional.mapM (parameter inner)
  let variadic ← ps.variadic.mapM (parameter inner)
  let only ← ps.keywordOnly.mapM (parameter inner)
  let keywords ← ps.keywords.mapM (parameter inner)
  let star :=
    match variadic with
    | some s => ["*" ++ s]
    | none => if only.isEmpty then [] else ["*"]
  let slash := if posOnly.isEmpty then [] else ["/"]
  pure (", ".intercalate
    (posOnly ++ slash ++ pos ++ star ++ only ++ keywords.toList.map ("**" ++ ·)))

def keyword (inner : Inner) (k : Keyword) : Printed := do
  let value ← inner .test k.value
  pure ((k.name.map (· ++ "=")).getD "**" ++ value)

def arguments (inner : Inner) (args : List Expr) (keywords : List Keyword) : Printed := do
  let args ← args.mapM (inner .test)
  let keywords ← keywords.mapM (keyword inner)
  pure (", ".intercalate (args ++ keywords))

def clause (inner : Inner) (c : Clause) : Printed := do
  let target ← inner .tuple c.target
  let source ← inner Level.test.next c.source
  let conditions ← c.conditions.mapM (inner Level.test.next)
  pure ((if c.isAsync then " async for " else " for ") ++ target ++ " in " ++ source ++
    String.join (conditions.map (" if " ++ ·)))

def clauses (inner : Inner) (cs : List Clause) : Printed :=
  String.join <$> cs.mapM (clause inner)

def entry (inner : Inner) : Option Expr × Expr → Printed
  | (none, value) => ("**" ++ ·) <$> inner .bitOr value
  | (some key, value) => do
    let key ← inner .test key
    let value ← inner .test value
    pure (key ++ ": " ++ value)

/-- Operands of a logical operator, each at a tighter level than the one before. -/
def operands (inner : Inner) : Level → List Expr → Except Unprintable (List String)
  | _, [] => .ok []
  | level, e :: es => do
    let s ← inner level.next e
    let rest ← operands inner level.next es
    pure (s :: rest)

def doubled (codes : List Nat) : List Nat :=
  codes.flatMap fun n => if n = 0x7B ∨ n = 0x7D then [n, n] else [n]

mutual

/-- The text of an expression at a place of some level; with `inField`, inside the braces of an
interpolated literal. -/
def expr (inField : Bool) : (depth : Nat) → Level → Expr → Printed
  | 0, _, _ => .error .depth
  | depth + 1, place, e =>
    let inner : Inner := expr inField depth
    match e with
    | .constant c => c.print inField
    | .name id => .ok id
    | .attribute value name => do
      let s ← inner .atom value
      pure (s ++ (if value.isWhole then " ." else ".") ++ name)
    | .subscript value index => do
      let s ← inner .atom value
      let i ←
        match index with
        | .tuple (first :: rest) => items <$> (first :: rest).mapM (inner .test)
        | index => inner .test index
      pure (s ++ "[" ++ i ++ "]")
    | .slice lower upper step => do
      let lower ← lower.mapM (inner .test)
      let upper ← upper.mapM (inner .test)
      let step ← step.mapM (inner .test)
      pure (lower.getD "" ++ ":" ++ upper.getD "" ++ (step.map (":" ++ ·)).getD "")
    | .call function args keywords => do
      let s ← inner .atom function
      let args ← arguments inner args keywords
      pure (s ++ "(" ++ args ++ ")")
    | .starred value => ("*" ++ ·) <$> inner .bitOr value
    | .unary op operand => do
      let s ← inner op.level operand
      pure (parens op.level place (op.symbol ++ s))
    | .binary left op right => do
      let level := op.level
      let (leftLevel, rightLevel) :=
        if op = .pow then (level.next, level) else (level, level.next)
      let l ← inner leftLevel left
      let r ← inner rightLevel right
      pure (parens level place (l ++ " " ++ op.symbol ++ " " ++ r))
    | .logic op values => do
      let ss ← operands inner op.level values
      pure (parens op.level place ((" " ++ op.symbol ++ " ").intercalate ss))
    | .compare first rest => do
      let s ← inner Level.compare.next first
      let ss ← rest.mapM fun (op, e) => do
        let s ← inner Level.compare.next e
        pure (" " ++ op.symbol ++ " " ++ s)
      pure (parens .compare place (s ++ String.join ss))
    | .conditional test body otherwise => do
      let b ← inner Level.test.next body
      let t ← inner Level.test.next test
      let o ← inner .test otherwise
      pure (parens .test place (b ++ " if " ++ t ++ " else " ++ o))
    | .lambda params body => do
      let ps ← parameters inner params
      let b ← inner .test body
      let head := if ps.isEmpty then "lambda: " else "lambda " ++ ps ++ ": "
      pure (parens .test place (head ++ b))
    | .assignment target value => do
      let t ← inner .atom target
      let v ← inner .atom value
      pure (parens .assignment place (t ++ " := " ++ v))
    | .await value => do
      let s ← inner .atom value
      pure (parens .await place ("await " ++ s))
    | .yield value => do
      let s ← value.mapM (inner .atom)
      pure (parens .yield place ("yield" ++ (s.map (" " ++ ·)).getD ""))
    | .yieldFrom value => do
      let s ← inner .atom value
      pure (parens .yield place ("yield from " ++ s))
    | .tuple [] => .ok "()"
    | .tuple es => do
      let ss ← es.mapM (inner .test)
      pure (parens .tuple place (items ss))
    | .list es => do
      let ss ← es.mapM (inner .test)
      pure ("[" ++ ", ".intercalate ss ++ "]")
    | .set es => do
      let ss ← es.mapM (inner .test)
      pure (if ss.isEmpty then "\x7b*()\x7d" else "\x7b" ++ ", ".intercalate ss ++ "\x7d")
    | .dict es => do
      let ss ← es.mapM (entry inner)
      pure ("\x7b" ++ ", ".intercalate ss ++ "\x7d")
    | .comprehension kind item cs => do
      let s ← inner .test item
      let more ← clauses inner cs
      pure
        (match kind with
        | .list => "[" ++ s ++ more ++ "]"
        | .set => "\x7b" ++ s ++ more ++ "\x7d"
        | .generator => "(" ++ s ++ more ++ ")")
    | .dictComprehension key value cs => do
      let k ← inner .test key
      let v ← inner .test value
      let more ← clauses inner cs
      pure ("\x7b" ++ k ++ ": " ++ v ++ more ++ "\x7d")
    | .field value conversion format => do
      let codes ← part depth (.field value conversion format)
      pure (StringText.textOf codes)
    | .joined parts => do
      let ps ← parts.mapM fun p => do
        let codes ← part depth p
        let isText :=
          match p with
          | .constant _ => true
          | _ => false
        pure (codes, isText)
      pure ("f" ++
        if inField then StringText.between StringText.allQuotes (ps.flatMap Prod.fst)
        else StringText.interpolated ps)

/-- A part of an interpolated literal, as code points. An expression in braces has no backslash. -/
def part : (depth : Nat) → Expr → Except Unprintable (List Nat)
  | 0, _ => .error .depth
  | depth + 1, e =>
    match e with
    | .constant (.str codes _) => .ok (doubled codes)
    | .joined parts => List.flatten <$> parts.mapM (part depth)
    | .field value conversion format => do
      let s ← expr true depth Level.test.next value
      if s.toList.contains '\\' then .error .backslash
      else
        let gap := if s.toList.head? = some '\x7b' then " " else ""
        let conv := (conversion.map fun c => "!" ++ String.singleton c).getD ""
        let spec ← format.mapM fun parts => do
          let codes ← parts.mapM (part depth)
          pure (0x3A :: codes.flatten)
        pure (StringText.codesOf ("\x7b" ++ gap ++ s ++ conv) ++ spec.getD [] ++ [0x7D])
    | _ => .error .depth

end

end Printer

/-- Nesting that is still printed. A real limit is on frames of a stack, and some expressions take
two of them a level, such as a map in a map, so this is an approximation. -/
def maxDepth : Nat := 320

def Expr.print (e : Expr) : Printed := Printer.expr false maxDepth .test e

end Docsmith.Syntax
