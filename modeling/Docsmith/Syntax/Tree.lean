/-
The syntax tree of Python source: expressions, patterns and statements. Statements carry the lines
on which they start and end; expressions carry no position.
-/
import Docsmith.Number.Double

namespace Docsmith.Syntax

/-- A literal value. A string is held as code points, because an escape can name a surrogate;
`marked` says that it was written with a `u` in front. -/
inductive Constant where
  | none
  | bool (b : Bool)
  | ellipsis
  | int (n : Nat)
  | float (d : Double)
  | imaginary (d : Double)
  | str (codes : List Nat) (marked : Bool)
  | bytes (bs : List UInt8)
  deriving DecidableEq

inductive UnaryOp where
  | not
  | plus
  | minus
  | invert
  deriving DecidableEq, Repr

inductive BinaryOp where
  | add
  | sub
  | mul
  | matMul
  | div
  | mod
  | shiftLeft
  | shiftRight
  | bitOr
  | bitXor
  | bitAnd
  | floorDiv
  | pow
  deriving DecidableEq, Repr

inductive LogicOp where
  | and
  | or
  deriving DecidableEq, Repr

inductive CompareOp where
  | eq
  | notEq
  | less
  | lessEq
  | greater
  | greaterEq
  | is
  | isNot
  | isIn
  | notIn
  deriving DecidableEq, Repr

inductive Gathering where
  | list
  | set
  | generator
  deriving DecidableEq, Repr

mutual

inductive Expr where
  | constant (c : Constant)
  | name (id : String)
  | attribute (value : Expr) (name : String)
  | subscript (value index : Expr)
  | slice (lower upper step : Option Expr)
  | call (function : Expr) (args : List Expr) (keywords : List Keyword)
  | starred (value : Expr)
  | unary (op : UnaryOp) (operand : Expr)
  | binary (left : Expr) (op : BinaryOp) (right : Expr)
  | logic (op : LogicOp) (values : List Expr)
  | compare (first : Expr) (rest : List (CompareOp × Expr))
  | conditional (test body otherwise : Expr)
  | lambda (params : Parameters) (body : Expr)
  | assignment (target value : Expr)
  | await (value : Expr)
  | yield (value : Option Expr)
  | yieldFrom (value : Expr)
  | tuple (items : List Expr)
  | list (items : List Expr)
  | set (items : List Expr)
  | dict (entries : List (Option Expr × Expr))
  | comprehension (kind : Gathering) (item : Expr) (clauses : List Clause)
  | dictComprehension (key value : Expr) (clauses : List Clause)
  | field (value : Expr) (conversion : Option Char) (format : Option (List Expr))
  | joined (parts : List Expr)

/-- An argument given by name, or a mapping to unpack if there is no name. -/
structure Keyword where
  name : Option String
  value : Expr

structure Clause where
  isAsync : Bool
  target : Expr
  source : Expr
  conditions : List Expr

structure Parameter where
  name : String
  hint : Option Expr
  default : Option Expr

structure Parameters where
  positionalOnly : List Parameter
  positional : List Parameter
  variadic : Option Parameter
  keywordOnly : List Parameter
  keywords : Option Parameter

end

inductive Shape where
  | value (e : Expr)
  | singleton (c : Constant)
  | sequence (items : List Shape)
  | mapping (entries : List (Expr × Shape)) (rest : Option String)
  | construct (type : Expr) (items : List Shape) (attributes : List (String × Shape))
  | star (name : Option String)
  | capture (inner : Option Shape) (name : Option String)
  | alternatives (items : List Shape)

structure Alias where
  name : String
  as? : Option String
  deriving DecidableEq, Repr

structure Entered where
  context : Expr
  target : Option Expr

mutual

structure Stmt where
  line : Nat
  endLine : Nat
  form : Form

inductive Form where
  | function (isAsync : Bool) (name : String) (params : Parameters) (result : Option Expr)
      (decorators : List Expr) (body : List Stmt)
  | type (name : String) (bases : List Expr) (keywords : List Keyword) (decorators : List Expr)
      (body : List Stmt)
  | returns (value : Option Expr)
  | deletes (targets : List Expr)
  | assigns (targets : List Expr) (value : Expr)
  | updates (target : Expr) (op : BinaryOp) (value : Expr)
  | annotates (target hint : Expr) (value : Option Expr) (simple : Bool)
  | forEach (isAsync : Bool) (target source : Expr) (body otherwise : List Stmt)
  | whileLoop (test : Expr) (body otherwise : List Stmt)
  | branch (test : Expr) (body otherwise : List Stmt)
  | entering (isAsync : Bool) (items : List Entered) (body : List Stmt)
  | matching (subject : Expr) (cases : List Case)
  | raises (exception cause : Option Expr)
  | tries (isStar : Bool) (body : List Stmt) (handlers : List Handler) (otherwise final : List Stmt)
  | asserts (test : Expr) (message : Option Expr)
  | imports (names : List Alias)
  | importsFrom (module : String) (names : List Alias) (level : Nat)
  | globals (names : List String)
  | nonlocals (names : List String)
  | evaluates (value : Expr)
  | pass
  | breaks
  | continues

structure Handler where
  type : Option Expr
  name : Option String
  body : List Stmt

structure Case where
  shape : Shape
  guard : Option Expr
  body : List Stmt

end

end Docsmith.Syntax
