/-
The grammar of statements, and the syntax tree of a source text.

`match` and `case` are names that only start a statement if what follows them can be nothing else.
-/
import Docsmith.Syntax.Expression

namespace Docsmith.Syntax

open Rule Phrase

namespace Grammar

variable (g : Grammar)

def assigned : Phrase Expr := do
  if ← atKeyword "yield" then yielding g else starItems g

/-! ## Statements on one line -/

def updateOps : List (String × BinaryOp) :=
  [("+=", .add), ("-=", .sub), ("*=", .mul), ("@=", .matMul), ("/=", .div), ("%=", .mod),
    ("&=", .bitAnd), ("|=", .bitOr), ("^=", .bitXor), ("<<=", .shiftLeft), (">>=", .shiftRight),
    ("**=", .pow), ("//=", .floorDiv)]

/-- The rest of an assignment after its first expression: everything behind equals signs, the
first one of which is next. -/
def assignment (first : Expr) : Phrase Form := do
  let rest ← many do if ← symbol? "=" then some <$> assigned g else pure none
  let all := first :: rest
  match all.getLast? with
  | some value => do
    require (areTargets all.dropLast)
    pure (.assigns all.dropLast value)
  | none => failure

def exprForm : Phrase Form := do
  let isName ← do
    match ← ahead with
    | some (.name _) => pure true
    | _ => pure false
  let first ← assigned g
  match ← ahead with
  | some (.symbol "=") => assignment g first
  | some (.symbol ":") => do
    require (isPlace first)
    symbol ":"
    let hint ← g.expr
    let value ← if ← symbol? "=" then some <$> assigned g else pure none
    let simple :=
      match first with
      | .name _ => isName
      | _ => false
    pure (.annotates first hint value simple)
  | some (.symbol s) =>
    match updateOps.lookup s with
    | some op => do
      let _ ← take
      require (isPlace first)
      .updates first op <$> assigned g
    | none => pure (.evaluates first)
  | _ => pure (.evaluates first)

def dotted : Phrase String := do
  let first ← name
  let rest ← many do if ← symbol? "." then some <$> name else pure none
  pure (".".intercalate (first :: rest))

def asName : Phrase (Option String) := do
  if ← keyword? "as" then some <$> name else pure none

def listed {α : Type} (item : Phrase α) : Phrase (List α) := do
  let first ← item
  let rest ← many do if ← symbol? "," then some <$> item else pure none
  pure (first :: rest)

def importedName : Phrase Alias := do
  let name ← name
  let as? ← asName
  pure ⟨name, as?⟩

def importsFrom : Phrase Form := do
  let dots ← many do
    if ← symbol? "." then pure (some 1) else if ← symbol? "..." then pure (some 3) else pure none
  let level := dots.foldr (· + ·) 0
  let module ← if ← atKeyword "import" then pure "" else dotted
  require (level ≠ 0 || module ≠ "")
  keyword "import"
  let names ←
    if ← symbol? "*" then pure [⟨"*", none⟩]
    else if ← symbol? "(" then do
      let first ← importedName
      let rest ← if ← symbol? "," then itemsUntil ")" importedName else do
        symbol ")"
        pure []
      pure (first :: rest)
    else listed importedName
  pure (.importsFrom module names level)

def deleted : Phrase (List Expr) := do
  let first ← g.primary
  let (rest, _) ← moreItems startsExpr g.primary
  require (areDeletable (first :: rest))
  pure (first :: rest)

def simpleForm : Phrase Form := do
  match ← ahead with
  | some (.keyword "return") => do
    let _ ← take
    match ← ahead with
    | some lex =>
      if startsItem lex then (fun e => .returns (some e)) <$> starItems g else pure (.returns none)
    | none => pure (.returns none)
  | some (.keyword "import") => do
    let _ ← take
    let names ← listed do
      let name ← dotted
      let as? ← asName
      pure ⟨name, as?⟩
    pure (.imports names)
  | some (.keyword "from") => do
    let _ ← take
    importsFrom
  | some (.keyword "raise") => do
    let _ ← take
    match ← ahead with
    | some lex =>
      if startsExpr lex then do
        let e ← g.expr
        let cause ← if ← keyword? "from" then some <$> g.expr else pure none
        pure (.raises (some e) cause)
      else pure (.raises none none)
    | none => pure (.raises none none)
  | some (.keyword "pass") => do
    let _ ← take
    pure .pass
  | some (.keyword "break") => do
    let _ ← take
    pure .breaks
  | some (.keyword "continue") => do
    let _ ← take
    pure .continues
  | some (.keyword "del") => do
    let _ ← take
    .deletes <$> deleted g
  | some (.keyword "assert") => do
    let _ ← take
    let test ← g.expr
    let message ← if ← symbol? "," then some <$> g.expr else pure none
    pure (.asserts test message)
  | some (.keyword "global") => do
    let _ ← take
    .globals <$> listed name
  | some (.keyword "nonlocal") => do
    let _ ← take
    .nonlocals <$> listed name
  | _ => exprForm g

/-! ## Shapes -/

def signedNumber : Phrase (Expr × Constant) := do
  let isNegative ← symbol? "-"
  match ← take with
  | .number c => pure (if isNegative then .unary .minus (.constant c) else .constant c, c)
  | _ => failure

def shapeNumber : Phrase Expr := do
  let (first, c) ← signedNumber
  let isPlus ← atSymbol "+"
  let isMinus ← atSymbol "-"
  if isPlus || isMinus then
    let _ ← take
    match ← take with
    | .number d => do
      require (!isImaginary c && isImaginary d)
      pure (.binary first (if isPlus then .add else .sub) (.constant d))
    | _ => failure
  else pure first

def shapeLiteral : Phrase Expr := do
  match ← ahead with
  | some (.number _) => shapeNumber
  | some (.symbol "-") => shapeNumber
  | some (.text _) => atom g
  | some (.keyword "None") => atom g
  | some (.keyword "True") => atom g
  | some (.keyword "False") => atom g
  | _ => failure

def attributePath : Phrase Expr := do
  let first ← name
  let rest ← many do if ← symbol? "." then some <$> name else pure none
  pure (rest.foldl .attribute (.name first))

def captured : Phrase String := do
  let id ← name
  require (id ≠ "_")
  pure id

inductive ClassItem where
  | plain (s : Shape)
  | named (name : String) (s : Shape)

def sortItems (items : List ClassItem) : Option (List Shape × List (String × Shape)) :=
  let isPlain : ClassItem → Bool
    | .plain _ => true
    | .named _ _ => false
  if (items.dropWhile isPlain).any isPlain then none
  else
    some (items.filterMap fun
        | .plain s => some s
        | .named _ _ => none,
      items.filterMap fun
        | .plain _ => none
        | .named name s => some (name, s))

def startsShape : Lexeme → Bool
  | .name _ => true
  | .number _ => true
  | .text _ => true
  | .keyword s => ["None", "True", "False"].contains s
  | .symbol s => ["(", "[", "\x7b", "-", "*"].contains s
  | _ => false

def shapeItem (shape : Phrase Shape) : Phrase Shape := do
  if ← symbol? "*" then
    let id ← name
    pure (.star (if id = "_" then none else some id))
  else shape

def mappingShape (shape : Phrase Shape) : Phrase Shape := do
  let item : Phrase (Sum String (Expr × Shape)) := do
    if ← symbol? "**" then .inl <$> captured
    else
      let key ← do
        match ← ahead with
        | some (.name _) => do
          let path ← attributePath
          match path with
          | .attribute _ _ => pure path
          | _ => failure
        | _ => shapeLiteral g
      symbol ":"
      let value ← shape
      pure (.inr (key, value))
  let items ← itemsUntil "\x7d" item
  let isRest : Sum String (Expr × Shape) → Bool
    | .inl _ => true
    | .inr _ => false
  require (!(items.dropLast.any isRest))
  let entries := items.filterMap fun
    | .inl _ => none
    | .inr e => some e
  let rest :=
    match items.getLast? with
    | some (.inl name) => some name
    | _ => none
  pure (.mapping entries rest)

/-- A shape without alternatives. A lone underscore fits all, so neither attributes nor arguments
follow it. -/
def closedShape (shape : Phrase Shape) : Phrase Shape := do
  match ← ahead with
  | some (.name "_") => do
    let _ ← take
    pure (.capture none none)
  | some (.name id) => do
    let path ← attributePath
    if ← symbol? "(" then
      let items ← itemsUntil ")" do
        match ← ahead2 with
        | (some (.name id), some (.symbol "=")) => do
          let _ ← take
          let _ ← take
          ClassItem.named id <$> shape
        | _ => ClassItem.plain <$> shape
      match sortItems items with
      | some (plains, nameds) => pure (.construct path plains nameds)
      | none => failure
    else
      match path with
      | .name _ => pure (.capture none (some id))
      | _ => pure (.value path)
  | some (.keyword "None") => do
    let _ ← take
    pure (.singleton .none)
  | some (.keyword "True") => do
    let _ ← take
    pure (.singleton (.bool true))
  | some (.keyword "False") => do
    let _ ← take
    pure (.singleton (.bool false))
  | some (.symbol "[") => do
    let _ ← take
    .sequence <$> itemsUntil "]" (shapeItem shape)
  | some (.symbol "(") => do
    let _ ← take
    if ← symbol? ")" then pure (.sequence [])
    else
      let first ← shapeItem shape
      if ← symbol? "," then
        let rest ← itemsUntil ")" (shapeItem shape)
        pure (.sequence (first :: rest))
      else
        symbol ")"
        match first with
        | .star _ => failure
        | _ => pure first
  | some (.symbol "\x7b") => do
    let _ ← take
    mappingShape g shape
  | _ => .value <$> shapeLiteral g

def shapeRule (shape : Phrase Shape) : Phrase Shape := do
  let first ← closedShape g shape
  let rest ← many do if ← symbol? "|" then some <$> closedShape g shape else pure none
  let all := if rest.isEmpty then first else .alternatives (first :: rest)
  if ← keyword? "as" then
    let id ← captured
    pure (.capture (some all) (some id))
  else pure all

def shapeUpTo : Nat → Phrase Shape
  | 0 => failure
  | depth + 1 => shapeRule g (shapeUpTo depth)

def caseShape (shape : Phrase Shape) : Phrase Shape := do
  let first ← shapeItem shape
  let (rest, hasComma) ← moreItems startsShape (shapeItem shape)
  if hasComma then pure (.sequence (first :: rest))
  else
    match first with
    | .star _ => failure
    | _ => pure first

/-! ## Statements with blocks -/

open Passage (newline indent dedent ofPhrase spanned)

def located (rule : Passage Form) : Passage Stmt :=
  (fun x => ⟨x.2.1, x.2.2, x.1⟩) <$> spanned rule

def simpleLine : Passage (List Stmt) := do
  let first ← located (ofPhrase (simpleForm g))
  let rest ← many do
    if ← symbol? ";" then
      match ← ahead with
      | none => pure none
      | some _ => some <$> located (ofPhrase (simpleForm g))
    else pure none
  newline
  pure (first :: rest)

variable (block : Passage (List Stmt))

def colonBlock : Passage (List Stmt) := do
  symbol ":"
  block

def optionalBlock (word : String) : Passage (List Stmt) := do
  if ← keyword? word then colonBlock block else pure []

def functionHead : Phrase (String × Parameters × Option Expr) := do
  keyword "def"
  let name ← name
  symbol "("
  let hint : Phrase (Option Expr) := do if ← symbol? ":" then some <$> g.expr else pure none
  let starHint : Phrase (Option Expr) := do
    if ← symbol? ":" then some <$> starItem g g.expr else pure none
  let items ← itemsUntil ")" (parameterItem g hint starHint)
  let params ← sorted items
  let result ← if ← symbol? "->" then some <$> g.expr else pure none
  pure (name, params, result)

def functionForm (isAsync : Bool) (decorators : List Expr) : Passage Form := do
  let (name, params, result) ← functionHead g
  let body ← colonBlock block
  pure (.function isAsync name params result decorators body)

def typeHead : Phrase (String × List Expr × List Keyword) := do
  keyword "class"
  let name ← name
  let (bases, keywords) ← if ← symbol? "(" then arguments g else pure ([], [])
  pure (name, bases, keywords)

def typeForm (decorators : List Expr) : Passage Form := do
  let (name, bases, keywords) ← typeHead g
  let body ← colonBlock block
  pure (.type name bases keywords decorators body)

def forHead : Phrase (Expr × Expr) := do
  keyword "for"
  let target ← targets g
  keyword "in"
  let source ← starItems g
  pure (target, source)

def forForm (isAsync : Bool) : Passage Form := do
  let (target, source) ← forHead g
  let body ← colonBlock block
  let otherwise ← optionalBlock block "else"
  pure (.forEach isAsync target source body otherwise)

def entered : Phrase Entered := do
  let context ← g.expr
  if ← keyword? "as" then
    let target ← starItem { g with union := g.primary } g.primary
    require (isTarget target)
    pure ⟨context, some target⟩
  else pure ⟨context, none⟩

/-- The contexts of a `with`, up to its colon. They may stand in parentheses together. -/
def contexts : Phrase (List Entered) := do
  let grouped : Phrase (List Entered) := do
    symbol "("
    let items ← itemsUntil ")" (entered g)
    require (!items.isEmpty)
    symbol ":"
    pure items
  let plain : Phrase (List Entered) := do
    let items ← listed (entered g)
    symbol ":"
    pure items
  grouped <|> plain

def withHead : Phrase (List Entered) := do
  keyword "with"
  contexts g

def withForm (isAsync : Bool) : Passage Form := do
  let items ← withHead g
  let body ← block
  pure (.entering isAsync items body)

def testHead : Phrase Expr := do
  let _ ← take
  named g

def tested : Passage (Nat × Expr × List Stmt) := do
  let ((test, body), line, _) ← spanned do
    let test ← testHead g
    let body ← colonBlock block
    pure (test, body)
  pure (line, test, body)

def whileForm : Passage Form := do
  let (_, test, body) ← tested g block
  let otherwise ← optionalBlock block "else"
  pure (.whileLoop test body otherwise)

/-- A choice. Each further test stands as a choice of its own in what is done otherwise. -/
def branchForm : Passage Form := do
  let (((_, test, body), more, otherwise), _, endLine) ← spanned do
    let first ← tested g block
    let more ← many do if ← atKeyword "elif" then some <$> tested g block else pure none
    let otherwise ← optionalBlock block "else"
    pure (first, more, otherwise)
  let nest : Nat × Expr × List Stmt → List Stmt → List Stmt := fun (line, test, body) rest =>
    [⟨line, endLine, .branch test body rest⟩]
  pure (.branch test body (more.foldr nest otherwise))

/-- A handler up to its colon: whether it has a star, what it is for, and the name for that. -/
def handlerHead : Phrase (Bool × Option Expr × Option String) := do
  keyword "except"
  let isStar ← symbol? "*"
  if !isStar && (← atSymbol ":") then pure (false, none, none)
  else
    let type ← g.expr
    let name ← asName
    pure (isStar, some type, name)

def handler : Passage (Bool × Handler) := do
  let (isStar, type, name) ← handlerHead g
  let body ← colonBlock block
  pure (isStar, ⟨type, name, body⟩)

def elseOf (handlers : List (Bool × Handler)) : Passage (List Stmt) :=
  if handlers.isEmpty then pure [] else optionalBlock block "else"

/-- A block with handlers, which are all of one kind, or with a final block. -/
def tryForm : Passage Form := do
  keyword "try"
  let body ← colonBlock block
  let handlers ← many do if ← atKeyword "except" then some <$> handler g block else pure none
  let isStar := handlers.any Prod.fst
  require (handlers.all fun h => h.1 == isStar)
  let otherwise ← elseOf block handlers
  let hasFinal ← atKeyword "finally"
  require (hasFinal || !handlers.isEmpty)
  let final ← optionalBlock block "finally"
  pure (.tries isStar body (handlers.map Prod.snd) otherwise final)

def caseHead (shape : Phrase Shape) : Phrase (Shape × Option Expr) := do
  word "case"
  let shape ← caseShape shape
  let guard ← if ← keyword? "if" then some <$> named g else pure none
  pure (shape, guard)

def caseRule (shape : Phrase Shape) : Passage Case := do
  let (shape, guard) ← caseHead g shape
  let body ← colonBlock block
  pure ⟨shape, guard, body⟩

def subject : Phrase Expr := do
  word "match"
  let item := starItem g (named g)
  let first ← item
  let (rest, hasComma) ← moreItems startsItem item
  require (hasComma || !isStarred first)
  symbol ":"
  lineEnd
  pure (if hasComma then .tuple (first :: rest) else first)

def isDedent : Option Lexeme → Bool
  | some .dedent => true
  | _ => false

def matchForm (shape : Phrase Shape) : Passage Form := do
  let e ← subject g
  newline
  indent
  let cases ← many do
    if isDedent (← Passage.ahead) then pure none else some <$> caseRule g block shape
  dedent
  require (!cases.isEmpty)
  pure (.matching e cases)

def decorator : Passage Expr := do
  symbol "@"
  let e ← named g
  newline
  pure e

def decoratorLines : Passage (List Expr) :=
  many do if ← atSymbol "@" then some <$> decorator g else pure none

def asyncForm : Passage Form := do
  keyword "async"
  match ← ahead with
  | some (.keyword "def") => functionForm g block true []
  | some (.keyword "for") => forForm g block true
  | _ => withForm g block true

def decorated (decorators : List Expr) : Passage Form := do
  match ← ahead with
  | some (.keyword "class") => typeForm g block decorators
  | some (.keyword "async") => do
    keyword "async"
    functionForm g block true decorators
  | _ => functionForm g block false decorators

def statements (shape : Phrase Shape) : Passage (List Stmt) := do
  let one (rule : Passage Form) : Passage (List Stmt) := (fun s => [s]) <$> located rule
  match ← ahead with
  | some (.keyword "def") => one (functionForm g block false [])
  | some (.keyword "class") => one (typeForm g block [])
  | some (.keyword "if") => one (branchForm g block)
  | some (.keyword "for") => one (forForm g block false)
  | some (.keyword "while") => one (whileForm g block)
  | some (.keyword "with") => one (withForm g block false)
  | some (.keyword "try") => one (tryForm g block)
  | some (.keyword "async") => one (asyncForm g block)
  | some (.symbol "@") => do
    let decorators ← decoratorLines g
    one (decorated g block decorators)
  | some (.name "match") =>
    if ← applies (subject g) then one (matchForm g block shape) else simpleLine g
  | _ => simpleLine g

def statementsUntil (shape : Phrase Shape) (ends : Option Lexeme → Bool) : Passage (List Stmt) := do
  let groups ← many do
    if ends (← Passage.ahead) then pure none else some <$> statements g block shape
  pure groups.flatten

/-- A block: statements on lines of their own, further in, or on the same line. -/
def blockRule (shape : Phrase Shape) : Passage (List Stmt) := do
  match ← Passage.ahead with
  | some .newline => do
    newline
    indent
    let body ← statementsUntil g block shape isDedent
    dedent
    pure body
  | _ => simpleLine g

def blockUpTo (shape : Phrase Shape) : Nat → Passage (List Stmt)
  | 0 => failure
  | depth + 1 => blockRule g (blockUpTo shape depth) shape

def file (shape : Phrase Shape) : Passage (List Stmt) :=
  statementsUntil g block shape Option.isNone

def maxDepth : Nat := 6000

def wholeFile : Passage (List Stmt) :=
  let g := upTo maxDepth
  let shape := g.shapeUpTo maxDepth
  g.file (g.blockUpTo shape (Scan.maxIndents + 2)) shape

end Grammar

/-- The statements of a source text, if it is well formed: it has no null character, not even in a
comment. -/
def parse (source : List Char) : Option (List Stmt) :=
  if source.contains '\x00' then none
  else do
    let ts ← tokensOf source
    (Grammar.wholeFile.run ts).map Prod.fst

end Docsmith.Syntax
