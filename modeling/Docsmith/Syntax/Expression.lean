/-
The grammar of expressions.

Every rule is written against a `Grammar`, which holds the rules for the expressions inside it;
`Grammar.upTo n` ties them together for nestings of depth `n`. What can be assigned to is read as an
expression first and then checked.
-/
import Docsmith.Syntax.Interpolation
import Docsmith.Syntax.Rule

namespace Docsmith.Syntax

open Rule Phrase

/-- The rules for inner expressions: a whole one, one without a condition, one of operators on
numbers only, one behind a sign, and one of suffixes only. -/
structure Grammar where
  expr : Phrase Expr
  disjunction : Phrase Expr
  union : Phrase Expr
  factor : Phrase Expr
  primary : Phrase Expr

namespace Grammar

def startsExpr : Lexeme → Bool
  | .name _ => true
  | .number _ => true
  | .text _ => true
  | .keyword s => ["None", "True", "False", "not", "lambda", "await"].contains s
  | .symbol s => ["(", "[", "\x7b", "-", "+", "~", "..."].contains s
  | _ => false

def startsItem (lex : Lexeme) : Bool :=
  startsExpr lex ||
    match lex with
    | .symbol "*" => true
    | _ => false

mutual

def isTarget : Expr → Bool
  | .name _ => true
  | .attribute _ _ => true
  | .subscript _ _ => true
  | .starred e => isTarget e
  | .tuple items => areTargets items
  | .list items => areTargets items
  | _ => false

def areTargets : List Expr → Bool
  | [] => true
  | e :: es => isTarget e && areTargets es

end

mutual

def isDeletable : Expr → Bool
  | .name _ => true
  | .attribute _ _ => true
  | .subscript _ _ => true
  | .tuple items => areDeletable items
  | .list items => areDeletable items
  | _ => false

def areDeletable : List Expr → Bool
  | [] => true
  | e :: es => isDeletable e && areDeletable es

end

def isPlace : Expr → Bool
  | .name _ => true
  | .attribute _ _ => true
  | .subscript _ _ => true
  | _ => false

def isStarred : Expr → Bool
  | .starred _ => true
  | _ => false

def isImaginary : Constant → Bool
  | .imaginary _ => true
  | _ => false

variable (g : Grammar)

def chain (ops : List (String × BinaryOp)) (operand : Phrase Expr) : Phrase Expr := do
  let first ← operand
  let rest ← many do
    match ← ahead with
    | some (.symbol s) =>
      match ops.lookup s with
      | some op => do
        let _ ← take
        let right ← operand
        pure (some (op, right))
      | none => pure none
    | _ => pure none
  pure (rest.foldl (fun left (op, right) => .binary left op right) first)

def atNaming : Phrase Bool := do
  match ← ahead2 with
  | (some (.name _), some (.symbol ":=")) => pure true
  | _ => pure false

def named : Phrase Expr := do
  if ← atNaming then
    let id ← name
    symbol ":="
    .assignment (.name id) <$> g.expr
  else
    let e ← g.expr
    require (!(← atSymbol ":="))
    pure e

/-! ## Levels of operators, from the inside -/

def slice : Phrase Expr := do
  let bound : Phrase (Option Expr) := do
    match ← ahead with
    | some lex => if startsExpr lex then some <$> g.expr else pure none
    | none => pure none
  let behind (lower : Option Expr) : Phrase Expr := do
    let upper ← bound
    let step ← if ← symbol? ":" then bound else pure none
    pure (.slice lower upper step)
  if ← symbol? "*" then .starred <$> g.expr
  else if ← symbol? ":" then behind none
  else if ← atNaming then named g
  else
    let e ← named g
    if ← symbol? ":" then behind (some e) else pure e

def index : Phrase Expr := do
  let first ← slice g
  let starts : Lexeme → Bool := fun lex =>
    startsItem lex ||
      match lex with
      | .symbol ":" => true
      | _ => false
  let (rest, hasComma) ← moreItems starts (slice g)
  symbol "]"
  pure (if hasComma || isStarred first then .tuple (first :: rest) else first)

def atClause : Phrase Bool := do
  match ← ahead2 with
  | (some (.keyword "for"), _) => pure true
  | (some (.keyword "async"), some (.keyword "for")) => pure true
  | _ => pure false

inductive Argument where
  | plain (e : Expr)
  | starred (e : Expr)
  | named (name : String) (e : Expr)
  | unpacked (e : Expr)

def argument : Phrase Argument := do
  if ← symbol? "*" then .starred <$> g.expr
  else if ← symbol? "**" then .unpacked <$> g.expr
  else
    match ← ahead2 with
    | (some (.name id), some (.symbol "=")) => do
      let _ ← take
      let _ ← take
      .named id <$> g.expr
    | _ => do
      let e ← named g
      require (!(← atSymbol "="))
      pure (.plain e)

/-- Whether arguments stand in a permitted order: plain ones before named ones, and starred ones
before unpacked ones. -/
def inOrder : (named unpacked : Bool) → List Argument → Bool
  | _, _, [] => true
  | named, unpacked, .plain _ :: rest => !named && inOrder named unpacked rest
  | named, unpacked, .starred _ :: rest => !unpacked && inOrder named unpacked rest
  | _, unpacked, .named _ _ :: rest => inOrder true unpacked rest
  | _, _, .unpacked _ :: rest => inOrder true true rest

def positionals (args : List Argument) : List Expr :=
  args.filterMap fun
    | .plain e => some e
    | .starred e => some (.starred e)
    | _ => none

def byName (args : List Argument) : List Keyword :=
  args.filterMap fun
    | .named name e => some ⟨some name, e⟩
    | .unpacked e => some ⟨none, e⟩
    | _ => none

def arguments : Phrase (List Expr × List Keyword) := do
  let args ← itemsUntil ")" (argument g)
  require (inOrder false false args)
  pure (positionals args, byName args)

def targets : Phrase Expr := do
  let target : Phrase Expr := do if ← symbol? "*" then .starred <$> g.primary else g.primary
  let first ← target
  let (rest, hasComma) ← moreItems startsItem target
  let all := if hasComma then Expr.tuple (first :: rest) else first
  require (isTarget all)
  pure all

def clauses : Phrase (List Clause) :=
  many do
    if ← atClause then
      let isAsync ← keyword? "async"
      keyword "for"
      let target ← targets g
      keyword "in"
      let source ← g.disjunction
      let conditions ← many do if ← keyword? "if" then some <$> g.disjunction else pure none
      pure (some ⟨isAsync, target, source, conditions⟩)
    else pure none

/-- The expression of a field, which is read as if in parentheses. -/
def fieldValue (source : List Char) : Option Expr := do
  let ts ← tokensOf ('(' :: (source ++ [')']))
  (g.primary.run (wordsOf ts)).map Prod.fst

def pieceExprs (marked : Bool) : (room : Nat) → List Piece → Option (List Expr)
  | _, [] => some []
  | 0, _ => none
  | room + 1, p :: ps => do
    let e ←
      match p with
      | .text codes => some (Expr.constant (.str codes marked))
      | .field source conversion format => do
        let value ← fieldValue g source
        match format with
        | none => pure (.field value conversion none)
        | some inner => do
          let inner ← pieceExprs false room (Piece.joined inner)
          pure (.field value conversion (some inner))
    let es ← pieceExprs marked room ps
    pure (e :: es)

def literal (qs : List Quoted) : Option Expr := do
  let marked := (qs.head?.map (·.isMarked)).getD false
  if qs.all (·.isBytes) then
    let parts ← qs.mapM fun q =>
      if q.isRaw then
        if q.body.all fun c => c.toNat < 128 then
          some (q.body.map fun c => UInt8.ofNat c.toNat)
        else none
      else Escape.bytes q.body
    pure (.constant (.bytes parts.flatten))
  else if qs.any (·.isBytes) then none
  else
    let parts ← qs.mapM fun q =>
      if q.isFormat then Piece.ofBody q.isRaw q.body
      else (Piece.codesOf q.isRaw q.body).map fun codes => [Piece.text codes]
    let pieces := Piece.joined parts.flatten
    if qs.any (·.isFormat) then
      let size := (qs.map (·.body.length)).foldr (· + ·) 0
      .joined <$> pieceExprs g marked (2 * size + 2) pieces
    else
      match pieces with
      | [.text codes] => pure (.constant (.str codes marked))
      | _ => pure (.constant (.str [] marked))

def parenthesized (item yielded : Phrase Expr) : Phrase Expr := do
  if ← symbol? ")" then pure (.tuple [])
  else if ← atKeyword "yield" then
    let e ← yielded
    symbol ")"
    pure e
  else
    let first ← item
    if ← atClause then
      require (!isStarred first)
      let cs ← clauses g
      symbol ")"
      pure (.comprehension .generator first cs)
    else if ← symbol? "," then
      let rest ← itemsUntil ")" item
      pure (.tuple (first :: rest))
    else
      require (!isStarred first)
      symbol ")"
      pure first

def bracketed (item : Phrase Expr) : Phrase Expr := do
  if ← symbol? "]" then pure (.list [])
  else
    let first ← item
    if ← atClause then
      require (!isStarred first)
      let cs ← clauses g
      symbol "]"
      pure (.comprehension .list first cs)
    else if ← symbol? "," then
      let rest ← itemsUntil "]" item
      pure (.list (first :: rest))
    else
      symbol "]"
      pure (.list [first])

def entry : Phrase (Option Expr × Expr) := do
  if ← symbol? "**" then
    let e ← g.union
    pure (none, e)
  else
    let key ← g.expr
    symbol ":"
    let value ← g.expr
    pure (some key, value)

def entries (first : Option Expr × Expr) : Phrase Expr := do
  if ← symbol? "," then
    let rest ← itemsUntil "\x7d" (entry g)
    pure (.dict (first :: rest))
  else
    symbol "\x7d"
    pure (.dict [first])

def braced (item : Phrase Expr) : Phrase Expr := do
  if ← symbol? "\x7d" then pure (.dict [])
  else if ← atSymbol "**" then
    let first ← entry g
    entries g first
  else
    let isNaming ← atNaming
    let first ← item
    if !isNaming && !isStarred first && (← symbol? ":") then
      let value ← g.expr
      if ← atClause then
        let cs ← clauses g
        symbol "\x7d"
        pure (.dictComprehension first value cs)
      else entries g (some first, value)
    else if ← atClause then
      require (!isStarred first)
      let cs ← clauses g
      symbol "\x7d"
      pure (.comprehension .set first cs)
    else if ← symbol? "," then
      let rest ← itemsUntil "\x7d" item
      pure (.set (first :: rest))
    else
      symbol "\x7d"
      pure (.set [first])

def starItem (whole : Phrase Expr) : Phrase Expr := do
  if ← symbol? "*" then .starred <$> g.union else whole

def starItems : Phrase Expr := do
  let item := starItem g g.expr
  let first ← item
  let (rest, hasComma) ← moreItems startsItem item
  pure (if hasComma then .tuple (first :: rest) else first)

def yielding : Phrase Expr := do
  keyword "yield"
  if ← keyword? "from" then .yieldFrom <$> g.expr
  else
    match ← ahead with
    | some lex =>
      if startsItem lex then (fun e => .yield (some e)) <$> starItems g
      else pure (.yield none)
    | none => pure (.yield none)

def atom : Phrase Expr := do
  let item := starItem g (named g)
  match ← take with
  | .name id => pure (.name id)
  | .number c => pure (.constant c)
  | .keyword "None" => pure (.constant .none)
  | .keyword "True" => pure (.constant (.bool true))
  | .keyword "False" => pure (.constant (.bool false))
  | .text q => do
    let more ← many do
      match ← ahead with
      | some (.text q) => do
        let _ ← take
        pure (some q)
      | _ => pure none
    match literal g (q :: more) with
    | some e => pure e
    | none => failure
  | .symbol "..." => pure (.constant .ellipsis)
  | .symbol "(" => parenthesized g item (yielding g)
  | .symbol "[" => bracketed g item
  | .symbol "\x7b" => braced g item
  | _ => failure

inductive Suffix where
  | attribute (name : String)
  | subscript (index : Expr)
  | call (args : List Expr) (keywords : List Keyword)

def Suffix.apply (e : Expr) : Suffix → Expr
  | .attribute name => .attribute e name
  | .subscript index => .subscript e index
  | .call args keywords => .call e args keywords

/-- A call after its opening bracket. One generator may stand without brackets of its own. -/
def callSuffix : Phrase Suffix := do
  if ← symbol? ")" then pure (.call [] [])
  else
    let first ← argument g
    match first, ← atClause with
    | .plain item, true => do
      let cs ← clauses g
      symbol ")"
      pure (.call [.comprehension .generator item cs] [])
    | _, _ => do
      let rest ←
        if ← symbol? "," then itemsUntil ")" (argument g)
        else do
          symbol ")"
          pure []
      require (inOrder false false (first :: rest))
      pure (.call (positionals (first :: rest)) (byName (first :: rest)))

def primaryRule : Phrase Expr := do
  let first ← atom g
  let suffixes ← many do
    if ← symbol? "." then (some ∘ Suffix.attribute) <$> name
    else if ← symbol? "(" then some <$> callSuffix g
    else if ← symbol? "[" then (some ∘ Suffix.subscript) <$> index g
    else pure none
  pure (suffixes.foldl Suffix.apply first)

def awaitRule : Phrase Expr := do
  if ← keyword? "await" then .await <$> primaryRule g else primaryRule g

def powerRule : Phrase Expr := do
  let base ← awaitRule g
  if ← symbol? "**" then .binary base .pow <$> g.factor else pure base

def factorRule : Phrase Expr := do
  if ← symbol? "-" then .unary .minus <$> g.factor
  else if ← symbol? "+" then .unary .plus <$> g.factor
  else if ← symbol? "~" then .unary .invert <$> g.factor
  else powerRule g

def unionRule : Phrase Expr :=
  let product :=
    chain [("*", .mul), ("/", .div), ("//", .floorDiv), ("%", .mod), ("@", .matMul)] (factorRule g)
  let sum := chain [("+", .add), ("-", .sub)] product
  let shift := chain [("<<", .shiftLeft), (">>", .shiftRight)] sum
  chain [("|", .bitOr)] (chain [("^", .bitXor)] (chain [("&", .bitAnd)] shift))

def compareOp : Phrase (Option CompareOp) := do
  let taken (n : Nat) (op : CompareOp) : Phrase (Option CompareOp) := do
    let _ ← take
    if n = 2 then
      let _ ← take
    pure (some op)
  match ← ahead2 with
  | (some (.symbol "=="), _) => taken 1 .eq
  | (some (.symbol "!="), _) => taken 1 .notEq
  | (some (.symbol "<"), _) => taken 1 .less
  | (some (.symbol "<="), _) => taken 1 .lessEq
  | (some (.symbol ">"), _) => taken 1 .greater
  | (some (.symbol ">="), _) => taken 1 .greaterEq
  | (some (.keyword "is"), some (.keyword "not")) => taken 2 .isNot
  | (some (.keyword "is"), _) => taken 1 .is
  | (some (.keyword "in"), _) => taken 1 .isIn
  | (some (.keyword "not"), some (.keyword "in")) => taken 2 .notIn
  | _ => pure none

def comparison : Phrase Expr := do
  let first ← unionRule g
  let rest ← many do
    match ← compareOp with
    | some op => do
      let right ← unionRule g
      pure (some (op, right))
    | none => pure none
  pure (if rest.isEmpty then first else .compare first rest)

def inversion : Phrase Expr := do
  let nots ← many do if ← keyword? "not" then pure (some ()) else pure none
  let e ← comparison g
  pure (nots.foldl (fun e _ => .unary .not e) e)

def logic (word : String) (op : LogicOp) (operand : Phrase Expr) : Phrase Expr := do
  let first ← operand
  let rest ← many do if ← keyword? word then some <$> operand else pure none
  pure (if rest.isEmpty then first else .logic op (first :: rest))

def disjunctionRule : Phrase Expr := logic "or" .or (logic "and" .and (inversion g))

/-! ## Parameters -/

inductive ParameterItem where
  | plain (p : Parameter)
  | slash
  | star
  | variadic (p : Parameter)
  | keywords (p : Parameter)

def parameter (hint : Phrase (Option Expr)) (hasDefault : Bool) : Phrase Parameter := do
  let name ← name
  let note ← hint
  let default ←
    if hasDefault && (← atSymbol "=") then do
      symbol "="
      some <$> g.expr
    else pure none
  pure ⟨name, note, default⟩

def parameterItem (hint starHint : Phrase (Option Expr)) : Phrase ParameterItem := do
  if ← symbol? "/" then pure .slash
  else if ← symbol? "**" then .keywords <$> parameter g hint false
  else if ← symbol? "*" then
    match ← ahead with
    | some (.name _) => .variadic <$> parameter g starHint false
    | _ => pure .star
  else .plain <$> parameter g hint true

def defaultsLast (ps : List Parameter) : Bool :=
  (ps.dropWhile fun p => p.default.isNone).all fun p => p.default.isSome

namespace ParameterItem

def plain? : ParameterItem → Option Parameter
  | plain p => some p
  | _ => none

def isSlash : ParameterItem → Bool
  | slash => true
  | _ => false

def isKeywords : ParameterItem → Bool
  | keywords _ => true
  | _ => false

def isBound : ParameterItem → Bool
  | star | variadic _ | keywords _ => true
  | _ => false

end ParameterItem

/-- The parameters that can be given by place: first those that can be given by place only. -/
def sortFront (items : List ParameterItem) : Option (List Parameter × List Parameter) :=
  if items.any (·.isSlash) then do
    let before ← (items.takeWhile (!·.isSlash)).mapM ParameterItem.plain?
    let after ← ((items.dropWhile (!·.isSlash)).drop 1).mapM ParameterItem.plain?
    if before.isEmpty then none else some (before, after)
  else (items.mapM ParameterItem.plain?).map fun ps => ([], ps)

/-- The parameters from a star on: the one that takes more by place, those that can be given by name
only, and the one that takes more by name. -/
def sortBehind (items : List ParameterItem) :
    Option (Option Parameter × List Parameter × Option Parameter) :=
  let (variadic, isBare, rest) :=
    match items with
    | .variadic p :: rest => (some p, false, rest)
    | .star :: rest => (none, true, rest)
    | rest => (none, false, rest)
  do
    let only ← (rest.takeWhile (!·.isKeywords)).mapM ParameterItem.plain?
    if isBare && only.isEmpty then none
    else
      match rest.dropWhile (!·.isKeywords) with
      | [] => some (variadic, only, none)
      | [.keywords p] => some (variadic, only, some p)
      | _ => none

def sortParameters (items : List ParameterItem) : Option Parameters := do
  let (posOnly, pos) ← sortFront (items.takeWhile (!·.isBound))
  let (variadic, only, keywords) ← sortBehind (items.dropWhile (!·.isBound))
  if defaultsLast (posOnly ++ pos) then some ⟨posOnly, pos, variadic, only, keywords⟩ else none

def sorted (items : List ParameterItem) : Phrase Parameters :=
  match sortParameters items with
  | some ps => pure ps
  | none => failure

def lambda : Phrase Expr := do
  keyword "lambda"
  let item := parameterItem g (pure none) (pure none)
  let items ← itemsUntil ":" item
  let params ← sorted items
  .lambda params <$> g.expr

def exprRule : Phrase Expr := do
  if ← atKeyword "lambda" then lambda g
  else
    let e ← disjunctionRule g
    if ← keyword? "if" then
      let test ← disjunctionRule g
      keyword "else"
      let otherwise ← g.expr
      pure (.conditional test e otherwise)
    else pure e

def next : Grammar where
  expr := exprRule g
  disjunction := disjunctionRule g
  union := unionRule g
  factor := factorRule g
  primary := primaryRule g

def upTo : Nat → Grammar
  | 0 => ⟨failure, failure, failure, failure, failure⟩
  | depth + 1 => (upTo depth).next

end Grammar

end Docsmith.Syntax
