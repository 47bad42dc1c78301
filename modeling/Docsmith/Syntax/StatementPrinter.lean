/-
Source text of statements. Each starts on a new line; functions and classes have an empty line in
front.
-/
import Docsmith.Syntax.Printer

namespace Docsmith.Syntax

namespace Printer

def line (indent : Nat) (s : String) : String :=
  "\n" ++ String.ofList (List.replicate (4 * indent) ' ') ++ s

def importedAs (a : Alias) : String := a.name ++ (a.as?.map (" as " ++ ·)).getD ""

def shape (inner : Inner) : (depth : Nat) → Level → Shape → Printed
  | 0, _, _ => .error .depth
  | depth + 1, place, s =>
    match s with
    | .value e => inner .test e
    | .singleton c => c.print false
    | .sequence ss => do
      let ts ← ss.mapM (shape inner depth .test)
      pure ("[" ++ ", ".intercalate ts ++ "]")
    | .mapping es rest => do
      let ts ← es.mapM fun (key, s) => do
        let key ← inner .test key
        let value ← shape inner depth .test s
        pure (key ++ ": " ++ value)
      pure ("\x7b" ++ ", ".intercalate (ts ++ rest.toList.map ("**" ++ ·)) ++ "\x7d")
    | .construct type ss attributes => do
      let type ← inner .atom type
      let ts ← ss.mapM (shape inner depth .test)
      let nameds ← attributes.mapM fun (name, s) => do
        let value ← shape inner depth .test s
        pure (name ++ "=" ++ value)
      pure (type ++ "(" ++ ", ".intercalate (ts ++ nameds) ++ ")")
    | .star name => .ok ("*" ++ name.getD "_")
    | .capture _ none => .ok "_"
    | .capture none (some name) => .ok name
    | .capture (some s) (some name) => do
      let t ← shape inner depth .bitOr s
      pure (parens .test place (t ++ " as " ++ name))
    | .alternatives ss => do
      let ts ← ss.mapM (shape inner depth Level.bitOr.next)
      pure (parens .bitOr place (" | ".intercalate ts))

def entered (inner : Inner) (e : Entered) : Printed := do
  let context ← inner .test e.context
  let target ← e.target.mapM (inner .test)
  pure (context ++ (target.map (" as " ++ ·)).getD "")

/-- The statements of a body, where a string in front is documentation and is written with three
quotes. -/
def documented (indent : Nat) (print : Stmt → Printed) (body : List Stmt) : Printed :=
  match body with
  | ⟨_, _, .evaluates (.constant (.str codes marked))⟩ :: rest => do
    let ss ← rest.mapM print
    let doc := (if marked then "u" else "") ++ StringText.between StringText.tripleQuotes codes
    pure (line indent doc ++ String.join ss)
  | body => String.join <$> body.mapM print

def stmt : (depth indent : Nat) → Stmt → Printed
  | 0, _, _ => .error .depth
  | depth + 1, indent, s =>
    let inner : Inner := expr false depth
    let block (body : List Stmt) : Printed :=
      String.join <$> body.mapM (stmt depth (indent + 1))
    let optional (word : String) (body : List Stmt) : Printed :=
      if body.isEmpty then .ok "" else (line indent (word ++ ":") ++ ·) <$> block body
    let decorated (es : List Expr) : Printed := do
      let ss ← es.mapM (inner .test)
      pure ("\n" ++ String.join (ss.map fun s => line indent ("@" ++ s)))
    match s.form with
    | .function isAsync name params result decorators body => do
      let head ← decorated decorators
      let ps ← parameters inner params
      let result ← result.mapM (inner .test)
      let body ← documented (indent + 1) (stmt depth (indent + 1)) body
      pure (head ++ line indent ((if isAsync then "async def " else "def ") ++ name ++ "(" ++ ps ++
        ")" ++ (result.map (" -> " ++ ·)).getD "" ++ ":") ++ body)
    | .type name bases keywords decorators body => do
      let head ← decorated decorators
      let args ← arguments inner bases keywords
      let args := if bases.isEmpty && keywords.isEmpty then "" else "(" ++ args ++ ")"
      let body ← documented (indent + 1) (stmt depth (indent + 1)) body
      pure (head ++ line indent ("class " ++ name ++ args ++ ":") ++ body)
    | .returns value => do
      let s ← value.mapM (inner .test)
      pure (line indent ("return" ++ (s.map (" " ++ ·)).getD ""))
    | .deletes targets => do
      let ss ← targets.mapM (inner .test)
      pure (line indent ("del " ++ ", ".intercalate ss))
    | .assigns targets value => do
      let ss ← targets.mapM (inner .tuple)
      let v ← inner .test value
      pure (line indent (String.join (ss.map (· ++ " = ")) ++ v))
    | .updates target op value => do
      let t ← inner .test target
      let v ← inner .test value
      pure (line indent (t ++ " " ++ op.symbol ++ "= " ++ v))
    | .annotates target hint value simple => do
      let t ← inner .test target
      let isName :=
        match target with
        | .name _ => true
        | _ => false
      let t := if !simple && isName then "(" ++ t ++ ")" else t
      let a ← inner .test hint
      let v ← value.mapM (inner .test)
      pure (line indent (t ++ ": " ++ a ++ (v.map (" = " ++ ·)).getD ""))
    | .forEach isAsync target source body otherwise => do
      let t ← inner .tuple target
      let s ← inner .test source
      let b ← block body
      let o ← optional "else" otherwise
      let head := (if isAsync then "async for " else "for ") ++ t ++ " in " ++ s ++ ":"
      pure (line indent head ++ b ++ o)
    | .whileLoop test body otherwise => do
      let t ← inner .test test
      let b ← block body
      let o ← optional "else" otherwise
      pure (line indent ("while " ++ t ++ ":") ++ b ++ o)
    | .branch test body otherwise => do
      let t ← inner .test test
      let b ← block body
      let o ←
        match otherwise with
        | [⟨l, e, .branch test body otherwise⟩] => do
          let s ← stmt depth indent ⟨l, e, .branch test body otherwise⟩
          pure (line indent "el" ++ String.ofList (s.toList.drop (1 + 4 * indent)))
        | otherwise => optional "else" otherwise
      pure (line indent ("if " ++ t ++ ":") ++ b ++ o)
    | .entering isAsync es body => do
      let ss ← es.mapM (entered inner)
      let b ← block body
      let head := (if isAsync then "async with " else "with ") ++ ", ".intercalate ss ++ ":"
      pure (line indent head ++ b)
    | .matching subject cases => do
      let s ← inner .test subject
      let ss ← cases.mapM fun c => do
        let t ← shape inner depth .test c.shape
        let guard ← c.guard.mapM (inner .test)
        let b ← String.join <$> c.body.mapM (stmt depth (indent + 2))
        pure (line (indent + 1) ("case " ++ t ++ (guard.map (" if " ++ ·)).getD "" ++ ":") ++ b)
      pure (line indent ("match " ++ s ++ ":") ++ String.join ss)
    | .raises exception cause => do
      let e ← exception.mapM (inner .test)
      let c ← cause.mapM (inner .test)
      pure (line indent
        ("raise" ++ (e.map (" " ++ ·)).getD "" ++ (c.map (" from " ++ ·)).getD ""))
    | .tries isStar body handlers otherwise final => do
      let b ← block body
      let hs ← handlers.mapM fun h => do
        let type ← h.type.mapM (inner .test)
        let b ← block h.body
        let word := if isStar then "except*" else "except"
        pure (line indent (word ++ (type.map (" " ++ ·)).getD "" ++
          (h.name.map (" as " ++ ·)).getD "" ++ ":") ++ b)
      let o ← optional "else" otherwise
      let f ← optional "finally" final
      pure (line indent "try:" ++ b ++ String.join hs ++ o ++ f)
    | .asserts test message => do
      let t ← inner .test test
      let m ← message.mapM (inner .test)
      pure (line indent ("assert " ++ t ++ (m.map (", " ++ ·)).getD ""))
    | .imports names => .ok (line indent ("import " ++ ", ".intercalate (names.map importedAs)))
    | .importsFrom module names level =>
      .ok (line indent ("from " ++ String.ofList (List.replicate level '.') ++ module ++
        " import " ++ ", ".intercalate (names.map importedAs)))
    | .globals names => .ok (line indent ("global " ++ ", ".intercalate names))
    | .nonlocals names => .ok (line indent ("nonlocal " ++ ", ".intercalate names))
    | .evaluates e => (line indent ·) <$> inner .yield e
    | .pass => .ok (line indent "pass")
    | .breaks => .ok (line indent "break")
    | .continues => .ok (line indent "continue")

end Printer

def Stmt.print (s : Stmt) : Printed :=
  (Printer.stmt maxDepth 0 s).map fun t => String.ofList (t.toList.dropWhile (· = '\n'))

end Docsmith.Syntax
