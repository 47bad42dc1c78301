/-
Rules of a grammar: what they take from the front of a list, and what they make of it. A rule that
fails takes nothing, so that another can be tried.

Expressions stand within a logical line, and no rule for them can tell where: it is a phrase, a rule
on words, which are tokens without their places. Statements are passages, rules on tokens.
-/
import Docsmith.Syntax.Token

namespace Docsmith.Syntax

/-- A rule: fails, or takes from the front of a list and gives a value. -/
structure Rule (τ α : Type) where
  run : List τ → Option (α × List τ)
  suffix_of_run : ∀ {ts : List τ} {x : α × List τ}, run ts = some x → x.2 <:+ ts

namespace Rule

variable {τ α : Type}

instance : Monad (Rule τ) where
  pure a := ⟨fun ts => some (a, ts), fun h => by cases h; exact List.suffix_rfl⟩
  bind r f := ⟨fun ts => (r.run ts).bind fun x => (f x.1).run x.2, fun h => by
    obtain ⟨x, hx, h⟩ := Option.bind_eq_some_iff.1 h
    exact ((f x.1).suffix_of_run h).trans (r.suffix_of_run hx)⟩

instance : Alternative (Rule τ) where
  failure := ⟨fun _ => none, nofun⟩
  orElse r r' := ⟨fun ts => (r.run ts).or ((r' ()).run ts), fun h => by
    obtain h | ⟨-, h⟩ := Option.or_eq_some_iff.1 h
    · exact r.suffix_of_run h
    · exact (r' ()).suffix_of_run h⟩

def input : Rule τ (List τ) := ⟨fun ts => some (ts, ts), fun h => by cases h; exact List.suffix_rfl⟩

def item : Rule τ τ :=
  ⟨fun
    | [] => none
    | t :: ts => some (t, ts), fun {ts} _ h => by
    cases ts with
    | nil => cases h
    | cons t ts => cases h; exact List.suffix_cons t ts⟩

def applies (r : Rule τ α) : Rule τ Bool := (fun ts => (r.run ts).isSome) <$> input

def require (b : Bool) : Rule τ Unit := if b then pure () else failure

def manyUpTo (step : Rule τ (Option α)) : (room : Nat) → Rule τ (List α)
  | 0 => failure
  | room + 1 => do
    match ← step with
    | none => pure []
    | some a => do
      let rest ← manyUpTo step room
      pure (a :: rest)

def many (step : Rule τ (Option α)) : Rule τ (List α) := do
  let ts ← input
  manyUpTo step (ts.length + 1)

end Rule

open Rule

/-! ## Within a line -/

/-- A token without its place. A name may have been composed from another spelling of it. -/
structure Word where
  lexeme : Lexeme
  isComposed : Bool := false

abbrev Phrase (α : Type) := Rule Word α

namespace Phrase

def ahead : Phrase (Option Lexeme) := (fun ws => ws.head?.map (·.lexeme)) <$> input

def ahead2 : Phrase (Option Lexeme × Option Lexeme) :=
  (fun ws => (ws.head?.map (·.lexeme), ws.tail.head?.map (·.lexeme))) <$> input

def take : Phrase Lexeme := (·.lexeme) <$> item

def atSymbol (sym : String) : Phrase Bool := do
  match ← ahead with
  | some (.symbol s) => pure (s == sym)
  | _ => pure false

def atKeyword (word : String) : Phrase Bool := do
  match ← ahead with
  | some (.keyword s) => pure (s == word)
  | _ => pure false

def symbol? (sym : String) : Phrase Bool := do
  if ← atSymbol sym then
    let _ ← take
    pure true
  else pure false

def keyword? (word : String) : Phrase Bool := do
  if ← atKeyword word then
    let _ ← take
    pure true
  else pure false

def symbol (sym : String) : Phrase Unit := do
  if ← symbol? sym then pure () else failure

def keyword (word : String) : Phrase Unit := do
  if ← keyword? word then pure () else failure

def name : Phrase String := do
  match ← take with
  | .name s => pure s
  | _ => failure

def word (id : String) : Phrase Unit := do
  let ws ← input
  require (ws.head?.any fun w => !w.isComposed)
  let found ← name
  require (found = id)

def lineEnd : Phrase Unit := do
  let ws ← input
  require ws.isEmpty

/-- More items after the first, each behind a comma. A last comma may stand alone; the answer tells
whether there was any comma. -/
def moreItems {α : Type} (starts : Lexeme → Bool) (item : Phrase α) : Phrase (List α × Bool) := do
  let hasComma ← atSymbol ","
  let items ← many do
    if ← symbol? "," then
      match ← ahead with
      | some lex => if starts lex then some <$> item else pure none
      | none => pure none
    else pure none
  pure (items, hasComma)

def itemsUntil {α : Type} (close : String) (item : Phrase α) : Phrase (List α) := do
  if ← symbol? close then pure []
  else
    let first ← item
    let rest ← many do
      if ← symbol? "," then if ← atSymbol close then pure none else some <$> item
      else pure none
    symbol close
    pure (first :: rest)

end Phrase

/-! ## Across lines -/

abbrev Passage (α : Type) := Rule Token α

def Lexeme.isWritten : Lexeme → Bool
  | .newline => false
  | .indent => false
  | .dedent => false
  | _ => true

def wordsOf (ts : List Token) : List Word :=
  (ts.takeWhile (·.lexeme.isWritten)).map fun t => ⟨t.lexeme, t.isComposed⟩

namespace Passage

variable {α : Type}

def ofPhrase (p : Phrase α) : Passage α :=
  ⟨fun ts => (p.run (wordsOf ts)).map fun x =>
    (x.1, ts.drop ((wordsOf ts).length - x.2.length)), fun h => by
    obtain ⟨x, -, rfl⟩ := Option.map_eq_some_iff.1 h
    exact List.drop_suffix _ _⟩

instance : MonadLift (Rule Word) (Rule Token) := ⟨ofPhrase⟩

def ahead : Passage (Option Lexeme) := (fun ts => ts.head?.map (·.lexeme)) <$> input

def lexeme (l : Lexeme) : Passage Unit := do
  if (← item).lexeme = l then pure () else failure

def newline : Passage Unit := lexeme .newline

def indent : Passage Unit := lexeme .indent

def dedent : Passage Unit := lexeme .dedent

/-- The line on which the last of some tokens ends, line ends and indentation not counted. -/
def lastLine (ts : List Token) : Nat :=
  ((ts.reverse.find? (·.lexeme.isWritten)).map (·.endLine)).getD 0

def spanned (r : Passage α) : Passage (α × Nat × Nat) := do
  let ts ← input
  let a ← r
  let rest ← input
  pure (a, (ts.head?.map (·.line)).getD 0, lastLine (ts.take (ts.length - rest.length)))

end Passage

end Docsmith.Syntax
