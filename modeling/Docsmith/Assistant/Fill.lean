/-
The writing assistant at work: it asks a chat service for documentation that is missing and writes
it to the file. A service that fails, or has nothing to say, leaves a gap.
-/
import Docsmith.Assistant.Prompt
import Docsmith.Assistant.Suggestion
import Docsmith.Syntax.Machine
import Docsmith.Text.Letter
import Docsmith.World

namespace Docsmith

structure Assistant where
  key : Value
  model : Value := .str "llama-3.1-8b-instant"
  style : Value := .str "google"
  maxTokens : Value := .int 300

namespace Assistant

def serviceUrl : String := "https://api.groq.com/openai/v1"

def open? (a : Assistant) (env : List (String × String)) : Except Fault Assistant :=
  let key := if a.key.isGiven then a.key else .str ((env.lookup "GROQ_API_KEY").getD "")
  if key.isGiven then .ok { a with key } else .error .noChatKey

def settingNames : List String := ["api_key", "model", "style", "max_tokens"]

def setUp (given : List (String × Value)) (env : List (String × String)) :
    Except Fault Assistant :=
  match given.find? fun g => !settingNames.contains g.1 with
  | some (name, _) => .error (.unknownSetting "DocGenerator" name)
  | none =>
    let a : Assistant := { key := (given.lookup "api_key").getD .null }
    open?
      { a with
        model := (given.lookup "model").getD a.model
        style := (given.lookup "style").getD a.style
        maxTokens := (given.lookup "max_tokens").getD a.maxTokens } env

def nextReply : Action Reply := do
  let w ← get
  match w.replies with
  | [] => pure (.failure "no reply left")
  | r :: rest =>
    set { w with replies := rest }
    pure r

/-- Asks the chat service. There is no answer if there is no client, or if the service fails. -/
def ask (a : Assistant) (system user : String) (maxTokens : Value) (temperature : Double) :
    Action (Option (List Char)) := do
  let w ← get
  if w.missing.contains .chatClient then pure none
  else
    let call : ChatCall := ⟨a.key, serviceUrl, a.model, system, user, maxTokens, temperature⟩
    set { w with chatCalls := w.chatCalls ++ [call] }
    match ← nextReply with
    | .text s => pure (some s.toList)
    | .nothing | .failure _ => pure none

def docstring (a : Assistant) (signature body : List Char) : Action (List Char) := do
  match a.style with
  | .list _ | .map _ | .set _ => throw (.unhashable a.style.kind)
  | _ =>
    let user := docstringRequest a.style signature body
    let reply ← a.ask docstringSystem user a.maxTokens (.ofDecimal false 3 (-1))
    pure ((reply.map docstringOf).getD [])

def signatureLimit : Nat := 200

def unprintable : Syntax.Unprintable → Fault
  | .depth => .tooDeep
  | .backslash => .backslashInField
  | .digits => .tooManyDigits

def suggest (a : Assistant) (lines : List (List Char)) (d : Declaration) :
    Action (Option Suggestion) := do
  let text ← Action.ofExcept (d.stmt.print.mapError unprintable)
  let body := ((lines.take d.endLine).drop (d.line - 1)).flatten
  let doc ← a.docstring (text.toList.take signatureLimit) body
  let kind := if d.isType then "class" else "function"
  pure (if doc.isEmpty then none else some ⟨d.name, kind, d.line, String.ofList doc⟩)

variable [Machine]

def putDocstrings (p : Path) (ss : List Suggestion) : Action Unit := do
  let source ← Action.readText p
  match ← Action.ofExcept (Syntax.readTree source) with
  | none => pure ()
  | some body =>
    Action.writeText p (String.ofList (insertDocs source (declarations body) ss))

/-- Asks for the docstrings that a Python file lacks and puts them in, unless on trial. A file that
is not well formed is left alone. -/
def fillDocstrings (a : Assistant) (p : Path) (onTrial : Bool) : Action (List Suggestion) := do
  let source ← Action.readText p
  match ← Action.ofExcept (Syntax.readTree source) with
  | none => pure []
  | some body =>
    let ds := declarations body
    let lines := Text.linesWithEnds source
    let found ← (ds.filter Declaration.needsDoc).mapM (a.suggest lines)
    let ss := found.filterMap id
    if !onTrial && !ss.isEmpty then
      Action.writeText p (String.ofList (insertDocs source ds ss))
    pure ss

/-- Asks for the comments that a file of any language lacks and puts them in, unless on trial. Of a
long file only the start is sent, and the rest stays as it is. -/
def fillComments (a : Assistant) (p : Path) (onTrial : Bool) : Action (List Suggestion) := do
  match docStyles.lookup (String.ofList (Text.foldCase p.suffix.toList)) with
  | none => pure []
  | some style =>
    let source ← Action.readText p
    if (Text.trim source).isEmpty then pure []
    else
      let reply ← a.ask (commentSystem style) (commentRequest style source) (.int 4096)
        (.ofDecimal false 2 (-1))
      match reply with
      | none => pure []
      | some reply =>
        let result ← Action.ofExcept (unfenced (Text.trim reply))
        if Text.trim result = Text.trim source then pure []
        else
          let ss := newBlocks source result style.language
          if !onTrial && !ss.isEmpty then
            Action.writeText p (String.ofList (result ++ source.drop fileLimit))
          pure ss

def fill (a : Assistant) (p : Path) (onTrial : Bool) : Action (List Suggestion) :=
  if p.suffix = ".py" then a.fillDocstrings p onTrial else a.fillComments p onTrial

end Assistant

end Docsmith
