/-
The command line: the words of a command, and what they run.
-/
import Docsmith.Command.Options
import Docsmith.Command.Run

namespace Docsmith.Command

def helpOption : OptionSpec := ⟨"help", ["--help"], [], .help⟩

def textOption (key long : String) (short : List Char) : OptionSpec := ⟨key, [long], short, .value⟩

def switch (key long : String) (short : List Char) : OptionSpec :=
  ⟨key, [long], short, .nothing true⟩

def offSwitch (key long : String) : OptionSpec := ⟨key, [long], [], .nothing false⟩

def sourceOption : OptionSpec := textOption "source" "--source" ['s']

def outputOption : OptionSpec := textOption "output" "--output" ['o']

def formatOption : OptionSpec := textOption "format" "--format" ['f']

def configOption : OptionSpec := textOption "config" "--config" ['c']

def portOption : OptionSpec := textOption "port" "--port" ['p']

inductive Verb where
  | generate
  | watch
  | preview
  | init
  | fill
  | serve
  | deploy
  | version
  deriving DecidableEq, Repr

namespace Verb

def named : List (String × Verb) :=
  [("generate", generate), ("watch", watch), ("preview", preview), ("init", init),
    ("ai-fill", fill), ("serve", serve), ("deploy", deploy), ("version", version)]

def options : Verb → List OptionSpec
  | generate =>
    [sourceOption, outputOption, formatOption, configOption,
      switch "incremental" "--incremental" ['i'], switch "ai" "--ai" [],
      textOption "deploy" "--deploy" ['d'], helpOption]
  | watch => [sourceOption, outputOption, formatOption, configOption, helpOption]
  | preview => [sourceOption, outputOption, configOption, portOption, helpOption]
  | init =>
    [textOption "path" "--path" [], sourceOption, switch "ci" "--ci" [], offSwitch "ci" "--no-ci",
      switch "ai" "--ai" [], offSwitch "ai" "--no-ai", helpOption]
  | fill =>
    [sourceOption, configOption, switch "dry-run" "--dry-run" ['n'],
      textOption "style" "--style" [], helpOption]
  | serve =>
    [sourceOption, outputOption, formatOption, configOption, portOption,
      textOption "secret" "--webhook-secret" [], helpOption]
  | deploy => [outputOption, textOption "target" "--target" ['t'], configOption, helpOption]
  | version => [helpOption]

end Verb

def commonOptions : List OptionSpec := [switch "verbose" "--verbose" ['v'], helpOption]

inductive Request where
  | misuse
  | help
  | run (act : List (Action (List Event)) → Bool → Action Unit)

def placeOf (w : Words) : Place := ⟨w.text? "source", w.text? "output", w.text? "format", w.text? "config"⟩

def Verb.request (v : Verb) (w : Words) : Request :=
  let plain (a : Action Unit) : Request := .run fun _ _ => a
  let withPort (a : Option Int → Action Unit) : Request :=
    match w.text? "port" with
    | none => plain (a none)
    | some word =>
      match Written.int? 10 word.toList with
      | some n => plain (a (some n))
      | none => .misuse
  match v with
  | .generate =>
    plain (Command.generate ⟨placeOf w, w.flag "incremental" false, w.flag "ai" false, w.text? "deploy"⟩)
  | .watch => .run fun batches isInterrupted => Command.watch (placeOf w) batches isInterrupted
  | .preview => withPort fun port => Command.preview ⟨placeOf w, port⟩
  | .init =>
    let d : InitOptions := {}
    plain (Command.init ⟨(w.text? "path").getD d.path, (w.text? "source").getD d.source,
      w.flag "ci" true, w.flag "ai" true⟩)
  | .fill =>
    plain (Command.fill ⟨w.text? "source", w.text? "config", w.flag "dry-run" false, w.text? "style"⟩)
  | .serve => withPort fun port => Command.serve ⟨placeOf w, port, (w.text? "secret").getD ""⟩
  | .deploy =>
    match w.text? "target" with
    | some target => plain (Command.deploy ⟨w.text? "output", target, w.text? "config"⟩)
    | none => .misuse
  | .version => plain showVersion

def requestOf (words : List String) : Request :=
  match readWords commonOptions false words with
  | none => .misuse
  | some common =>
    if common.asksHelp then .help
    else
      match common.others with
      | [] => .misuse
      | name :: rest =>
        match Verb.named.lookup name with
        | none => .misuse
        | some verb =>
          match readWords verb.options true rest with
          | none => .misuse
          | some w =>
            if w.asksHelp then .help else if w.others.isEmpty then verb.request w else .misuse

def runLine (words : List String) (batches : List (Action (List Event))) (isInterrupted : Bool) :
    Action Nat := do
  match requestOf words with
  | .misuse => pure 2
  | .help => pure 0
  | .run act =>
    match ← (act batches isInterrupted).attempt with
    | .ok _ => pure 0
    | .error (.exit code) => pure code
    | .error e => throw e

end Docsmith.Command
