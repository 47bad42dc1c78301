/-
The words of a command line as options. Long options have two dashes and take a value behind an
equals sign or as the next word; short ones have one dash and may be joined, the last of them with
its value. Two dashes alone end the options.
-/
import Docsmith.Text.Cut

namespace Docsmith.Command

/-- What an option takes: a value, nothing, or nothing and the rest does not matter. -/
inductive Taking where
  | value
  | nothing (meaning : Bool)
  | help
  deriving DecidableEq, Repr

structure OptionSpec where
  key : String
  long : List String := []
  short : List Char := []
  taking : Taking := .value
  deriving DecidableEq, Repr

inductive Given where
  | text (s : String)
  | flag (b : Bool)
  | help
  deriving DecidableEq, Repr

structure Words where
  options : List (String × Given) := []
  others : List String := []
  deriving DecidableEq, Repr

namespace Words

def withOptions (w : Words) (os : List (String × Given)) : Words :=
  { w with options := os ++ w.options }

def withOther (w : Words) (s : String) : Words := { w with others := s :: w.others }

def last? (w : Words) (key : String) : Option Given :=
  (w.options.reverse.find? fun o => o.1 == key).map Prod.snd

def text? (w : Words) (key : String) : Option String :=
  match w.last? key with
  | some (.text s) => some s
  | _ => none

def flag (w : Words) (key : String) (default : Bool) : Bool :=
  match w.last? key with
  | some (.flag b) => b
  | _ => default

def asksHelp (w : Words) : Bool := w.options.any fun o => o.2 == .help

end Words

def Taking.given? : Taking → Option Given
  | .value => none
  | .nothing meaning => some (.flag meaning)
  | .help => some .help

/-- Joined short options: what they are given, and the key of the last one if it still lacks its
value. -/
def shortOptions (specs : List OptionSpec) : List Char →
    Option (List (String × Given) × Option String)
  | [] => some ([], none)
  | c :: rest => do
    let spec ← specs.find? fun s => s.short.contains c
    match spec.taking.given? with
    | some g => do
      let (os, open?) ← shortOptions specs rest
      pure ((spec.key, g) :: os, open?)
    | none =>
      if rest.isEmpty then pure ([], some spec.key)
      else pure ([(spec.key, .text (String.ofList rest))], none)

/-- A word that starts with a dash: what it gives, and the key that still lacks its value. -/
def optionWord (specs : List OptionSpec) (word : List Char) :
    Option (List (String × Given) × Option String) :=
  let (name, value) :=
    match Text.cutFirst? '=' word with
    | some (name, value) => (name, some value)
    | none => (word, none)
  match specs.find? fun s => s.long.contains (String.ofList name) with
  | some spec =>
    match spec.taking.given?, value with
    | some g, none => some ([(spec.key, g)], none)
    | some _, some _ => none
    | none, some v => some ([(spec.key, .text (String.ofList v))], none)
    | none, none => some ([], some spec.key)
  | none =>
    match word with
    | '-' :: '-' :: _ => none
    | _ :: letters => shortOptions specs letters
    | [] => none

def isOption (word : List Char) : Bool :=
  match word with
  | '-' :: _ :: _ => true
  | _ => false

/-- Reads words as options. Unless `isMixed`, the first other word ends the options. -/
def readWords (specs : List OptionSpec) (isMixed : Bool) : List String → Option Words
  | [] => some {}
  | word :: rest =>
    if word = "--" then some { others := rest }
    else if isOption word.toList then do
      let (os, open?) ← optionWord specs word.toList
      match open? with
      | none => do
        let w ← readWords specs isMixed rest
        pure (w.withOptions os)
      | some key =>
        match rest with
        | [] => none
        | value :: rest => do
          let w ← readWords specs isMixed rest
          pure (w.withOptions (os ++ [(key, .text value)]))
    else if isMixed then do
      let w ← readWords specs isMixed rest
      pure (w.withOther word)
    else some { others := word :: rest }

end Docsmith.Command
