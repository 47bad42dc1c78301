/-
A document as a tree of nodes, each with its kind and a number. An alias stands for the node with
its anchor, so that two nodes with one number are one node in two places.
-/
import Docsmith.Yaml.Tag
import Docsmith.Yaml.Token

namespace Docsmith.Yaml

inductive Node where
  | scalar (number : Nat) (tag : Tag) (text : List Char)
  | sequence (number : Nat) (tag : Tag) (items : List Node)
  | mapping (number : Nat) (tag : Tag) (entries : List (Node × Node))

def Node.tag : Node → Tag
  | scalar _ tag _ | sequence _ tag _ | mapping _ tag _ => tag

/-- What is left to read, the number of the next node, the nodes by their anchors, and what handles
of tags stand for. -/
structure Reading where
  tokens : List Token
  next : Nat := 1
  anchors : List (List Char × Node) := []
  handles : List (List Char × List Char) := []

abbrev Composer (α : Type) := StateT Reading Option α

namespace Composer

def peek : Composer (Option Token) := do
  let r ← get
  pure r.tokens.head?

def sees (ts : List Token) : Composer Bool := do
  let next ← peek
  pure (ts.any fun t => next == some t)

def skip : Composer Unit := modify fun r => { r with tokens := r.tokens.tail }

def takes (t : Token) : Composer Bool := do
  let found ← sees [t]
  if found then skip
  pure found

def nothing : Node := .scalar 0 .null []

def numbered (n : Nat → Node) : Composer Node := do
  let r ← get
  set { r with next := r.next + 1 }
  pure (n r.next)

def properties : Composer (Option (List Char) × Option (Option (List Char) × List Char)) := do
  match ← peek with
  | some (.anchor name) =>
    skip
    match ← peek with
    | some (.tag handle rest) =>
      skip
      pure (some name, some (handle, rest))
    | _ => pure (some name, none)
  | some (.tag handle rest) =>
    skip
    match ← peek with
    | some (.anchor name) =>
      skip
      pure (some name, some (handle, rest))
    | _ => pure (none, some (handle, rest))
  | _ => pure (none, none)

/-- The name of a tag. The single exclamation mark names none. -/
def tagName (tag : Option (Option (List Char) × List Char)) : Composer (Option (List Char)) := do
  match tag with
  | none => pure none
  | some (none, rest) => pure (some rest)
  | some (some handle, rest) =>
    let r ← get
    match r.handles.lookup handle with
    | some lead => pure (some (lead ++ rest))
    | none => failure

/-- Numbers a node and records it under its anchor, which is a new one. -/
def register (anchor : Option (List Char)) (n : Nat → Node) : Composer Node := do
  let n ← numbered n
  match anchor with
  | none => pure n
  | some name =>
    let r ← get
    if (r.anchors.lookup name).isSome then failure
    else
      set { r with anchors := (name, n) :: r.anchors }
      pure n

def tagOr (name : Option (List Char)) (default : Tag) : Tag :=
  match name with
  | none | some ['!'] => default
  | some name => .ofName (String.ofList name)

/-- Which nodes may stand at a place: only those in brackets and scalars; blocks too; and sequences
without an indentation of their own too. -/
inductive Room where
  | flow
  | block
  | blockOrEntries
  deriving DecidableEq, Repr

mutual

/-- The next node. The fuel is enough for all tokens, so no document nests too deep. -/
def node : (fuel : Nat) → Room → Composer Node
  | 0, _ => failure
  | fuel + 1, room => do
    match ← peek with
    | some (.alias name) =>
      skip
      let r ← get
      match r.anchors.lookup name with
      | some n => pure n
      | none => failure
    | _ =>
      let (anchor, tag) ← properties
      let name ← tagName tag
      let next ← peek
      if room = .blockOrEntries ∧ next = some .blockEntry then
        let items ← entries fuel
        register anchor (.sequence · (tagOr name .seq) items)
      else
        match next with
        | some (.scalar isPlain text) =>
          skip
          let form :=
            if (isPlain && name.isNone) || name == some ['!'] then formTag text else .str
          register anchor (.scalar · (tagOr name form) text)
        | some .flowSequence =>
          skip
          let items ← flowItems fuel true
          register anchor (.sequence · (tagOr name .seq) items)
        | some .flowMapping =>
          skip
          let pairs ← flowPairs fuel true
          register anchor (.mapping · (tagOr name .map) pairs)
        | some .blockSequence =>
          if room = .flow then failure
          else
            skip
            let items ← blockItems fuel
            register anchor (.sequence · (tagOr name .seq) items)
        | some .blockMapping =>
          if room = .flow then failure
          else
            skip
            let pairs ← blockPairs fuel
            register anchor (.mapping · (tagOr name .map) pairs)
        | _ =>
          if anchor.isSome || name.isSome then register anchor (.scalar · (tagOr name .null) [])
          else failure

def nodeUnless : (fuel : Nat) → Room → List Token → Composer Node
  | 0, _, _ => failure
  | fuel + 1, room, stops => do
    let stopped ← sees stops
    if stopped then pure nothing else node fuel room

def blockItems : (fuel : Nat) → Composer (List Node)
  | 0 => failure
  | fuel + 1 => do
    if ← takes .blockEntry then
      let item ← nodeUnless fuel .block [.blockEntry, .blockEnd]
      let items ← blockItems fuel
      pure (item :: items)
    else if ← takes .blockEnd then pure []
    else failure

def entries : (fuel : Nat) → Composer (List Node)
  | 0 => failure
  | fuel + 1 => do
    if ← takes .blockEntry then
      let item ← nodeUnless fuel .block [.blockEntry, .key, .value, .blockEnd]
      let items ← entries fuel
      pure (item :: items)
    else pure []

def blockPairs : (fuel : Nat) → Composer (List (Node × Node))
  | 0 => failure
  | fuel + 1 => do
    if ← takes .key then
      let k ← nodeUnless fuel .blockOrEntries [.key, .value, .blockEnd]
      let v ← blockValue fuel
      let pairs ← blockPairs fuel
      pure ((k, v) :: pairs)
    else if ← takes .blockEnd then pure []
    else failure

def blockValue : (fuel : Nat) → Composer Node
  | 0 => failure
  | fuel + 1 => do
    if ← takes .value then nodeUnless fuel .blockOrEntries [.key, .value, .blockEnd]
    else pure nothing

def flowItems : (fuel : Nat) → (first : Bool) → Composer (List Node)
  | 0, _ => failure
  | fuel + 1, first => do
    if ← takes .flowSequenceEnd then pure []
    else
      let separated ← if first then pure true else takes .flowEntry
      if !separated then failure
      else if ← takes .key then
        let k ← nodeUnless fuel .flow [.value, .flowEntry, .flowSequenceEnd]
        let v ← flowValue fuel [.flowEntry, .flowSequenceEnd]
        let item ← numbered (.mapping · .map [(k, v)])
        let items ← flowItems fuel false
        pure (item :: items)
      else if ← takes .flowSequenceEnd then pure []
      else
        let item ← node fuel .flow
        let items ← flowItems fuel false
        pure (item :: items)

def flowPairs : (fuel : Nat) → (first : Bool) → Composer (List (Node × Node))
  | 0, _ => failure
  | fuel + 1, first => do
    if ← takes .flowMappingEnd then pure []
    else
      let separated ← if first then pure true else takes .flowEntry
      if !separated then failure
      else if ← takes .key then
        let k ← nodeUnless fuel .flow [.value, .flowEntry, .flowMappingEnd]
        let v ← flowValue fuel [.flowEntry, .flowMappingEnd]
        let pairs ← flowPairs fuel false
        pure ((k, v) :: pairs)
      else if ← takes .flowMappingEnd then pure []
      else
        let k ← node fuel .flow
        let pairs ← flowPairs fuel false
        pure ((k, nothing) :: pairs)

def flowValue : (fuel : Nat) → List Token → Composer Node
  | 0, _ => failure
  | fuel + 1, stops => do
    if ← takes .value then nodeUnless fuel .flow stops else pure nothing

end

def knownHandles : List (List Char × List Char) :=
  [(['!'], ['!']), (['!', '!'], Tag.standard.toList)]

def directives : (fuel : Nat) → (versioned : Bool) → Composer Unit
  | 0, _ => failure
  | fuel + 1, versioned => do
    match ← peek with
    | some (.version major) =>
      if versioned || major != 1 then failure
      else
        skip
        directives fuel true
    | some (.handle handle lead) =>
      let r ← get
      if (r.handles.lookup handle).isSome then failure
      else
        set { r with tokens := r.tokens.tail, handles := (handle, lead) :: r.handles }
        directives fuel versioned
    | some .directive =>
      skip
      directives fuel versioned
    | _ => modify fun r => { r with handles := r.handles ++ knownHandles }

def isOpening : Token → Bool
  | .version _ | .handle _ _ | .directive | .documentStart => true
  | _ => false

def document (fuel : Nat) : Composer (Option Node) := do
  match ← peek with
  | none => pure none
  | some t =>
    if isOpening t then
      directives fuel false
      if ← takes .documentStart then
        match ← peek with
        | none | some .documentEnd => pure (some nothing)
        | some t =>
          if isOpening t then pure (some nothing)
          else
            let n ← node fuel .block
            pure (some n)
      else failure
    else
      modify fun r => { r with handles := knownHandles }
      let n ← node fuel .block
      pure (some n)

def finish : Composer Unit := do
  let r ← get
  if r.tokens.all (· == .documentEnd) then pure () else failure

end Composer

/-- The document that tokens make. The outer `none` is a failure. -/
def Node.ofTokens? (tokens : List Token) : Option (Option Node) :=
  let read : Composer (Option Node) := do
    let n ← Composer.document (4 * tokens.length + 8)
    Composer.finish
    pure n
  (read.run { tokens }).map Prod.fst

end Docsmith.Yaml
