/-
Patterns over text, matched from left to right with ordered choice.

A pattern is tried at a `Cursor`; it may match in several ways, and the ways have an order: an
earlier alternative before a later one, a longer run before a shorter one (or the other way round
for a reluctant run), one more round of a repetition before none. `run` hands the ways to a
continuation in that order and keeps the first that it accepts, so what follows a pattern decides
which way the pattern itself is taken.
-/
namespace Docsmith

/-- A place in a text: the character before it, the text after it and its position. -/
structure Cursor where
  before : Option Char
  rest : List Char
  pos : Nat
  deriving DecidableEq, Repr

namespace Cursor

def ofText (cs : List Char) : Cursor := ⟨none, cs, 0⟩

/-- The places reached over characters that satisfy `accepts`, the farthest first. -/
def ahead (accepts : Char → Bool) (before : Option Char) (pos : Nat) :
    List Char → List Cursor → List Cursor
  | [], nearer => ⟨before, [], pos⟩ :: nearer
  | c :: cs, nearer =>
    if accepts c then ahead accepts (some c) (pos + 1) cs (⟨before, c :: cs, pos⟩ :: nearer)
    else ⟨before, c :: cs, pos⟩ :: nearer

/-- The places after a run of at least `least` characters that satisfy `accepts`, in the order in
which they are tried. -/
def stops (accepts : Char → Bool) (least : Nat) (greedy : Bool) (c : Cursor) : List Cursor :=
  let far := (ahead accepts c.before c.pos c.rest []).filter fun d => c.pos + least ≤ d.pos
  if greedy then far else far.reverse

end Cursor

structure Capture where
  group : Nat
  start : Cursor
  stop : Nat

namespace Capture

def text (g : Capture) : List Char := g.start.rest.take (g.stop - g.start.pos)

end Capture

inductive Pattern where
  | empty
  | one (accepts : Char → Bool)
  /-- A run of characters of a set, the longest first if `greedy`. -/
  | chars (accepts : Char → Bool) (least : Nat) (greedy : Bool)
  | seq (p q : Pattern)
  | alt (p q : Pattern)
  /-- Any number of rounds of a pattern, as many as possible first. -/
  | many (p : Pattern)
  | group (n : Nat) (p : Pattern)
  | lineStart
  | textStart
  /-- A place between a character of the set and anything else. -/
  | edge (accepts : Char → Bool)

namespace Pattern

instance : Append Pattern := ⟨seq⟩

/-- Rounds of `step` from `c` on, each of which must move ahead, and then `k`. As a round moves
ahead by one character at least, the text after `c` bounds their number. -/
def rounds {β : Type} (step : Cursor → List Capture → (Cursor → List Capture → Option β) → Option β)
    (k : Cursor → List Capture → Option β) : List Char → Cursor → List Capture → Option β
  | [], c, gs => k c gs
  | _ :: room, c, gs =>
    match step c gs fun d hs => if c.pos < d.pos then rounds step k room d hs else none with
    | some r => some r
    | none => k c gs

/-- The first way to match `p` at `c` that `k` accepts. -/
def run {β : Type} :
    Pattern → Cursor → List Capture → (Cursor → List Capture → Option β) → Option β
  | empty, c, gs, k => k c gs
  | one accepts, c, gs, k =>
    match c.rest with
    | x :: xs => if accepts x then k ⟨some x, xs, c.pos + 1⟩ gs else none
    | [] => none
  | chars accepts least greedy, c, gs, k =>
    (c.stops accepts least greedy).findSome? fun d => k d gs
  | seq p q, c, gs, k => p.run c gs fun d hs => q.run d hs k
  | alt p q, c, gs, k =>
    match p.run c gs k with
    | some r => some r
    | none => q.run c gs k
  | many p, c, gs, k => rounds (fun d hs k' => p.run d hs k') k c.rest c gs
  | group n p, c, gs, k => p.run c gs fun d hs => k d (⟨n, c, d.pos⟩ :: hs)
  | lineStart, c, gs, k => if c.before.all (· == '\n') then k c gs else none
  | textStart, c, gs, k => if c.before.isNone then k c gs else none
  | edge accepts, c, gs, k =>
    if c.before.any accepts != c.rest.head?.any accepts then k c gs else none

theorem run_empty {β : Type} (c : Cursor) (gs : List Capture)
    (k : Cursor → List Capture → Option β) : empty.run c gs k = k c gs := by
  rw [run]

/-! ## Building patterns -/

def opt (p : Pattern) : Pattern := alt p empty

def many1 (p : Pattern) : Pattern := seq p (many p)

def lit (s : String) : Pattern :=
  s.toList.foldr (fun c p => seq (one (· == c)) p) empty

def oneOf : List String → Pattern
  | [] => one fun _ => false
  | [s] => lit s
  | s :: ss => alt (lit s) (oneOf ss)

def run0 (accepts : Char → Bool) : Pattern := chars accepts 0 true

def run1 (accepts : Char → Bool) : Pattern := chars accepts 1 true

end Pattern

structure Match where
  start : Cursor
  stop : Cursor
  groups : List Capture

namespace Match

/-- The text of group `n`, if the group took part; the last round counts. -/
def group? (m : Match) (n : Nat) : Option (List Char) :=
  (m.groups.find? fun g => g.group == n).map Capture.text

def group (m : Match) (n : Nat) : List Char := (m.group? n).getD []

def name (m : Match) (n : Nat) : String := String.ofList (m.group n)

end Match

namespace Pattern

def matchAt (p : Pattern) (c : Cursor) : Option Match :=
  p.run c [] fun d gs => some ⟨c, d, gs⟩

/-- The matches of `p` from a place on that start no earlier than `next`, from left to right, none
over another. -/
def scan (p : Pattern) (next : Nat) (before : Option Char) (pos : Nat) : List Char → List Match
  | [] =>
    if pos < next then [] else ((p.matchAt ⟨before, [], pos⟩).map fun m => [m]).getD []
  | c :: cs =>
    if pos < next then scan p next (some c) (pos + 1) cs
    else
      match p.matchAt ⟨before, c :: cs, pos⟩ with
      | some m => m :: scan p (max m.stop.pos (pos + 1)) (some c) (pos + 1) cs
      | none => scan p next (some c) (pos + 1) cs

def findAll (p : Pattern) (cs : List Char) : List Match := p.scan 0 none 0 cs

def seek (p : Pattern) (before : Option Char) (pos : Nat) : List Char → Option Match
  | [] => p.matchAt ⟨before, [], pos⟩
  | c :: cs =>
    match p.matchAt ⟨before, c :: cs, pos⟩ with
    | some m => some m
    | none => p.seek (some c) (pos + 1) cs

def find? (p : Pattern) (cs : List Char) : Option Match := p.seek none 0 cs

def erase (p : Pattern) (cs : List Char) : List Char :=
  let ms := p.findAll cs
  let kept := cs.zipIdx.filter fun (_, i) => !ms.any fun m => m.start.pos ≤ i && i < m.stop.pos
  kept.map Prod.fst

end Pattern

end Docsmith
