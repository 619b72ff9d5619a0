import PairGrep.Pattern.Program

/-!
# Searching with a program

A program is run from a place in a text by depth-first search over pairs of an instruction and a
place, each of which is entered once. The first way to acceptance in the order of preference is the
match. A search for a match tries one place after another, and a search for all matches goes on
where the last one ended.
-/

namespace PairGrep.Pattern

def isWordChar (unicode : Bool) (c : Char) : Bool :=
  if unicode then Unicode.word.contains c else c.isAlphanum || c == '_'

def inWord (unicode : Bool) (c : Option Char) : Bool :=
  match c with
  | some c => isWordChar unicode c
  | none => false

namespace Look

def holds (l : Look) (before after : Option Char) : Bool :=
  match l with
  | textStart => before.isNone
  | textEnd => after.isNone
  | lineStart => before.isNone || before == some '\n'
  | lineEnd => after.isNone || after == some '\n'
  | crlfStart => before.isNone || before == some '\n' || (before == some '\r' && after != some '\n')
  | crlfEnd => after.isNone || after == some '\r' || (after == some '\n' && before != some '\r')
  | boundary u => inWord u before != inWord u after
  | notBoundary u => inWord u before == inWord u after
  | wordStart u => !inWord u before && inWord u after
  | wordEnd u => inWord u before && !inWord u after
  | wordStartHalf u => !inWord u before
  | wordEndHalf u => !inWord u after

end Look

/-- A run of a program under way: the next instruction, the place in the text, and the places at
which marks were passed, the last one first. -/
structure Thread where
  inst : Nat
  place : Nat
  marks : List (Nat × Nat)
  deriving DecidableEq, Repr

structure Visited where
  masks : Array Nat

namespace Visited

def none (places : Nat) : Visited := ⟨Array.replicate places 0⟩

def contains (v : Visited) (place inst : Nat) : Bool := (v.masks.getD place 0).testBit inst

def insert (v : Visited) (place inst : Nat) : Visited :=
  ⟨v.masks.modify place (· ||| 1 <<< inst)⟩

end Visited

structure Match where
  start : Nat
  stop : Nat
  marks : List (Nat × Nat)
  deriving DecidableEq, Repr

namespace Program

def successors (text : Array Char) (t : Thread) : Inst → List Thread
  | .char s =>
    match text[t.place]? with
    | some c => if s.contains c then [⟨t.inst + 1, t.place + 1, t.marks⟩] else []
    | none => []
  | .look l =>
    let before := if t.place = 0 then none else text[t.place - 1]?
    if l.holds before text[t.place]? then [⟨t.inst + 1, t.place, t.marks⟩] else []
  | .mark slot => [⟨t.inst + 1, t.place, (slot, t.place) :: t.marks⟩]
  | .fork next distance =>
    let near : Thread := ⟨t.inst + 1, t.place, t.marks⟩
    let far : Thread := ⟨(t.inst + distance).toNat, t.place, t.marks⟩
    if next then [near, far] else [far, near]
  | .jump distance => [⟨(t.inst + distance).toNat, t.place, t.marks⟩]
  | .accept => []

def explore (p : Program) (text : Array Char) :
    Nat → List Thread → Visited → Option Thread × Visited
  | 0, _, visited => (none, visited)
  | _, [], visited => (none, visited)
  | fuel + 1, t :: stack, visited =>
    if visited.contains t.place t.inst then explore p text fuel stack visited
    else
      let visited := visited.insert t.place t.inst
      match p.code[t.inst]? with
      | none => explore p text fuel stack visited
      | some .accept => (some t, visited)
      | some inst => explore p text fuel (successors text t inst ++ stack) visited

def fuel (p : Program) (text : Array Char) : Nat :=
  -- Each instruction is entered once at each place, and leads to two threads at most.
  2 * p.code.size * (text.size + 1) + 2

/-- The first match that starts at one of `count` places from `start` on. What has been entered in
vain from one place is not entered again from the next. -/
def findWithin (p : Program) (text : Array Char) : Nat → Nat → Visited → Option Match
  | 0, _, _ => none
  | count + 1, start, visited =>
    match p.explore text (p.fuel text) [⟨0, start, []⟩] visited with
    | (some t, _) => some ⟨start, t.place, t.marks⟩
    | (none, visited) => findWithin p text count (start + 1) visited

def find? (p : Program) (text : Array Char) (start : Nat) : Option Match :=
  p.findWithin text (text.size + 1 - start) start (.none (text.size + 1))

/-- The next match after one that ended at `lastEnd`. An empty match there is passed over. -/
def next? (p : Program) (text : Array Char) (start : Nat) (lastEnd : Option Nat) : Option Match :=
  match p.find? text start with
  | none => none
  | some m =>
    if m.start = m.stop ∧ some m.stop = lastEnd then p.find? text (start + 1) else some m

def matchesFrom (p : Program) (text : Array Char) : Nat → Nat → Option Nat → List Match
  | 0, _, _ => []
  | fuel + 1, start, lastEnd =>
    match p.next? text start lastEnd with
    | none => []
    | some m => m :: matchesFrom p text fuel m.stop (some m.stop)

/-- All matches in a text, from left to right. After the first, each ends later than the one before
it. -/
def allMatches (p : Program) (text : Array Char) : List Match :=
  p.matchesFrom text (text.size + 2) 0 none

end Program

namespace Match

def text (m : Match) (text : Array Char) : List Char := (text.extract m.start m.stop).toList

def group? (m : Match) (text : Array Char) (index : Nat) : Option (List Char) := do
  -- The marks that were passed last stand first.
  let stop ← m.marks.lookup (2 * index + 1)
  let start ← m.marks.lookup (2 * index)
  return (text.extract start stop).toList

end Match

end PairGrep.Pattern
