import PairGrep.Pattern.Expr

/-!
# The size of a program

The engine refuses an expression whose program takes too many bytes. What it counts depends on how
it builds programs, so the count is a parameter of everything that compiles. To run at all, one
count is given here: 32 bytes for a state, of which each byte of a literal takes one, and the
literals of a choice share theirs. Only sets with wide characters are estimated.
-/

namespace PairGrep.Pattern

/-- How many bytes the engine counts for the program of an expression. -/
class Sizing where
  bytes : Expr → Nat

/-- The tree of the literals of a choice. A node is a row of edges, cut into runs wherever a literal
ends. -/
inductive Trie where
  | nil
  | ends (rest : Trie)
  | edge (byte : UInt8) (child rest : Trie)

namespace Trie

def path : List UInt8 → Trie
  | [] => ends nil
  | b :: bytes => edge b (path bytes) nil

/-- The tree with a literal in front. Only edges of the first run are shared, so that the order of
preference is kept. -/
def insert : List UInt8 → Trie → Trie
  | [], t => ends t
  | b :: bytes, nil => edge b (path bytes) nil
  | b :: bytes, ends rest => edge b (path bytes) (ends rest)
  | b :: bytes, edge c child rest =>
    if b = c then edge c (child.insert bytes) rest else edge c child (rest.insert (b :: bytes))

def isLeaf : Trie → Bool
  | nil => true
  | ends rest => rest.isLeaf
  | edge .. => false

/-- The bytes of a row, some edges of its first run being counted before. A run of one edge is a state
of 32 bytes and a fork to it, and further edges take their place in it. -/
def rowBytes (before : Nat) : Trie → Nat
  | nil => 0
  | ends rest => rest.rowBytes 0 + 4
  | edge _ child rest =>
    (if before = 0 then 36 else if before = 1 then 16 else 8) +
      (if child.isLeaf then 0 else child.rowBytes 0 + 32) + rest.rowBytes (before + 1)

def bytes (t : Trie) : Nat := if t.isLeaf then 0 else t.rowBytes 0 + 32

def literalBytes (backward : Bool) (literal : List Char) : List UInt8 :=
  let bytes := literal.flatMap String.utf8EncodeChar
  if backward then bytes.reverse else bytes

/-- The tree of literals in the order of their preference. -/
def ofLiterals (backward : Bool) (literals : List (List Char)) : Trie :=
  literals.foldr (fun literal t => t.insert (literalBytes backward literal)) nil

end Trie

def CharSet.stateBytes (s : CharSet) : Nat :=
  match s.single? with
  | some c => 32 * c.utf8Size
  | none =>
    let wide := (s.ranges.filter fun r => 0x7F < r.2).length
    -- Ranges of ASCII share a state; the others need a small tree of them.
    64 + 8 * s.ranges.length + if wide = 0 then 0 else 200 + 56 * wide

namespace Expr

def literal? : Expr → Option (List Char)
  | set s => s.single?.map ([·])
  | cat first rest => do return (← first.literal?) ++ (← rest.literal?)
  | _ => none

def literals? : Expr → Option (List (List Char))
  | alt first rest => do return (← first.literals?) ++ (← rest.literals?)
  | e => e.literal?.map ([·])

/-- The bytes of the states of an expression. Programs are built in both directions, and groups are
captured forward only. The branches of a branch are branches of one choice with it. -/
def stateBytes (backward branch : Bool) : Expr → Nat
  | empty | look _ => 32
  | set s => s.stateBytes
  | capture _ body => body.stateBytes backward false + if backward then 0 else 64
  | cat first rest => first.stateBytes backward false + rest.stateBytes backward false
  | alt first rest =>
    let sum := first.stateBytes backward true + rest.stateBytes backward true
    if branch then sum
    else match (alt first rest).literals? with
      | some literals => (Trie.ofLiterals backward literals).bytes + 32
      | none => sum + 4 * (alt first rest).branches.length + 64
  | repeated min max _ body =>
    let round := body.stateBytes backward false
    match max with
    | none => Nat.max 1 min * round + 40
    | some max => min * round + if min = max then 0 else (max - min) * (round + 40) + 32

end Expr

/-- Beside its states a program has those of a match, of the places before it and, forward, of the
capture of it all. -/
instance : Sizing :=
  ⟨fun e => max (e.stateBytes false false + 208) (e.stateBytes true false + 144)⟩

end PairGrep.Pattern
