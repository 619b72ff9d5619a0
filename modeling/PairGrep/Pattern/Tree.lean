import PairGrep.Pattern.Error

/-!
# Pattern trees

The form of a pattern as its source spells it, with flags and classes not yet looked up. Sequences,
alternatives and the items of a class are nested to the right; a chain of them is one level of
nesting.
-/

namespace PairGrep.Pattern

inductive Flag where
  | caseInsensitive
  | multiLine
  | dotAll
  | swapGreed
  | unicode
  | verbose
  | crlf
  deriving DecidableEq, Repr

abbrev FlagChange := List (Flag × Bool)

/-- A character as a literal; `asByte` if it was written as two hexadecimal digits, which stand for
a byte where Unicode is off. -/
structure Literal where
  char : Char
  asByte : Bool
  deriving DecidableEq, Repr

inductive ShortClass where
  | digit
  | space
  | word
  deriving DecidableEq, Repr

inductive AsciiClass where
  | alnum
  | alpha
  | ascii
  | blank
  | cntrl
  | digit
  | graph
  | lower
  | print
  | punct
  | space
  | upper
  | word
  | xdigit
  deriving DecidableEq, Repr

structure PropertyQuery where
  negated : Bool
  name : String
  value? : Option String
  deriving DecidableEq, Repr

inductive ClassOp where
  | intersection
  | difference
  | symmetricDifference
  deriving DecidableEq, Repr

inductive ClassTree where
  | empty
  | literal (l : Literal)
  | range (lo hi : Literal)
  | ascii (negated : Bool) (name : AsciiClass)
  | short (negated : Bool) (name : ShortClass)
  | property (query : PropertyQuery)
  | bracket (negated : Bool) (inside : ClassTree)
  | union (first rest : ClassTree)
  | op (kind : ClassOp) (lhs rhs : ClassTree)
  deriving DecidableEq, Repr

/-- What an assertion asks for, before flags are known. -/
inductive Anchor where
  | lineStart
  | lineEnd
  | textStart
  | textEnd
  | boundary
  | notBoundary
  | wordStart
  | wordEnd
  | wordStartHalf
  | wordEndHalf
  deriving DecidableEq, Repr

/-- A pattern as it is spelled. -/
inductive Tree where
  | empty
  | flags (change : FlagChange)
  | literal (l : Literal)
  | dot
  | anchor (a : Anchor)
  | short (negated : Bool) (name : ShortClass)
  | property (query : PropertyQuery)
  | bracket (negated : Bool) (inside : ClassTree)
  | repeated (min : Nat) (max : Option Nat) (greedy : Bool) (body : Tree)
  | capture (index : Nat) (body : Tree)
  | scope (change : FlagChange) (body : Tree)
  | cat (first rest : Tree)
  | alt (first rest : Tree)
  deriving DecidableEq, Repr

namespace ClassTree

def depths : ClassTree → Nat × Nat
  | bracket _ inside => (inside.depths.1 + 1, inside.depths.1 + 1)
  | union first rest =>
    let d := max first.depths.1 rest.depths.2
    (d + 1, d)
  | op _ lhs rhs =>
    let d := max lhs.depths.1 rhs.depths.1 + 1
    (d, d)
  | _ => (0, 0)

def depth (t : ClassTree) : Nat := t.depths.1

end ClassTree

namespace Tree

def depths : Tree → Nat × Nat × Nat
  | bracket _ inside =>
    let d := inside.depth + 1
    (d, d, d)
  | repeated _ _ _ body | capture _ body | scope _ body =>
    let d := body.depths.1 + 1
    (d, d, d)
  | cat first rest =>
    let d := max first.depths.1 rest.depths.2.1
    (d + 1, d, d + 1)
  | alt first rest =>
    let d := max first.depths.1 rest.depths.2.2
    (d + 1, d + 1, d)
  | _ => (0, 0, 0)

def depth (t : Tree) : Nat := t.depths.1

def cons (first rest : Tree) : Tree :=
  match rest with
  | .empty => first
  | rest => .cat first rest

end Tree

end PairGrep.Pattern
