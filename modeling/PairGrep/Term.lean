import PairGrep.Number.Basic

/-!
# Search terms

A term is a literal text, a number or a pattern. Every term has a pattern source; the one of a
literal or a number has its special characters escaped, so that it stands for its text alone.
-/

namespace PairGrep

/-- What is searched for on one side of the pairs. -/
inductive Term where
  | literal (text : String)
  | number (value : Number)
  | pattern (source : String)
  deriving DecidableEq

def isMeta (c : Char) : Bool :=
  match c with
  | '\\' | '.' | '+' | '*' | '?' | '(' | ')' | '|' | '[' | ']' | '{' | '}' | '^' | '$' | '#'
  | '&' | '-' | '~' => true
  | _ => false

def escapeMeta (text : List Char) : List Char :=
  text.flatMap fun c => if isMeta c then ['\\', c] else [c]

namespace Term

def source : Term → List Char
  | .literal text => escapeMeta text.toList
  | .number n => escapeMeta n.searchText
  | .pattern source => source.toList

def isPattern : Term → Bool
  | .pattern _ => true
  | _ => false

/-- The source of the alternatives of a list of terms, in its order. -/
def alternatives (terms : List Term) : List Char :=
  ['|'].intercalate (terms.map source)

end Term

end PairGrep
