import PairGrep.Pair
import PairGrep.Term
import PairGrep.Token

/-!
# Matchers

A matcher has a pattern for keys and one for values. A search constrains one side of the pairs by
its terms, leaves the other to the matcher's pattern, and reports that other side.
-/

namespace PairGrep

def Term.ofPattern [Pattern.Sizing] (source : String) : Except Pattern.Error Term := do
  let _ ← Pattern.Program.compile source.toList
  return .pattern source

/-- The patterns of the side that a search leaves free. -/
structure Matcher where
  keyPattern : String
  valuePattern : String
  deriving DecidableEq

namespace Matcher

def default : Matcher := ⟨defaultKeyPattern, defaultValuePattern⟩

def sides (m : Matcher) (side : Side) (terms : List Term) : List Char × List Char :=
  match side with
  | .keys => (m.keyPattern.toList, Term.alternatives terms)
  | .values => (Term.alternatives terms, m.valuePattern.toList)

/-- The tokens of the pairs that the terms select. -/
def search [Pattern.Sizing] (m : Matcher) (text : String) (terms : List Term) (side : Side) :
    Except Pattern.Error (List Token) := do
  let (key, value) := m.sides side terms
  return (← scanPairs key value text.toList).map (Token.ofMatch side)

def keys [Pattern.Sizing] (m : Matcher) (text : String) (terms : List Term) :
    Except Pattern.Error (List Token) :=
  m.search text terms .keys

def values [Pattern.Sizing] (m : Matcher) (text : String) (terms : List Term) :
    Except Pattern.Error (List Token) :=
  m.search text terms .values

end Matcher

end PairGrep
