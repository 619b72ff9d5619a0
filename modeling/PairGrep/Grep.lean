import PairGrep.Input
import PairGrep.Matcher

/-!
# Searching a resolved input

An input is resolved once and can then be searched any number of times. If it could not be resolved,
every search fails with that same error, before any pattern is looked at.
-/

namespace PairGrep

inductive GrepError where
  | input (e : InputError)
  | pattern (e : Pattern.Error)
  deriving DecidableEq

/-- A resolved input and the matcher that it is searched with. -/
structure Grep where
  data : Except InputError String
  matcher : Matcher

namespace Grep

def new (files : Files) (input : Input) : Grep := ⟨input.resolve files, .default⟩

/-- Resolves an input after looking its path up. -/
def load (files : Files) (input : Input) : Grep := ⟨input.load files, .default⟩

def withMatcher (g : Grep) (m : Matcher) : Grep := { g with matcher := m }

def text (g : Grep) : Except InputError String := g.data

def search [Pattern.Sizing] (g : Grep) (terms : List Term) (side : Side) :
    Except GrepError (List Token) :=
  match g.data with
  | .error e => .error (.input e)
  | .ok text => (g.matcher.search text terms side).mapError .pattern

def keys [Pattern.Sizing] (g : Grep) (terms : List Term) : Except GrepError (List Token) :=
  g.search terms .keys

def values [Pattern.Sizing] (g : Grep) (terms : List Term) : Except GrepError (List Token) :=
  g.search terms .values

end Grep

end PairGrep
