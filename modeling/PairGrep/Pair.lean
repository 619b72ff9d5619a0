import PairGrep.Pattern.Search

/-!
# Pairs

A pair is a key, a colon and a value, with quotes around either that may be missing. The pattern of
pairs holds the pattern of the key as its first capture and the pattern of the value as its second.
-/

namespace PairGrep

open Pattern

def defaultKeyPattern : String := "[a-zA-Z0-9_\\-]*"

def defaultValuePattern : String := "\"?[^\",]*(?:[\",]|$)"

/-- The source of the pattern of pairs with given patterns of key and value. -/
def pairSource (key value : List Char) : List Char :=
  ['"', '?', '('] ++ key ++ [')', '"', '?', ':', '\\', 's', '*', '"', '?', '('] ++ value ++
    [')', '"', '?']

def scanPairs [Sizing] (key value text : List Char) : Except Pattern.Error (List (List Char)) := do
  let program ← Program.compile (pairSource key value)
  let text := text.toArray
  return (program.allMatches text).map (·.text text)

end PairGrep
