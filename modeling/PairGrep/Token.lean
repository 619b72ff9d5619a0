import PairGrep.Number.Reading
import PairGrep.Json.Value
import PairGrep.Text.Blank

/-!
# Tokens

A token is what a search reports of a matched pair: its key, or its value as a number where it
spells one. The matched text is first stripped of punctuation and blanks, then cut at its first
colon.
-/

namespace PairGrep

inductive Side where
  | keys
  | values
  deriving DecidableEq, Repr

inductive Token where
  | text (text : String)
  | number (value : Number)
  deriving DecidableEq

def isStripped (c : Char) : Bool :=
  c == '"' || c == ',' || c == '}' || c == ']' || isBlank c

/-- Removes quotes, commas, closing brackets and braces, and blanks. -/
def strip (text : List Char) : List Char := text.filter fun c => !isStripped c

namespace Token

def ofText (text : List Char) : Token :=
  match Number.read? text with
  | some n => .number n
  | none => .text (String.ofList text)

/-- The part of a matched pair that is asked for. Without a colon all of it is key. -/
def ofMatch (side : Side) (matched : List Char) : Token :=
  let stripped := strip matched
  match side with
  | .keys => .text (String.ofList (stripped.takeWhile (· != ':')))
  | .values => ofText ((stripped.dropWhile (· != ':')).drop 1)

def display : Token → String
  | .text s => s
  | .number n => String.ofList n.text

def number? : Token → Option Number
  | .text _ => none
  | .number n => some n

def same : Token → Token → Bool
  | .text s, .text t => s == t
  | .number m, .number n => m.same n
  | _, _ => false

def toValue : Token → Json.Value
  | .text s => .string s
  | .number n => .number n

end Token

end PairGrep
