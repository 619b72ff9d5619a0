import PairGrep.Number.Basic

/-!
# Reading numbers

The decimal notation of a bare number: an optional sign, digits with an optional point, and an
optional exponent. A text of a sign and digits alone is an integer if it fits in 64 bits; any other
text of the notation is the nearest double, if that is finite.
-/

namespace PairGrep

def isDigit (c : Char) : Bool := '0' ≤ c && c ≤ '9'

def digitsValue (ds : List Char) : Nat :=
  ds.foldl (fun n c => n * 10 + (c.toNat - '0'.toNat)) 0

def splitSign : List Char → Bool × List Char
  | '-' :: cs => (true, cs)
  | '+' :: cs => (false, cs)
  | cs => (false, cs)

def signedInt (negative : Bool) (n : Nat) : Int := if negative then -(n : Int) else n

def readInt? (text : List Char) : Option Int :=
  let (negative, ds) := splitSign text
  if ds ≠ [] ∧ ds.all isDigit then some (signedInt negative (digitsValue ds)) else none

structure DecimalNotation where
  negative : Bool
  whole : List Char
  fraction : List Char
  exponent : Int
  deriving DecidableEq, Repr

def readExponent? : List Char → Option Int
  | [] => some 0
  | c :: cs => if c = 'e' ∨ c = 'E' then readInt? cs else none

/-- Reads decimal notation; digits must stand before the point or after it. -/
def DecimalNotation.read? (text : List Char) : Option DecimalNotation :=
  let (negative, cs) := splitSign text
  let whole := cs.takeWhile isDigit
  let afterWhole := cs.dropWhile isDigit
  let (fraction, tail) := match afterWhole with
    | '.' :: r => (r.takeWhile isDigit, r.dropWhile isDigit)
    | r => ([], r)
  if whole = [] ∧ fraction = [] then none
  else (readExponent? tail).map fun exponent => ⟨negative, whole, fraction, exponent⟩

def DecimalNotation.toDouble? (d : DecimalNotation) : Option Double :=
  Double.ofDecimal? d.negative (digitsValue (d.whole ++ d.fraction))
    (d.exponent - d.fraction.length)

/-- The number that a text spells as a whole. -/
def Number.read? (text : List Char) : Option Number :=
  ((readInt? text).bind Number.ofInt?).orElse fun _ =>
    ((DecimalNotation.read? text).bind DecimalNotation.toDouble?).map Number.float

end PairGrep
