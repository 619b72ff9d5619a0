import PairGrep.Number.Layout

/-!
# Numbers

A number is an integer that fits in 64 bits, signed or unsigned, or a finite double. A double is a
number of its own kind even where its value is whole.
-/

namespace PairGrep

def Fits64 (n : Int) : Prop := -0x8000000000000000 ≤ n ∧ n < 0x10000000000000000

instance (n : Int) : Decidable (Fits64 n) := inferInstanceAs (Decidable (_ ∧ _))

/-- A number as documents and terms hold it. -/
inductive Number where
  | int (value : Int) (fits : Fits64 value)
  | float (value : Double)
  deriving DecidableEq

namespace Number

def ofInt? (n : Int) : Option Number :=
  if h : Fits64 n then some (.int n h) else none

def intText (n : Int) : List Char :=
  if n < 0 then '-' :: Nat.toDigits 10 n.natAbs else Nat.toDigits 10 n.natAbs

def text : Number → List Char
  | .int n _ => intText n
  | .float x => x.text

def same : Number → Number → Bool
  | .int m _, .int n _ => m == n
  | .float x, .float y => x.sameValue y
  | _, _ => false

/-- The text under which a number is searched. A whole double below `2 ^ 53` is written as the
integer that it is, all else as itself. -/
def searchText : Number → List Char
  | .int n h => text (.int n h)
  | .float x =>
    match x.toInt? with
    | some n => if n.natAbs < 0x20000000000000 then intText n else x.text
    | none => x.text

end Number

end PairGrep
