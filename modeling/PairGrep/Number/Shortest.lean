import PairGrep.Number.Double

/-!
# Shortest decimals

The decimal of a double with the fewest digits that reads back as the double, and of those the
nearest to it. For one, two, … seventeen digits the two neighbours of the number on the decimal
grid with that many digits are tried; a double that no such grid holds is written out exactly.
-/

namespace PairGrep

structure Decimal where
  digits : Nat
  exponent : Int
  deriving DecidableEq, Repr

namespace Decimal

def digitCount (n : Nat) : Nat := (Nat.toDigits 10 n).length

def leadingExponent (r : Double.Ratio) : Int :=
  if r.den ≤ r.num then (digitCount r.floor : Int) - 1
  else
    let k := digitCount (r.den / r.num)
    if r.den ≤ r.num * Nat.pow 10 (k - 1) then -((k : Int) - 1) else -(k : Int)

def trim (fuel : Nat) (d : Decimal) : Decimal :=
  match fuel with
  | 0 => d
  | fuel + 1 =>
    if d.digits ≠ 0 ∧ d.digits % 10 = 0 then trim fuel ⟨d.digits / 10, d.exponent + 1⟩ else d

def reads (x : Double) (d : Decimal) : Bool :=
  Double.ofDecimal? x.negative d.digits d.exponent == some x

/-- The double's neighbours on the grid with the given number of digits, the nearer one first and
the even one first where they are equally near. -/
def neighbours (x : Double) (count : Nat) : List Decimal :=
  let e := leadingExponent x.magnitude - count + 1
  let r := x.magnitude.scaleTen (-e)
  let below : Decimal := ⟨r.floor, e⟩
  let above : Decimal := ⟨r.floor + 1, e⟩
  if r.nearest = r.floor then [below, above] else [above, below]

def exact (x : Double) : Decimal :=
  if 0 ≤ x.exponent then ⟨x.mantissa * Nat.pow 2 x.exponent.toNat, 0⟩
  else ⟨x.mantissa * Nat.pow 5 (-x.exponent).toNat, x.exponent⟩

/-- The first neighbour, on grids of more and more digits, that reads back. -/
def shortest (x : Double) : Decimal :=
  if x.mantissa = 0 then ⟨0, 0⟩
  else
    let tried := (List.range 17).flatMap fun k => neighbours x (k + 1)
    let found := (tried.find? (reads x)).getD (exact x)
    trim (digitCount found.digits) found

end Decimal

end PairGrep
