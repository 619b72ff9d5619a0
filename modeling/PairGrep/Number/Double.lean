/-!
# Finite binary64 numbers

A finite double is kept as what it is, a signed dyadic rational `± mantissa · 2 ^ exponent` in the
one form that the format has for it. Rounding of an exact quotient goes to the nearest double, a
tie to the even mantissa, and fails where the result would not be finite.
-/

namespace PairGrep

/-- The form of a finite double: 53 bits of mantissa, of which the highest is set unless the
exponent is the least one. -/
def Double.Canonical (mantissa : Nat) (exponent : Int) : Prop :=
  mantissa < 0x20000000000000 ∧ -1074 ≤ exponent ∧ exponent ≤ 971 ∧
    (0x10000000000000 ≤ mantissa ∨ exponent = -1074)

instance (mantissa : Nat) (exponent : Int) : Decidable (Double.Canonical mantissa exponent) :=
  inferInstanceAs (Decidable (_ ∧ _ ∧ _ ∧ (_ ∨ _)))

structure Double where
  negative : Bool
  mantissa : Nat
  exponent : Int
  canonical : Double.Canonical mantissa exponent
  deriving DecidableEq

namespace Double

def zero (negative : Bool) : Double := ⟨negative, 0, -1074, by decide⟩

structure Ratio where
  num : Nat
  den : Nat
  deriving DecidableEq, Repr

def Ratio.scaleTwo (r : Ratio) (e : Int) : Ratio :=
  ⟨r.num * Nat.pow 2 e.toNat, r.den * Nat.pow 2 (-e).toNat⟩

def Ratio.scaleTen (r : Ratio) (e : Int) : Ratio :=
  ⟨r.num * Nat.pow 10 e.toNat, r.den * Nat.pow 10 (-e).toNat⟩

def Ratio.floor (r : Ratio) : Nat := r.num / r.den

def Ratio.nearest (r : Ratio) : Nat :=
  let q := r.num / r.den
  let twice := 2 * (r.num % r.den)
  if twice < r.den then q else if r.den < twice then q + 1 else q + q % 2

def magnitude (x : Double) : Ratio := (Ratio.mk x.mantissa 1).scaleTwo x.exponent

/-- The exponent of the grid on which a positive quotient is rounded: the least one, from `-1074`
upwards, on which its floor has no more than 53 bits. -/
def gridExponent (r : Ratio) : Int :=
  let e := max (-1074) ((Nat.log2 r.num : Int) - Nat.log2 r.den - 53)
  if (r.scaleTwo (-e)).floor < 0x20000000000000 then e else e + 1

def round? (negative : Bool) (r : Ratio) : Option Double :=
  let e := if r.num = 0 then -1074 else gridExponent r
  let m := (r.scaleTwo (-e)).nearest
  if h : Canonical m e then some ⟨negative, m, e, h⟩
  else if h : m = 0x20000000000000 ∧ Canonical 0x10000000000000 (e + 1) then
    some ⟨negative, 0x10000000000000, e + 1, h.2⟩
  else none

/-- The double nearest to `± digits · 10 ^ exponent`. Far outside the range of doubles the power is
not computed: the result is zero or there is none. -/
def ofDecimal? (negative : Bool) (digits : Nat) (exponent : Int) : Option Double :=
  if digits = 0 ∨ exponent < -400 - (Nat.log2 digits : Int) then some (zero negative)
  else if 400 < exponent then none
  else round? negative ((Ratio.mk digits 1).scaleTen exponent)

def sameValue (x y : Double) : Bool :=
  x == y || (x.mantissa == 0 && y.mantissa == 0)

def toInt? (x : Double) : Option Int :=
  let r := x.magnitude
  if r.num % r.den = 0 then some (if x.negative then -(r.floor : Int) else r.floor) else none

end Double

end PairGrep
