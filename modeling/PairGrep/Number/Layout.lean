import PairGrep.Number.Shortest

/-!
# Decimal text

How the shortest decimal of a double is written. Near one it is written in positional notation and
always with a point; far from one with an exponent, whose sign is always written. Settings files
use a second layout, which is positional throughout and has a point only before a fraction.
-/

namespace PairGrep

namespace Decimal

def digitText (d : Decimal) : List Char := Nat.toDigits 10 d.digits

def scientificExponent (d : Decimal) : Int := d.exponent + d.digitText.length - 1

def positional (whole : List Char) (d : Decimal) : List Char :=
  let ds := d.digitText
  if 0 ≤ d.exponent then ds ++ List.replicate d.exponent.toNat '0' ++ whole
  else
    let places := (-d.exponent).toNat
    if places < ds.length then
      ds.take (ds.length - places) ++ '.' :: ds.drop (ds.length - places)
    else '0' :: '.' :: (List.replicate (places - ds.length) '0' ++ ds)

def scientific (d : Decimal) : List Char :=
  let e := d.scientificExponent
  let mantissa := match d.digitText with
    | [] => []
    | [c] => [c]
    | c :: rest => c :: '.' :: rest
  mantissa ++ 'e' :: (if 0 ≤ e then '+' else '-') :: Nat.toDigits 10 e.natAbs

end Decimal

namespace Double

def signed (x : Double) (text : List Char) : List Char :=
  if x.negative then '-' :: text else text

/-- Positional from `10 ^ -5` up to below `10 ^ 16`, scientific elsewhere. -/
def text (x : Double) : List Char :=
  let d := Decimal.shortest x
  let e := d.scientificExponent
  x.signed (if -5 ≤ e ∧ e ≤ 15 then d.positional ['.', '0'] else d.scientific)

def plainText (x : Double) : List Char :=
  x.signed ((Decimal.shortest x).positional [])

end Double

end PairGrep
