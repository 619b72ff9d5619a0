import PairGrep.Json.Lexeme

/-!
# Numerals of documents

The number that a numeral of a document stands for. Digits alone are an integer if it fits in 64
bits. Any other numeral is a double, found in rounded steps: the leading digits that fit in a
64-bit significand, then its product with a power of ten, or its quotient by one.
-/

namespace PairGrep.Json

structure Scaled where
  significand : Nat
  exponent : Int
  deriving DecidableEq, Repr

namespace Scaled

def hasRoom (s : Scaled) (c : Char) : Bool :=
  decide (s.significand * 10 + (c.toNat - '0'.toNat) < 0x10000000000000000)

def append (s : Scaled) (c : Char) (places : Int) : Scaled :=
  ⟨s.significand * 10 + (c.toNat - '0'.toNat), s.exponent - places⟩

/-- Takes in the digits before the point; from the first that does not fit, each one scales. -/
def addWhole (s : Scaled) : List Char → Scaled
  | [] => s
  | c :: rest =>
    if s.hasRoom c then addWhole (s.append c 0) rest
    else ⟨s.significand, s.exponent + (rest.length + 1)⟩

/-- Takes in the digits after the point; from the first that does not fit, all are dropped. -/
def addFraction (s : Scaled) : List Char → Scaled
  | [] => s
  | c :: rest => if s.hasRoom c then addFraction (s.append c 1) rest else s

end Scaled

def doubleOfNat? (n : Nat) : Option Double := Double.round? false ⟨n, 1⟩

def timesPower (x : Double) (k : Nat) : Option Double := do
  let p ← Double.round? false ⟨Nat.pow 10 k, 1⟩
  let a := x.magnitude
  let b := p.magnitude
  Double.round? x.negative ⟨a.num * b.num, a.den * b.den⟩

def overPower (x : Double) (k : Nat) : Option Double := do
  let p ← Double.round? false ⟨Nat.pow 10 k, 1⟩
  let a := x.magnitude
  let b := p.magnitude
  Double.round? x.negative ⟨a.num * b.den, a.den * b.num⟩

def maxPower : Nat := 308

def shrink (x : Double) : Nat → Nat → Option Double
  | 0, _ => some (Double.zero false)
  | steps + 1, k =>
    if k ≤ maxPower then overPower x k
    else if x.mantissa = 0 then some x
    else do shrink (← overPower x maxPower) steps (k - maxPower)

/-- Scales a significand; `none` beyond the finite doubles. After four divisions by the largest
power every significand has become zero. -/
def Scaled.toDouble? (s : Scaled) : Option Double := do
  let x ← doubleOfNat? s.significand
  if 0 ≤ s.exponent then
    if s.exponent ≤ maxPower then timesPower x s.exponent.toNat
    else if x.mantissa = 0 then some x else none
  else shrink x 4 (-s.exponent).toNat

def withSign (negative : Bool) (x : Double) : Double := { x with negative }

def numeral? (raw : List Char) : Option Number := do
  let d ← DecimalNotation.read? raw
  let n := signedInt d.negative (digitsValue d.whole)
  let integral := raw.all fun c => isDigit c || c == '-'
  if h : integral ∧ Fits64 n ∧ ¬(d.negative ∧ n = 0) then
    some (.int n h.2.1)
  else
    let start : Scaled := ((Scaled.mk 0 0).addWhole d.whole).addFraction d.fraction
    let x ← ({ start with exponent := start.exponent + d.exponent } : Scaled).toDouble?
    some (.float (withSign d.negative x))

end PairGrep.Json
