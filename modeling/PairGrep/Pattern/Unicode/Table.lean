import PairGrep.Pattern.CharSet

/-!
# Property tables

Tables of the Unicode character database are kept as text: rows of numbers in which a character
stands for five bits, the low ones first, and tells whether more bits follow. A table of a property
with values lists runs of code points, a class number and a length each; one of a binary property
lists lengths alone, of runs that lack the property and have it in turn.
-/

namespace PairGrep.Pattern.Unicode

/-- The value of a character of a row, of which the sixth bit marks the end of a number. -/
def digitOf (c : Char) : Nat :=
  if 'A' ≤ c ∧ c ≤ 'Z' then c.toNat - 65
  else if 'a' ≤ c ∧ c ≤ 'z' then c.toNat - 97 + 26
  else if '0' ≤ c ∧ c ≤ '9' then c.toNat - 48 + 52
  else if c = '-' then 62
  else 63

structure Reading where
  numbers : List Nat
  value : Nat
  weight : Nat

def Reading.push (r : Reading) (c : Char) : Reading :=
  let d := digitOf c
  if d < 32 then ⟨r.numbers, r.value + d * r.weight, r.weight * 32⟩
  else ⟨(r.value + (d - 32) * r.weight) :: r.numbers, 0, 1⟩

def decodeNumbers (rows : List String) : List Nat :=
  (rows.foldl (fun r (row : String) => row.toList.foldl Reading.push r)
    (Reading.mk [] 0 1)).numbers.reverse

def classRanges (classes : List Nat) (start : Nat) : List Nat → List (Nat × Nat)
  | value :: length :: rest =>
    let more := classRanges classes (start + length) rest
    if classes.contains value then (start, start + length - 1) :: more else more
  | _ => []

/-- The code points that a table with values puts into one of the classes. -/
def classified (rows : List String) (classes : List Nat) : CharSet :=
  .ofRanges (classRanges classes 0 (decodeNumbers rows))

def secondRanges (start : Nat) : List Nat → List (Nat × Nat)
  | lacking :: having :: rest =>
    (start + lacking, start + lacking + having - 1) ::
      secondRanges (start + lacking + having) rest
  | _ => []

def alternating (rows : List String) : CharSet := .ofRanges (secondRanges 0 (decodeNumbers rows))

end PairGrep.Pattern.Unicode
