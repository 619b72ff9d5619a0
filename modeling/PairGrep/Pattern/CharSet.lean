/-!
# Sets of characters

A set of characters is a list of ranges of code points, in order and with gaps between them. The
ranges may run over the surrogates, which are no characters.
-/

namespace PairGrep.Pattern

/-- A set of characters as ranges of code points, ends included. -/
structure CharSet where
  ranges : List (Nat × Nat)
  deriving DecidableEq, Repr

namespace CharSet

def maxCode : Nat := 0x10FFFF

def inRanges (n : Nat) : List (Nat × Nat) → Bool
  | [] => false
  | (lo, hi) :: rest => if n < lo then false else if n ≤ hi then true else inRanges n rest

def containsCode (s : CharSet) (n : Nat) : Bool := inRanges n s.ranges

def contains (s : CharSet) (c : Char) : Bool := s.containsCode c.toNat

def empty : CharSet := ⟨[]⟩

def all : CharSet := ⟨[(0, maxCode)]⟩

def single (c : Char) : CharSet := ⟨[(c.toNat, c.toNat)]⟩

def single? (s : CharSet) : Option Char :=
  match s.ranges with
  | [(lo, hi)] => if lo = hi then some (Char.ofNat lo) else none
  | _ => none

/-- Puts a range into ordered ranges, joining those that it meets or touches. -/
def insertRange (lo hi : Nat) : List (Nat × Nat) → List (Nat × Nat)
  | [] => [(lo, hi)]
  | (a, b) :: rest =>
    if hi + 1 < a then (lo, hi) :: (a, b) :: rest
    else if b + 1 < lo then (a, b) :: insertRange lo hi rest
    else insertRange (min lo a) (max hi b) rest

def insert (s : CharSet) (lo hi : Nat) : CharSet := ⟨insertRange lo hi s.ranges⟩

def ofRanges (ranges : List (Nat × Nat)) : CharSet :=
  ⟨ranges.foldr (fun r s => insertRange r.1 r.2 s) []⟩

def union (s t : CharSet) : CharSet :=
  ⟨s.ranges.foldr (fun r u => insertRange r.1 r.2 u) t.ranges⟩

/-- The gaps between ordered ranges, from one code point up to another. -/
def gaps (start last : Nat) : List (Nat × Nat) → List (Nat × Nat)
  | [] => if start ≤ last then [(start, last)] else []
  | (lo, hi) :: rest =>
    if start < lo then (start, lo - 1) :: gaps (hi + 1) last rest else gaps (hi + 1) last rest

def complement (s : CharSet) : CharSet := ⟨gaps 0 maxCode s.ranges⟩

def byteComplement (s : CharSet) : CharSet := ⟨gaps 0 0xFF s.ranges⟩

def inter (s t : CharSet) : CharSet := (s.complement.union t.complement).complement

def diff (s t : CharSet) : CharSet := s.inter t.complement

def symmDiff (s t : CharSet) : CharSet := (s.union t).diff (s.inter t)

def isAscii (s : CharSet) : Bool := s.ranges.all fun r => r.2 ≤ 0x7F

/-- The letters `a` to `z` of either case that differ from a member in case only are put in. -/
def foldAscii (s : CharSet) : CharSet :=
  (List.range 26).foldl (fun t i =>
    let upper := 65 + i
    let lower := 97 + i
    if s.containsCode upper || s.containsCode lower then (t.insert upper upper).insert lower lower
    else t) s

end CharSet

end PairGrep.Pattern
