/-!
# UTF-8

Decoding of bytes, one character at a time. A decoded sequence has `some c` for each character and
`none` for each maximal run of bytes that starts a character but cannot be continued to one, so
the strict and the forgiving reading are two views of the same sequence.
-/

namespace PairGrep.Utf8

/-- Bytes of one character that are still to come: how many, the range of the next one, and the
value of the bits read so far. -/
structure Partial where
  owed : Nat
  low : Nat
  high : Nat
  value : Nat
  deriving Repr, DecidableEq

def lead (b : Nat) : List (Option Char) × Option Partial :=
  if b ≤ 0x7F then ([some (Char.ofNat b)], none)
  else if 0xC2 ≤ b ∧ b ≤ 0xDF then ([], some ⟨1, 0x80, 0xBF, b - 0xC0⟩)
  else if b = 0xE0 then ([], some ⟨2, 0xA0, 0xBF, 0⟩)
  else if b = 0xED then ([], some ⟨2, 0x80, 0x9F, 0xD⟩)
  else if 0xE1 ≤ b ∧ b ≤ 0xEF then ([], some ⟨2, 0x80, 0xBF, b - 0xE0⟩)
  else if b = 0xF0 then ([], some ⟨3, 0x90, 0xBF, 0⟩)
  else if 0xF1 ≤ b ∧ b ≤ 0xF3 then ([], some ⟨3, 0x80, 0xBF, b - 0xF0⟩)
  else if b = 0xF4 then ([], some ⟨3, 0x80, 0x8F, 4⟩)
  else ([none], none)

/-- One byte, `pending` being the character under way. A byte that cannot continue it closes it as
malformed and is read again as the start of a character. -/
def step (pending : Option Partial) (b : Nat) : List (Option Char) × Option Partial :=
  match pending with
  | none => lead b
  | some p =>
    if p.low ≤ b ∧ b ≤ p.high then
      let value := p.value * 64 + (b - 0x80)
      if p.owed = 1 then ([some (Char.ofNat value)], none)
      else ([], some ⟨p.owed - 1, 0x80, 0xBF, value⟩)
    else (none :: (lead b).1, (lead b).2)

def decodeFrom : Option Partial → List UInt8 → List (Option Char)
  | none, [] => []
  | some _, [] => [none]
  | pending, b :: bs => (step pending b.toNat).1 ++ decodeFrom (step pending b.toNat).2 bs

def decode (bytes : List UInt8) : List (Option Char) := decodeFrom none bytes

def decodeStrict? (bytes : List UInt8) : Option String :=
  ((decode bytes).mapM id).map String.ofList

def decodeLossy (bytes : List UInt8) : String :=
  String.ofList ((decode bytes).map (·.getD '\uFFFD'))

def encode (text : String) : List UInt8 := text.toList.flatMap String.utf8EncodeChar

end PairGrep.Utf8
