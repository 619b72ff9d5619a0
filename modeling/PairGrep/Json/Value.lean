import PairGrep.Json.Document
import PairGrep.Json.Numeral

/-!
# JSON values

A value has numbers and decoded strings in place of their spelling. Its compact text has no space
between lexemes and escapes only what a string must not hold raw. An object keeps its members in
order, one for each key.
-/

namespace PairGrep.Json

inductive Value where
  | null
  | bool (value : Bool)
  | number (value : Number)
  | string (text : String)
  | array (items : List Value)
  | object (members : List (String × Value))

def hexDigit (n : Nat) : Char := if n < 10 then Char.ofNat (48 + n) else Char.ofNat (87 + n)

def escapeChar (c : Char) : List Char :=
  match c with
  | '"' => ['\\', '"']
  | '\\' => ['\\', '\\']
  | '\x08' => ['\\', 'b']
  | '\x0c' => ['\\', 'f']
  | '\n' => ['\\', 'n']
  | '\r' => ['\\', 'r']
  | '\t' => ['\\', 't']
  | c =>
    if c < ' ' then ['\\', 'u', '0', '0', hexDigit (c.toNat / 16), hexDigit (c.toNat % 16)]
    else [c]

def quote (text : List Char) : List Char := '"' :: (text.flatMap escapeChar ++ ['"'])

namespace Value

mutual

def text : Value → List Char
  | .null => ['n', 'u', 'l', 'l']
  | .bool true => ['t', 'r', 'u', 'e']
  | .bool false => ['f', 'a', 'l', 's', 'e']
  | .number n => n.text
  | .string s => quote s.toList
  | .array items => '[' :: (itemsText items ++ [']'])
  | .object members => '{' :: (membersText members ++ ['}'])

def itemsText : List Value → List Char
  | [] => []
  | [v] => text v
  | v :: w :: rest => text v ++ ',' :: itemsText (w :: rest)

def membersText : List (String × Value) → List Char
  | [] => []
  | [(k, v)] => quote k.toList ++ ':' :: text v
  | (k, v) :: m :: rest => quote k.toList ++ ':' :: text v ++ ',' :: membersText (m :: rest)

end

/-- Puts a member into an object: a key that is there keeps its place and takes the new value. -/
def insert (members : List (String × Value)) (key : String) (value : Value) :
    List (String × Value) :=
  match members with
  | [] => [(key, value)]
  | (k, v) :: rest => if k = key then (k, value) :: rest else (k, v) :: insert rest key value

def codeUnit (a b c d : Char) : Nat :=
  ((hexValue a * 16 + hexValue b) * 16 + hexValue c) * 16 + hexValue d

def simpleEscape (c : Char) : Char :=
  match c with
  | 'b' => '\x08'
  | 'f' => '\x0c'
  | 'n' => '\n'
  | 'r' => '\r'
  | 't' => '\t'
  | c => c

/-- Decodes the raw body of a string; surrogate escapes must stand in pairs. -/
def unescape? : List Char → Option (List Char)
  | [] => some []
  | '\\' :: 'u' :: a :: b :: c :: d :: rest =>
    let hi := codeUnit a b c d
    if 0xD800 ≤ hi ∧ hi ≤ 0xDBFF then
      match rest with
      | '\\' :: 'u' :: a :: b :: c :: d :: rest =>
        let lo := codeUnit a b c d
        if 0xDC00 ≤ lo ∧ lo ≤ 0xDFFF then
          (unescape? rest).map (Char.ofNat (0x10000 + (hi - 0xD800) * 0x400 + (lo - 0xDC00)) :: ·)
        else none
      | _ => none
    else if 0xDC00 ≤ hi ∧ hi ≤ 0xDFFF then none
    else (unescape? rest).map (Char.ofNat hi :: ·)
  | '\\' :: c :: rest => (unescape? rest).map (simpleEscape c :: ·)
  | c :: rest => (unescape? rest).map (c :: ·)

def decodeString? (raw : List Char) : Option String := (unescape? raw).map String.ofList

mutual

/-- The value of a document; of members with one key the last gives the value. -/
def ofDocument? : Document → Option Value
  | .null => some .null
  | .bool b => some (.bool b)
  | .number raw => (numeral? raw).map .number
  | .string raw => (decodeString? raw).map .string
  | .array items => (ofItems? items).map .array
  | .object members => (ofMembers? [] members).map .object

def ofItems? : List Document → Option (List Value)
  | [] => some []
  | d :: rest => do
    let v ← ofDocument? d
    let vs ← ofItems? rest
    return v :: vs

def ofMembers? (sofar : List (String × Value)) :
    List (List Char × Document) → Option (List (String × Value))
  | [] => some sofar
  | (raw, d) :: rest => do
    let key ← decodeString? raw
    let v ← ofDocument? d
    ofMembers? (insert sofar key v) rest

end

def ofText? (text : String) : Option Value := (Document.ofText? text.toList).bind ofDocument?

def render (v : Value) : String := String.ofList v.text

def member? (v : Value) (key : String) : Option Value :=
  match v with
  | .object members => members.lookup key
  | _ => none

end Value

end PairGrep.Json
