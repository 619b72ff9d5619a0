import PairGrep.Json.Value

/-!
# Encoding of data as JSON

Data that need not be a JSON value: integers of any width, a double that may not be finite, which is
written as null, and maps whose keys need not be texts. A record is a map from the names of its fields,
and a variant that holds data a map from its name alone. Some data cannot be written at all; what is
found first on the way through the data is then the error.
-/

namespace PairGrep.Json

inductive DataKey where
  | text (s : String)
  | bool (value : Bool)
  | int (n : Int)
  | double (x : Option Double)
  | single (raw : List Char) (numeral : number? raw = some (raw, []))
  | other

/-- Data to be written as JSON. A number in single precision comes with its decimal. -/
inductive Data where
  | value (v : Value)
  | int (n : Int)
  | double (x : Option Double)
  | single (raw : List Char) (numeral : number? raw = some (raw, []))
  | sequence (items : List Data)
  | map (entries : List (DataKey × Data))
  | failing (message : String)

/-- The text of a key inside its quotes; only what is written as one word can be a key. -/
def DataKey.text? : DataKey → Except String (List Char)
  | .text s => .ok s.toList
  | .bool true => .ok ['t', 'r', 'u', 'e']
  | .bool false => .ok ['f', 'a', 'l', 's', 'e']
  | .int n => .ok (Number.intText n)
  | .double (some x) => .ok x.text
  | .double none => .error "float key must be finite (got NaN or +/-inf)"
  | .single raw _ => .ok raw
  | .other => .error "key must be a string"

namespace Data

mutual

def text? : Data → Except String (List Char)
  | .value v => .ok v.text
  | .int n => .ok (Number.intText n)
  | .double (some x) => .ok x.text
  | .double none => .ok ['n', 'u', 'l', 'l']
  | .single raw _ => .ok raw
  | .sequence items => do return '[' :: ((← itemsText? items) ++ [']'])
  | .map entries => do return '{' :: ((← entriesText? entries) ++ ['}'])
  | .failing message => .error message

def itemsText? : List Data → Except String (List Char)
  | [] => .ok []
  | [d] => text? d
  | d :: e :: rest => do return (← text? d) ++ ',' :: (← itemsText? (e :: rest))

def entriesText? : List (DataKey × Data) → Except String (List Char)
  | [] => .ok []
  | [(k, d)] => do return quote (← k.text?) ++ ':' :: (← text? d)
  | (k, d) :: e :: rest => do
    return quote (← k.text?) ++ ':' :: (← text? d) ++ ',' :: (← entriesText? (e :: rest))

end

def encode (d : Data) : Except String String := d.text?.map String.ofList

end Data

def insertByKey (key : Int) (v : Value) : List (Int × Value) → List (Int × Value)
  | [] => [(key, v)]
  | (k, w) :: rest =>
    if key < k then (key, v) :: (k, w) :: rest
    else if key = k then (key, v) :: rest
    else (k, w) :: insertByKey key v rest

/-- The entries in the order of their keys; of entries with one key the last stands. -/
def sortEntries (entries : List (Int × Value)) : List (Int × Value) :=
  entries.foldl (fun sorted p => insertByKey p.1 p.2 sorted) []

def Data.intKeyed (entries : List (Int × Value)) : Data :=
  .map ((sortEntries entries).map fun p => (.int p.1, .value p.2))

def Data.listKeyed : Data := .map [(.other, .value .null)]

end PairGrep.Json
