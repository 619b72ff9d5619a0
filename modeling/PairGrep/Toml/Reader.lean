import PairGrep.Toml.Scalar

/-!
# TOML documents

Reading of a document line by line: key and value, the header of a table, or the header of an item
of an array of tables.
-/

namespace PairGrep.Toml

def comment? : List Char → Option (List Char)
  | '#' :: rest =>
    match rest.dropWhile isPlain with
    | [] => some []
    | '\n' :: after => some ('\n' :: after)
    | '\r' :: '\n' :: after => some ('\r' :: '\n' :: after)
    | _ => none
  | cs => some cs

def dropGaps? : Nat → List Char → Option (List Char)
  | 0, cs => some cs
  | fuel + 1, cs =>
    match cs.dropWhile isSpace with
    | '#' :: rest => do dropGaps? fuel (← comment? ('#' :: rest))
    | '\n' :: rest => dropGaps? fuel rest
    | '\r' :: '\n' :: rest => dropGaps? fuel rest
    | cs => some cs

def isWordChar (c : Char) : Bool :=
  c.isAlphanum || c == '_' || c == '-' || c == '+' || c == '.' || c == ':'

/-- The word at the front of a text. A date and a time with a space between them are one word. -/
def splitWord (cs : List Char) : List Char × List Char :=
  let word := cs.takeWhile isWordChar
  match cs.dropWhile isWordChar with
  | ' ' :: d :: rest =>
    if (date? word).map (·.2) = some [] ∧ isDigit d then
      (word ++ ' ' :: (d :: rest).takeWhile isWordChar, (d :: rest).dropWhile isWordChar)
    else (word, ' ' :: d :: rest)
  | rest => (word, rest)

def word? (word : List Char) : Option Value :=
  if word = ['t', 'r', 'u', 'e'] then some (.boolean true)
  else if word = ['f', 'a', 'l', 's', 'e'] then some (.boolean false)
  else (number? word).orElse fun _ => moment? word

mutual

def value? : Nat → List Char → Option (Value × List Char)
  | 0, _ => none
  | fuel + 1, cs =>
    match cs with
    | '"' :: _ | '\'' :: _ => (string? cs).map fun p => (.text p.1, p.2)
    | '[' :: rest => do
      let (items, cs) ← items? fuel (← dropGaps? rest.length rest)
      return (.array items, cs)
    | '\x7b' :: rest => do
      let (entries, cs) ← entries? fuel [] (← dropGaps? rest.length rest)
      return (.table (Node.entryValues entries), cs)
    | cs => do
      let (word, rest) := splitWord cs
      return (← word? word, rest)

def items? : Nat → List Char → Option (List Value × List Char)
  | _, ']' :: rest => some ([], rest)
  | 0, _ => none
  | fuel + 1, cs => do
    let (v, cs) ← value? fuel cs
    match ← dropGaps? cs.length cs with
    | ',' :: rest =>
      let (vs, cs) ← items? fuel (← dropGaps? rest.length rest)
      return (v :: vs, cs)
    | ']' :: rest => return ([v], rest)
    | _ => none

def entries? : Nat → List (String × Node) → List Char → Option (List (String × Node) × List Char)
  | _, sofar, '\x7d' :: rest => some (sofar, rest)
  | 0, _, _ => none
  | fuel + 1, sofar, cs => do
    let (path, cs) ← key? (cs.length + 1) cs
    let '=' :: rest := cs | none
    let (v, cs) ← value? fuel (rest.dropWhile isSpace)
    let sofar ← Node.setKey sofar path v
    match ← dropGaps? cs.length cs with
    | ',' :: rest => entries? fuel sofar (← dropGaps? rest.length rest)
    | '\x7d' :: rest => return (sofar, rest)
    | _ => none

end

/-- A document under way: what has been read, and the header of the current table. -/
structure State where
  entries : List (String × Node)
  header : List String

def header? (cs : List Char) : Option (List String × List Char) := key? (cs.length + 1) cs

def line? (s : State) (cs : List Char) : Option (State × List Char) :=
  match cs with
  | [] | '#' :: _ | '\n' :: _ | '\r' :: _ => some (s, cs)
  | '[' :: '[' :: rest => do
    let (path, cs) ← header? rest
    let ']' :: ']' :: rest := cs | none
    return (⟨← Node.openItem s.entries path, path⟩, rest)
  | '[' :: rest => do
    let (path, cs) ← header? rest
    let ']' :: rest := cs | none
    return (⟨← Node.openTable s.entries path, path⟩, rest)
  | cs => do
    let (path, cs) ← key? (cs.length + 1) cs
    let '=' :: rest := cs | none
    let rest := rest.dropWhile isSpace
    let (v, cs) ← value? (2 * rest.length + 2) rest
    return (⟨← Node.setIn s.entries s.header path v, s.header⟩, cs)

def lines? : Nat → State → List Char → Option State
  | 0, _, _ => none
  | fuel + 1, s, cs => do
    let (s, cs) ← line? s (cs.dropWhile isSpace)
    match ← comment? (cs.dropWhile isSpace) with
    | [] => return s
    | '\n' :: rest => lines? fuel s rest
    | '\r' :: '\n' :: rest => lines? fuel s rest
    | _ => none

def document? (text : List Char) : Option (List (String × Value)) := do
  let s ← lines? (text.length + 1) ⟨[], []⟩ text
  return Node.entryValues s.entries

end PairGrep.Toml
