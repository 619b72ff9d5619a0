import PairGrep.Json.Lexeme

/-!
# JSON documents

The tree of a document with its strings and numbers as they are spelled, and the reader that builds
it. A text is valid if it is one document of the grammar, at any depth of nesting.
-/

namespace PairGrep.Json

/-- A document; a string is raw, as are the keys of an object. -/
inductive Document where
  | null
  | bool (value : Bool)
  | number (raw : List Char)
  | string (raw : List Char)
  | array (items : List Document)
  | object (members : List (List Char × Document))

namespace Document

mutual

def read? : Nat → List Lexeme → Option (Document × List Lexeme)
  | 0, _ => none
  | fuel + 1, lexemes =>
    match lexemes with
    | .null :: rest => some (.null, rest)
    | .bool b :: rest => some (.bool b, rest)
    | .number raw :: rest => some (.number raw, rest)
    | .string raw :: rest => some (.string raw, rest)
    | .openBracket :: .closeBracket :: rest => some (.array [], rest)
    | .openBracket :: rest => (readItems? fuel rest).map fun p => (.array p.1, p.2)
    | .openBrace :: .closeBrace :: rest => some (.object [], rest)
    | .openBrace :: rest => (readMembers? fuel rest).map fun p => (.object p.1, p.2)
    | _ => none

def readItems? : Nat → List Lexeme → Option (List Document × List Lexeme)
  | 0, _ => none
  | fuel + 1, lexemes =>
    match read? fuel lexemes with
    | some (item, .comma :: rest) => (readItems? fuel rest).map fun p => (item :: p.1, p.2)
    | some (item, .closeBracket :: rest) => some ([item], rest)
    | _ => none

def readMembers? : Nat → List Lexeme → Option (List (List Char × Document) × List Lexeme)
  | 0, _ => none
  | fuel + 1, lexemes =>
    match lexemes with
    | .string key :: .colon :: rest =>
      match read? fuel rest with
      | some (value, .comma :: rest) =>
        (readMembers? fuel rest).map fun p => ((key, value) :: p.1, p.2)
      | some (value, .closeBrace :: rest) => some ([(key, value)], rest)
      | _ => none
    | _ => none

end

/-- The document that a text spells as a whole. Two calls at most are made for each lexeme. -/
def ofText? (text : List Char) : Option Document := do
  let lexemes ← lexemes? text
  match read? (2 * lexemes.length + 1) lexemes with
  | some (document, []) => some document
  | _ => none

end Document

def isJson (text : String) : Bool := (Document.ofText? text.toList).isSome

end PairGrep.Json
