import PairGrep.Number.Reading

/-!
# Lexemes of JSON

A text is cut into punctuation, words, numbers and strings. Numbers and strings keep their raw
spelling: neither the range of a number nor the pairing of surrogate escapes is looked at.
-/

namespace PairGrep.Json

/-- A lexeme; a string holds the raw characters between its quotes. -/
inductive Lexeme where
  | openBrace
  | closeBrace
  | openBracket
  | closeBracket
  | comma
  | colon
  | null
  | bool (value : Bool)
  | number (raw : List Char)
  | string (raw : List Char)
  deriving DecidableEq, Repr

def isSpace (c : Char) : Bool := c == ' ' || c == '\t' || c == '\n' || c == '\r'

def isHex (c : Char) : Bool := isDigit c || ('a' ≤ c && c ≤ 'f') || ('A' ≤ c && c ≤ 'F')

def hexValue (c : Char) : Nat :=
  if isDigit c then c.toNat - 48 else if 'a' ≤ c then c.toNat - 87 else c.toNat - 55

def isSimpleEscape (c : Char) : Bool :=
  c == '"' || c == '\\' || c == '/' || c == 'b' || c == 'f' || c == 'n' || c == 'r' || c == 't'

def consRaw (front : List Char) (split : List Char × List Char) : List Char × List Char :=
  (front ++ split.1, split.2)

/-- The raw body of a string whose opening quote has been read, and what follows the closing one. -/
def stringBody? : List Char → Option (List Char × List Char)
  | [] => none
  | '"' :: rest => some ([], rest)
  | '\\' :: 'u' :: a :: b :: c :: d :: rest =>
    if [a, b, c, d].all isHex then (stringBody? rest).map (consRaw ['\\', 'u', a, b, c, d])
    else none
  | '\\' :: c :: rest =>
    if isSimpleEscape c then (stringBody? rest).map (consRaw ['\\', c]) else none
  | c :: rest => if c < ' ' then none else (stringBody? rest).map (consRaw [c])

def wholePart? : List Char → Option (List Char × List Char)
  | '0' :: rest => some (['0'], rest)
  | c :: rest =>
    if isDigit c then some (c :: rest.takeWhile isDigit, rest.dropWhile isDigit) else none
  | [] => none

def digits? (cs : List Char) : Option (List Char × List Char) :=
  if cs.takeWhile isDigit = [] then none else some (cs.takeWhile isDigit, cs.dropWhile isDigit)

def fractionPart? : List Char → Option (List Char × List Char)
  | '.' :: rest => (digits? rest).map (consRaw ['.'])
  | rest => some ([], rest)

def exponentPart? : List Char → Option (List Char × List Char)
  | [] => some ([], [])
  | c :: rest =>
    if c = 'e' ∨ c = 'E' then
      match rest with
      | '+' :: ds => (digits? ds).map (consRaw [c, '+'])
      | '-' :: ds => (digits? ds).map (consRaw [c, '-'])
      | ds => (digits? ds).map (consRaw [c])
    else some ([], c :: rest)

def unsigned? (cs : List Char) : Option (List Char × List Char) := do
  let (whole, cs) ← wholePart? cs
  let (fraction, cs) ← fractionPart? cs
  let (exponent, cs) ← exponentPart? cs
  return (whole ++ fraction ++ exponent, cs)

def number? : List Char → Option (List Char × List Char)
  | '-' :: rest => (unsigned? rest).map (consRaw ['-'])
  | cs => unsigned? cs

def Lexeme.first? : List Char → Option (Lexeme × List Char)
  | '{' :: rest => some (.openBrace, rest)
  | '}' :: rest => some (.closeBrace, rest)
  | '[' :: rest => some (.openBracket, rest)
  | ']' :: rest => some (.closeBracket, rest)
  | ',' :: rest => some (.comma, rest)
  | ':' :: rest => some (.colon, rest)
  | 'n' :: 'u' :: 'l' :: 'l' :: rest => some (.null, rest)
  | 't' :: 'r' :: 'u' :: 'e' :: rest => some (.bool true, rest)
  | 'f' :: 'a' :: 'l' :: 's' :: 'e' :: rest => some (.bool false, rest)
  | '"' :: rest => (stringBody? rest).map fun p => (.string p.1, p.2)
  | cs => (number? cs).map fun p => (.number p.1, p.2)

def lexemesWithin : Nat → List Char → Option (List Lexeme)
  | fuel, cs =>
    match fuel, cs.dropWhile isSpace with
    | _, [] => some []
    | 0, _ => none
    | fuel + 1, rest => do
      let (lexeme, rest) ← Lexeme.first? rest
      let more ← lexemesWithin fuel rest
      return lexeme :: more

/-- The lexemes of a text. Each takes a character at least, so the length bounds their number. -/
def lexemes? (text : List Char) : Option (List Lexeme) := lexemesWithin text.length text

end PairGrep.Json
