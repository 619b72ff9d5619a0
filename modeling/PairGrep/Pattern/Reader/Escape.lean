import PairGrep.Json.Lexeme
import PairGrep.Pattern.Tree
import PairGrep.Text.Blank

/-!
# Escapes

Reading of what follows a backslash: literals, hexadecimal character codes, anchors and classes. In
verbose mode blanks and comments may stand between the parts of an escape.
-/

namespace PairGrep.Pattern.Reader

def dropSpace : Bool → List Char → List Char
  | _, [] => []
  | true, c :: rest => dropSpace (c != '\n') rest
  | false, c :: rest =>
    if isBlank c then dropSpace false rest
    else if c = '#' then dropSpace true rest
    else c :: rest

/-- Drops blanks and comments where they are not part of the pattern. -/
def skip (verbose : Bool) (cs : List Char) : List Char :=
  if verbose then dropSpace false cs else cs

inductive Atom where
  | literal (l : Literal)
  | anchor (a : Anchor)
  | short (negated : Bool) (name : ShortClass)
  | property (query : PropertyQuery)
  deriving DecidableEq, Repr

def plain (c : Char) : Literal := ⟨c, false⟩

def hexNumber (ds : List Char) : Nat := ds.foldl (fun n c => n * 16 + Json.hexValue c) 0

def charOfCode (n : Nat) : Except Error Char :=
  if n < 0xD800 ∨ (0xDFFF < n ∧ n ≤ 0x10FFFF) then .ok (Char.ofNat n) else .error .hexNoCharacter

def readDigits (verbose : Bool) : Nat → List Char → Except Error (List Char × List Char)
  | 0, cs => .ok ([], cs)
  | _, [] => .error .escapeUnfinished
  | n + 1, c :: rest =>
    if Json.isHex c then do
      let (ds, cs) ← readDigits verbose n (skip verbose rest)
      return (c :: ds, cs)
    else .error .hexDigit

def readBraced (verbose : Bool) (cs : List Char) : Except Error (List Char × List Char) :=
  go cs.length cs
where
  /-- One digit at a time; `fuel` bounds their number. -/
  go : Nat → List Char → Except Error (List Char × List Char)
    | 0, _ => .error .escapeUnfinished
    | fuel + 1, cs =>
      match skip verbose cs with
      | [] => .error .escapeUnfinished
      | '}' :: rest => .ok ([], skip verbose rest)
      | c :: rest =>
        if Json.isHex c then do
          let (ds, cs) ← go fuel rest
          return (c :: ds, cs)
        else .error .hexDigit

/-- Reads a character code: so many digits, or any number of them in braces. -/
def readHex (verbose : Bool) (digits : Nat) (cs : List Char) : Except Error (Atom × List Char) :=
  match skip verbose cs with
  | [] => .error .escapeUnfinished
  | '{' :: rest => do
    let (ds, cs) ← readBraced verbose rest
    if ds = [] then throw .hexEmpty
    return (.literal (plain (← charOfCode (hexNumber ds))), cs)
  | rest => do
    let (ds, cs) ← readDigits verbose digits rest
    return (.literal ⟨← charOfCode (hexNumber ds), digits == 2⟩, cs)

def readUntilBrace (verbose : Bool) (cs : List Char) : Except Error (List Char × List Char) :=
  go cs.length cs
where
  /-- One character at a time; `fuel` bounds their number. -/
  go : Nat → List Char → Except Error (List Char × List Char)
    | 0, _ => .error .escapeUnfinished
    | fuel + 1, cs =>
      match skip verbose cs with
      | [] => .error .escapeUnfinished
      | '}' :: rest => .ok ([], rest)
      | c :: rest => do
        let (name, cs) ← go fuel rest
        return (c :: name, cs)

def splitAt? (separator : List Char) : List Char → Option (List Char × List Char)
  | [] => none
  | c :: rest =>
    if separator.isPrefixOf (c :: rest) then some ([], (c :: rest).drop separator.length)
    else (splitAt? separator rest).map fun p => (c :: p.1, p.2)

def queryOf (negated : Bool) (text : List Char) : PropertyQuery :=
  let valued (negated : Bool) (p : List Char × List Char) : PropertyQuery :=
    ⟨negated, String.ofList p.1, some (String.ofList p.2)⟩
  match splitAt? ['!', '='] text with
  | some p => valued (!negated) p
  | none =>
    match (splitAt? [':'] text).orElse fun _ => splitAt? ['='] text with
    | some p => valued negated p
    | none => ⟨negated, String.ofList text, none⟩

def readProperty (verbose negated : Bool) (cs : List Char) : Except Error (Atom × List Char) :=
  match skip verbose cs with
  | [] => .error .escapeUnfinished
  | '{' :: rest => do
    let (text, cs) ← readUntilBrace verbose rest
    return (.property (queryOf negated text), cs)
  | '\\' :: _ => .error .propertyForm
  | c :: rest => .ok (.property ⟨negated, String.singleton c, none⟩, skip verbose rest)

def isBoundaryChar (c : Char) : Bool :=
  ('A' ≤ c && c ≤ 'Z') || ('a' ≤ c && c ≤ 'z') || c == '-'

def readBoundaryName (verbose : Bool) : Nat → List Char → List Char × List Char
  | fuel + 1, c :: rest =>
    if isBoundaryChar c then
      let (name, cs) := readBoundaryName verbose fuel (skip verbose rest)
      (c :: name, cs)
    else ([], c :: rest)
  | _, cs => ([], cs)

def boundaryOf? (name : String) : Option Anchor :=
  [("start", .wordStart), ("end", .wordEnd), ("start-half", .wordStartHalf),
    ("end-half", .wordEndHalf)].lookup name

/-- Reads what follows `\b`: the name of a special boundary in braces, unless the brace starts a
counted repetition. -/
def readBoundary (verbose : Bool) (cs : List Char) : Except Error (Atom × List Char) :=
  match cs with
  | '{' :: rest =>
    match skip verbose rest with
    | [] => .error .boundaryOrCount
    | c :: inside =>
      if isBoundaryChar c then
        match readBoundaryName verbose (inside.length + 1) (c :: inside) with
        | (name, '}' :: rest) =>
          match boundaryOf? (String.ofList name) with
          | some a => .ok (.anchor a, rest)
          | none => .error .boundaryUnknown
        | _ => .error .boundaryUnclosed
      else .ok (.anchor .boundary, cs)
  | _ => .ok (.anchor .boundary, cs)

def letterEscape? (c : Char) : Option Atom :=
  match c with
  | 'a' => some (.literal (plain '\x07'))
  | 'f' => some (.literal (plain '\x0c'))
  | 't' => some (.literal (plain '\t'))
  | 'n' => some (.literal (plain '\n'))
  | 'r' => some (.literal (plain '\r'))
  | 'v' => some (.literal (plain '\x0b'))
  | 'A' => some (.anchor .textStart)
  | 'z' => some (.anchor .textEnd)
  | 'B' => some (.anchor .notBoundary)
  | '<' => some (.anchor .wordStart)
  | '>' => some (.anchor .wordEnd)
  | 'd' => some (.short false .digit)
  | 'D' => some (.short true .digit)
  | 's' => some (.short false .space)
  | 'S' => some (.short true .space)
  | 'w' => some (.short false .word)
  | 'W' => some (.short true .word)
  | _ => none

/-- May the character be escaped to stand for itself? Any of ASCII may but letters, digits and the
angle brackets. -/
def isEscapable (c : Char) : Bool :=
  decide (c.toNat < 0x80) && !c.isAlphanum && c != '<' && c != '>'

def readEscape (verbose : Bool) (cs : List Char) : Except Error (Atom × List Char) :=
  match cs with
  | [] => .error .escapeUnfinished
  | 'x' :: rest => readHex verbose 2 rest
  | 'u' :: rest => readHex verbose 4 rest
  | 'U' :: rest => readHex verbose 8 rest
  | 'p' :: rest => readProperty verbose false rest
  | 'P' :: rest => readProperty verbose true rest
  | 'b' :: rest => readBoundary verbose rest
  | c :: rest =>
    if isDigit c then .error .backreference
    else if isEscapable c then .ok (.literal (plain c), rest)
    else
      match letterEscape? c with
      | some atom => .ok (atom, rest)
      | none => .error .escapeUnknown

end PairGrep.Pattern.Reader
