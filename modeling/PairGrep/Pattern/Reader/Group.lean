import PairGrep.Pattern.Reader.Class
import PairGrep.Pattern.Unicode.Word

/-!
# Groups, repetitions and whole patterns

Reading of a pattern by recursive descent. Alternatives end at a closing parenthesis or at the end
of the source, so a source reads within parentheses as it reads alone. Errors are reported at the
first place that shows one.
-/

namespace PairGrep.Pattern.Reader

/-- Where reading stands: what is left of the source, whether verbose mode is on, how many captures
have been opened, and their names. -/
structure State where
  rest : List Char
  verbose : Bool
  captures : Nat
  names : List (List Char)

def flagOf? (c : Char) : Option Flag :=
  match c with
  | 'i' => some .caseInsensitive
  | 'm' => some .multiLine
  | 's' => some .dotAll
  | 'U' => some .swapGreed
  | 'u' => some .unicode
  | 'x' => some .verbose
  | 'R' => some .crlf
  | _ => none

inductive FlagEnd where
  | directive
  | scope
  deriving DecidableEq, Repr

/-- Reads flags, of which `sofar` have been read. `negated` tells whether a hyphen has been seen and
`dangling` whether it was the last character. -/
def readFlags (sofar : FlagChange) (negated dangling : Bool) :
    List Char → Except Error (FlagChange × FlagEnd × List Char)
  | [] => .error .flagUnfinished
  | c :: rest =>
    if c = ')' ∨ c = ':' then
      if dangling then .error .negationDangling
      else .ok (sofar, if c = ')' then .directive else .scope, rest)
    else if c = '-' then
      if negated then .error .negationRepeated else readFlags sofar true true rest
    else
      match flagOf? c with
      | none => .error .flagUnknown
      | some flag =>
        if sofar.any (·.1 == flag) then .error .flagDuplicate
        else readFlags (sofar ++ [(flag, !negated)]) negated false rest

def verboseAfter (verbose : Bool) (change : FlagChange) : Bool :=
  (change.lookup .verbose).getD verbose

def isNameChar (first : Bool) (c : Char) : Bool :=
  if first then c == '_' || Unicode.isAlphabetic c
  else c == '_' || c == '.' || c == '[' || c == ']' || Unicode.isAlphanumeric c

def readNameChars (first : Bool) : List Char → Except Error (List Char × List Char)
  | [] => .error .nameUnclosed
  | '>' :: rest => .ok ([], rest)
  | c :: rest =>
    if isNameChar first c then do
      let (name, cs) ← readNameChars false rest
      return (c :: name, cs)
    else .error .nameCharacter

def readName (names : List (List Char)) (cs : List Char) :
    Except Error (List Char × List Char) := do
  let (name, cs) ← readNameChars true cs
  if name = [] then throw .nameEmpty
  if names.contains name then throw .nameDuplicate
  return (name, cs)

inductive Opening where
  | capture (name? : Option (List Char))
  | scope (change : FlagChange)
  | directive (change : FlagChange)

def readOpener (s : State) : Except Error (Opening × List Char) :=
  match skip s.verbose s.rest with
  | '?' :: '=' :: _ | '?' :: '!' :: _ | '?' :: '<' :: '=' :: _ | '?' :: '<' :: '!' :: _ =>
    .error .lookAround
  | '?' :: 'P' :: '<' :: rest | '?' :: '<' :: rest => do
    let (name, cs) ← readName s.names rest
    return (.capture (some name), cs)
  | ['?'] => .error .groupUnclosed
  | '?' :: rest => do
    let (change, ending, cs) ← readFlags [] false false rest
    match ending with
    | .scope => return (.scope change, cs)
    | .directive =>
      if change = [] then throw .operandMissing
      return (.directive change, cs)
  | cs => .ok (.capture none, cs)

/-- Reads a decimal between spaces, which verbose mode need not be on for. -/
def readCount (verbose : Bool) (cs : List Char) : Except Error Nat × List Char :=
  let (ds, cs) := go (cs.length + 1) (cs.dropWhile isBlank)
  let rest := skipAll (cs.length + 1) cs
  if ds = [] then (.error .countMissing, rest)
  else if 0x100000000 ≤ digitsValue ds then (.error .decimalInvalid, rest)
  else (.ok (digitsValue ds), rest)
where
  /-- The digits, with spaces between them in verbose mode. -/
  go : Nat → List Char → List Char × List Char
    | fuel + 1, c :: rest =>
      if isDigit c then
        let (ds, cs) := go fuel (skip verbose rest)
        (c :: ds, cs)
      else ([], c :: rest)
    | _, cs => ([], cs)
  /-- What follows the digits and spaces. -/
  skipAll : Nat → List Char → List Char
    | fuel + 1, c :: rest => if isBlank c then skipAll fuel (skip verbose rest) else c :: rest
    | _, cs => cs

structure Bounds where
  min : Nat
  max : Option Nat

def readBounds (verbose : Bool) (cs : List Char) : Except Error (Bounds × List Char) :=
  match skip verbose cs with
  | [] => .error .countUnclosed
  | cs =>
    let (min, cs) := readCount verbose cs
    match cs with
    | [] => .error .countUnclosed
    | ',' :: rest =>
      match skip verbose rest with
      | [] => .error .countUnclosed
      | '}' :: rest => do return (⟨← min, none⟩, rest)
      | cs => do
        let min ← min
        let (max, cs) := readCount verbose cs
        let max ← max
        match cs with
        | '}' :: rest => return (⟨min, some max⟩, rest)
        | _ => throw .countUnclosed
    | cs => do
      let min ← min
      match cs with
      | '}' :: rest => return (⟨min, some min⟩, rest)
      | _ => throw .countUnclosed

def readLazy : List Char → Bool × List Char
  | '?' :: rest => (false, rest)
  | cs => (true, cs)

def isRepetition (c : Char) : Bool := c == '?' || c == '*' || c == '+' || c == '{'

def isOperand : Tree → Bool
  | .empty | .flags _ => false
  | _ => true

def readOperator (verbose : Bool) (body : Tree) (c : Char) (cs : List Char) :
    Except Error (Tree × List Char) :=
  if isOperand body then
    match c with
    | '{' => do
      let (bounds, cs) ← readBounds verbose cs
      let (greedy, cs) := readLazy (skip verbose cs)
      if (bounds.max.map (decide <| · < bounds.min)).getD false then throw .countOrder
      return (.repeated bounds.min bounds.max greedy body, cs)
    | c =>
      let (greedy, cs) := readLazy cs
      let (min, max) := if c = '?' then (0, some 1) else if c = '*' then (0, none) else (1, none)
      .ok (.repeated min max greedy body, cs)
  else .error .operandMissing

/-- Reads the repetition operators after an element. Each of them takes a character at least, so the
characters of `fuel`, which are those that follow, bound their number. -/
def readOperators (verbose : Bool) :
    List Char → Tree → List Char → Except Error (Tree × List Char)
  | _ :: fuel, body, cs =>
    match skip verbose cs with
    | [] => .ok (body, [])
    | c :: rest =>
      if isRepetition c then do
        let (body, cs) ← readOperator verbose body c rest
        readOperators verbose fuel body cs
      else .ok (body, c :: rest)
  | [], body, cs => .ok (body, cs)

def readSimple (verbose : Bool) (c : Char) (rest : List Char) :
    Except Error (Tree × List Char) :=
  match c with
  | '[' => do
    let (inside, cs) ← readClass verbose (rest.length + 1) rest
    match inside with
    | .bracket negated inside => return (.bracket negated inside, cs)
    | inside => return (.bracket false inside, cs)
  | '\\' => do
    let (atom, cs) ← readEscape verbose rest
    match atom with
    | .literal l => return (.literal l, cs)
    | .anchor a => return (.anchor a, cs)
    | .short negated name => return (.short negated name, cs)
    | .property query => return (.property query, cs)
  | '.' => .ok (.dot, rest)
  | '^' => .ok (.anchor .lineStart, rest)
  | '$' => .ok (.anchor .lineEnd, rest)
  | c => .ok (.literal (plain c), rest)

mutual

def readAlternatives : Nat → State → Except Error (Tree × State)
  | 0, _ => .error .nestingTooDeep
  | fuel + 1, s => do
    let (first, s) ← readSequence fuel s
    match s.rest with
    | '|' :: rest => do
      let (more, s) ← readAlternatives fuel { s with rest }
      return (.alt first more, s)
    | _ => return (first, s)

def readSequence : Nat → State → Except Error (Tree × State)
  | 0, _ => .error .nestingTooDeep
  | fuel + 1, s =>
    match skip s.verbose s.rest with
    | [] => .ok (.empty, { s with rest := [] })
    | c :: rest =>
      if c = ')' ∨ c = '|' then .ok (.empty, { s with rest := c :: rest })
      else do
        let (element, s) ← readElement fuel c { s with rest }
        let (element, rest) ← readOperators s.verbose s.rest element s.rest
        let (more, s) ← readSequence fuel { s with rest }
        return (element.cons more, s)

def readElement : Nat → Char → State → Except Error (Tree × State)
  | 0, _, _ => .error .nestingTooDeep
  | fuel + 1, c, s =>
    if isRepetition c then .error .operandMissing
    else if c = '(' then do
      let (opening, rest) ← readOpener s
      match opening with
      | .directive change =>
        return (.flags change, { s with rest, verbose := verboseAfter s.verbose change })
      | .scope change =>
        let (body, t) ← readBody fuel { s with rest, verbose := verboseAfter s.verbose change }
        return (.scope change body, { t with verbose := s.verbose })
      | .capture name? =>
        let names := match name? with
          | some name => name :: s.names
          | none => s.names
        let (body, t) ← readBody fuel { s with rest, captures := s.captures + 1, names }
        return (.capture (s.captures + 1) body, { t with verbose := s.verbose })
    else do
      let (tree, rest) ← readSimple s.verbose c s.rest
      return (tree, { s with rest })

def readBody : Nat → State → Except Error (Tree × State)
  | 0, _ => .error .nestingTooDeep
  | fuel + 1, s => do
    let (body, s) ← readAlternatives fuel s
    match s.rest with
    | ')' :: rest => return (body, { s with rest })
    | _ => throw .groupUnclosed

end

/-- The tree of a pattern source. Four calls at most are made for each character. -/
def readPattern (source : List Char) : Except Error Tree := do
  let (tree, s) ← readAlternatives (4 * source.length + 4) ⟨source, false, 0, []⟩
  if s.rest ≠ [] then throw .groupUnopened
  if nestLimit < tree.depth then throw .nestingTooDeep
  return tree

end PairGrep.Pattern.Reader
