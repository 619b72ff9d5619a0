import PairGrep.Pattern.Reader.Escape

/-!
# Bracketed classes

Reading of a class in brackets. Its items are literals, ranges, escapes, named classes of ASCII and
classes within; operators between groups of items associate to the left.
-/

namespace PairGrep.Pattern.Reader

def readItem (verbose : Bool) : List Char → Except Error (Atom × List Char)
  | [] => .error .classUnclosed
  | '\\' :: rest => readEscape verbose rest
  | c :: rest => .ok (.literal (plain c), rest)

def Atom.toItem : Atom → Except Error ClassTree
  | .literal l => .ok (.literal l)
  | .short negated name => .ok (.short negated name)
  | .property query => .ok (.property query)
  | .anchor _ => .error .classEscape

def Atom.toBoundary : Atom → Except Error Literal
  | .literal l => .ok l
  | _ => .error .rangeBoundary

def peek (verbose : Bool) (cs : List Char) : Option Char :=
  if verbose then
    match cs.dropWhile isBlank with
    | '#' :: rest => (rest.dropWhile isBlank).head?
    | rest => rest.head?
  else cs.head?

/-- Reads an item or a range. A hyphen before a closing bracket or another hyphen makes no range. -/
def readRange (verbose : Bool) (cs : List Char) : Except Error (ClassTree × List Char) := do
  let (first, cs) ← readItem verbose cs
  match skip verbose cs with
  | [] => throw .classUnclosed
  | '-' :: rest =>
    if peek verbose rest = some ']' ∨ peek verbose rest = some '-' then
      return (← first.toItem, '-' :: rest)
    else
      match skip verbose rest with
      | [] => throw .classUnclosed
      | cs =>
        let (second, cs) ← readItem verbose cs
        let lo ← first.toBoundary
        let hi ← second.toBoundary
        if hi.char < lo.char then throw .rangeInvalid
        return (.range lo hi, cs)
  | cs => return (← first.toItem, cs)

def asciiClassOf? (name : String) : Option AsciiClass :=
  [("alnum", .alnum), ("alpha", .alpha), ("ascii", .ascii), ("blank", .blank), ("cntrl", .cntrl),
    ("digit", .digit), ("graph", .graph), ("lower", .lower), ("print", .print), ("punct", .punct),
    ("space", .space), ("upper", .upper), ("word", .word), ("xdigit", .xdigit)].lookup name

def readAscii? (cs : List Char) : Option (ClassTree × List Char) :=
  match cs with
  | ':' :: rest =>
    let (negated, rest) := match rest with
      | '^' :: r => (true, r)
      | r => (false, r)
    match rest.dropWhile (· != ':') with
    | ':' :: ']' :: after =>
      (asciiClassOf? (String.ofList (rest.takeWhile (· != ':')))).map fun name =>
        (.ascii negated name, after)
    | _ => none
  | _ => none

def readHyphens (verbose : Bool) : Nat → List Char → Except Error (List ClassTree × List Char)
  | fuel + 1, '-' :: rest =>
    match skip verbose rest with
    | [] => .error .classUnclosed
    | cs => do
      let (items, cs) ← readHyphens verbose fuel cs
      return (.literal (plain '-') :: items, cs)
  | _, cs => .ok ([], cs)

/-- Reads the start of a class after its bracket: a negation, and the first items where these are
hyphens or a closing bracket that stands for itself. -/
def readOpening (verbose : Bool) (cs : List Char) :
    Except Error (Bool × List ClassTree × List Char) := do
  let (negated, cs) := match skip verbose cs with
    | '^' :: rest => (true, skip verbose rest)
    | cs => (false, cs)
  if cs = [] then throw .classUnclosed
  let (items, cs) ← readHyphens verbose cs.length cs
  match items, cs with
  | [], ']' :: rest =>
    match skip verbose rest with
    | [] => throw .classUnclosed
    | cs => return (negated, [.literal (plain ']')], cs)
  | items, cs => return (negated, items, cs)

def unionOf : List ClassTree → ClassTree
  | [] => .empty
  | [item] => item
  | item :: rest => .union item (unionOf rest)

abbrev Pending := Option (ClassOp × ClassTree)

def Pending.close (pending : Pending) (items : List ClassTree) : ClassTree :=
  match pending with
  | none => unionOf items.reverse
  | some (kind, lhs) => .op kind lhs (unionOf items.reverse)

mutual

def readClass (verbose : Bool) : Nat → List Char → Except Error (ClassTree × List Char)
  | 0, _ => .error .classUnclosed
  | fuel + 1, cs => do
    let (negated, items, cs) ← readOpening verbose cs
    let (inside, cs) ← readInside verbose fuel none items.reverse cs
    return (.bracket negated inside, cs)

/-- Reads the inside of a class up to its closing bracket, `items` being the current group in
reverse. -/
def readInside (verbose : Bool) :
    Nat → Pending → List ClassTree → List Char → Except Error (ClassTree × List Char)
  | 0, _, _, _ => .error .classUnclosed
  | fuel + 1, pending, items, cs =>
    match skip verbose cs with
    | [] => .error .classUnclosed
    | ']' :: rest => .ok (pending.close items, rest)
    | '&' :: '&' :: rest =>
      readInside verbose fuel (some (.intersection, pending.close items)) [] rest
    | '-' :: '-' :: rest =>
      readInside verbose fuel (some (.difference, pending.close items)) [] rest
    | '~' :: '~' :: rest =>
      readInside verbose fuel (some (.symmetricDifference, pending.close items)) [] rest
    | '[' :: rest =>
      match readAscii? rest with
      | some (item, cs) => readInside verbose fuel pending (item :: items) cs
      | none => do
        let (item, cs) ← readClass verbose fuel rest
        readInside verbose fuel pending (item :: items) cs
    | cs => do
      let (item, cs) ← readRange verbose cs
      readInside verbose fuel pending (item :: items) cs

end

end PairGrep.Pattern.Reader
