import PairGrep.Json.Lexeme
import PairGrep.Toml.Value

/-!
# TOML scalars

Strings, keys, numbers and moments of TOML. A reader gives the value and what follows it, or nothing
where the text is not of its form.
-/

namespace PairGrep.Toml

/-- May the character stand raw in a string or a comment? Control characters may not, but for the
tab. -/
def isPlain (c : Char) : Bool := c == '\t' || (' ' ≤ c && c != '\x7f')

def isSpace (c : Char) : Bool := c == ' ' || c == '\t'

def charOf? (ds : List Char) : Option Char :=
  let n := ds.foldl (fun n c => n * 16 + Json.hexValue c) 0
  if ds.all Json.isHex ∧ (n < 0xD800 ∨ (0xDFFF < n ∧ n ≤ 0x10FFFF)) then some (Char.ofNat n)
  else none

def escape? : List Char → Option (Char × List Char)
  | 'b' :: rest => some ('\x08', rest)
  | 't' :: rest => some ('\t', rest)
  | 'n' :: rest => some ('\n', rest)
  | 'f' :: rest => some ('\x0c', rest)
  | 'r' :: rest => some ('\r', rest)
  | 'e' :: rest => some ('\x1b', rest)
  | '"' :: rest => some ('"', rest)
  | '\\' :: rest => some ('\\', rest)
  | 'x' :: a :: b :: rest => (charOf? [a, b]).map (·, rest)
  | 'u' :: a :: b :: c :: d :: rest => (charOf? [a, b, c, d]).map (·, rest)
  | 'U' :: a :: b :: c :: d :: e :: f :: g :: h :: rest =>
    (charOf? [a, b, c, d, e, f, g, h]).map (·, rest)
  | _ => none

def consText (front : List Char) (split : List Char × List Char) : List Char × List Char :=
  (front ++ split.1, split.2)

def basicString? : Nat → List Char → Option (List Char × List Char)
  | _, '"' :: rest => some ([], rest)
  | fuel + 1, '\\' :: rest => do
    let (c, rest) ← escape? rest
    return consText [c] (← basicString? fuel rest)
  | fuel + 1, c :: rest => if isPlain c then (basicString? fuel rest).map (consText [c]) else none
  | _, _ => none

def literalString? : List Char → Option (List Char × List Char)
  | '\'' :: rest => some ([], rest)
  | c :: rest => if isPlain c then (literalString? rest).map (consText [c]) else none
  | [] => none

def dropFirstLineEnd : List Char → List Char
  | '\n' :: rest => rest
  | '\r' :: '\n' :: rest => rest
  | cs => cs

def leadingQuotes (q : Char) (cs : List Char) : Nat := (cs.takeWhile (· == q)).length

/-- Ends a string of several lines at three to five quotes, of which the last three close it. -/
def closeLines? (q : Char) (cs : List Char) : Option (List Char × List Char) :=
  let n := leadingQuotes q cs
  if 3 ≤ n ∧ n ≤ 5 then some (List.replicate (n - 3) q, cs.drop n) else none

/-- Drops the line end that a backslash joins over, and all blanks after it. -/
def joinLines? (cs : List Char) : Option (List Char) :=
  match cs.dropWhile isSpace with
  | '\n' :: rest => some (rest.dropWhile fun c => isSpace c || c == '\n' || c == '\r')
  | '\r' :: '\n' :: rest => some (rest.dropWhile fun c => isSpace c || c == '\n' || c == '\r')
  | _ => none

/-- Reads the rest of a string of several lines; `fuel` bounds its length. In double quotes it has
escapes. -/
def linesString? (q : Char) : Nat → List Char → Option (List Char × List Char)
  | 0, _ => none
  | fuel + 1, cs =>
    match cs with
    | [] => none
    | '\r' :: '\n' :: rest => (linesString? q fuel rest).map (consText ['\n'])
    | '\n' :: rest => (linesString? q fuel rest).map (consText ['\n'])
    | c :: rest =>
      if c = q then
        if 3 ≤ leadingQuotes q cs then closeLines? q cs
        else (linesString? q fuel rest).map (consText [c])
      else if c = '\\' ∧ q = '"' then
        match joinLines? rest with
        | some rest => linesString? q fuel rest
        | none => do
          let (c, rest) ← escape? rest
          return consText [c] (← linesString? q fuel rest)
      else if isPlain c then (linesString? q fuel rest).map (consText [c])
      else none

def string? (cs : List Char) : Option (String × List Char) :=
  let read := match cs with
    | '"' :: '"' :: '"' :: rest => linesString? '"' (rest.length + 1) (dropFirstLineEnd rest)
    | '\'' :: '\'' :: '\'' :: rest => linesString? '\'' (rest.length + 1) (dropFirstLineEnd rest)
    | '"' :: rest => basicString? (rest.length + 1) rest
    | '\'' :: rest => literalString? rest
    | _ => none
  read.map fun p => (String.ofList p.1, p.2)

def isBare (c : Char) : Bool := c.isAlphanum || c == '_' || c == '-'

def keyPart? (cs : List Char) : Option (String × List Char) :=
  match cs with
  | '"' :: rest => (basicString? (rest.length + 1) rest).map fun p => (String.ofList p.1, p.2)
  | '\'' :: rest => (literalString? rest).map fun p => (String.ofList p.1, p.2)
  | cs =>
    if cs.takeWhile isBare = [] then none
    else some (String.ofList (cs.takeWhile isBare), cs.dropWhile isBare)

def key? : Nat → List Char → Option (List String × List Char)
  | 0, _ => none
  | fuel + 1, cs => do
    let (part, cs) ← keyPart? (cs.dropWhile isSpace)
    match cs.dropWhile isSpace with
    | '.' :: rest =>
      let (parts, cs) ← key? fuel rest
      return (part :: parts, cs)
    | cs => return ([part], cs)

def digitsBetween? (isDigit : Char → Bool) (cs : List Char) : Option (List Char) :=
  let starts := match cs with
    | c :: _ => isDigit c
    | [] => false
  let rec check : List Char → Bool
    | '_' :: c :: rest => isDigit c && check (c :: rest)
    | ['_'] => false
    | c :: rest => isDigit c && check rest
    | [] => true
  if starts && check cs then some (cs.filter (· != '_')) else none

def inBase (base : Nat) (ds : List Char) : Nat := ds.foldl (fun n c => n * base + Json.hexValue c) 0

def integerOf? (n : Int) : Option Value :=
  if -0x8000000000000000 ≤ n ∧ n < 0x8000000000000000 then some (.integer n) else none

def wholeDigits? (cs : List Char) : Option (List Char) := do
  let ds ← digitsBetween? isDigit cs
  if ds.head? = some '0' ∧ 1 < ds.length then none else some ds

def based? (base : Nat) (isDigit : Char → Bool) (cs : List Char) : Option Value := do
  let ds ← digitsBetween? isDigit cs
  integerOf? (inBase base ds)

def real? (negative : Bool) (whole rest : List Char) : Option Value := do
  let whole ← wholeDigits? whole
  let (fraction, rest) ← match rest with
    | '.' :: r =>
      (digitsBetween? isDigit (r.takeWhile fun c => c != 'e' && c != 'E')).map fun ds =>
        (ds, r.dropWhile fun c => c != 'e' && c != 'E')
    | r => some ([], r)
  let exponent ← match rest with
    | [] => some 0
    | _ :: r =>
      let (negative, ds) := splitSign r
      (digitsBetween? isDigit ds).map fun ds => signedInt negative (digitsValue ds)
  let x ← Double.ofDecimal? negative (digitsValue (whole ++ fraction)) (exponent - fraction.length)
  return .real (.finite x)

def number? (word : List Char) : Option Value :=
  match word with
  | '0' :: 'x' :: ds => based? 16 Json.isHex ds
  | '0' :: 'o' :: ds => based? 8 (fun c => '0' ≤ c && c ≤ '7') ds
  | '0' :: 'b' :: ds => based? 2 (fun c => c == '0' || c == '1') ds
  | word =>
    let (negative, cs) := splitSign word
    if cs = ['i', 'n', 'f'] then some (.real (.infinite negative))
    else if cs = ['n', 'a', 'n'] then some (.real .notANumber)
    else
      let whole := cs.takeWhile fun c => isDigit c || c == '_'
      match cs.dropWhile fun c => isDigit c || c == '_' with
      | [] => do integerOf? (signedInt negative (digitsValue (← wholeDigits? whole)))
      | c :: rest =>
        if c = '.' ∨ c = 'e' ∨ c = 'E' then real? negative whole (c :: rest) else none

def fixedDigits? (n : Nat) (cs : List Char) : Option (Nat × List Char) :=
  let ds := cs.take n
  if ds.length = n ∧ ds.all isDigit then some (digitsValue ds, cs.drop n) else none

def daysIn (year month : Nat) : Nat :=
  if month = 2 then
    if year % 4 = 0 ∧ (year % 100 ≠ 0 ∨ year % 400 = 0) then 29 else 28
  else if month = 4 ∨ month = 6 ∨ month = 9 ∨ month = 11 then 30
  else 31

def date? (cs : List Char) : Option (List Char × List Char) := do
  let (year, rest) ← fixedDigits? 4 cs
  let '-' :: rest := rest | none
  let (month, rest) ← fixedDigits? 2 rest
  let '-' :: rest := rest | none
  let (day, rest) ← fixedDigits? 2 rest
  if 1 ≤ month ∧ month ≤ 12 ∧ 1 ≤ day ∧ day ≤ daysIn year month then some (cs.take 10, rest)
  else none

/-- A fraction of a second as it is written: nine digits at most, without zeros at its end. -/
def fractionText (ds : List Char) : List Char :=
  match ((ds.take 9).reverse.dropWhile (· == '0')).reverse with
  | [] => []
  | ds => '.' :: ds

def seconds? (cs : List Char) : Option (List Char × List Char) :=
  match cs with
  | ':' :: rest => do
    let (second, after) ← fixedDigits? 2 rest
    if 60 < second then none
    let whole := ':' :: rest.take 2
    match after with
    | '.' :: frac =>
      let ds := frac.takeWhile isDigit
      if ds = [] then none else some (whole ++ fractionText ds, frac.dropWhile isDigit)
    | after => some (whole, after)
  | cs => some ([':', '0', '0'], cs)

def time? (cs : List Char) : Option (List Char × List Char) := do
  let (hour, rest) ← fixedDigits? 2 cs
  let ':' :: rest := rest | none
  let (minute, rest) ← fixedDigits? 2 rest
  if 23 < hour ∨ 59 < minute then none
  let (second, rest) ← seconds? rest
  return (cs.take 5 ++ second, rest)

def offset? (cs : List Char) : Option (List Char) :=
  match cs with
  | [] => some []
  | ['Z'] | ['z'] => some ['Z']
  | sign :: rest => do
    if sign ≠ '+' ∧ sign ≠ '-' then none
    let (hour, rest) ← fixedDigits? 2 rest
    let ':' :: rest := rest | none
    let (minute, rest) ← fixedDigits? 2 rest
    if rest ≠ [] ∨ 23 < hour ∨ 59 < minute then none
    return cs

/-- The usual form of the moment that a text spells as a whole. -/
def momentText? (cs : List Char) : Option (List Char) :=
  match date? cs with
  | some (date, []) => some date
  | some (date, t :: rest) =>
    if t = 'T' ∨ t = 't' ∨ t = ' ' then do
      let (time, rest) ← time? rest
      return date ++ 'T' :: time ++ (← offset? rest)
    else none
  | none => do
    let (time, rest) ← time? cs
    if rest = [] then some time else none

def moment? (cs : List Char) : Option Value :=
  (momentText? cs).map fun text => .moment (String.ofList text)

end PairGrep.Toml
