import PairGrep.Settings.Load

/-!
# Arguments

The command line is `keys` or `values` with an input and terms. Options on the output and the
settings may stand before that command or after it, and then the later ones win; patterns are given
by an option of the command. After a double hyphen nothing is an option.
-/

namespace PairGrep.CommandLine

structure Common where
  debug : Bool
  format : Option Format
  settings : Option String
  deriving DecidableEq

def Common.empty : Common := ⟨false, none, none⟩

/-- What a command line asks for. -/
structure Request where
  side : Side
  input : String
  terms : List String
  patterns : List String
  common : Common
  deriving DecidableEq

def isPlainArgument (arg : String) : Bool := arg.toList.head? != some '-' || arg == "-"

def takeValue (attached : Option String) (rest : List String) : Option (String × List String) :=
  match attached, rest with
  | some v, rest => some (v, rest)
  | none, v :: rest => if isPlainArgument v then some (v, rest) else none
  | none, [] => none

inductive Shape where
  | long (name : String) (attached : Option String)
  | short (letter : Char) (attached : Option String)
  | plain
  deriving DecidableEq, Repr

/-- The shape of an argument. A value can be attached with an equals sign, and to a short option
also without one. -/
def shapeOf (arg : String) : Shape :=
  match arg.toList with
  | '-' :: '-' :: cs =>
    let name := String.ofList (cs.takeWhile (· != '='))
    match cs.dropWhile (· != '=') with
    | _ :: value => .long name (some (String.ofList value))
    | [] => .long name none
  | '-' :: c :: cs =>
    match cs with
    | [] => .short c none
    | '=' :: value => .short c (some (String.ofList value))
    | value => .short c (some (String.ofList value))
  | _ => .plain

/-- Takes an option that may stand on either side: `none` if it is no such option, and `some none`
if it is used wrongly. -/
def takeCommon (c : Common) (shape : Shape) (rest : List String) :
    Option (Option (Common × List String)) :=
  match shape with
  | .long "debug" attached =>
    some (if c.debug || attached.isSome then none else some ({ c with debug := true }, rest))
  | .long "format" attached =>
    some do
      let (v, rest) ← takeValue attached rest
      let format ← Settings.formatOf? v
      if c.format.isSome then none else some ({ c with format := some format }, rest)
  | .long "config" attached =>
    some do
      let (v, rest) ← takeValue attached rest
      if c.settings.isSome || v == "" then none
      else some ({ c with settings := some v }, rest)
  | _ => none

def takePattern (shape : Shape) (rest : List String) : Option (Option (String × List String)) :=
  match shape with
  | .long "regex" attached | .short 'e' attached => some (takeValue attached rest)
  | _ => none

def Common.override (left right : Common) : Common :=
  ⟨left.debug || right.debug, right.format.or left.format, right.settings.or left.settings⟩

structure Arguments where
  common : Common
  positionals : List String
  patterns : List String

def readArguments : Nat → Arguments → List String → Option Arguments
  | _, a, [] => some a
  | 0, _, _ => none
  | fuel + 1, a, arg :: rest =>
    if arg = "--" then some { a with positionals := a.positionals ++ rest }
    else if isPlainArgument arg then
      readArguments fuel { a with positionals := a.positionals ++ [arg] } rest
    else
      match takeCommon a.common (shapeOf arg) rest, takePattern (shapeOf arg) rest with
      | some taken, _ => do
        let (common, rest) ← taken
        readArguments fuel { a with common } rest
      | _, some taken => do
        let (pattern, rest) ← taken
        readArguments fuel { a with patterns := a.patterns ++ [pattern] } rest
      | _, _ => none

def sideOf? (command : String) : Option Side :=
  if command = "keys" then some .keys else if command = "values" then some .values else none

def readFrom : Nat → Common → List String → Option Request
  | fuel + 1, common, arg :: rest =>
    match sideOf? arg with
    | some side => do
      let a ← readArguments rest.length ⟨.empty, [], []⟩ rest
      let input :: terms := a.positionals | none
      return ⟨side, input, terms, a.patterns, common.override a.common⟩
    | none => do
      let (common, rest) ← (takeCommon common (shapeOf arg) rest).join
      readFrom fuel common rest
  | _, _, _ => none

def Request.ofArguments? (args : List String) : Option Request :=
  readFrom (args.length + 1) .empty args

end PairGrep.CommandLine
