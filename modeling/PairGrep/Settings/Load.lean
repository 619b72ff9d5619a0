import PairGrep.FileTree
import PairGrep.Matcher
import PairGrep.Settings.Setting

/-!
# Settings

The settings of the program: the matcher's patterns and the format of the output. A settings file is
layered over the defaults, so each of the three is the file's where the file sets it. The format of
the file is told by its extension.
-/

namespace PairGrep

inductive Format where
  | lines
  | json
  deriving DecidableEq, Repr

structure Settings where
  matcher : Matcher
  format : Format
  deriving DecidableEq

inductive SettingsError where
  | noFile
  | unknownFormat
  | malformed
  | invalid (table : String)
  deriving DecidableEq, Repr

namespace Settings

def default : Settings := ⟨.default, .lines⟩

def defaultTree : Setting :=
  .table
    [("scan", .table
      [("key_pattern", .text defaultKeyPattern), ("value_pattern", .text defaultValuePattern)]),
     ("output", .table [("format", .text "lines")])]

def formatOf? (name : String) : Option Format :=
  if name = "lines" then some .lines else if name = "json" then some .json else none

def patternOf? (s : Option Setting) (standard : String) : Option String :=
  match s with
  | none => some standard
  | some s => s.asText?

def matcherOf? (s : Setting) : Option Matcher := do
  let [key, value] ← s.section? ["key_pattern", "value_pattern"] | none
  return ⟨← patternOf? key defaultKeyPattern, ← patternOf? value defaultValuePattern⟩

def outputOf? (s : Setting) : Option Format := do
  let [format] ← s.section? ["format"] | none
  match format with
  | none => some .lines
  | some s => formatOf? (← s.asChoice?)

/-- The settings of a tree; a section that is not there has its defaults. -/
def ofTree (s : Setting) : Except SettingsError Settings := do
  let matcher ← match s.entries.lookup "scan" with
    | none => pure Matcher.default
    | some t => (matcherOf? t).elim (.error (.invalid "scan")) .ok
  let format ← match s.entries.lookup "output" with
    | none => pure Format.lines
    | some t => (outputOf? t).elim (.error (.invalid "output")) .ok
  return ⟨matcher, format⟩

def extensions : List String := ["toml", "json", "yaml", "yml", "ini", "ron", "json5"]

def namedParts (path : String) : List (List Char) :=
  ((splitSlash path.toList).filter fun part => part != [] && part != ['.']).reverse

/-- The extension of the last part of a path: what follows its last dot, unless that dot is its
first character. -/
def extension? (path : String) : Option (List Char) :=
  match namedParts path with
  | [] => none
  | name :: _ =>
    if name = ['.', '.'] then none
    else
      let tail := (name.reverse.takeWhile (· != '.')).reverse
      let stem := (name.reverse.dropWhile (· != '.')).drop 1
      if stem = [] then none else some tail

def trimPath (cs : List Char) : List Char := (go cs.reverse).reverse
where
  /-- What is left of a path that is read from its end. -/
  go : List Char → List Char
    | '/' :: rest => go rest
    | '.' :: '/' :: rest => go rest
    | cs => cs

def alternatives (path : String) : List (String × String) :=
  match namedParts path with
  | [] => []
  | name :: _ =>
    if name = ['.', '.'] then []
    else
      let cs := path.toList
      let base := if (extension? path).isSome then
          (if cs.getLast? = some '/' then cs ++ ".placeholder".toList else cs)
        else trimPath cs
      extensions.map fun ext => (String.ofList (base ++ '.' :: ext.toList), ext)

def findFile (files : Files) (path : String) : Except SettingsError (String × String) :=
  if files.isFile path then
    let ext := String.ofList ((extension? path).getD [])
    if extensions.contains ext then .ok (path, ext) else .error .unknownFormat
  else
    match (alternatives path).find? fun p => files.isFile p.1 with
    | some found => .ok found
    | none => .error .noFile

def decodeText (bytes : List UInt8) : String :=
  match bytes with
  | 0xEF :: 0xBB :: 0xBF :: rest => Utf8.decodeLossy rest
  | bytes => Utf8.decodeLossy bytes

/-- The readers of the languages besides TOML and JSON, by extension. -/
class Readers where
  entries? : String → String → Option (List (String × Setting))

-- Without such readers files in these languages count as malformed.
instance : Readers := ⟨fun _ _ => none⟩

def parse? [Readers] (ext text : String) : Option (List (String × Setting)) :=
  if ext = "toml" then (Toml.document? text.toList).map Setting.ofTomlEntries
  else if ext = "json" then
    match Json.Value.ofText? text with
    | some (.object members) => some (Setting.ofJsonMembers members)
    | _ => none
  else Readers.entries? ext text

def readFile [Readers] (files : Files) (file : String × String) : Except SettingsError Settings :=
  match (files.readBytes? file.1).bind fun bytes => parse? file.2 (decodeText bytes) with
  | some entries => ofTree (defaultTree.layer entries)
  | none => .error .malformed

def loadFrom [Readers] (files : Files) (path : String) : Except SettingsError Settings := do
  readFile files (← findFile files path)

structure Environment where
  configHome : Option String
  home : Option String

def join (base name : String) : String :=
  if base = "" then name
  else if base.toList.getLast? = some '/' then base ++ name
  else base ++ "/" ++ name

def defaultPath (env : Environment) : String :=
  let base := match env.configHome with
    | some dir => dir
    | none => join (env.home.getD ".") ".config"
  join (join base "jgrep") "config.toml"

/-- The settings of the file at the default path; without a file they are the built-in ones. -/
def load [Readers] (files : Files) (env : Environment) : Except SettingsError Settings :=
  match findFile files (defaultPath env) with
  | .ok file => readFile files file
  | .error _ => .ok default

end Settings

end PairGrep
