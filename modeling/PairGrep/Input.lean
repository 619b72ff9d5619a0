import PairGrep.FileTree
import PairGrep.Json.Encoding

/-!
# Inputs

What is searched can be given as text, as a path to a file, as bytes or as a value. Each is resolved
to one text that is valid JSON, or to an error that quotes the start of what is not.
-/

namespace PairGrep

structure InputError where
  preview : String
  deriving DecidableEq, Repr

namespace InputError

def previewLength : Nat := 50

def quoting (text : String) : InputError := ⟨String.ofList (text.toList.take previewLength)⟩

def message (e : InputError) : String := "invalid json: " ++ e.preview ++ "..."

end InputError

/-- What can be searched. Text is JSON itself or a path to it. -/
inductive Input where
  | text (s : String)
  | path (p : String)
  | bytes (bs : List UInt8)
  | structured (v : Json.Value)

namespace Input

def checked (text : String) : Except InputError String :=
  if Json.isJson text then .ok text else .error (.quoting text)

/-- The text of a file, or an error that quotes the path where there is none to read. -/
def readChecked (files : Files) (path : String) : Except InputError String :=
  match files.readText? path with
  | some contents => checked contents
  | none => .error (.quoting path)

def ofBytes (bs : List UInt8) : Except InputError String :=
  match Utf8.decodeStrict? bs with
  | some s => checked s
  | none => .error (.quoting (Utf8.decodeLossy bs))

def resolve (files : Files) : Input → Except InputError String
  | .text s =>
    if Json.isJson s then .ok s
    else if files.isFile s then readChecked files s
    else .error (.quoting s)
  | .path p => readChecked files p
  | .bytes bs => ofBytes bs
  | .structured v => .ok v.render

def pathToRead? : Input → Option String
  | .text s => if Json.isJson s then none else some s
  | .path p => some p
  | _ => none

/-- Resolves an input in two steps: it looks up what its path leads to, and then reads the file. -/
def load (files : Files) (input : Input) : Except InputError String :=
  match input.pathToRead? with
  | none => input.resolve files
  | some p => if files.isFile p then readChecked files p else .error (.quoting p)

def ofData (d : Json.Data) : Except InputError Input :=
  match d.encode with
  | .ok s => .ok (.text s)
  | .error message => .error (.quoting message)

end Input

end PairGrep
