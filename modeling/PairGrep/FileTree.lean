import PairGrep.Text.Utf8

/-!
# Files

What paths lead to, and trees of regular files and directories. In a tree a path is followed part by
part from the root; every part but the last has to be a directory, and none leads out of the tree.
-/

namespace PairGrep

inductive Entry where
  | file (bytes : List UInt8)
  | directory
  deriving DecidableEq

/-- What can be asked about files: what each path leads to. -/
structure Files where
  entry? : String → Option Entry

namespace Files

def isFile (files : Files) (path : String) : Bool :=
  match files.entry? path with
  | some (.file _) => true
  | _ => false

def readBytes? (files : Files) (path : String) : Option (List UInt8) :=
  match files.entry? path with
  | some (.file bytes) => some bytes
  | _ => none

def readText? (files : Files) (path : String) : Option String :=
  (files.readBytes? path).bind Utf8.decodeStrict?

end Files

def splitSlash : List Char → List (List Char)
  | [] => [[]]
  | '/' :: rest => [] :: splitSlash rest
  | c :: rest =>
    match splitSlash rest with
    | part :: parts => (c :: part) :: parts
    | [] => [[c]]

/-- Files and directories under the places where they stand, root apart. A place is a list of names,
the innermost first. -/
structure FileTree where
  entries : List (List (List Char) × Entry)

namespace FileTree

def empty : FileTree := ⟨[]⟩

def at? (tree : FileTree) (place : List (List Char)) : Option Entry :=
  if place = [] then some .directory else tree.entries.lookup place

def follow (tree : FileTree) (place : List (List Char)) : List (List Char) → Option Entry
  | [] => tree.at? place
  | part :: rest =>
    if tree.at? place = some .directory then
      if part = [] ∨ part = ['.'] then follow tree place rest
      else if part = ['.', '.'] then
        match place with
        | [] => none
        | _ :: outer => follow tree outer rest
      else follow tree (part :: place) rest
    else none

def entry? (tree : FileTree) (path : String) : Option Entry :=
  match path.toList with
  | [] => none
  | '/' :: _ => none
  | cs => tree.follow [] (splitSlash cs)

def files (tree : FileTree) : Files := ⟨tree.entry?⟩

def placeOf (path : String) : List (List Char) :=
  ((splitSlash path.toList).filter fun part => part != [] && part != ['.']).reverse

def put (tree : FileTree) (place : List (List Char)) (entry : Entry) : FileTree :=
  ⟨(place, entry) :: tree.entries.filter fun p => p.1 != place⟩

/-- A directory at a place, and the directories that it stands in. -/
def addPlaces (tree : FileTree) : List (List Char) → FileTree
  | [] => tree
  | name :: outer => (tree.put (name :: outer) .directory).addPlaces outer

def addDirectory (tree : FileTree) (path : String) : FileTree := tree.addPlaces (placeOf path)

def write (tree : FileTree) (path : String) (bytes : List UInt8) : FileTree :=
  (tree.addPlaces (placeOf path).tail).put (placeOf path) (.file bytes)

def remove (tree : FileTree) (path : String) : FileTree :=
  ⟨tree.entries.filter fun p => p.1 != placeOf path⟩

end FileTree

end PairGrep
