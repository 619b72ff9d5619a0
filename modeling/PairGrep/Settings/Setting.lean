import PairGrep.Json.Value
import PairGrep.Toml.Reader

/-!
# Settings trees

The settings of one source as a tree, and the layering of one tree over another: tables are merged
entry by entry, and anything else replaces what was there. Keys at the top of a source may be paths
into the tree.
-/

namespace PairGrep

/-- A setting. A scalar is a number or a truth value, kept as its text. -/
inductive Setting where
  | missing
  | text (s : String)
  | scalar (s : String)
  | list (items : List Setting)
  | table (entries : List (String × Setting))

namespace Setting

mutual

def ofToml : Toml.Value → Setting
  | .text s => .text s
  | .integer n => .scalar (String.ofList (Number.intText n))
  | .real x => .scalar (String.ofList x.text)
  | .boolean b => .scalar (if b then "true" else "false")
  | .moment s => .text s
  | .array items => .list (ofTomlItems items)
  | .table entries => .table (ofTomlEntries entries)

def ofTomlItems : List Toml.Value → List Setting
  | [] => []
  | v :: rest => ofToml v :: ofTomlItems rest

def ofTomlEntries : List (String × Toml.Value) → List (String × Setting)
  | [] => []
  | (k, v) :: rest => (k, ofToml v) :: ofTomlEntries rest

end

def numberText : Number → List Char
  | .int n _ => Number.intText n
  | .float x => x.plainText

mutual

def ofJson : Json.Value → Setting
  | .null => .missing
  | .bool b => .scalar (if b then "true" else "false")
  | .number n => .scalar (String.ofList (numberText n))
  | .string s => .text s
  | .array items => .list (ofJsonItems items)
  | .object members => .table (ofJsonMembers members)

def ofJsonItems : List Json.Value → List Setting
  | [] => []
  | v :: rest => ofJson v :: ofJsonItems rest

def ofJsonMembers : List (String × Json.Value) → List (String × Setting)
  | [] => []
  | (k, v) :: rest => (k, ofJson v) :: ofJsonMembers rest

end

def entries : Setting → List (String × Setting)
  | .table entries => entries
  | _ => []

def items : Setting → List Setting
  | .list items => items
  | _ => []

def putEntry (entries : List (String × Setting)) (key : String) (s : Setting) :
    List (String × Setting) :=
  match entries with
  | [] => [(key, s)]
  | (k, t) :: rest => if k = key then (k, s) :: rest else (k, t) :: putEntry rest key s

mutual

def merge (old : Setting) : Setting → Setting
  | .table new => .table (mergeEntries old.entries new)
  | new => new

def mergeEntries (old : List (String × Setting)) :
    List (String × Setting) → List (String × Setting)
  | [] => old
  | (key, new) :: rest =>
    mergeEntries (putEntry old key (merge ((old.lookup key).getD .missing) new)) rest

end

inductive PathStep where
  | key (name : String)
  | index (n : Int)
  deriving DecidableEq, Repr

def isPathChar (c : Char) : Bool := c.isAlphanum || c == '_' || c == '-'

def pathSteps? : Nat → List Char → Option (List PathStep)
  | _, [] => some []
  | 0, _ => none
  | fuel + 1, '.' :: rest =>
    let name := rest.takeWhile isPathChar
    if name = [] then none
    else (pathSteps? fuel (rest.dropWhile isPathChar)).map (.key (String.ofList name) :: ·)
  | fuel + 1, '[' :: rest =>
    let (negative, cs) := match rest.dropWhile Toml.isSpace with
      | '-' :: r => (true, r)
      | r => (false, r)
    let ds := cs.takeWhile isDigit
    let n := signedInt negative (digitsValue ds)
    match (cs.dropWhile isDigit).dropWhile Toml.isSpace with
    | ']' :: after =>
      -- An index has 64 bits; a key with a larger one is no path.
      if ds ≠ [] ∧ -0x8000000000000000 ≤ n ∧ n < 0x8000000000000000 then
        (pathSteps? fuel after).map (.index n :: ·)
      else none
    | _ => none
  | _, _ => none

/-- The path that a key at the top of a source spells; a key that spells none is one name. -/
def pathOf (key : String) : List PathStep :=
  let cs := key.toList
  let name := cs.takeWhile isPathChar
  match pathSteps? cs.length (cs.dropWhile isPathChar) with
  | some steps => if name = [] then [.key key] else .key (String.ofList name) :: steps
  | none => [.key key]

/-- The place of an index in a list, which is made longer where it has to be. -/
def locate (items : List Setting) (n : Int) : List Setting × Nat :=
  if 0 ≤ n then
    (items ++ List.replicate (n.toNat + 1 - items.length) .missing, n.toNat)
  else
    let back := (-n).toNat
    (List.replicate (back - items.length) .missing ++ items, items.length - back)

def setPath (s : Setting) (path : List PathStep) (new : Setting) : Setting :=
  match path with
  | [] => s.merge new
  | .key name :: rest =>
    let inner := (s.entries.lookup name).getD .missing
    .table (putEntry s.entries name (inner.setPath rest new))
  | .index n :: rest =>
    let (items, i) := locate s.items n
    .list (items.set i ((items.getD i .missing).setPath rest new))

/-- The entries of a source laid over a tree. -/
def layer (s : Setting) (source : List (String × Setting)) : Setting :=
  source.foldl (fun s p => s.setPath (pathOf p.1) p.2) s

/-- The settings of a section: by name from a table, or in their order from a list. -/
def section? (s : Setting) (names : List String) : Option (List (Option Setting)) :=
  match s with
  | .table entries => some (names.map fun name => entries.lookup name)
  | .list items => some (names.zipIdx.map fun p => items[p.2]?)
  | _ => none

def asText? : Setting → Option String
  | .text s | .scalar s => some s
  | _ => none

def asChoice? : Setting → Option String
  | .text s => some s
  | .table [(name, _)] => some name
  | _ => none

end Setting

end PairGrep
