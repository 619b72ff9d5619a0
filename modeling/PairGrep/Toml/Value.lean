import PairGrep.Number.Basic

/-!
# TOML values

The values of a TOML document, and the tables that its lines build. A table remembers how it came to
be, since that decides whether a later line may add to it.
-/

namespace PairGrep.Toml

inductive Real where
  | finite (x : Double)
  | infinite (negative : Bool)
  | notANumber
  deriving DecidableEq

/-- A value. A moment is a date, a time or both, as text. -/
inductive Value where
  | text (s : String)
  | integer (n : Int)
  | real (x : Real)
  | boolean (b : Bool)
  | moment (s : String)
  | array (items : List Value)
  | table (entries : List (String × Value))

def Real.text : Real → List Char
  | .finite x => x.plainText
  | .infinite false => ['i', 'n', 'f']
  | .infinite true => ['-', 'i', 'n', 'f']
  | .notANumber => ['N', 'a', 'N']

/-- How a table came to be: named on the way to another table, under a header of its own, or by a
key with dots. -/
inductive TableKind where
  | implied
  | headed
  | dotted
  deriving DecidableEq, Repr

inductive Node where
  | leaf (v : Value)
  | table (kind : TableKind) (entries : List (String × Node))
  | tables (items : List Node)

namespace Node

def put (entries : List (String × Node)) (key : String) (node : Node) : List (String × Node) :=
  match entries with
  | [] => [(key, node)]
  | (k, n) :: rest => if k = key then (k, node) :: rest else (k, n) :: put rest key node

def setKey (entries : List (String × Node)) (path : List String) (v : Value) :
    Option (List (String × Node)) :=
  match path with
  | [] => none
  | [key] =>
    match entries.lookup key with
    | none => some (entries ++ [(key, .leaf v)])
    | some _ => none
  | key :: rest =>
    match entries.lookup key with
    | none => (setKey [] rest v).map fun inner => entries ++ [(key, .table .dotted inner)]
    | some (.table .dotted inner) =>
      (setKey inner rest v).map fun inner => put entries key (.table .dotted inner)
    | some (.table .implied inner) =>
      (setKey inner rest v).map fun inner => put entries key (.table .implied inner)
    | some _ => none

def openTable (entries : List (String × Node)) (path : List String) :
    Option (List (String × Node)) :=
  match path with
  | [] => none
  | [key] =>
    match entries.lookup key with
    | none => some (entries ++ [(key, .table .headed [])])
    | some (.table .implied inner) => some (put entries key (.table .headed inner))
    | some _ => none
  | key :: rest =>
    match entries.lookup key with
    | none => (openTable [] rest).map fun inner => entries ++ [(key, .table .implied inner)]
    | some (.table kind inner) =>
      (openTable inner rest).map fun inner => put entries key (.table kind inner)
    | some (.tables (.table kind inner :: items)) =>
      (openTable inner rest).map fun inner => put entries key (.tables (.table kind inner :: items))
    | some _ => none

/-- Adds a table to the array under a header; the newest table stands first. -/
def openItem (entries : List (String × Node)) (path : List String) :
    Option (List (String × Node)) :=
  match path with
  | [] => none
  | [key] =>
    match entries.lookup key with
    | none => some (entries ++ [(key, .tables [.table .headed []])])
    | some (.tables items) => some (put entries key (.tables (.table .headed [] :: items)))
    | some _ => none
  | key :: rest =>
    match entries.lookup key with
    | none => (openItem [] rest).map fun inner => entries ++ [(key, .table .implied inner)]
    | some (.table kind inner) =>
      (openItem inner rest).map fun inner => put entries key (.table kind inner)
    | some (.tables (.table kind inner :: items)) =>
      (openItem inner rest).map fun inner => put entries key (.tables (.table kind inner :: items))
    | some _ => none

def setIn (entries : List (String × Node)) (header path : List String) (v : Value) :
    Option (List (String × Node)) :=
  match header with
  | [] => setKey entries path v
  | key :: rest =>
    match entries.lookup key with
    | some (.table kind inner) =>
      (setIn inner rest path v).map fun inner => put entries key (.table kind inner)
    | some (.tables (.table kind inner :: items)) =>
      (setIn inner rest path v).map fun inner =>
        put entries key (.tables (.table kind inner :: items))
    | _ => none

mutual

def value : Node → Value
  | .leaf v => v
  | .table _ entries => .table (entryValues entries)
  | .tables items => .array (itemValues items).reverse

def entryValues : List (String × Node) → List (String × Value)
  | [] => []
  | (k, n) :: rest => (k, value n) :: entryValues rest

def itemValues : List Node → List Value
  | [] => []
  | n :: rest => value n :: itemValues rest

end

end Node

end PairGrep.Toml
