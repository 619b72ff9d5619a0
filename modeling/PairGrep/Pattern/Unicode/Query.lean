import PairGrep.Pattern.Error
import PairGrep.Pattern.Tree
import PairGrep.Pattern.Unicode.Age
import PairGrep.Pattern.Unicode.Category
import PairGrep.Pattern.Unicode.Property
import PairGrep.Pattern.Unicode.Script
import PairGrep.Pattern.Unicode.Segment
import PairGrep.Pattern.Unicode.Word

/-!
# Property queries

The set of characters that a property query asks for. Names are compared without regard to case,
spaces, hyphens, underscores and a leading `is`.
-/

namespace PairGrep.Pattern.Unicode

def lowered (c : Char) : Char := if 'A' ≤ c ∧ c ≤ 'Z' then Char.ofNat (c.toNat + 32) else c

/-- The form in which names are compared. The name `isc` does not lose its start to the rule on
`is`. -/
def normalName (name : String) : String :=
  let (isPrefixed, cs) := match name.toList with
    | a :: b :: rest =>
      if lowered a = 'i' ∧ lowered b = 's' then (true, rest) else (false, a :: b :: rest)
    | cs => (false, cs)
  let kept := (cs.filter fun c => c != ' ' && c != '_' && c != '-' && c.toNat < 0x80).map lowered
  if isPrefixed ∧ kept = ['c'] then "isc" else String.ofList kept

def categoryOrAll? (name : String) : Option CharSet :=
  match name with
  | "any" => some .all
  | "ascii" => some (.ofRanges [(0, 0x7F)])
  | "assigned" => some assigned
  | name => category? name

/-- The names that are read as categories before they are read as properties. -/
def shadowsProperty (name : String) : Bool := name == "cf" || name == "sc" || name == "lc"

def named (name : String) : Except Error CharSet :=
  let found :=
    if !shadowsProperty name && isPropertyName name then property? name
    else (categoryOrAll? name).orElse fun _ => script? name
  found.elim (.error .propertyUnknown) .ok

def valued (property value : String) : Except Error CharSet :=
  let found := match property with
    | "gc" | "generalcategory" => categoryOrAll? value
    | "sc" | "script" => script? value
    | "scx" | "scriptextensions" => scriptExtension? value
    | "age" => age? value
    | "gcb" | "graphemeclusterbreak" => segment? graphemeNames graphemeRuns value
    | "wb" | "wordbreak" => segment? wordBreakNames wordBreakRuns value
    | "sb" | "sentencebreak" => segment? sentenceNames sentenceRuns value
    | _ => none
  match found with
  | some s => .ok s
  | none => .error (if isPropertyName property then .propertyValueUnknown else .propertyUnknown)

def query (q : PropertyQuery) : Except Error CharSet :=
  match q.value? with
  | none => named (normalName q.name)
  | some value => valued (normalName q.name) (normalName value)

end PairGrep.Pattern.Unicode
