import PairGrep.Grep

/-!
# Sessions

A session is a run of steps on a file tree: inputs are opened, files come and go, matchers are set,
and the input that was opened last is searched. A step that fails changes nothing.
-/

namespace PairGrep

inductive Step where
  | open (source : Except InputError Input) (lookUp : Bool)
  | write (path : String) (bytes : List UInt8)
  | remove (path : String)
  | text
  | matcher (m : Matcher)
  | search (terms : Except Pattern.Error (List Term)) (side : Side)
  | again (side : Side)

inductive Answer where
  | done
  | text (s : String)
  | tokens (found : List Token)
  | failed (e : GrepError)
  | nothingOpen

/-- A session under way: its files, the opened input, and the tokens found last. -/
structure Session where
  tree : FileTree
  current : Option Grep
  last : List Token

namespace Session

def start (tree : FileTree) : Session := ⟨tree, none, []⟩

def answer (s : Session) (found : Except GrepError (List Token)) : Session × Answer :=
  match found with
  | .ok tokens => ({ s with last := tokens }, .tokens tokens)
  | .error e => (s, .failed e)

def step [Pattern.Sizing] (s : Session) : Step → Session × Answer
  | .open (.error e) _ => (s, .failed (.input e))
  | .open (.ok input) lookUp =>
    let files := s.tree.files
    let grep := if lookUp then Grep.load files input else Grep.new files input
    ({ s with current := some grep }, .done)
  | .write path bytes => ({ s with tree := s.tree.write path bytes }, .done)
  | .remove path => ({ s with tree := s.tree.remove path }, .done)
  | .text =>
    match s.current with
    | none => (s, .nothingOpen)
    | some g =>
      match g.text with
      | .ok text => (s, .text text)
      | .error e => (s, .failed (.input e))
  | .matcher m =>
    match s.current with
    | none => (s, .nothingOpen)
    | some g => ({ s with current := some (g.withMatcher m) }, .done)
  | .search (.error e) _ => (s, .failed (.pattern e))
  | .search (.ok terms) side =>
    match s.current with
    | none => (s, .nothingOpen)
    | some g => s.answer (g.search terms side)
  | .again side =>
    match s.current with
    | none => (s, .nothingOpen)
    | some g => s.answer (g.search (s.last.map fun t => .literal t.display) side)

def run [Pattern.Sizing] (s : Session) : List Step → List Answer
  | [] => []
  | step :: rest => (s.step step).2 :: run (s.step step).1 rest

end Session

end PairGrep
