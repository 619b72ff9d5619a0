import PairGrep.Pattern.CharSet

/-!
# Pattern expressions

A pattern with its flags resolved: sets of characters, assertions, sequences, alternatives,
repetitions and captures. Expressions are built in a reduced form. Which alternative is preferred
can hang on that form, where alternatives that start alike are factored.
-/

namespace PairGrep.Pattern

inductive Look where
  | textStart
  | textEnd
  | lineStart
  | lineEnd
  | crlfStart
  | crlfEnd
  | boundary (unicode : Bool)
  | notBoundary (unicode : Bool)
  | wordStart (unicode : Bool)
  | wordEnd (unicode : Bool)
  | wordStartHalf (unicode : Bool)
  | wordEndHalf (unicode : Bool)
  deriving DecidableEq, Repr

/-- A pattern that can be matched. -/
inductive Expr where
  | empty
  | set (s : CharSet)
  | look (l : Look)
  | capture (index : Nat) (body : Expr)
  | cat (first rest : Expr)
  | alt (first rest : Expr)
  | repeated (min : Nat) (max : Option Nat) (greedy : Bool) (body : Expr)
  deriving DecidableEq, Repr

namespace Expr

def takesChar : Expr → Bool
  | empty | look _ => false
  | set _ => true
  | capture _ body => body.takesChar
  | cat first rest => first.takesChar || rest.takesChar
  | alt first rest => first.takesChar && rest.takesChar
  | repeated min _ _ body => min != 0 && body.takesChar

def isWidthless : Expr → Bool
  | empty | look _ => true
  | set _ => false
  | capture _ body => body.isWidthless
  | cat first rest => first.isWidthless && rest.isWidthless
  | alt first rest => first.isWidthless && rest.isWidthless
  | repeated _ max _ body => max.isSome && body.isWidthless

def isLiteral : Expr → Bool
  | set s => s.single?.isSome
  | _ => false

def parts : Expr → List Expr
  | empty => []
  | cat first rest => first.parts ++ rest.parts
  | e => [e]

def cons (e rest : Expr) : Expr :=
  match rest with
  | empty => e
  | rest => cat e rest

def ofParts (es : List Expr) : Expr := es.foldr cons empty

def sequence (first rest : Expr) : Expr := first.parts.foldr cons rest

def branches : Expr → List Expr
  | alt first rest => first.branches ++ rest.branches
  | e => [e]

def ofBranches : List Expr → Expr
  | [] => set .empty
  | [e] => e
  | e :: rest => alt e (ofBranches rest)

def pieces : List Expr → List (List Expr)
  | [] => []
  | e :: rest =>
    match pieces rest with
    | (f :: piece) :: more =>
      if e.isLiteral && f.isLiteral then (e :: f :: piece) :: more else [e] :: (f :: piece) :: more
    | more => [e] :: more

def commonStart : List (List Expr) → List (List Expr) → List (List Expr)
  | p :: ps, q :: qs => if p = q then p :: commonStart ps qs else []
  | _, _ => []

def sharedStart (branches : List (List (List Expr))) : List (List Expr) :=
  match branches with
  | [] => []
  | first :: rest =>
    if branches.all (fun b => decide (2 ≤ b.length)) then rest.foldl commonStart first else []

/-- The set of the characters of all branches, if the branches are literal characters, or sets none
of which is one. -/
def asSet? (es : List Expr) : Option CharSet :=
  let sets := es.filterMap fun e => match e with
    | set s => some s
    | _ => none
  if sets.length = es.length ∧ (es.all isLiteral ∨ es.all (!·.isLiteral)) then
    some (sets.foldl CharSet.union .empty)
  else none

/-- Alternatives in the order of their preference. Branches that start alike are factored, which can
change which match is preferred; `fuel` bounds the depth of factoring. -/
def alternatives : Nat → List Expr → Expr
  | _, [e] => e
  | 0, es => ofBranches es
  | fuel + 1, es =>
    let bs := es.flatMap branches
    match asSet? bs with
    | some s => set s
    | none =>
      let split := bs.map fun b => pieces b.parts
      match sharedStart split with
      | [] => ofBranches bs
      | shared =>
        let tails := split.map fun b => ofParts (b.drop shared.length).flatten
        sequence (ofParts shared.flatten) (alternatives fuel tails)

def size : Expr → Nat
  | empty | set _ | look _ => 1
  | capture _ body | repeated _ _ _ body => body.size + 1
  | cat first rest | alt first rest => first.size + rest.size + 1

def choice (es : List Expr) : Expr :=
  match es with
  | [e] => e
  | es => alternatives (es.foldl (fun total e => total + e.size) 1) es

/-- A repetition. What takes no character is repeated once at most, and a single round is the body
itself. -/
def repetition (min : Nat) (max : Option Nat) (greedy : Bool) (body : Expr) : Expr :=
  let (min, max) :=
    if body.isWidthless then (Nat.min min 1, some ((max.map (Nat.min · 1)).getD 1)) else (min, max)
  if min = 0 ∧ max = some 0 then empty
  else if min = 1 ∧ max = some 1 then body
  else repeated min max greedy body

end Expr

end PairGrep.Pattern
