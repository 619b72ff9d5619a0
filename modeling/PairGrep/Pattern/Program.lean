import PairGrep.Pattern.Elaborate
import PairGrep.Pattern.Reader.Group
import PairGrep.Pattern.Size

/-!
# Pattern programs

The program of an expression: a row of instructions in which control passes to the next one, but for
jumps and forks, whose targets are given by their distance. So the programs of the parts of an
expression stand in it unchanged, wherever they come to lie.
-/

namespace PairGrep.Pattern

/-- An instruction. A fork goes on to the next instruction and to the one at a distance; `next`
tells whether the first of these is preferred. -/
inductive Inst where
  | char (s : CharSet)
  | look (l : Look)
  | mark (slot : Nat)
  | fork (next : Bool) (distance : Int)
  | jump (distance : Int)
  | accept
  deriving DecidableEq, Repr

namespace Expr

def optional (greedy : Bool) (code : List Inst) : List Inst :=
  .fork greedy (code.length + 1) :: code

def loop (greedy : Bool) (code : List Inst) : List Inst :=
  .fork greedy (code.length + 2) :: (code ++ [.jump (-(code.length + 1 : Int))])

def runs (greedy : Bool) (code : List Inst) : List Inst :=
  code ++ [.fork (!greedy) (-(code.length : Int))]

def times (n : Nat) (code : List Inst) : List Inst := (List.replicate n code).flatten

def upTo (greedy : Bool) (code : List Inst) : Nat → List Inst
  | 0 => []
  | n + 1 => optional greedy (code ++ upTo greedy code n)

/-- A part with bounds on the number of its runs. A part that can be run without taking a character
is not entered by the loop's own fork, but by one that stands before it. -/
def bounded (min : Nat) (max : Option Nat) (greedy takesChar : Bool) (code : List Inst) :
    List Inst :=
  match max, min with
  | some max, min => times min code ++ upTo greedy code (max - min)
  | none, 0 => if takesChar then loop greedy code else optional greedy (runs greedy code)
  | none, min + 1 => times min code ++ runs greedy code

def code : Expr → List Inst
  | empty => []
  | set s => [.char s]
  | look l => [.look l]
  | capture index body => .mark (2 * index) :: (body.code ++ [.mark (2 * index + 1)])
  | cat first rest => first.code ++ rest.code
  | alt first rest =>
    .fork true (first.code.length + 2) ::
      (first.code ++ .jump (rest.code.length + 1) :: rest.code)
  | repeated min max greedy body => bounded min max greedy body.takesChar body.code

end Expr

structure Program where
  code : Array Inst
  deriving DecidableEq

namespace Program

def ofExpr (e : Expr) : Program := ⟨(e.code ++ [Inst.accept]).toArray⟩

/-- Compiles a pattern source. Faults of form come first, then faults of classes under their flags,
then the size. -/
def compile [Sizing] (source : List Char) : Except Error Program := do
  let tree ← Reader.readPattern source
  let e ← tree.elaborate
  if sizeLimit < Sizing.bytes e then throw .tooLarge
  return ofExpr e

end Program

end PairGrep.Pattern
