import PairGrep.CommandLine.Request
import PairGrep.Grep

/-!
# Running a command

A command loads its settings, resolves its input, searches, and prints the tokens. The first of
these that fails decides what is reported. Settings that are not asked for may fail, and are then
the built-in ones.
-/

namespace PairGrep.CommandLine

structure World where
  files : Files
  environment : Settings.Environment
  stdin : List UInt8

inductive Failure where
  | usage
  | settings (path : String) (e : SettingsError)
  | search (e : GrepError)
  deriving DecidableEq

namespace Failure

def code : Failure → Nat
  | usage => 2
  | settings _ _ | search _ => 1

def report : Failure → String
  | usage => "error: usage"
  | settings path _ => "Error: loading config from " ++ path
  | search (.input e) => "Error: " ++ e.message
  | search (.pattern .tooLarge) => "Error: " ++ Pattern.Error.tooLarge.message
  | search (.pattern _) => "Error: regex parse error:"

end Failure

structure Outcome where
  code : Nat
  stdout : String
  stderr : String
  deriving DecidableEq

def Outcome.of : Except Failure String → Outcome
  | .ok out => ⟨0, out, ""⟩
  | .error e => ⟨e.code, "", e.report ++ "\n"⟩

/-- The text of tokens: each on a line of its own, or all as an array on one line. -/
def render (format : Format) (tokens : List Token) : String :=
  match format with
  | .lines => String.join (tokens.map fun t => t.display ++ "\n")
  | .json => (Json.Value.array (tokens.map Token.toValue)).render ++ "\n"

namespace Request

def settings [Settings.Readers] (r : Request) (w : World) : Except Failure Settings :=
  match r.common.settings with
  | some path => (Settings.loadFrom w.files path).mapError (.settings path)
  | none => .ok ((Settings.load w.files w.environment).toOption.getD .default)

def allTerms (r : Request) : List Term := r.terms.map .literal ++ r.patterns.map .pattern

/-- The input of a request; a hyphen stands for standard input. -/
def source (r : Request) (w : World) : Input :=
  if r.input = "-" then .bytes w.stdin else .text r.input

/-- The paths that a request may read, in the order in which it comes to them. -/
def paths (r : Request) (env : Settings.Environment) : List String :=
  let path := r.common.settings.getD (Settings.defaultPath env)
  path :: (Settings.alternatives path).map (·.1) ++ [r.input]

def run [Pattern.Sizing] [Settings.Readers] (r : Request) (w : World) : Except Failure String := do
  let settings ← r.settings w
  let grep := (Grep.load w.files (r.source w)).withMatcher settings.matcher
  let tokens ← (grep.search r.allTerms r.side).mapError .search
  return render (r.common.format.getD settings.format) tokens

end Request

def run [Pattern.Sizing] [Settings.Readers] (args : List String) (w : World) :
    Except Failure String :=
  match Request.ofArguments? args with
  | none => .error .usage
  | some r => r.run w

end PairGrep.CommandLine
