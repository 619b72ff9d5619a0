import Mathlib
import PairGrep.Session

/-!
# Loading

Loading an input looks its path up before the file is read, where resolving reads it at once. Main
statement: both give the same text or the same error, and no later call tells the two apart.
-/

namespace PairGrep

section Files

variable {files : Files} {path : String}

theorem Files.readText?_of_isFile_false (h : files.isFile path = false) :
    files.readText? path = none := by
  unfold isFile at h
  unfold readText? readBytes?
  split at h
  · simp at h
  · rfl

theorem Input.readChecked_of_isFile_false (h : files.isFile path = false) :
    readChecked files path = .error (.quoting path) := by
  rw [readChecked, Files.readText?_of_isFile_false h]

end Files

namespace Input

private theorem load_text (files : Files) (text : String) :
    load files (.text text) = resolve files (.text text) := by
  cases hjson : Json.isJson text <;> simp [load, pathToRead?, resolve, hjson]

private theorem load_path (files : Files) (path : String) :
    load files (.path path) = resolve files (.path path) := by
  cases hfile : files.isFile path with
  | false => simp [load, pathToRead?, resolve, hfile, readChecked_of_isFile_false hfile]
  | true => simp [load, pathToRead?, resolve, hfile]

theorem load_eq (files : Files) (input : Input) : load files input = resolve files input := by
  cases input with
  | text s => exact load_text files s
  | path p => exact load_path files p
  | bytes bs => rfl
  | structured v => rfl

end Input

theorem Grep.load_eq (files : Files) (input : Input) : load files input = new files input :=
  congrArg (Grep.mk · .default) (Input.load_eq files input)

/-- The step without a look at the path before the file is read. -/
def Step.atOnce : Step → Step
  | .open source _ => .open source false
  | step => step

namespace Session

variable [Pattern.Sizing]

private theorem step_atOnce (s : Session) (step : Step) : s.step step.atOnce = s.step step := by
  cases step with
  | «open» source lookUp =>
    cases source with
    | error e => rfl
    | ok input => cases lookUp <;> simp [Step.atOnce, Session.step, Grep.load_eq]
  | write path bytes => rfl
  | remove path => rfl
  | text => rfl
  | matcher m => rfl
  | search terms side => rfl
  | again side => rfl

theorem run_atOnce (s : Session) (steps : List Step) :
    s.run (steps.map Step.atOnce) = s.run steps := by
  induction steps generalizing s with
  | nil => rfl
  | cons step steps ih => rw [List.map_cons, run, run, step_atOnce, ih]

/-- Loading gives what resolving gives, and a session answers alike whichever of the two opens each
of its inputs. -/
theorem load_agrees :
    (∀ (files : Files) (input : Input), input.load files = input.resolve files) ∧
      (∀ (files : Files) (input : Input), Grep.load files input = Grep.new files input) ∧
      ∀ (s : Session) (steps : List Step), s.run (steps.map Step.atOnce) = s.run steps :=
  ⟨Input.load_eq, Grep.load_eq, run_atOnce⟩

end Session

end PairGrep
