import Mathlib
import PairGrep.Proofs.Input.Load

/-!
# Questions about an opened input

An input is resolved when it is opened, in the files of that moment, and nothing that happens later
resolves it again. Main statement: what is asked of it is answered from that resolution and from the
matcher that was set last; if it failed, every answer is its error.
-/

namespace PairGrep

def Step.opens : Step → Bool
  | .open (.ok _) _ => true
  | _ => false

def Step.matcher? : Step → Option Matcher
  | .matcher m => some m
  | _ => none

def Step.lastMatcher (steps : List Step) : Matcher :=
  (steps.filterMap matcher?).getLast?.getD .default

def Step.files (tree : FileTree) : Step → FileTree
  | .write path bytes => tree.write path bytes
  | .remove path => tree.remove path
  | _ => tree

inductive Question where
  | text
  | search (terms : List Term) (side : Side)

namespace Question

def step : Question → Step
  | text => .text
  | search terms side => .search (.ok terms) side

/-- The answer for an input that was resolved like this. -/
def answer [Pattern.Sizing] (data : Except InputError String) (m : Matcher) : Question → Answer
  | text =>
    match data with
    | .error e => .failed (.input e)
    | .ok json => .text json
  | search terms side =>
    match data with
    | .error e => .failed (.input e)
    | .ok json =>
      match m.search json terms side with
      | .error e => .failed (.pattern e)
      | .ok tokens => .tokens tokens

theorem answer_error [Pattern.Sizing] (e : InputError) (m : Matcher) (q : Question) :
    q.answer (.error e) m = .failed (.input e) := by
  cases q <;> rfl

end Question

namespace Session

private theorem answer_kept (s : Session) (found : Except GrepError (List Token)) :
    (s.answer found).1.tree = s.tree ∧ (s.answer found).1.current = s.current := by
  cases found <;> exact ⟨rfl, rfl⟩

section Replies

variable [Pattern.Sizing] {s : Session} {data : Except InputError String} {m : Matcher}

/-- The answer of a run to a question that is asked behind some steps and in front of others. -/
def reply? (s : Session) (history : List Step) (q : Question) (rest : List Step) : Option Answer :=
  (s.run (history ++ q.step :: rest))[history.length]?

def after (s : Session) (steps : List Step) : Session :=
  steps.foldl (fun s step => (s.step step).1) s

theorem run_append (s : Session) (steps more : List Step) :
    s.run (steps ++ more) = s.run steps ++ (s.after steps).run more := by
  induction steps generalizing s with
  | nil => rfl
  | cons step steps ih =>
    rw [List.cons_append, run, run, ih, List.cons_append]
    rfl

theorem length_run (s : Session) (steps : List Step) : (s.run steps).length = steps.length := by
  induction steps generalizing s with
  | nil => rfl
  | cons step steps ih => rw [run, List.length_cons, List.length_cons, ih]

theorem reply?_eq (s : Session) (history : List Step) (q : Question) (rest : List Step) :
    s.reply? history q rest = some ((s.after history).step q.step).2 := by
  rw [reply?, run_append, List.getElem?_append_right (length_run s history).le, length_run,
    Nat.sub_self]
  rfl

private theorem tree_step (s : Session) (step : Step) :
    (s.step step).1.tree = step.files s.tree := by
  cases step with
  | «open» source lookUp => cases source <;> rfl
  | write path bytes => rfl
  | remove path => rfl
  | text =>
    simp only [Session.step]
    split
    · rfl
    · split <;> rfl
  | matcher m =>
    simp only [Session.step]
    split <;> rfl
  | search terms side =>
    cases terms with
    | error e => rfl
    | ok terms =>
      simp only [Session.step]
      split
      · rfl
      · exact (answer_kept s _).1
  | again side =>
    simp only [Session.step]
    split
    · rfl
    · exact (answer_kept s _).1

theorem tree_after (s : Session) (steps : List Step) :
    (s.after steps).tree = steps.foldl Step.files s.tree := by
  induction steps generalizing s with
  | nil => rfl
  | cons step steps ih =>
    rw [List.foldl_cons, ← tree_step]
    exact ih (s.step step).1

/-- A step that opens no input leaves the opened one as it was resolved; only its matcher may change. -/
private theorem current_step (h : s.current = some ⟨data, m⟩) {step : Step}
    (hstep : step.opens = false) :
    (s.step step).1.current = some ⟨data, step.matcher?.getD m⟩ := by
  cases step with
  | «open» source lookUp =>
    cases source with
    | error e => exact h
    | ok input => simp [Step.opens] at hstep
  | write path bytes => exact h
  | remove path => exact h
  | text =>
    simp only [Session.step, h, Grep.text]
    cases data <;> exact h
  | matcher m' =>
    simp only [Session.step, h]
    rfl
  | search terms side =>
    cases terms with
    | error e => exact h
    | ok terms =>
      simp only [Session.step, h]
      rw [(answer_kept s _).2, h]
      rfl
  | again side =>
    simp only [Session.step, h]
    rw [(answer_kept s _).2, h]
    rfl

private theorem current_after (h : s.current = some ⟨data, m⟩) {steps : List Step}
    (hsteps : ∀ step ∈ steps, step.opens = false) :
    (s.after steps).current = some ⟨data, (steps.filterMap Step.matcher?).getLast?.getD m⟩ := by
  induction steps generalizing s m with
  | nil => exact h
  | cons step steps ih =>
    obtain ⟨hstep, hsteps⟩ := List.forall_mem_cons.mp hsteps
    have hcurrent := ih (current_step h hstep) hsteps
    rw [show s.after (step :: steps) = (s.step step).1.after steps from rfl, hcurrent]
    cases hmatcher : step.matcher? with
    | none => simp [hmatcher]
    | some m' => simp [hmatcher, List.getLast?_cons]

private theorem current_open (s : Session) (input : Input) (lookUp : Bool) :
    (s.step (.open (.ok input) lookUp)).1.current =
      some ⟨input.resolve s.tree.files, .default⟩ := by
  cases lookUp <;> simp [Session.step, Grep.new, Grep.load, Input.load_eq]

private theorem step_question (h : s.current = some ⟨data, m⟩) (q : Question) :
    (s.step q.step).2 = q.answer data m := by
  cases q with
  | text =>
    simp only [Question.step, Session.step, h, Grep.text]
    cases data <;> rfl
  | search terms side =>
    simp only [Question.step, Session.step, h, Grep.search]
    cases data with
    | error e => rfl
    | ok json =>
      simp only [Question.answer]
      cases m.search json terms side <;> rfl

theorem reply?_open (s : Session) (before rest : List Step) (input : Input) (lookUp : Bool)
    (q : Question) {between : List Step} (h : ∀ step ∈ between, step.opens = false) :
    s.reply? (before ++ .open (.ok input) lookUp :: between) q rest =
      some (q.answer (input.resolve (before.foldl Step.files s.tree).files)
        (Step.lastMatcher between)) := by
  have hopen := current_open (s.after before) input lookUp
  rw [tree_after] at hopen
  have hcurrent : (s.after (before ++ .open (.ok input) lookUp :: between)).current = some
      ⟨input.resolve (before.foldl Step.files s.tree).files, Step.lastMatcher between⟩ := by
    rw [after, List.foldl_append]
    exact current_after hopen h
  rw [reply?_eq, step_question hcurrent]

/-- Every question about the input that was opened last is answered from what it was resolved to when
it was opened and from the matcher set since then, so two runs in which these agree give one answer,
whatever else happens in them. If the input could not be resolved, each answer is that one error. -/
theorem reply_fixed (s : Session) (before between rest : List Step) (input : Input) (lookUp : Bool)
    (q : Question) (h : ∀ step ∈ between, step.opens = false) :
    let data := input.resolve (before.foldl Step.files s.tree).files
    let reply := s.reply? (before ++ .open (.ok input) lookUp :: between) q rest
    reply = some (q.answer data (Step.lastMatcher between)) ∧
      (∀ (s' : Session) (before' between' rest' : List Step) (input' : Input) (lookUp' : Bool),
        (∀ step ∈ between', step.opens = false) →
        input'.resolve (before'.foldl Step.files s'.tree).files = data →
        Step.lastMatcher between' = Step.lastMatcher between →
        s'.reply? (before' ++ .open (.ok input') lookUp' :: between') q rest' = reply) ∧
      ∀ e, data = .error e → reply = some (.failed (.input e)) := by
  intro data reply
  have hreply : reply = some (q.answer data (Step.lastMatcher between)) :=
    reply?_open s before rest input lookUp q h
  refine ⟨hreply, fun s' before' between' rest' input' lookUp' h' hdata hmatcher => ?_, fun e he => ?_⟩
  · rw [hreply, reply?_open s' before' rest' input' lookUp' q h', hdata, hmatcher]
  · rw [hreply, he, Question.answer_error]

end Replies

theorem reply_fixed_removed :
    let before : List Step := [.write "d" (Utf8.encode "\x7b\"a\":1\x7d")]
    let between : List Step :=
      [.remove "d", .search (.ok [.pattern "("]) .keys, .open (.error ⟨"e"⟩) true]
    let reply := (start .empty).reply? (before ++ .open (.ok (.path "d")) false :: between)
      (.search [.literal "a"] .values) [.text]
    (∀ step ∈ between, step.opens = false) ∧
      reply = some (.tokens [.number (.int 1 (by decide))]) ∧
      (start .empty).reply? ([] ++ .open (.ok (.text "\x7b\"a\":1\x7d")) true :: [])
        (.search [.literal "a"] .values) [] = reply ∧
      (start .empty).reply? ([] ++ .open (.ok (.path "d")) false :: [.matcher ⟨"(", ""⟩])
        (.search [.pattern "("] .keys) [] = some (.failed (.input ⟨"d"⟩)) := by
  intro before between reply
  have hbetween : ∀ step ∈ between, step.opens = false := by simp [between, Step.opens]
  have hdata : (Input.path "d").resolve (before.foldl Step.files (start .empty).tree).files =
      .ok "\x7b\"a\":1\x7d" := by
    decide +kernel
  have hsearch : Matcher.default.search "\x7b\"a\":1\x7d" [.literal "a"] .values =
      .ok [.number (.int 1 (by decide))] := by
    decide +kernel
  have hnone : (Input.path "d").resolve (start .empty).tree.files = .error ⟨"d"⟩ := by decide +kernel
  obtain ⟨hreply, hagrees, -⟩ := reply_fixed (start .empty) before between [.text] (.path "d") false
    (.search [.literal "a"] .values) hbetween
  obtain ⟨-, -, hfailed⟩ := reply_fixed (start .empty) [] [.matcher ⟨"(", ""⟩] [] (.path "d") false
    (.search [.pattern "("] .keys) (by simp [Step.opens])
  have htext : (Input.text "\x7b\"a\":1\x7d").resolve
      (([] : List Step).foldl Step.files (start .empty).tree).files = .ok "\x7b\"a\":1\x7d" := by
    decide +kernel
  have hagreed := hagrees (start .empty) [] [] [] (.text "\x7b\"a\":1\x7d") true (by simp)
    (htext.trans hdata.symm) rfl
  have hlast : Step.lastMatcher between = .default := rfl
  rw [hdata, hlast, Question.answer, hsearch] at hreply
  exact ⟨hbetween, hreply, hagreed, hfailed _ hnone⟩

end Session

end PairGrep
