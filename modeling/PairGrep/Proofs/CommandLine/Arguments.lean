import Mathlib
import PairGrep.CommandLine.Run
import PairGrep.Proofs.Input.Load
import PairGrep.Proofs.Terms.Sources

/-!
# Command lines as calls

A command line asks for one search, in whatever order its arguments stand. Main statement: its outcome
is that of the search, with the settings, the input and the terms that it names; and of settings,
input and patterns, the first that fails is reported.
-/

namespace PairGrep.CommandLine

@[mk_iff]
structure Common.Apart (c o : Common) : Prop where
  debug : c.debug = false ∨ o.debug = false
  format : c.format = none ∨ o.format = none
  settings : c.settings = none ∨ o.settings = none

namespace Common

variable {b c o : Common}

theorem apart_override : b.Apart (o.override c) ↔ b.Apart o ∧ b.Apart c := by
  simp only [apart_iff, override, Bool.or_eq_false_iff, Option.or_eq_none_iff]
  grind

theorem override_apart : (b.override o).Apart c ↔ b.Apart c ∧ o.Apart c := by
  simp only [apart_iff, override, Bool.or_eq_false_iff, Option.or_eq_none_iff]
  grind

theorem override_assoc (b o c : Common) :
    (b.override o).override c = b.override (o.override c) := by
  simp [override, Bool.or_assoc, Option.or_assoc]

@[simp]
theorem settings_empty : Common.empty.settings = none := rfl

@[simp]
theorem override_empty (c : Common) : c.override .empty = c := by
  simp [override, empty]

@[simp]
theorem empty_override (c : Common) : Common.empty.override c = c := by
  simp [override, empty]

theorem empty_apart (c : Common) : Common.empty.Apart c := ⟨.inl rfl, .inl rfl, .inl rfl⟩

theorem settings_override (h : o.Apart c) :
    (o.override c).settings = some "" ↔ o.settings = some "" ∨ c.settings = some "" := by
  rcases h.settings with hnone | hnone
  · simp [override, hnone]
  · simp [override, hnone]

end Common

inductive IsLong (name value : String) : List String → Prop where
  | attached : IsLong name value ["--" ++ name ++ "=" ++ value]
  | behind (plain : isPlainArgument value = true) : IsLong name value ["--" ++ name, value]

/-- An option that may stand on either side of the command, and what it sets. -/
inductive IsCommon : Common → List String → Prop where
  | debug : IsCommon ⟨true, none, none⟩ ["--debug"]
  | format {name : String} {f : Format} {args : List String} (hf : Settings.formatOf? name = some f)
    (hargs : IsLong "format" name args) : IsCommon ⟨false, some f, none⟩ args
  | settings {path : String} {args : List String} (hargs : IsLong "config" path args) :
    IsCommon ⟨false, none, some path⟩ args

inductive IsPattern (source : String) : List String → Prop where
  | long {args : List String} (hargs : IsLong "regex" source args) : IsPattern source args
  | behind (plain : isPlainArgument source = true) : IsPattern source ["-e", source]
  | equals : IsPattern source ["-e=" ++ source]
  | attached (hne : source.toList ≠ []) (hhead : source.toList.head? ≠ some '=') :
    IsPattern source ["-e" ++ source]

/-- The arguments on one side of the command, in any order, with the options on either side, the
positionals and the patterns that they give. -/
inductive Written : Common → List String → List String → List String → Prop where
  | nil : Written .empty [] [] []
  | positional {c : Common} {arg : String} {ps rs args : List String}
    (plain : isPlainArgument arg = true) (more : Written c ps rs args) :
    Written c (arg :: ps) rs (arg :: args)
  | pattern {c : Common} {source : String} {ps rs front args : List String}
    (hfront : IsPattern source front) (more : Written c ps rs args) :
    Written c ps (source :: rs) (front ++ args)
  | common {o c : Common} {ps rs front args : List String} (hfront : IsCommon o front)
    (hapart : o.Apart c) (more : Written c ps rs args) : Written (o.override c) ps rs (front ++ args)

section Options

variable {name value source : String} {args rest : List String} {c o : Common}

private def IsOption (arg : String) : Prop :=
  arg ≠ "--" ∧ isPlainArgument arg = false ∧ sideOf? arg = none

private theorem isOption_of_toList {arg : String} {a : Char} {more : List Char}
    (h : arg.toList = '-' :: a :: more) (hne : a ≠ '-' ∨ more ≠ []) : IsOption arg := by
  have hother : ∀ s : String, s.toList ≠ '-' :: a :: more → arg ≠ s := fun s hs heq => hs (heq ▸ h)
  have hdouble : arg ≠ "--" := hother "--" fun heq => by
    obtain ⟨rfl, rfl⟩ : '-' = a ∧ [] = more := by simpa using heq
    simp at hne
  have hhyphen : arg ≠ "-" := hother "-" (by simp)
  refine ⟨hdouble, by simp [isPlainArgument, h, hhyphen], ?_⟩
  rw [sideOf?, if_neg (hother "keys" (by simp)), if_neg (hother "values" (by simp))]

/-- The arguments are an option of a shape, and its value is taken from it or from behind it. -/
private def TakesValue (shape : Option String → Shape) (value : String) (args : List String) :
    Prop :=
  ∃ first more attached, args = first :: more ∧ IsOption first ∧ shapeOf first = shape attached ∧
    ∀ rest, takeValue attached (more ++ rest) = some (value, rest)

private theorem takeValue_behind (h : isPlainArgument value = true) (rest : List String) :
    takeValue none (value :: rest) = some (value, rest) := if_pos h

private theorem shapeOf_long (hname : '=' ∉ name.toList) (tail : List Char) {arg : String}
    (harg : arg.toList = '-' :: '-' :: (name.toList ++ tail))
    (htail : tail = [] ∨ ∃ v, tail = '=' :: v) :
    shapeOf arg = .long name (tail.tail?.map String.ofList) := by
  have hall : ∀ c ∈ name.toList, (c != '=') = true := by
    intro c hc
    rw [bne_iff_ne]
    exact fun h => hname (h ▸ hc)
  rw [shapeOf, harg]
  simp only
  rw [List.dropWhile_append_of_pos hall, List.takeWhile_append_of_pos hall]
  rcases htail with rfl | ⟨v, rfl⟩
  · simp
  · simp

private theorem IsLong.takesValue (h : IsLong name value args) (hname : '=' ∉ name.toList)
    (hne : name.toList ≠ []) : TakesValue (.long name) value args := by
  cases h with
  | attached =>
    have harg : ("--" ++ name ++ "=" ++ value).toList =
        '-' :: '-' :: (name.toList ++ '=' :: value.toList) := by
      simp [String.toList_append]
    refine ⟨_, [], some value, rfl, isOption_of_toList harg (.inr (by simp)), ?_, fun _ => rfl⟩
    rw [shapeOf_long hname _ harg (.inr ⟨_, rfl⟩)]
    simp
  | behind plain =>
    have harg : ("--" ++ name).toList = '-' :: '-' :: (name.toList ++ []) := by
      simp [String.toList_append]
    refine ⟨_, [value], none, rfl, isOption_of_toList harg (.inr (by simpa using hne)), ?_,
      takeValue_behind plain⟩
    rw [shapeOf_long hname _ harg (.inl rfl)]
    rfl

private theorem IsPattern.takesValue (h : IsPattern source args) :
    TakesValue (.long "regex") source args ∨ TakesValue (.short 'e') source args := by
  cases h with
  | long hargs => exact .inl (hargs.takesValue (by simp) (by simp))
  | behind plain =>
    have harg : "-e".toList = ['-', 'e'] := rfl
    exact .inr ⟨_, [source], none, rfl, isOption_of_toList harg (.inl (by simp)), rfl,
      takeValue_behind plain⟩
  | equals =>
    have harg : ("-e=" ++ source).toList = '-' :: 'e' :: '=' :: source.toList := String.toList_append
    refine .inr ⟨_, [], some source, rfl, isOption_of_toList harg (.inl (by simp)), ?_, fun _ => rfl⟩
    rw [shapeOf, harg]
    simp
  | attached hne hhead =>
    have harg : ("-e" ++ source).toList = '-' :: 'e' :: source.toList := String.toList_append
    refine .inr ⟨_, [], some source, rfl, isOption_of_toList harg (.inl (by simp)), ?_, fun _ => rfl⟩
    obtain ⟨a, more, hsource⟩ := List.exists_cons_of_ne_nil hne
    have ha : a ≠ '=' := by simpa [hsource] using hhead
    have hwhole : String.ofList (a :: more) = source := by rw [← hsource, String.ofList_toList]
    rw [shapeOf, harg, hsource]
    simp [ha, hwhole]

private theorem IsCommon.take (h : IsCommon o args) (hapart : c.Apart o) :
    ∃ first more, args = first :: more ∧ IsOption first ∧ ∀ rest,
      takeCommon c (shapeOf first) (more ++ rest) =
        some (if o.settings = some "" then none else some (c.override o, rest)) := by
  obtain ⟨debug, format, settings⟩ := c
  cases h with
  | debug =>
    have hdebug : debug = false := by simpa using hapart.debug
    refine ⟨_, [], rfl, isOption_of_toList rfl (.inr (by simp)), fun rest => ?_⟩
    subst hdebug
    cases format <;> cases settings <;> rfl
  | format hf hargs =>
    have hformat : format = none := by simpa using hapart.format
    obtain ⟨first, more, attached, rfl, hfirst, hshape, hvalue⟩ :=
      hargs.takesValue (by simp) (by simp)
    refine ⟨first, more, rfl, hfirst, fun rest => ?_⟩
    subst hformat
    rw [hshape, takeCommon, hvalue]
    simp [hf, Common.override]
  | settings hargs =>
    have hsettings : settings = none := by simpa using hapart.settings
    obtain ⟨first, more, attached, rfl, hfirst, hshape, hvalue⟩ :=
      hargs.takesValue (by simp) (by simp)
    refine ⟨first, more, rfl, hfirst, fun rest => ?_⟩
    subst hsettings
    rw [hshape, takeCommon, hvalue]
    simp [Common.override]

private theorem IsPattern.take (h : IsPattern source args) :
    ∃ first more, args = first :: more ∧ IsOption first ∧ ∀ c rest,
      takeCommon c (shapeOf first) (more ++ rest) = none ∧
        takePattern (shapeOf first) (more ++ rest) = some (some (source, rest)) := by
  rcases h.takesValue with h | h
  all_goals
    obtain ⟨first, more, attached, rfl, hfirst, hshape, hvalue⟩ := h
    refine ⟨first, more, rfl, hfirst, fun c rest => ?_⟩
    rw [hshape, takePattern, hvalue]
    exact ⟨rfl, rfl⟩

private theorem IsCommon.ne_nil (h : IsCommon o args) : args ≠ [] := by
  obtain ⟨first, more, rfl, -⟩ := h.take (Common.empty_apart o)
  exact List.cons_ne_nil _ _

private theorem IsPattern.ne_nil (h : IsPattern source args) : args ≠ [] := by
  obtain ⟨first, more, rfl, -⟩ := h.take
  exact List.cons_ne_nil _ _

end Options

section Reading

variable {o c : Common} {a : Arguments} {source : String} {ps rs front args : List String} {fuel : ℕ}

private theorem exists_fuel (hne : front ≠ []) {n : ℕ} (h : (front ++ args).length + n ≤ fuel) :
    ∃ fewer, fuel = fewer + 1 ∧ args.length + n ≤ fewer := by
  have hpos := List.length_pos_iff.mpr hne
  rw [List.length_append] at h
  exact ⟨fuel - 1, by omega, by omega⟩

private theorem readArguments_positional {arg : String} (h : isPlainArgument arg = true) :
    readArguments (fuel + 1) a (arg :: args) =
      readArguments fuel { a with positionals := a.positionals ++ [arg] } args := by
  have hne : arg ≠ "--" := by
    rintro rfl
    exact absurd h (by decide)
  rw [readArguments, if_neg hne, if_pos h]

private theorem readArguments_common (h : IsCommon o front) (hapart : a.common.Apart o) :
    readArguments (fuel + 1) a (front ++ args) =
      if o.settings = some "" then none
      else readArguments fuel { a with common := a.common.override o } args := by
  obtain ⟨first, more, rfl, ⟨hne, hplain, -⟩, htake⟩ := h.take hapart
  rw [List.cons_append, readArguments, if_neg hne, if_neg (by simp [hplain]), htake]
  split_ifs <;> rfl

private theorem readArguments_pattern (h : IsPattern source front) :
    readArguments (fuel + 1) a (front ++ args) =
      readArguments fuel { a with patterns := a.patterns ++ [source] } args := by
  obtain ⟨first, more, rfl, ⟨hne, hplain, -⟩, htake⟩ := h.take
  obtain ⟨hcommon, hpattern⟩ := htake a.common args
  rw [List.cons_append, readArguments, if_neg hne, if_neg (by simp [hplain]), hcommon, hpattern]
  rfl

private theorem Written.readArguments (h : Written c ps rs args) (a : Arguments)
    (hapart : a.common.Apart c) (hfuel : args.length ≤ fuel) :
    CommandLine.readArguments fuel a args = if c.settings = some "" then none
      else some ⟨a.common.override c, a.positionals ++ ps, a.patterns ++ rs⟩ := by
  -- The options read so far stay apart from those to come, so none counts as given twice.
  induction h generalizing a fuel with
  | nil => cases fuel <;> simp [CommandLine.readArguments]
  | @positional c arg ps rs args plain more ih =>
    obtain ⟨fuel, rfl⟩ := Nat.exists_eq_add_one_of_ne_zero (Nat.ne_zero_of_lt hfuel)
    rw [readArguments_positional plain,
      ih { a with positionals := a.positionals ++ [arg] } hapart (Nat.le_of_lt_succ hfuel)]
    simp
  | @pattern c source ps rs front args hfront more ih =>
    obtain ⟨fuel, rfl, hfewer⟩ := exists_fuel (n := 0) hfront.ne_nil hfuel
    rw [readArguments_pattern hfront, ih { a with patterns := a.patterns ++ [source] } hapart hfewer]
    simp
  | @common o c ps rs front args hfront hone more ih =>
    obtain ⟨fuel, rfl, hfewer⟩ := exists_fuel (n := 0) hfront.ne_nil hfuel
    obtain ⟨hfirst, hmore⟩ := Common.apart_override.mp hapart
    rw [readArguments_common hfront hfirst, ih { a with common := a.common.override o }
      (Common.override_apart.mpr ⟨hmore, hone⟩) hfewer, Common.override_assoc]
    simp only [Common.settings_override hone, ite_or]

variable {command input : String} {before after terms patterns : List String} {side : Side}
  {left right : Common}

private theorem readFrom_common (h : IsCommon o front) (hapart : c.Apart o) :
    readFrom (fuel + 1) c (front ++ args) =
      if o.settings = some "" then none else readFrom fuel (c.override o) args := by
  obtain ⟨first, more, rfl, ⟨-, -, hside⟩, htake⟩ := h.take hapart
  rw [List.cons_append, readFrom, hside]
  simp only [htake]
  split_ifs <;> rfl

private theorem readFrom_command (hcommand : sideOf? command = some side)
    (hafter : Written right (input :: terms) patterns after) :
    readFrom (fuel + 1) c (command :: after) = if right.settings = some "" then none
      else some ⟨side, input, terms, patterns, c.override right⟩ := by
  rw [readFrom, hcommand]
  simp only [hafter.readArguments ⟨.empty, [], []⟩ (Common.empty_apart _) le_rfl]
  split_ifs <;> simp

/-- A command line is read as it is written, unless it names an empty path. -/
private theorem Written.readFrom (hbefore : Written left ps rs before) (hps : ps = [])
    (hrs : rs = []) (hcommand : sideOf? command = some side)
    (hafter : Written right (input :: terms) patterns after) (hapart : c.Apart left)
    (hfuel : before.length < fuel) :
    CommandLine.readFrom fuel c (before ++ command :: after) =
      if left.settings = some "" ∨ right.settings = some "" then none
      else some ⟨side, input, terms, patterns, c.override (left.override right)⟩ := by
  induction hbefore generalizing c fuel with
  | nil =>
    obtain ⟨fuel, rfl⟩ := Nat.exists_eq_add_one_of_ne_zero (Nat.ne_zero_of_lt hfuel)
    rw [List.nil_append, readFrom_command hcommand hafter]
    simp
  | positional => cases hps
  | pattern => cases hrs
  | @common o left ps rs front args hfront hone more ih =>
    obtain ⟨fuel, rfl, hfewer⟩ := exists_fuel (n := 1) hfront.ne_nil hfuel
    obtain ⟨hfirst, hmore⟩ := Common.apart_override.mp hapart
    rw [List.append_assoc, readFrom_common hfront hfirst,
      ih hps hrs (Common.override_apart.mpr ⟨hmore, hone⟩) hfewer]
    simp only [Common.settings_override hone, Common.override_assoc, or_assoc, ite_or]

end Reading

section Runs

theorem Outcome.code_eq_zero_iff {result : Except Failure String} :
    (Outcome.of result).code = 0 ↔ ∃ out, result = .ok out := by
  cases result with
  | error e => cases e <;> simp [Outcome.of, Failure.code]
  | ok out => simp [Outcome.of]

theorem Outcome.stdout_of_code_ne_zero {result : Except Failure String}
    (h : (Outcome.of result).code ≠ 0) : (Outcome.of result).stdout = "" := by
  cases result with
  | error e => rfl
  | ok out => exact absurd rfl h

variable [Settings.Readers] {r : Request} {w : World} {settings : Settings} {text : String}

def Request.patternSource (r : Request) (settings : Settings) : List Char :=
  pairSource (settings.matcher.sides r.side r.allTerms).1 (settings.matcher.sides r.side r.allTerms).2

theorem Request.settings_of_path {path : String} {e : SettingsError}
    (hpath : r.common.settings = some path) (hload : Settings.loadFrom w.files path = .error e) :
    r.settings w = .error (.settings path e) := by
  simp only [Request.settings, hpath, hload, Except.mapError]

theorem Request.exists_settings (h : r.common.settings = none) (w : World) :
    ∃ settings, r.settings w = .ok settings := by
  rw [Request.settings, h]
  exact ⟨_, rfl⟩

variable [Pattern.Sizing]

/-- What the library answers to a request: it loads the settings, resolves the input, searches it for
the terms, and the tokens are printed in the format that the request or else the settings ask for. -/
def Request.answer (r : Request) (w : World) : Except Failure String := do
  let settings ← r.settings w
  let text ← ((r.source w).resolve w.files).mapError fun e => .search (.input e)
  let tokens ← (settings.matcher.search text r.allTerms r.side).mapError fun e => .search (.pattern e)
  return render (r.common.format.getD settings.format) tokens

theorem Request.run_eq_answer (r : Request) (w : World) : r.run w = r.answer w := by
  rw [Request.run, Request.answer]
  cases r.settings w with
  | error e => rfl
  | ok settings =>
    simp only [Grep.load_eq, Grep.new, Grep.withMatcher, Grep.search]
    cases (r.source w).resolve w.files with
    | error e => rfl
    | ok text =>
      simp only [bind, Except.bind, Except.mapError]
      cases settings.matcher.search text r.allTerms r.side <;> rfl

theorem Request.answer_of_settings {e : Failure} (h : r.settings w = .error e) :
    r.answer w = .error e := by
  rw [Request.answer, h]
  rfl

theorem Request.answer_of_input {e : InputError} (h : r.settings w = .ok settings)
    (hinput : (r.source w).resolve w.files = .error e) :
    r.answer w = .error (.search (.input e)) := by
  rw [Request.answer, h, hinput]
  rfl

theorem Request.answer_of_pattern {e : Pattern.Error} (h : r.settings w = .ok settings)
    (hinput : (r.source w).resolve w.files = .ok text)
    (hpattern : Pattern.Program.compile (r.patternSource settings) = .error e) :
    r.answer w = .error (.search (.pattern e)) := by
  have hsearch : settings.matcher.search text r.allTerms r.side = .error e := by
    rw [Matcher.search_eq, ← Request.patternSource, hpattern]
    rfl
  rw [Request.answer, h, hinput]
  simp only [hsearch, bind, Except.bind, Except.mapError]

theorem Request.exists_answer {program : Pattern.Program} (h : r.settings w = .ok settings)
    (hinput : (r.source w).resolve w.files = .ok text)
    (hpattern : Pattern.Program.compile (r.patternSource settings) = .ok program) :
    ∃ tokens, settings.matcher.search text r.allTerms r.side = .ok tokens ∧
      r.answer w = .ok (render (r.common.format.getD settings.format) tokens) := by
  obtain ⟨tokens, hsearch⟩ : ∃ tokens,
      settings.matcher.search text r.allTerms r.side = .ok tokens := by
    rw [Matcher.search_eq, ← Request.patternSource, hpattern]
    exact ⟨_, rfl⟩
  refine ⟨tokens, hsearch, ?_⟩
  rw [Request.answer, h, hinput]
  simp only [hsearch, bind, Except.bind, Except.mapError, pure, Except.pure]

/-- A request is answered exactly if its settings, its input and its pattern are all right. -/
theorem Request.answer_isOk_iff :
    (∃ out, r.answer w = .ok out) ↔ ∃ settings text program, r.settings w = .ok settings ∧
      (r.source w).resolve w.files = .ok text ∧
      Pattern.Program.compile (r.patternSource settings) = .ok program := by
  constructor
  · rintro ⟨out, hout⟩
    cases hsettings : r.settings w with
    | error e =>
      rw [Request.answer_of_settings hsettings] at hout
      cases hout
    | ok settings =>
      cases hinput : (r.source w).resolve w.files with
      | error e =>
        rw [Request.answer_of_input hsettings hinput] at hout
        cases hout
      | ok text =>
        cases hpattern : Pattern.Program.compile (r.patternSource settings) with
        | error e =>
          rw [Request.answer_of_pattern hsettings hinput hpattern] at hout
          cases hout
        | ok program => exact ⟨settings, text, program, rfl, rfl, hpattern⟩
  · rintro ⟨settings, text, program, hsettings, hinput, hpattern⟩
    obtain ⟨tokens, -, hanswer⟩ := Request.exists_answer hsettings hinput hpattern
    exact ⟨_, hanswer⟩

/-- A command line is a call of the library: whatever the order of its arguments, its outcome is the
answer to the request that they write. Of settings, input and pattern the first that fails is reported,
and then nothing is printed. An empty path of a settings file makes it no command line. -/
theorem run_written {side : Side} {command input : String} {terms patterns : List String}
    {left right : Common} {before after : List String} (hcommand : sideOf? command = some side)
    (hbefore : Written left [] [] before) (hafter : Written right (input :: terms) patterns after)
    (w : World) :
    let r : Request := ⟨side, input, terms, patterns, left.override right⟩
    let outcome := Outcome.of (run (before ++ command :: after) w)
    (left.settings = some "" ∨ right.settings = some "" →
      run (before ++ command :: after) w = .error .usage ∧ outcome.code = 2) ∧
    (¬ (left.settings = some "" ∨ right.settings = some "") →
      outcome = .of (r.answer w) ∧
      (outcome.code = 0 ↔ ∃ settings text program, r.settings w = .ok settings ∧
        (r.source w).resolve w.files = .ok text ∧
        Pattern.Program.compile (r.patternSource settings) = .ok program) ∧
      (∀ path e, r.common.settings = some path → Settings.loadFrom w.files path = .error e →
        outcome = .of (.error (.settings path e))) ∧
      (∀ settings e, r.settings w = .ok settings → (r.source w).resolve w.files = .error e →
        outcome = .of (.error (.search (.input e)))) ∧
      (∀ settings text e, r.settings w = .ok settings → (r.source w).resolve w.files = .ok text →
        Pattern.Program.compile (r.patternSource settings) = .error e →
        outcome = .of (.error (.search (.pattern e))))) ∧
    (r.common.settings = none → ∃ settings, r.settings w = .ok settings) ∧
    (outcome.code ≠ 0 → outcome.stdout = "") := by
  intro r outcome
  have hread : Request.ofArguments? (before ++ command :: after) =
      if left.settings = some "" ∨ right.settings = some "" then none else some r := by
    rw [Request.ofArguments?, hbefore.readFrom rfl rfl hcommand hafter (Common.empty_apart _),
      Common.empty_override]
    rw [List.length_append]
    omega
  refine ⟨fun hempty => ?_, fun hnamed => ?_, fun h => Request.exists_settings h w,
    Outcome.stdout_of_code_ne_zero⟩
  · have hrun : run (before ++ command :: after) w = .error .usage := by
      rw [run, hread, if_pos hempty]
    refine ⟨hrun, ?_⟩
    simp only [outcome, hrun]
    rfl
  · have hanswer : outcome = .of (r.answer w) := by
      simp only [outcome, run, hread, if_neg hnamed, Request.run_eq_answer]
    rw [hanswer]
    refine ⟨rfl, ?_, fun path e hpath hload => ?_, fun settings e hsettings hinput => ?_,
      fun settings text e hsettings hinput hpattern => ?_⟩
    · rw [Outcome.code_eq_zero_iff, Request.answer_isOk_iff]
    · rw [Request.answer_of_settings (Request.settings_of_path hpath hload)]
    · rw [Request.answer_of_input hsettings hinput]
    · rw [Request.answer_of_pattern hsettings hinput hpattern]

end Runs

def World.bare : World := ⟨⟨fun _ => none⟩, ⟨none, none⟩, []⟩

theorem run_written_mixed :
    sideOf? "values" = some .values ∧
    Written ⟨false, some .json, none⟩ [] [] ["--format", "json"] ∧
    Written ⟨true, none, none⟩ ["\x7b\"a\":1,\"b\":2\x7d", "a"] ["b"]
      ["-e=b", "\x7b\"a\":1,\"b\":2\x7d", "--debug", "a"] ∧
    Outcome.of (run ["--format", "json", "values",
      "-e=b", "\x7b\"a\":1,\"b\":2\x7d", "--debug", "a"] .bare) = ⟨0, "[1,2]\n", ""⟩ := by
  have hcommand : sideOf? "values" = some .values := rfl
  have hbefore : Written ⟨false, some .json, none⟩ [] [] ["--format", "json"] :=
    .common (.format rfl (.behind rfl)) ⟨.inl rfl, .inr rfl, .inl rfl⟩ .nil
  have hafter : Written ⟨true, none, none⟩ ["\x7b\"a\":1,\"b\":2\x7d", "a"] ["b"]
      ["-e=b", "\x7b\"a\":1,\"b\":2\x7d", "--debug", "a"] :=
    .pattern .equals (.positional (by decide)
      (.common .debug ⟨.inr rfl, .inl rfl, .inl rfl⟩ (.positional (by decide) .nil)))
  obtain ⟨hanswer, -⟩ := (run_written hcommand hbefore hafter .bare).2.1 (by simp)
  refine ⟨hcommand, hbefore, hafter, hanswer.trans ?_⟩
  decide +kernel

theorem run_unnamed_settings :
    sideOf? "values" = some .values ∧
    Written ⟨false, none, some ""⟩ [] [] ["--config", ""] ∧
    Written .empty ["\x7b\x7d"] [] ["\x7b\x7d"] ∧
    (Outcome.of (Request.answer
      ⟨.values, "\x7b\x7d", [], [], ⟨false, none, some ""⟩⟩ .bare)).code = 1 ∧
    (Outcome.of (run ["--config", "", "values", "\x7b\x7d"] .bare)).code = 2 := by
  refine ⟨rfl, ?_, .positional (by decide) .nil, by decide +kernel, by decide +kernel⟩
  exact .common (.settings (.behind rfl)) ⟨.inl rfl, .inl rfl, .inr rfl⟩ .nil

end PairGrep.CommandLine
