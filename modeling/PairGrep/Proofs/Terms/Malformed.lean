import PairGrep.Proofs.Terms.Sources

/-!
# Malformed terms

A pattern that does not compile alone makes the search fail, if what is wrong with it does not depend
on what stands around it. Main statement: a search for terms fails if one of them is such a pattern,
wherever it stands among them.
-/

namespace PairGrep

open Pattern Pattern.Reader

/-- The source does not end in verbose mode, and if it does not compile, then neither because
something of it is not finished or not begun nor because it is too large. -/
structure SelfContained [Sizing] (source : List Char) : Prop where
  verbose : leavesVerboseOff source = true
  closed : ∀ e, Program.compile source = .error e → e.isOpen = false
  size : Program.compile source ≠ .error .tooLarge

namespace SelfContained

variable {source : List Char}

theorem of_compile [Sizing] {p : Program} (h : Program.compile source = .ok p)
    (hverbose : leavesVerboseOff source = true) : SelfContained source := by
  refine ⟨hverbose, fun e he => ?_, fun he => ?_⟩ <;> cases h.symm.trans he

theorem of_error [Sizing] {e : Error} (h : Program.compile source = .error e)
    (hopen : e.isOpen = false) (hsize : e ≠ .tooLarge)
    (hverbose : leavesVerboseOff source = true) : SelfContained source := by
  refine ⟨hverbose, fun e' he => ?_, fun he => ?_⟩
  · cases h.symm.trans he
    exact hopen
  · cases h.symm.trans he
    exact hsize rfl

theorem malformed [Sizing] (h : SelfContained source)
    (hcompile : ∀ p, Program.compile source ≠ .ok p) : Malformed source := by
  cases hresult : Program.compile source with
  | ok p => exact absurd hresult (hcompile p)
  | error e =>
    have hsize : e ≠ .tooLarge := by
      rintro rfl
      exact h.size hresult
    exact malformed_of_compile hresult (h.closed e hresult) hsize h.verbose

theorem malformed_or_reads [Sizing] (h : SelfContained source) :
    Malformed source ∨ ∃ tree captures names, Reads source tree captures names := by
  by_cases hcompile : ∃ p, Program.compile source = .ok p
  · obtain ⟨p, hp⟩ := hcompile
    obtain ⟨tree, captures, names, -, -, hread, -⟩ := reads_of_compile hp h.verbose
    exact .inr ⟨tree, captures, names, hread⟩
  · exact .inl (h.malformed fun p hp => hcompile ⟨p, hp⟩)

end SelfContained

section Pair

variable {key value : List Char} {p : Program}

theorem not_compile_key [Sizing] (h : Malformed key) (hq : key.head? ≠ some '?') (value : List Char) :
    Program.compile (pairSource key value) ≠ .ok p := by
  apply not_compile_of_doomed
  rw [fuel_pairSource]
  exact Doomed.pairSource_key hq (h _ 1 [] ')' (afterKey value) (.inl rfl) (by omega))

theorem not_compile_value [Sizing] {k : Tree} {captures : Nat} {names : List (List Char)}
    (hkey : Reads key k captures names) (hkq : key.head? ≠ some '?') (h : Malformed value)
    (hvq : value.head? ≠ some '?') : Program.compile (pairSource key value) ≠ .ok p := by
  apply not_compile_of_doomed
  rw [fuel_pairSource]
  rcases hkey.in_group
    (show 4 * key.length + 4 ≤ 4 * (key.length + value.length) + 55 + 8 by omega) 1 []
      (afterKey value) with ⟨-, name, -, hname⟩ | hread
  · simp at hname
  · exact Doomed.pairSource_value hkq hvq hread
      (h _ _ _ ')' ['"', '?'] (.inl rfl) (by omega))

end Pair

/-- The alternatives of terms are refused if one of them is and all terms before it are self-contained
and keep the flags. -/
theorem malformed_alternatives [Sizing] {before : List Term} {t : Term} (after : List Term)
    (hbefore : ∀ s ∈ before, s.isPattern = true →
      SelfContained s.source ∧ keepsFlags s.source = true)
    (h : Malformed t.source) : Malformed (Term.alternatives (before ++ t :: after)) := by
  induction before with
  | nil =>
    rw [List.nil_append]
    by_cases hafter : after = []
    · rwa [hafter, Term.alternatives_singleton]
    · rw [Term.alternatives_cons t hafter]
      exact h.before_bar _
  | cons s before ih =>
    obtain ⟨hfirst, hmore⟩ := List.forall_mem_cons.1 hbefore
    have hne : before ++ t :: after ≠ [] := by simp
    have hflags : keepsFlags s.source = true := Term.keepsFlags_source fun hs => (hfirst hs).2
    rw [List.cons_append, Term.alternatives_cons s hne]
    cases hs : s.isPattern with
    | false =>
      have hread := reads_escapeMeta s.text
      rw [← Term.source_of_isPattern hs] at hread
      exact (ih hmore).behind_bar hread hflags
    | true =>
      rcases (hfirst hs).1.malformed_or_reads with hmalformed | ⟨tree, captures, names, hread⟩
      · exact hmalformed.before_bar _
      · exact (ih hmore).behind_bar hread hflags

/-- A search fails if one of its terms is a pattern that does not compile, where this pattern, the
patterns before it and the pattern of a key that stands before it are self-contained, the patterns
before it keep the flags, and neither side starts with a question mark. -/
theorem Matcher.search_eq_error_of_not_compile [Sizing] (m : Matcher) (text : String) (side : Side)
    {before after : List Term} {source : String}
    (hcompile : ∀ p, Program.compile source.toList ≠ .ok p) (hsource : SelfContained source.toList)
    (hbefore : ∀ t ∈ before, t.isPattern = true →
      SelfContained t.source ∧ keepsFlags t.source = true)
    (hhead : (Term.alternatives (before ++ .pattern source :: after)).head? ≠ some '?')
    (hkey : side = .keys →
      SelfContained m.keyPattern.toList ∧ m.keyPattern.toList.head? ≠ some '?') :
    ∃ e, m.search text (before ++ .pattern source :: after) side = .error e := by
  have hterms := malformed_alternatives after hbefore (t := .pattern source)
    (hsource.malformed hcompile)
  generalize before ++ .pattern source :: after = terms at hterms hhead ⊢
  have hpair : ∀ p,
      Program.compile (pairSource (m.sides side terms).1 (m.sides side terms).2) ≠ .ok p := by
    intro p
    cases side with
    | values => exact not_compile_key hterms hhead _
    | keys =>
      obtain ⟨hcontained, hq⟩ := hkey rfl
      rcases hcontained.malformed_or_reads with h | ⟨tree, captures, names, hread⟩
      · exact not_compile_key h hq _
      · exact not_compile_value hread hq hterms hhead
  rw [search_eq]
  cases hresult : Program.compile (pairSource (m.sides side terms).1 (m.sides side terms).2) with
  | ok p => exact absurd hresult (hpair p)
  | error e => exact ⟨e, rfl⟩

theorem Matcher.search_rangeInvalid :
    (∀ p, Program.compile "[z-a]".toList ≠ .ok p) ∧ SelfContained "[z-a]".toList ∧
    SelfContained "(?s:.)_".toList ∧ keepsFlags "(?s:.)_".toList = true ∧
    SelfContained defaultKeyPattern.toList ∧
    ∃ e, Matcher.default.search "\x7b\"id\": 7\x7d"
      ([.literal "x.y", .pattern "(?s:.)_"] ++ .pattern "[z-a]" :: [.pattern "c"]) .keys =
        .error e := by
  have hfault : Program.compile "[z-a]".toList = .error .rangeInvalid := by decide +kernel
  have hcompile : ∀ p, Program.compile "[z-a]".toList ≠ .ok p := by
    intro p hp
    cases hfault.symm.trans hp
  have hsource : SelfContained "[z-a]".toList :=
    .of_error hfault rfl (by decide) (by decide +kernel)
  obtain ⟨p, hp⟩ : ∃ p, Program.compile "(?s:.)_".toList = .ok p :=
    exists_of_isOk (by decide +kernel)
  have hbefore : SelfContained "(?s:.)_".toList := .of_compile hp (by decide +kernel)
  have hflags : keepsFlags "(?s:.)_".toList = true := by decide +kernel
  have hkey : SelfContained defaultKeyPattern.toList := by
    obtain ⟨q, hq⟩ : ∃ q, Program.compile defaultKeyPattern.toList = .ok q :=
      exists_of_isOk (by decide +kernel)
    exact .of_compile hq (by decide +kernel)
  refine ⟨hcompile, hsource, hbefore, hflags, hkey, ?_⟩
  apply Matcher.search_eq_error_of_not_compile Matcher.default _ .keys hcompile hsource
  · intro t ht hpattern
    simp only [List.mem_cons, List.not_mem_nil, or_false] at ht
    rcases ht with rfl | rfl
    · simp [Term.isPattern] at hpattern
    · exact ⟨hbefore, hflags⟩
  · decide
  · exact fun _ => ⟨hkey, by decide⟩

/-- A pattern that closes a group and opens another one does not compile, but the groups of the
pattern of pairs make it whole. -/
theorem Matcher.search_groupUnopened :
    Program.compile "a)|(b".toList = .error .groupUnopened ∧
    Matcher.default.search "\x7b\"a\":1\x7d" [.pattern "a)|(b"] .values = .ok [.text ""] := by
  decide +kernel

end PairGrep
