import PairGrep.Proofs.Terms.Sources

/-!
# Well-formed terms

Patterns that compile alone make a pattern of pairs that compiles, but for its depth and its size, if
they keep the flags and use no name of a capture twice. Main statement: with the default matcher, a
search for such terms does not fail.
-/

namespace PairGrep

open Pattern Pattern.Reader

namespace Term

def sources : List Term → List (List Char)
  | [] => [[]]
  | terms => terms.map source

variable {terms : List Term}

theorem alternatives_eq_sources (terms : List Term) :
    alternatives terms = ['|'].intercalate (sources terms) := by
  cases terms <;> simp [alternatives, sources]

theorem head_alternatives_ne [Sizing]
    (hcompile : ∀ t ∈ terms, t.isPattern = true → ∃ p, Program.compile t.source = .ok p) :
    (alternatives terms).head? ≠ some '?' := by
  cases terms with
  | nil => simp [alternatives]
  | cons t terms =>
    have hhead := head_source_ne (hcompile t List.mem_cons_self)
    by_cases hterms : terms = []
    · rwa [hterms, alternatives_singleton]
    · rw [alternatives_cons t hterms]
      cases hsource : t.source with
      | nil => simp
      | cons c rest =>
        rw [hsource] at hhead
        simpa using hhead

/-- Terms are read in a group as a tree that has an expression, if their patterns compile, keep the
flags and have no name of a capture in common. -/
theorem exists_readAlternatives [Sizing]
    (hcompile : ∀ t ∈ terms, t.isPattern = true → ∃ p, Program.compile t.source = .ok p)
    (hverbose : ∀ t ∈ terms, t.isPattern = true → leavesVerboseOff t.source = true)
    (hflags : ∀ t ∈ terms.dropLast, t.isPattern = true → keepsFlags t.source = true)
    (hnames : terms.Pairwise fun s t => ∀ name ∈ captureNames s.source, name ∉ captureNames t.source)
    {fuel : Nat} (hfuel : 4 * (alternatives terms).length + 4 ≤ fuel) (d : Nat) (rest : List Char) :
    ∃ tree captures names bs g,
      readAlternatives fuel ⟨alternatives terms ++ ')' :: rest, false, d, []⟩ =
        .ok (tree, ⟨')' :: rest, false, captures, names⟩) ∧
      Elaborate.branches .initial tree = .ok (bs, g) := by
  have hreads : ∀ s ∈ sources terms, Readable s := by
    intro s hs
    cases terms with
    | nil =>
      obtain rfl : s = escapeMeta [] := List.mem_singleton.1 hs
      exact readable_escapeMeta []
    | cons t terms =>
      obtain ⟨u, hu, rfl⟩ := List.mem_map.1 hs
      exact u.readable_source (hcompile u hu) (hverbose u hu)
  have hkeeps : ∀ s ∈ (sources terms).dropLast, keepsFlags s = true := by
    cases terms with
    | nil => simp [sources]
    | cons t terms =>
      rw [sources.eq_2 _ (by simp), ← List.map_dropLast]
      intro s hs
      obtain ⟨u, hu, rfl⟩ := List.mem_map.1 hs
      exact u.keepsFlags_source (hflags u hu)
  have hapart : NamesApart (sources terms) [] := by
    refine ⟨?_, by simp⟩
    cases terms with
    | nil => simp [sources]
    | cons t terms => exact List.pairwise_map.2 hnames
  have hne : sources terms ≠ [] := by cases terms <;> simp [sources]
  rw [alternatives_eq_sources] at hfuel ⊢
  rcases exists_joined hne hreads hkeeps hfuel d [] rest with
    ⟨-, hclash⟩ | ⟨tree, captures, names, bs, g, -, hread, hbs, -⟩
  · exact absurd hapart hclash
  · exact ⟨tree, captures, names, bs, g, hread, hbs⟩

end Term

section Pair

variable (key value : List Char) {k v : Tree} {captures captures' : Nat}
  {names names' : List (List Char)} {ks vs : List Expr} {f g : Flags}

theorem exists_compile_pairSource [Sizing] (hkq : key.head? ≠ some '?') (hvq : value.head? ≠ some '?')
    (hk : readAlternatives (4 * (key.length + value.length) + 63)
      ⟨key ++ ')' :: afterKey value, false, 1, []⟩ =
        .ok (k, ⟨')' :: afterKey value, false, captures, names⟩))
    (hv : readAlternatives (4 * (key.length + value.length) + 58)
      ⟨value ++ [')', '"', '?'], false, captures + 1, names⟩ =
        .ok (v, ⟨[')', '"', '?'], false, captures', names'⟩))
    (hks : Elaborate.branches .initial k = .ok (ks, f))
    (hvs : Elaborate.branches .initial v = .ok (vs, g))
    (hdeep : Program.compile (pairSource key value) ≠ .error .nestingTooDeep)
    (hsize : Program.compile (pairSource key value) ≠ .error .tooLarge) :
    ∃ p, Program.compile (pairSource key value) = .ok p := by
  have hread := readAlternatives_pairSource hkq hvq hk hv
  rw [← fuel_pairSource] at hread
  have helab := elaborate_pairTreeAt (captures + 1) hks hvs
  by_cases hdepth : nestLimit < (pairTreeAt (captures + 1) k v).depth
  · refine absurd ?_ hdeep
    rw [Program.compile, readPattern, hread]
    simp [hdepth, bind, Except.bind, throw, throwThe, MonadExceptOf.throw]
  · have hpattern : readPattern (pairSource key value) = .ok (pairTreeAt (captures + 1) k v) := by
      rw [readPattern, hread]
      simp [hdepth, bind, Except.bind, pure, Except.pure]
    have hcompile := compile_eq hpattern helab
    split at hcompile
    · exact absurd hcompile hsize
    · exact ⟨_, hcompile⟩

end Pair

/-- A search with the default matcher does not fail, if the patterns among its terms compile, leave
verbose mode off, keep the flags but for the last term, and have no name of a capture in common, and
if the pattern of pairs is neither too deep nor too large. -/
theorem Matcher.exists_search_of_compile [Sizing] (text : String) (side : Side) {terms : List Term}
    (hcompile : ∀ t ∈ terms, t.isPattern = true → ∃ p, Program.compile t.source = .ok p)
    (hverbose : ∀ t ∈ terms, t.isPattern = true → leavesVerboseOff t.source = true)
    (hflags : ∀ t ∈ terms.dropLast, t.isPattern = true → keepsFlags t.source = true)
    (hnames : terms.Pairwise fun s t => ∀ name ∈ captureNames s.source, name ∉ captureNames t.source)
    (hdeep : Program.compile (pairSource (Matcher.default.sides side terms).1
      (Matcher.default.sides side terms).2) ≠ .error .nestingTooDeep)
    (hsize : Program.compile (pairSource (Matcher.default.sides side terms).1
      (Matcher.default.sides side terms).2) ≠ .error .tooLarge) :
    ∃ tokens, Matcher.default.search text terms side = .ok tokens := by
  have hhead := Term.head_alternatives_ne hcompile
  have hread := fun {fuel : Nat} (hfuel : 4 * (Term.alternatives terms).length + 4 ≤ fuel) =>
    Term.exists_readAlternatives hcompile hverbose hflags hnames hfuel
  obtain ⟨p, hp⟩ : ∃ p, Program.compile (pairSource (Matcher.default.sides side terms).1
      (Matcher.default.sides side terms).2) = .ok p := by
    cases side with
    | keys =>
      obtain ⟨tree, captures, names, bs, g, hterms, hbs⟩ := hread
        (show _ ≤ 4 * (defaultKeyPattern.toList.length + (Term.alternatives terms).length) + 58 by
          omega) 2 ['"', '?']
      exact exists_compile_pairSource defaultKeyPattern.toList _ (by decide) hhead
        (readsAs_keyPattern _ _ _ _ (by omega)) hterms branches_keyTree hbs hdeep hsize
    | values =>
      obtain ⟨tree, captures, names, bs, g, hterms, hbs⟩ := hread
        (show _ ≤ 4 * ((Term.alternatives terms).length + defaultValuePattern.toList.length) + 63 by
          omega) 1 (afterKey defaultValuePattern.toList)
      exact exists_compile_pairSource _ defaultValuePattern.toList hhead (by decide) hterms
        (readsAs_valuePattern _ _ _ _ (by omega)) hbs branches_valueTree hdeep hsize
  rw [search_eq, hp]
  exact ⟨_, rfl⟩

def namedTerms : List Term := [.pattern "(?P<_>a)|b", .literal "x.y", .pattern "(?x: c )(?s).d"]

theorem Matcher.exists_search_namedTerms :
    (∀ t ∈ namedTerms, (Program.compile t.source).isOk = true) ∧
    (∀ t ∈ namedTerms, leavesVerboseOff t.source = true) ∧
    (∀ t ∈ namedTerms.dropLast, keepsFlags t.source = true) ∧
    namedTerms.map (captureNames ·.source) = [[['_']], [], []] ∧
    ∃ tokens, Matcher.default.search "\x7b\"a\": 1\x7d" namedTerms .values = .ok tokens := by
  have hcompile : ∀ t ∈ namedTerms, (Program.compile t.source).isOk = true := by decide +kernel
  have hverbose : ∀ t ∈ namedTerms, leavesVerboseOff t.source = true := by decide +kernel
  have hflags : ∀ t ∈ namedTerms.dropLast, keepsFlags t.source = true := by decide +kernel
  refine ⟨hcompile, hverbose, hflags, by decide +kernel, ?_⟩
  exact Matcher.exists_search_of_compile _ .values (fun t ht _ => exists_of_isOk (hcompile t ht))
    (fun t ht _ => hverbose t ht) (fun t ht _ => hflags t ht) (by decide +kernel)
    (by decide +kernel) (by decide +kernel)

theorem Matcher.search_nameDuplicate :
    (∀ t ∈ [Term.pattern "(?P<_>a)", .pattern "(?P<_>b)"],
      (Program.compile t.source).isOk = true) ∧
    Matcher.default.search "\x7b\"a\":1\x7d" [.pattern "(?P<_>a)", .pattern "(?P<_>b)"] .values =
      .error .nameDuplicate := by
  exact ⟨by decide +kernel, by decide +kernel⟩

end PairGrep
