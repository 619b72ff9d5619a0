import PairGrep.Proofs.Reading.Joined
import PairGrep.Proofs.Search.Choice

/-!
# What a tree spans

The places of a text between which a tree can be matched under given flags. They do not depend on the
numbers of the captures, and alternatives span what one of them spans.
-/

namespace PairGrep.Pattern

variable {f g : Flags} {tree : Tree} {bs : List Expr}

theorem Tree.valid_shift (d : Nat) (tree : Tree) : (tree.shift d).Valid ↔ tree.Valid := by
  induction tree <;> simp_all [Tree.shift, Tree.Valid]

namespace Elaborate

theorem tidy_literal {l : Literal} {e : Expr} (h : literal f l = .ok e) : e.Tidy := by
  unfold literal at h
  obtain ⟨c, -, h⟩ := bind_eq_ok.1 h
  generalize (f.caseInsensitive && if f.unicode then Unicode.hasCase c else true) = folds at h
  cases folds with
  | true =>
    cases h
    exact Flags.ordered_foldSet (CharSet.ordered_single c)
  | false =>
    cases h
    exact CharSet.ordered_single c

theorem tidy_dot {e : Expr} (h : dot f = .ok e) : e.Tidy := by
  unfold dot at h
  split at h
  · simp at h
  · split at h
    · cases h
      exact CharSet.ordered_all
    · split at h
      · cases h
        exact CharSet.ordered_complement (CharSet.ordered_ofRanges (by simp))
      · cases h
        exact CharSet.ordered_complement (CharSet.ordered_ofRanges (by simp))

theorem tidy_of_branches (hvalid : tree.Valid) (h : branches f tree = .ok (bs, g)) :
    ∀ b ∈ bs, b.Tidy := by
  induction tree generalizing f g bs with
  | empty | flags | anchor =>
    cases h
    simp [Expr.Tidy]
  | literal l =>
    obtain ⟨e, he, h⟩ := bind_eq_ok.1 h
    cases h
    simpa using tidy_literal he
  | dot =>
    obtain ⟨e, he, h⟩ := bind_eq_ok.1 h
    cases h
    simpa using tidy_dot he
  | short negated name =>
    obtain ⟨s, hs, h⟩ := bind_eq_ok.1 h
    cases h
    simpa [Expr.Tidy] using ordered_short hs
  | property q =>
    obtain ⟨s, hs, h⟩ := bind_eq_ok.1 h
    cases h
    simpa [Expr.Tidy] using ordered_property hs
  | bracket negated tree =>
    obtain ⟨s, hs, h⟩ := bind_eq_ok.1 h
    obtain ⟨t, ht, h⟩ := bind_eq_ok.1 h
    cases h
    simpa [Expr.Tidy] using Flags.ordered_finishClass (ordered_inside hvalid hs) ht
  | repeated min max greedy body ih =>
    obtain ⟨⟨cs, f'⟩, hbody, h⟩ := bind_eq_ok.1 h
    cases h
    simpa using Expr.tidy_repetition (Expr.tidy_choice (ih hvalid hbody))
  | capture index body ih =>
    obtain ⟨⟨cs, f'⟩, hbody, h⟩ := bind_eq_ok.1 h
    cases h
    simpa [Expr.Tidy] using Expr.tidy_choice (ih hvalid hbody)
  | scope change body ih =>
    obtain ⟨⟨cs, f'⟩, hbody, h⟩ := bind_eq_ok.1 h
    cases h
    simpa using Expr.tidy_choice (ih hvalid hbody)
  | cat first rest ihfirst ihrest =>
    obtain ⟨⟨as, f'⟩, hfirst, h⟩ := bind_eq_ok.1 h
    obtain ⟨⟨cs, g'⟩, hrest, h⟩ := bind_eq_ok.1 h
    cases h
    simpa using Expr.tidy_sequence (Expr.tidy_choice (ihfirst hvalid.1 hfirst))
      (Expr.tidy_choice (ihrest hvalid.2 hrest))
  | alt first rest ihfirst ihrest =>
    obtain ⟨⟨as, f'⟩, hfirst, h⟩ := bind_eq_ok.1 h
    obtain ⟨⟨cs, g'⟩, hrest, h⟩ := bind_eq_ok.1 h
    cases h
    intro b hb
    rcases List.mem_append.1 hb with hb | hb
    · exact ihfirst hvalid.1 hfirst b hb
    · exact ihrest hvalid.2 hrest b hb

/-- Branches span the same, as those of one tree do whatever the numbers of its captures. -/
inductive Alike : Except Error (List Expr × Flags) → Except Error (List Expr × Flags) → Prop
  | ok {bs cs : List Expr} (g : Flags) (hbs : ∀ b ∈ bs, b.Tidy) (hcs : ∀ c ∈ cs, c.Tidy)
    (h : ∀ text i j, (∃ b ∈ bs, b.Spans text i j) ↔ ∃ c ∈ cs, c.Spans text i j) :
    Alike (.ok (bs, g)) (.ok (cs, g))
  | error (e : Error) : Alike (.error e) (.error e)

theorem Alike.one {e e' : Expr} (g : Flags) (he : e.Tidy) (he' : e'.Tidy)
    (h : ∀ text i j, e.Spans text i j ↔ e'.Spans text i j) : Alike (.ok ([e], g)) (.ok ([e'], g)) :=
  .ok g (by simpa using he) (by simpa using he') (by simpa using h)

theorem Alike.bind {x y : Except Error (List Expr × Flags)}
    {k k' : List Expr × Flags → Except Error (List Expr × Flags)} (h : Alike x y)
    (hk : ∀ {bs cs : List Expr} (g : Flags), (∀ b ∈ bs, b.Tidy) → (∀ c ∈ cs, c.Tidy) →
      (∀ text i j, (∃ b ∈ bs, b.Spans text i j) ↔ ∃ c ∈ cs, c.Spans text i j) →
      Alike (k (bs, g)) (k' (cs, g))) : Alike (x >>= k) (y >>= k') := by
  cases h with
  | ok g hbs hcs h => exact hk g hbs hcs h
  | error e => exact .error e

theorem spans_choice_congr {cs : List Expr} {text : Array Char} (hbs : ∀ b ∈ bs, b.Tidy)
    (hcs : ∀ c ∈ cs, c.Tidy)
    (h : ∀ text i j, (∃ b ∈ bs, b.Spans text i j) ↔ ∃ c ∈ cs, c.Spans text i j) (i j : Nat) :
    (Expr.choice bs).Spans text i j ↔ (Expr.choice cs).Spans text i j :=
  (Expr.spans_choice hbs).trans ((h text i j).trans (Expr.spans_choice hcs).symm)

theorem alike_self (hvalid : tree.Valid) : Alike (branches f tree) (branches f tree) := by
  cases h : branches f tree with
  | error e => exact .error e
  | ok p =>
    obtain ⟨bs, g⟩ := p
    have htidy := tidy_of_branches hvalid h
    exact .ok g htidy htidy fun _ _ _ => Iff.rfl

/-- The numbers of captures have no part in what a tree spans. -/
theorem branches_shift (d : Nat) (hvalid : tree.Valid) :
    Alike (branches f tree) (branches f (tree.shift d)) := by
  induction tree generalizing f with
  | repeated min max greedy body ih =>
    apply (ih hvalid).bind
    intro bs cs g hbs hcs h
    refine .one f (Expr.tidy_repetition (Expr.tidy_choice hbs))
      (Expr.tidy_repetition (Expr.tidy_choice hcs)) fun text i j => ?_
    rw [Expr.spans_repetition, Expr.spans_repetition]
    simp only [Expr.Spans, Rounds.congr (spans_choice_congr hbs hcs h)]
  | capture index body ih =>
    apply (ih hvalid).bind
    intro bs cs g hbs hcs h
    exact .one f (Expr.tidy_choice hbs) (Expr.tidy_choice hcs) fun text =>
      spans_choice_congr hbs hcs h
  | scope change body ih =>
    apply (ih hvalid).bind
    intro bs cs g hbs hcs h
    exact .one f (Expr.tidy_choice hbs) (Expr.tidy_choice hcs) fun text =>
      spans_choice_congr hbs hcs h
  | cat first rest ihfirst ihrest =>
    apply (ihfirst hvalid.1).bind
    intro bs cs g hbs hcs h
    apply (ihrest hvalid.2).bind
    intro bs' cs' g' hbs' hcs' h'
    refine .one g' (Expr.tidy_sequence (Expr.tidy_choice hbs) (Expr.tidy_choice hbs'))
      (Expr.tidy_sequence (Expr.tidy_choice hcs) (Expr.tidy_choice hcs')) fun text i j => ?_
    rw [Expr.spans_sequence, Expr.spans_sequence]
    simp only [spans_choice_congr hbs hcs h, spans_choice_congr hbs' hcs' h']
  | alt first rest ihfirst ihrest =>
    apply (ihfirst hvalid.1).bind
    intro bs cs g hbs hcs h
    apply (ihrest hvalid.2).bind
    intro bs' cs' g' hbs' hcs' h'
    refine .ok g' ?_ ?_ fun text i j => ?_
    · exact fun b hb => (List.mem_append.1 hb).elim (hbs b) (hbs' b)
    · exact fun c hc => (List.mem_append.1 hc).elim (hcs c) (hcs' c)
    · simp only [List.mem_append, or_and_right, exists_or, h text i j, h' text i j]
  | _ => exact alike_self hvalid

/-- The flags that one alternative leaves are those of the next one. -/
theorem branches_orElse (tree more : Tree) : branches f (tree.orElse more) = (do
    let (bs, f) ← branches f tree
    let (cs, f) ← branches f more
    return (bs ++ cs, f)) := by
  induction tree generalizing f with
  | alt first rest ihfirst ihrest =>
    rw [Tree.orElse, branches, branches]
    cases branches f first with
    | error e => rfl
    | ok p =>
      simp only [bind, Except.bind, ihrest]
      cases branches p.2 rest with
      | error e => rfl
      | ok q =>
        simp only [pure, Except.pure]
        cases branches q.2 more with
        | error e => rfl
        | ok w => simp
  | _ => rfl

end Elaborate

namespace Tree

def Spans (f : Flags) (tree : Tree) (text : Array Char) (i j : Nat) : Prop :=
  ∃ bs g, Elaborate.branches f tree = .ok (bs, g) ∧ ∃ b ∈ bs, b.Spans text i j

variable {text : Array Char} {i j : Nat}

theorem spans_iff (h : Elaborate.branches f tree = .ok (bs, g)) :
    tree.Spans f text i j ↔ ∃ b ∈ bs, b.Spans text i j := by
  constructor
  · rintro ⟨bs', g', h', hspans⟩
    obtain ⟨rfl, -⟩ := Prod.mk.inj (Except.ok.inj (h.symm.trans h'))
    exact hspans
  · exact fun hspans => ⟨bs, g, h, hspans⟩

theorem branches_shift_ok (d : Nat) (hvalid : tree.Valid)
    (h : Elaborate.branches f tree = .ok (bs, g)) :
    ∃ cs, Elaborate.branches f (tree.shift d) = .ok (cs, g) ∧
      ∀ text i j, (∃ b ∈ bs, b.Spans text i j) ↔ ∃ c ∈ cs, c.Spans text i j := by
  have halike := Elaborate.branches_shift (f := f) d hvalid
  generalize Elaborate.branches f (tree.shift d) = y at halike ⊢
  rw [h] at halike
  cases halike with
  | @ok _ cs _ hbs hcs h => exact ⟨cs, rfl, h⟩

theorem branches_shift_error (d : Nat) (hvalid : tree.Valid) {e : Error}
    (h : Elaborate.branches f tree = .error e) :
    Elaborate.branches f (tree.shift d) = .error e := by
  have halike := Elaborate.branches_shift (f := f) d hvalid
  generalize Elaborate.branches f (tree.shift d) = y at halike ⊢
  rw [h] at halike
  cases halike with
  | error e => rfl

/-- The program of a tree spans what the tree spans under the flags that a pattern starts with. -/
theorem spans_ofExpr_elaborate (hvalid : tree.Valid) {e : Expr} (h : tree.elaborate = .ok e) :
    (Program.ofExpr e).Spans text i j ↔ tree.Spans .initial text i j := by
  obtain ⟨⟨bs, g⟩, hbranches, h⟩ := bind_eq_ok.1 h
  cases h
  rw [Program.spans_ofExpr, Expr.spans_choice (Elaborate.tidy_of_branches hvalid hbranches),
    spans_iff hbranches]

end Tree

namespace Reader

/-- Is verbose mode off at the end of the source, if it can be read? -/
def leavesVerboseOff (source : List Char) : Bool :=
  match readAlternatives (4 * source.length + 4) ⟨source, false, 0, []⟩ with
  | .ok (_, s) => !s.verbose
  | .error _ => true

/-- Are the flags at the end of the source those that a pattern starts with? -/
def keepsFlags (source : List Char) : Bool :=
  match readAlternatives (4 * source.length + 4) ⟨source, false, 0, []⟩ with
  | .ok (tree, _) =>
    match Elaborate.branches .initial tree with
    | .ok (_, g) => g = .initial
    | .error _ => true
  | .error _ => true

theorem verbose_of_leavesVerboseOff {source : List Char} (h : leavesVerboseOff source = true)
    {s : State} (hread : readAlternatives (4 * source.length + 4) ⟨source, false, 0, []⟩ =
      .ok (tree, s)) : s.verbose = false := by
  rw [leavesVerboseOff, hread] at h
  simpa using h

theorem eq_initial_of_keepsFlags {source : List Char} (h : keepsFlags source = true) {s : State}
    (hread : readAlternatives (4 * source.length + 4) ⟨source, false, 0, []⟩ = .ok (tree, s))
    (hbs : Elaborate.branches .initial tree = .ok (bs, g)) : g = .initial := by
  rw [keepsFlags, hread] at h
  simpa [hbs] using h

def Spans (source : List Char) (text : Array Char) (i j : Nat) : Prop :=
  ∃ tree captures names, Reads source tree captures names ∧ tree.Spans .initial text i j

theorem spans_of_reads {source : List Char} {captures : Nat} {names : List (List Char)}
    (h : Reads source tree captures names) {text : Array Char} {i j : Nat} :
    Spans source text i j ↔ tree.Spans .initial text i j := by
  constructor
  · rintro ⟨tree', captures', names', h', hspans⟩
    obtain ⟨rfl, -⟩ := Prod.mk.inj (Except.ok.inj (h.symm.trans h'))
    exact hspans
  · exact fun hspans => ⟨tree, captures, names, h, hspans⟩

def Readable (source : List Char) : Prop :=
  ∃ tree captures names bs g, Reads source tree captures names ∧
    Elaborate.branches .initial tree = .ok (bs, g)

theorem Readable.exists_reads {source : List Char} (h : Readable source) :
    ∃ tree captures names, Reads source tree captures names := by
  obtain ⟨tree, captures, names, -, -, hread, -⟩ := h
  exact ⟨tree, captures, names, hread⟩

private theorem branches_shift_of_reads {source : List Char} {captures : Nat}
    {names : List (List Char)} (d : Nat) (h : Reads source tree captures names)
    (hsource : Readable source) :
    ∃ cs g, Elaborate.branches .initial (tree.shift d) = .ok (cs, g) ∧
      (keepsFlags source = true → g = .initial) ∧
      ∀ text i j, (∃ c ∈ cs, c.Spans text i j) ↔ Spans source text i j := by
  obtain ⟨tree', captures', names', bs, g, h', hbs⟩ := hsource
  obtain ⟨rfl, -⟩ := Prod.mk.inj (Except.ok.inj (h.symm.trans h'))
  obtain ⟨cs, hcs, hspans⟩ := Tree.branches_shift_ok d h.valid hbs
  refine ⟨cs, g, hcs, fun hflags => eq_initial_of_keepsFlags hflags h hbs, fun text i j => ?_⟩
  rw [spans_of_reads h, Tree.spans_iff hbs, hspans]

/-- What alternatives span is spanned by one of their sources, where none of these but the last one
leaves other flags than it has found. -/
theorem branches_joined {sources : List (List Char)} (hjoined : Joined sources tree)
    (hsources : ∀ s ∈ sources, Readable s) (hflags : ∀ s ∈ sources.dropLast, keepsFlags s = true) :
    ∃ bs g, Elaborate.branches .initial tree = .ok (bs, g) ∧
      ∀ text i j, (∃ b ∈ bs, b.Spans text i j) ↔ ∃ s ∈ sources, Spans s text i j := by
  induction hjoined with
  | single h d =>
    obtain ⟨cs, g, hcs, -, hspans⟩ := branches_shift_of_reads d h (hsources _ List.mem_cons_self)
    exact ⟨cs, g, hcs, by simpa using hspans⟩
  | @cons source tree more captures names sources h d hmore ih =>
    obtain ⟨cs, g, hcs, hflags', hspans⟩ :=
      branches_shift_of_reads d h (hsources _ List.mem_cons_self)
    have hne : sources ≠ [] := by
      rintro rfl
      cases hmore
    rw [List.dropLast_cons_of_ne_nil hne] at hflags
    obtain rfl := hflags' (hflags source List.mem_cons_self)
    obtain ⟨ds, g', hds, hmoreSpans⟩ := ih
      (fun s hs => hsources s (List.mem_cons_of_mem source hs))
      (fun s hs => hflags s (List.mem_cons_of_mem source hs))
    refine ⟨cs ++ ds, g', ?_, fun text i j => ?_⟩
    · rw [Elaborate.branches_orElse, hcs]
      simp only [bind, Except.bind, hds]
      rfl
    · rw [List.exists_mem_cons_iff, ← hspans text i j, ← hmoreSpans text i j]
      simp only [List.mem_append, or_and_right, exists_or]

/-- Sources that are read alone are read with bars between them in a group as alternatives, unless two
captures have the same name. -/
theorem exists_joined {sources : List (List Char)} (hne : sources ≠ [])
    (hsources : ∀ s ∈ sources, Readable s) (hflags : ∀ s ∈ sources.dropLast, keepsFlags s = true)
    {fuel : Nat} (hfuel : 4 * (['|'].intercalate sources).length + 4 ≤ fuel) (d : Nat)
    (names₀ : List (List Char)) (rest : List Char) :
    ((∃ e, readAlternatives fuel ⟨['|'].intercalate sources ++ ')' :: rest, false, d, names₀⟩ =
      .error e) ∧ ¬NamesApart sources names₀) ∨
    ∃ tree captures names bs g, Joined sources tree ∧
      readAlternatives fuel ⟨['|'].intercalate sources ++ ')' :: rest, false, d, names₀⟩ =
        .ok (tree, ⟨')' :: rest, false, captures, names⟩) ∧
      Elaborate.branches .initial tree = .ok (bs, g) ∧
      ∀ text i j, (∃ b ∈ bs, b.Spans text i j) ↔ ∃ s ∈ sources, Spans s text i j := by
  rcases readAlternatives_joined hne (fun s hs => (hsources s hs).exists_reads) hfuel d names₀ rest
    with hclash | ⟨tree, captures, names, hjoined, hread⟩
  · exact .inl hclash
  · obtain ⟨bs, g, hbs, hspans⟩ := branches_joined hjoined hsources hflags
    exact .inr ⟨tree, captures, names, bs, g, hjoined, hread, hbs, hspans⟩

theorem exists_of_compile [Sizing] {source : List Char} {p : Program}
    (h : Program.compile source = .ok p) :
    ∃ tree s e, readAlternatives (4 * source.length + 4) ⟨source, false, 0, []⟩ = .ok (tree, s) ∧
      s.rest = [] ∧ tree.depth ≤ nestLimit ∧ tree.elaborate = .ok e ∧ p = .ofExpr e := by
  obtain ⟨tree, htree, h⟩ := bind_eq_ok.1 h
  obtain ⟨e, he, h⟩ := bind_eq_ok.1 h
  obtain ⟨⟨tree', s⟩, hread, htree⟩ := bind_eq_ok.1 htree
  simp only at h htree
  split at htree
  · cases htree
  · split at htree
    · cases htree
    · rename_i hrest hdepth
      cases htree
      split at h
      · cases h
      · cases h
        exact ⟨_, s, e, hread, not_not.1 hrest, not_lt.1 hdepth, he, rfl⟩

/-- A source that compiles, and that leaves verbose mode off, is read alone, and its program spans
what the source spans. -/
theorem reads_of_compile [Sizing] {source : List Char} {p : Program}
    (h : Program.compile source = .ok p) (hverbose : leavesVerboseOff source = true) :
    ∃ tree captures names bs g, Reads source tree captures names ∧
      Elaborate.branches .initial tree = .ok (bs, g) ∧ tree.depth ≤ nestLimit ∧
      ∀ text i j, p.Spans text i j ↔ Spans source text i j := by
  obtain ⟨tree, ⟨rest, verbose, captures, names⟩, e, hread, hrest, hdepth, he, rfl⟩ :=
    exists_of_compile h
  obtain rfl : verbose = false := verbose_of_leavesVerboseOff hverbose hread
  obtain rfl : rest = [] := hrest
  obtain ⟨⟨bs, g⟩, hbs, -⟩ := bind_eq_ok.1 he
  refine ⟨tree, captures, names, bs, g, hread, hbs, hdepth, fun text i j => ?_⟩
  rw [spans_of_reads hread, Tree.spans_ofExpr_elaborate (valid_of_readAlternatives hread) he]

theorem head_of_compile [Sizing] {source : List Char} {p : Program}
    (h : Program.compile source = .ok p) : source.head? ≠ some '?' := by
  intro hhead
  obtain ⟨rest, rfl⟩ : ∃ rest, source = '?' :: rest := ⟨_, List.eq_cons_of_mem_head? hhead⟩
  obtain ⟨tree, s, e, hread, -⟩ := exists_of_compile h
  simp [readAlternatives, readSequence, readElement, skip, isRepetition, bind,
    Except.bind] at hread

def turnsVerboseOn (source : List Char) : Bool :=
  match readPattern source with
  | .ok tree => tree.turnsVerboseOn
  | .error _ => false

theorem leavesVerboseOff_of_compile [Sizing] {source : List Char} {p : Program}
    (h : Program.compile source = .ok p) (hverbose : turnsVerboseOn source = false) :
    leavesVerboseOff source = true := by
  obtain ⟨tree, s, e, hread, hrest, hdepth, -⟩ := exists_of_compile h
  have hpattern : readPattern source = .ok tree := by
    simp [readPattern, hread, hrest, Nat.not_lt.2 hdepth, bind, Except.bind, pure, Except.pure]
  rw [turnsVerboseOn, hpattern] at hverbose
  rw [leavesVerboseOff, hread]
  simpa using verbose_of_readAlternatives hread rfl hverbose

end Reader

end PairGrep.Pattern
