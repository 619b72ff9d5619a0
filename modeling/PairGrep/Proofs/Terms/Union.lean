import PairGrep.Proofs.Terms.Sources

/-!
# What several terms select

A term selects the texts that its source matches from end to end. Main statement: where no term but
the last one leaves other flags than it has found, several terms select what one of them selects.
-/

namespace PairGrep

open Pattern Pattern.Reader

namespace Pattern

def anchored (source : List Char) : List Char :=
  '^' :: '(' :: '?' :: ':' :: (source ++ [')', '$'])

def Program.isMatch (p : Program) (text : String) : Bool := (p.find? text.toList.toArray 0).isSome

def Tree.anchored (tree : Tree) : Tree :=
  .cat (.anchor .lineStart) (.cat (.scope [] tree) (.anchor .lineEnd))

theorem Tree.depth_anchored (tree : Tree) : tree.anchored.depth = tree.depth + 2 := by
  simp [anchored, depth, depths]

section Reading

variable {fuel captures : Nat} {names : List (List Char)} {source : List Char} {tree : Tree}

theorem readElement_scope : readElement (fuel + 3) '('
      ⟨'?' :: ':' :: (source ++ [')', '$']), false, 0, []⟩ = (do
    let (body, t) ← readBody (fuel + 2) ⟨source ++ [')', '$'], false, 0, []⟩
    return (.scope [] body, { t with verbose := false })) := rfl

theorem readSequence_anchored : readSequence (fuel + 5) ⟨anchored source, false, 0, []⟩ =
    (readSequence (fuel + 4)
      ⟨'(' :: '?' :: ':' :: (source ++ [')', '$']), false, 0, []⟩).map fun p =>
        (Tree.cons (.anchor .lineStart) p.1, p.2) := by
  have helement : readElement (fuel + 4) '^'
      ⟨'(' :: '?' :: ':' :: (source ++ [')', '$']), false, 0, []⟩ =
        .ok (.anchor .lineStart, ⟨'(' :: '?' :: ':' :: (source ++ [')', '$']), false, 0, []⟩) := rfl
  have hops : readOperators false ('(' :: '?' :: ':' :: (source ++ [')', '$']))
      (.anchor .lineStart) ('(' :: '?' :: ':' :: (source ++ [')', '$'])) =
        .ok (.anchor .lineStart, '(' :: '?' :: ':' :: (source ++ [')', '$'])) := rfl
  exact readSequence_cons (by decide) helement hops

theorem readAlternatives_anchored
    (h : readAlternatives (fuel + 1) ⟨source ++ [')', '$'], false, 0, []⟩ =
      .ok (tree, ⟨[')', '$'], false, captures, names⟩)) :
    readAlternatives (fuel + 6) ⟨anchored source, false, 0, []⟩ =
      .ok (tree.anchored, ⟨[], false, captures, names⟩) := by
  have hbody : readBody (fuel + 2) ⟨source ++ [')', '$'], false, 0, []⟩ =
      .ok (tree, ⟨['$'], false, captures, names⟩) := by
    rw [readBody, h]
    rfl
  have helement : readElement (fuel + 3) '(' ⟨'?' :: ':' :: (source ++ [')', '$']), false, 0, []⟩ =
      .ok (.scope [] tree, ⟨['$'], false, captures, names⟩) := by
    rw [readElement_scope, hbody]
    rfl
  have hscope : readSequence (fuel + 4)
      ⟨'(' :: '?' :: ':' :: (source ++ [')', '$']), false, 0, []⟩ =
        .ok (.cat (.scope [] tree) (.anchor .lineEnd), ⟨[], false, captures, names⟩) :=
    readSequence_step (by decide) helement rfl rfl
  rw [readAlternatives, readSequence_anchored, hscope]
  rfl

theorem readAlternatives_anchored_error {e : Error}
    (h : readAlternatives (fuel + 1) ⟨source ++ [')', '$'], false, 0, []⟩ = .error e) :
    readAlternatives (fuel + 6) ⟨anchored source, false, 0, []⟩ = .error e := by
  have hbody : readBody (fuel + 2) ⟨source ++ [')', '$'], false, 0, []⟩ = .error e := by
    rw [readBody, h]
    rfl
  have helement : readElement (fuel + 3) '(' ⟨'?' :: ':' :: (source ++ [')', '$']), false, 0, []⟩ =
      .error e := by
    rw [readElement_scope, hbody]
    rfl
  have hscope : readSequence (fuel + 4)
      ⟨'(' :: '?' :: ':' :: (source ++ [')', '$']), false, 0, []⟩ = .error e := by
    rw [readSequence]
    simp [skip, helement, bind, Except.bind]
  rw [readAlternatives, readSequence_anchored, hscope]
  rfl

end Reading

section Meaning

variable {tree : Tree} {bs : List Expr} {g : Flags}

def Expr.anchored (e : Expr) : Expr :=
  .sequence (.look .textStart) (.sequence e (.look .textEnd))

theorem Tree.elaborate_anchored (h : Elaborate.branches .initial tree = .ok (bs, g)) :
    tree.anchored.elaborate = .ok (Expr.choice bs).anchored := by
  have hstart : Elaborate.branches .initial (.anchor .lineStart) =
      .ok ([.look .textStart], .initial) := rfl
  have hend : Elaborate.branches .initial (.anchor .lineEnd) =
      .ok ([.look .textEnd], .initial) := rfl
  have hscope : Elaborate.branches .initial (.scope [] tree) = .ok ([.choice bs], .initial) := by
    rw [Elaborate.branches, Flags.apply, List.foldl_nil, h]
    rfl
  have hcat : Elaborate.branches .initial (.cat (.scope [] tree) (.anchor .lineEnd)) =
      .ok ([.sequence (.choice bs) (.look .textEnd)], .initial) := by
    rw [Elaborate.branches, hscope]
    simp only [hend, bind, Except.bind]
    rfl
  rw [elaborate, anchored, Elaborate.branches, hstart]
  simp only [hcat, bind, Except.bind]
  rfl

/-- A whole text is what is spanned from its start to its end. -/
theorem Program.isMatch_anchored {e : Expr} (text : String) :
    (Program.ofExpr e.anchored).isMatch text = true ↔
      ∃ j, text.toList.length ≤ j ∧ e.Spans text.toList.toArray 0 j := by
  rw [isMatch, find?_isSome_iff]
  simp only [spans_ofExpr, Expr.anchored, Expr.spans_sequence, Expr.Spans, Look.holds]
  constructor
  · rintro ⟨i, j, hi, k, ⟨rfl, hstart⟩, l, he, rfl, hend⟩
    have hzero : i = 0 := by
      by_contra hne
      have hlt : i - 1 < text.toList.toArray.size := by omega
      simp [hne, Array.getElem?_eq_getElem hlt] at hstart
    subst hzero
    exact ⟨l, by simpa using hend, he⟩
  · rintro ⟨j, hj, he⟩
    exact ⟨0, j, Nat.zero_le _, 0, ⟨rfl, rfl⟩, j, he, rfl, by simpa using hj⟩

end Meaning

end Pattern

namespace Term

/-- The source of the term matches the whole text. -/
def Selects [Sizing] (t : Term) (text : String) : Prop :=
  ∃ p, Program.compile (anchored t.source) = .ok p ∧ p.isMatch text = true

end Term

section Union

theorem depth_le_of_joined {sources : List (List Char)} {tree : Tree}
    (hjoined : Joined sources tree) {source : List Char} (hmem : source ∈ sources) {t : Tree}
    {captures : Nat} {names : List (List Char)} (h : Reads source t captures names) :
    t.depth ≤ tree.depth := by
  induction hjoined with
  | single h' d =>
    obtain rfl := List.mem_singleton.1 hmem
    cases h.symm.trans h'
    rw [Tree.depth_shift]
  | cons h' d hmore ih =>
    rcases List.mem_cons.1 hmem with rfl | hmem
    · cases h.symm.trans h'
      exact (Tree.depth_shift d t).symm.le.trans (Tree.depth_le_orElse _ _).1
    · exact (ih hmem).trans (Tree.depth_le_orElse _ _).2.1

/-- The source of whole texts of a source that is read alone. -/
theorem compile_anchored [Sizing] {source : List Char} {tree : Tree} {captures : Nat}
    {names : List (List Char)} {bs : List Expr} {g : Flags} (h : Reads source tree captures names)
    (hbs : Elaborate.branches .initial tree = .ok (bs, g)) (hdepth : tree.depth + 2 ≤ nestLimit)
    (hsize : Program.compile (anchored source) ≠ .error .tooLarge) :
    Program.compile (anchored source) = .ok (.ofExpr (Expr.choice bs).anchored) := by
  have hlen : 4 * (anchored source).length + 4 = 4 * source.length + 22 + 6 := by
    simp [anchored]
    omega
  rcases h.in_group (show 4 * source.length + 4 ≤ 4 * source.length + 22 + 1 by omega) 0 [] ['$']
    with ⟨-, name, -, hname⟩ | hread
  · simp at hname
  rw [Tree.shift_zero] at hread
  have hpattern : readPattern (anchored source) = .ok tree.anchored := by
    rw [readPattern, hlen, readAlternatives_anchored hread]
    simp [Tree.depth_anchored, Nat.not_lt.2 hdepth, bind, Except.bind, pure, Except.pure]
  have hcompile := compile_eq hpattern (Tree.elaborate_anchored hbs)
  rw [hcompile] at hsize ⊢
  split
  · rename_i hlarge
    simp [hlarge] at hsize
  · rfl

theorem spans_ofText {w text : List Char} {i j : Nat} :
    (Expr.ofText w).Spans text.toArray i j ↔ w <+: text.drop i ∧ j = i + w.length := by
  induction w generalizing i with
  | nil => simp [Expr.ofText, Expr.Spans, eq_comm]
  | cons c w ih =>
    have hcons : Expr.ofText (c :: w) = .cons (.set (.single c)) (.ofText w) := rfl
    have hchar : ∀ k, (Expr.set (.single c)).Spans text.toArray i k ↔
        k = i + 1 ∧ text[i]? = some c := by
      simp [Expr.Spans, CharSet.contains_single]
    rw [hcons, Expr.spans_cons]
    simp only [ih, hchar]
    constructor
    · rintro ⟨k, ⟨rfl, hc⟩, hw, rfl⟩
      obtain ⟨hi, rfl⟩ := List.getElem?_eq_some_iff.1 hc
      rw [List.drop_eq_getElem_cons hi]
      exact ⟨(List.prefix_cons_inj _).2 hw, by simp; omega⟩
    · rintro ⟨hw, rfl⟩
      have hi : i < text.length := by
        by_contra hge
        rw [List.drop_eq_nil_of_le (by omega)] at hw
        simp at hw
      rw [List.drop_eq_getElem_cons hi, List.cons_prefix_cons] at hw
      obtain ⟨rfl, hw⟩ := hw
      exact ⟨i + 1, ⟨rfl, List.getElem?_eq_getElem hi⟩, hw, by simp; omega⟩

namespace Term

/-- What a term selects is what its source spans from the start of the text to its end. -/
theorem selects_iff [Sizing] {t : Term} {tree : Tree} {captures : Nat} {names : List (List Char)}
    {bs : List Expr} {g : Flags} (h : Reads t.source tree captures names)
    (hbs : Elaborate.branches .initial tree = .ok (bs, g)) (hdepth : tree.depth + 2 ≤ nestLimit)
    (hsize : Program.compile (anchored t.source) ≠ .error .tooLarge) (text : String) :
    t.Selects text ↔ ∃ j, text.toList.length ≤ j ∧ Spans t.source text.toList.toArray 0 j := by
  have hcompile := compile_anchored h hbs hdepth hsize
  have htidy := Elaborate.tidy_of_branches h.valid hbs
  simp only [spans_of_reads h, Tree.spans_iff hbs, ← Expr.spans_choice htidy]
  rw [← Program.isMatch_anchored, Selects, hcompile]
  simp

theorem selects_iff_of_isPattern [Sizing] {t : Term} (ht : t.isPattern = false)
    (hsize : Program.compile (anchored t.source) ≠ .error .tooLarge) (text : String) :
    t.Selects text ↔ text.toList = t.text := by
  have hreads : Reads t.source (.ofText t.text) 0 [] := by
    rw [source_of_isPattern ht]
    exact reads_escapeMeta t.text
  have hdepth : (Tree.ofText t.text).depth + 2 ≤ nestLimit := by
    have hle := (depths_ofText t.text).1
    simp only [Tree.depth, nestLimit]
    omega
  rw [selects_iff hreads (branches_ofText t.text) hdepth hsize]
  simp only [spans_of_reads hreads, Tree.spans_iff (branches_ofText t.text), List.mem_singleton,
    exists_eq_left, spans_ofText, List.drop_zero]
  constructor
  · rintro ⟨j, hj, hstart, rfl⟩
    exact (hstart.eq_of_length_le (by omega)).symm
  · intro htext
    exact ⟨_, by simp [htext], by rw [htext], rfl⟩

end Term

/-- Several terms select what one of them selects, and a literal or a number among them its own text
only, where no term leaves verbose mode on and none but the last one leaves other flags than it has
found. -/
theorem isMatch_alternatives [Sizing] {terms : List Term} (hne : terms ≠ [])
    (hcompile : ∀ t ∈ terms, ∃ p, Program.compile t.source = .ok p)
    (hsize : ∀ t ∈ terms, Program.compile (anchored t.source) ≠ .error .tooLarge)
    (hverbose : ∀ t ∈ terms, leavesVerboseOff t.source = true)
    (hflags : ∀ t ∈ terms.dropLast, keepsFlags t.source = true) {p : Program}
    (hp : Program.compile (anchored (Term.alternatives terms)) = .ok p) (text : String) :
    (p.isMatch text = true ↔ ∃ t ∈ terms, t.Selects text) ∧
      ∀ t ∈ terms, t.isPattern = false → (t.Selects text ↔ text.toList = t.text) := by
  refine ⟨?_, fun t ht hpattern => t.selects_iff_of_isPattern hpattern (hsize t ht) text⟩
  have hreads : ∀ s ∈ terms.map Term.source, Readable s := by
    intro s hs
    obtain ⟨t, ht, rfl⟩ := List.mem_map.1 hs
    exact t.readable_source (fun _ => hcompile t ht) fun _ => hverbose t ht
  have hkeeps : ∀ s ∈ (terms.map Term.source).dropLast, keepsFlags s = true := by
    rw [← List.map_dropLast]
    intro s hs
    obtain ⟨t, ht, rfl⟩ := List.mem_map.1 hs
    exact hflags t ht
  have hlen : 4 * (anchored (Term.alternatives terms)).length + 4 =
      4 * (Term.alternatives terms).length + 22 + 6 := by
    simp [anchored]
    omega
  obtain ⟨whole, s, e, hread, -, hdepth, he, rfl⟩ := exists_of_compile hp
  rw [hlen] at hread
  rcases exists_joined (by simpa using hne) hreads hkeeps
    (show 4 * (Term.alternatives terms).length + 4 ≤ 4 * (Term.alternatives terms).length + 22 + 1
      by omega) 0 [] ['$'] with ⟨⟨e', he'⟩, -⟩ |
      ⟨tree, captures, names, bs, g, hjoined, hjoin, hbs, hspans⟩
  · cases hread.symm.trans (readAlternatives_anchored_error he')
  cases hread.symm.trans (readAlternatives_anchored hjoin)
  cases he.symm.trans (Tree.elaborate_anchored hbs)
  have htidy := Elaborate.tidy_of_branches (valid_of_readAlternatives hjoin) hbs
  rw [Tree.depth_anchored] at hdepth
  have hselects : ∀ t ∈ terms, (t.Selects text ↔
      ∃ j, text.toList.length ≤ j ∧ Spans t.source text.toList.toArray 0 j) := by
    intro t ht
    have hmem := List.mem_map_of_mem (f := Term.source) ht
    obtain ⟨tree', captures', names', bs', g', hread', hbs'⟩ := hreads _ hmem
    have hle := depth_le_of_joined hjoined hmem hread'
    exact Term.selects_iff hread' hbs' (by omega) (hsize t ht) text
  simp only [Program.isMatch_anchored, Expr.spans_choice htidy, hspans]
  constructor
  · rintro ⟨j, hj, s, hs, hspan⟩
    obtain ⟨t, ht, rfl⟩ := List.mem_map.1 hs
    exact ⟨t, ht, (hselects t ht).2 ⟨j, hj, hspan⟩⟩
  · rintro ⟨t, ht, hselect⟩
    obtain ⟨j, hj, hspan⟩ := (hselects t ht).1 hselect
    exact ⟨j, hj, _, List.mem_map_of_mem ht, hspan⟩

def mixedTerms : List Term := [.literal "B c", .pattern "(?x: d e )f|g", .pattern "(?s)x.y"]

theorem isMatch_mixedTerms : ∃ p, Program.compile (anchored (Term.alternatives mixedTerms)) = .ok p ∧
    (∀ t ∈ mixedTerms, leavesVerboseOff t.source = true) ∧
    (∀ t ∈ mixedTerms.dropLast, keepsFlags t.source = true) ∧
    (p.isMatch "B c" = true ↔ ∃ t ∈ mixedTerms, t.Selects "B c") ∧
    ((Term.literal "B c").Selects "b c" ↔ "b c".toList = "B c".toList) := by
  have hcompile : ∀ t ∈ mixedTerms, (Program.compile t.source).isOk = true := by decide +kernel
  have hsize : ∀ t ∈ mixedTerms, Program.compile (anchored t.source) ≠ .error .tooLarge := by
    decide +kernel
  have hverbose : ∀ t ∈ mixedTerms, leavesVerboseOff t.source = true := by decide +kernel
  have hflags : ∀ t ∈ mixedTerms.dropLast, keepsFlags t.source = true := by decide +kernel
  obtain ⟨p, hp⟩ : ∃ p, Program.compile (anchored (Term.alternatives mixedTerms)) = .ok p :=
    exists_of_isOk (by decide +kernel)
  have hselect := isMatch_alternatives (by decide) (fun t ht => exists_of_isOk (hcompile t ht)) hsize
    hverbose hflags hp
  exact ⟨p, hp, hverbose, hflags, (hselect "B c").1,
    (hselect "b c").2 (.literal "B c") (by simp [mixedTerms]) rfl⟩

/-- A flag at the top of one term reaches into the next one: in verbose mode the space of a literal is
dropped. -/
theorem not_isMatch_behind_verbose :
    (∀ t ∈ [Term.pattern "(?x)a", .literal "b c"], (Program.compile t.source).isOk = true) ∧
    (Program.compile (anchored (Term.alternatives [.pattern "(?x)a", .literal "b c"]))).map
      (·.isMatch "b c") = .ok false ∧
    (Program.compile (anchored (Term.literal "b c").source)).map (·.isMatch "b c") = .ok true := by
  exact ⟨by decide +kernel, by decide +kernel, by decide +kernel⟩

end Union

end PairGrep
