import PairGrep.Proofs.Reading.Calls
import PairGrep.Proofs.Search.Meaning

/-!
# Trees that are refused

A tree nests too deep or has no expression. Then so do the trees that it is a part of, if the flags
before it are those that a pattern starts with.
-/

namespace PairGrep.Pattern

namespace Tree

variable {first rest tree more : Tree}

section Depth

theorem depths_bounds (tree : Tree) : tree.depths.2.1 ≤ tree.depth ∧
    tree.depth ≤ tree.depths.2.1 + 1 ∧ tree.depths.2.2 ≤ tree.depth ∧
      tree.depth ≤ tree.depths.2.2 + 1 := by
  cases tree <;> simp [depth, depths]

theorem depth_shift (d : Nat) (tree : Tree) : (tree.shift d).depth = tree.depth := by
  have hdepths : (tree.shift d).depths = tree.depths := by
    induction tree <;> simp_all [shift, depths]
  rw [depth, depth, hdepths]

theorem cons_of_ne (h : rest ≠ .empty) : first.cons rest = .cat first rest := by
  cases rest with
  | empty => exact absurd rfl h
  | _ => rfl

theorem depth_le_cons (first rest : Tree) :
    first.depth ≤ (first.cons rest).depth ∧ rest.depth ≤ (first.cons rest).depth := by
  have hrest := depths_bounds rest
  cases rest <;> simp only [cons, depth, depths] at hrest ⊢ <;> omega

theorem depth_le_orElse (tree more : Tree) : tree.depth ≤ (tree.orElse more).depth ∧
    more.depth ≤ (tree.orElse more).depth ∧
      tree.depths.2.2 ≤ (tree.orElse more).depths.2.2 := by
  have hmore := depths_bounds more
  induction tree with
  | alt first rest _ ih =>
    have hrest := depths_bounds rest
    have hnext := depths_bounds (rest.orElse more)
    simp only [orElse, depth, depths] at ih hmore hrest hnext ⊢
    omega
  | _ =>
    simp only [orElse, depth, depths] at hmore ⊢
    omega

end Depth

def Closed (tree : Tree) : Prop :=
  ∀ f bs g, Elaborate.branches f tree = .ok (bs, g) → g = f

theorem closed_repeated (min : Nat) (max : Option Nat) (greedy : Bool) (body : Tree) :
    (repeated min max greedy body).Closed := by
  intro f bs g h
  obtain ⟨⟨cs, g'⟩, -, h⟩ := bind_eq_ok.1 h
  cases h
  rfl

theorem closed_capture (index : Nat) (body : Tree) : (capture index body).Closed := by
  intro f bs g h
  obtain ⟨⟨cs, g'⟩, -, h⟩ := bind_eq_ok.1 h
  cases h
  rfl

theorem closed_literal (l : Literal) : (literal l).Closed := by
  intro f bs g h
  obtain ⟨c, -, h⟩ := bind_eq_ok.1 h
  cases h
  rfl

/-- The tree nests too deep, or has no expression under the flags that a pattern starts with. -/
def Refused (tree : Tree) : Prop :=
  nestLimit < tree.depth ∨ ∃ e, Elaborate.branches .initial tree = .error e

namespace Refused

theorem shift (d : Nat) (hvalid : tree.Valid) (h : tree.Refused) : (tree.shift d).Refused := by
  rcases h with h | ⟨e, he⟩
  · exact .inl (by rwa [depth_shift])
  · exact .inr ⟨e, branches_shift_error d hvalid he⟩

theorem repeated (min : Nat) (max : Option Nat) (greedy : Bool) (h : tree.Refused) :
    (Tree.repeated min max greedy tree).Refused := by
  rcases h with h | ⟨e, he⟩
  · exact .inl (by simp only [depth, depths] at h ⊢; omega)
  · exact .inr ⟨e, by rw [Elaborate.branches, he]; rfl⟩

theorem capture (index : Nat) (h : tree.Refused) : (Tree.capture index tree).Refused := by
  rcases h with h | ⟨e, he⟩
  · exact .inl (by simp only [depth, depths] at h ⊢; omega)
  · exact .inr ⟨e, by rw [Elaborate.branches, he]; rfl⟩

theorem cons_first (h : first.Refused) (rest : Tree) : (first.cons rest).Refused := by
  rcases h with h | ⟨e, he⟩
  · exact .inl (h.trans_le (depth_le_cons first rest).1)
  · by_cases hrest : rest = .empty
    · subst hrest
      exact .inr ⟨e, he⟩
    · exact .inr ⟨e, by rw [cons_of_ne hrest, Elaborate.branches, he]; rfl⟩

theorem cons_rest (hfirst : first.Closed) (h : rest.Refused) : (first.cons rest).Refused := by
  rcases h with h | ⟨e, he⟩
  · exact .inl (h.trans_le (depth_le_cons first rest).2)
  · right
    have hne : rest ≠ .empty := by
      rintro rfl
      simp [Elaborate.branches] at he
    rw [cons_of_ne hne, Elaborate.branches]
    cases hbranches : Elaborate.branches .initial first with
    | error e' => exact ⟨e', rfl⟩
    | ok p =>
      obtain ⟨bs, g⟩ := p
      obtain rfl := hfirst _ _ _ hbranches
      exact ⟨e, by simp only [bind, Except.bind, he]⟩

theorem orElse_first (h : tree.Refused) (more : Tree) : (tree.orElse more).Refused := by
  rcases h with h | ⟨e, he⟩
  · exact .inl (h.trans_le (depth_le_orElse tree more).1)
  · exact .inr ⟨e, by rw [Elaborate.branches_orElse, he]; rfl⟩

theorem orElse_rest (h : more.Refused)
    (hflags : ∀ bs g, Elaborate.branches .initial tree = .ok (bs, g) → g = .initial) :
    (tree.orElse more).Refused := by
  rcases h with h | ⟨e, he⟩
  · exact .inl (h.trans_le (depth_le_orElse tree more).2.1)
  · right
    rw [Elaborate.branches_orElse]
    cases hbranches : Elaborate.branches .initial tree with
    | error e' => exact ⟨e', rfl⟩
    | ok p =>
      obtain ⟨bs, g⟩ := p
      obtain rfl := hflags _ _ hbranches
      exact ⟨e, by simp only [bind, Except.bind, he]⟩

end Refused

end Tree

namespace Reader

/-- All that may be read is refused. -/
def Doomed (x : Except Error (Tree × State)) : Prop :=
  ∀ tree s, x = .ok (tree, s) → tree.Refused

theorem Doomed.of_error (e : Error) : Doomed (.error e) := by
  intro tree s h
  cases h

theorem Doomed.map {x : Except Error (Tree × State)} {k : Tree → Tree} (h : Doomed x)
    (hk : ∀ tree, tree.Refused → (k tree).Refused) : Doomed (x.map fun p => (k p.1, p.2)) := by
  intro tree s hread
  match x with
  | .ok (tree', s') =>
    cases hread
    exact hk tree' (h tree' s' rfl)
  | .error e => cases hread

section Doomed

variable {fuel captures : Nat} {names : List (List Char)} {rest : List Char} {c : Char}

theorem refused_of_readOperators {v : Bool} {cs₀ cs cs' : List Char} {body tree : Tree}
    (h : readOperators v cs₀ body cs = .ok (tree, cs')) (hbody : body.Refused) : tree.Refused := by
  induction cs₀ generalizing body cs with
  | nil =>
    cases h
    exact hbody
  | cons _ cs₀ ih =>
    unfold readOperators at h
    split at h
    · cases h
      exact hbody
    · split at h
      · obtain ⟨⟨next, after⟩, hnext, h⟩ := bind_eq_ok.1 h
        refine ih h ?_
        unfold readOperator at hnext
        split at hnext
        · split at hnext
          · obtain ⟨⟨bounds, after⟩, -, hnext⟩ := bind_eq_ok.1 hnext
            simp only at hnext
            split at hnext
            · cases hnext
            · cases hnext
              exact hbody.repeated _ _ _
          · cases hnext
            exact hbody.repeated _ _ _
        · simp at hnext
      · cases h
        exact hbody

theorem Doomed.readSequence (hc : ¬(c = ')' ∨ c = '|'))
    (h : Doomed (readElement fuel c ⟨rest, false, captures, names⟩)) :
    Doomed (readSequence (fuel + 1) ⟨c :: rest, false, captures, names⟩) := by
  intro tree s hread
  rw [Reader.readSequence] at hread
  simp only [skip, Bool.false_eq_true, if_false, if_neg hc] at hread
  obtain ⟨⟨element, t⟩, helement, hread⟩ := bind_eq_ok.1 hread
  obtain ⟨⟨body, after⟩, hbody, hread⟩ := bind_eq_ok.1 hread
  obtain ⟨⟨more, u⟩, -, hread⟩ := bind_eq_ok.1 hread
  cases hread
  exact (refused_of_readOperators hbody (h _ _ helement)).cons_first more

theorem Doomed.readAlternatives {s : State} (h : Doomed (Reader.readSequence fuel s)) :
    Doomed (readAlternatives (fuel + 1) s) := by
  intro tree t hread
  rw [Reader.readAlternatives] at hread
  obtain ⟨⟨first, u⟩, hfirst, hread⟩ := bind_eq_ok.1 hread
  have hrefused := h _ _ hfirst
  simp only at hread
  split at hread
  · obtain ⟨⟨more, w⟩, -, hread⟩ := bind_eq_ok.1 hread
    cases hread
    have halt := hrefused.orElse_first more
    rwa [Tree.orElse_of_isAlt (isAlt_of_readSequence hfirst)] at halt
  · cases hread
    exact hrefused

theorem Doomed.readCapture {source : List Char} (hq : source.head? ≠ some '?')
    (h : Doomed (Reader.readAlternatives fuel
      ⟨source ++ ')' :: rest, false, captures + 1, names⟩)) :
    Doomed (Reader.readSequence (fuel + 3)
      ⟨'(' :: (source ++ ')' :: rest), false, captures, names⟩) := by
  apply Doomed.readSequence (by decide)
  intro tree s hread
  rw [readElement_capture hq] at hread
  obtain ⟨⟨body, t⟩, hbody, hread⟩ := bind_eq_ok.1 hread
  cases hread
  rw [readBody] at hbody
  obtain ⟨⟨inside, u⟩, hinside, hbody⟩ := bind_eq_ok.1 hbody
  simp only at hbody
  split at hbody
  · cases hbody
    exact (h _ _ hinside).capture _
  · simp at hbody

end Doomed

section Pair

variable {fuel : Nat} {key value : List Char}

theorem Doomed.pairSource_key (hkq : key.head? ≠ some '?')
    (h : Doomed (Reader.readAlternatives (fuel + 8) ⟨key ++ ')' :: afterKey value, false, 1, []⟩)) :
    Doomed (Reader.readAlternatives (fuel + 13) ⟨pairSource key value, false, 0, []⟩) := by
  apply Doomed.readAlternatives
  rw [pairSource_eq, readSequence_quote (by rintro c ⟨⟩; decide)]
  exact (Doomed.readCapture hkq h).map fun tree => .cons_rest (Tree.closed_repeated _ _ _ _)

theorem Doomed.pairSource_value {k : Tree} {keyCaptures : Nat} {keyNames : List (List Char)}
    (hkq : key.head? ≠ some '?') (hvq : value.head? ≠ some '?')
    (hk : Reader.readAlternatives (fuel + 8) ⟨key ++ ')' :: afterKey value, false, 1, []⟩ =
      .ok (k, ⟨')' :: afterKey value, false, keyCaptures, keyNames⟩))
    (h : Doomed (Reader.readAlternatives (fuel + 3)
      ⟨value ++ [')', '"', '?'], false, keyCaptures + 1, keyNames⟩)) :
    Doomed (Reader.readAlternatives (fuel + 13) ⟨pairSource key value, false, 0, []⟩) := by
  have hafter : ∀ c, (afterKey value).head? = some c → isRepetition c = false := by
    rintro c ⟨⟩
    decide
  have hquote : ∀ {tree : Tree}, tree.Refused → (Tree.quote.cons tree).Refused :=
    .cons_rest (Tree.closed_repeated _ _ _ _)
  apply Doomed.readAlternatives
  rw [pairSource_eq, readSequence_quote (by rintro c ⟨⟩; decide),
    readSequence_capture hkq hafter hk, readSequence_afterKey]
  apply Doomed.map _ fun tree => hquote
  apply Doomed.map _ fun tree => .cons_rest (Tree.closed_capture _ _)
  apply Doomed.map (k := fun tree => Tree.quote.cons (.colonCons (Tree.quote.cons tree)))
    (Doomed.readCapture hvq h)
  intro tree htree
  exact hquote (.cons_rest (Tree.closed_literal _)
    (.cons_rest (Tree.closed_repeated _ _ _ _) (hquote htree)))

end Pair

/-- A source is not compiled if all that may be read of it is refused. -/
theorem not_compile_of_doomed [Sizing] {source : List Char} {p : Program}
    (h : Doomed (readAlternatives (4 * source.length + 4) ⟨source, false, 0, []⟩)) :
    Program.compile source ≠ .ok p := by
  intro hcompile
  obtain ⟨tree, s, e, hread, -, hdepth, he, -⟩ := exists_of_compile hcompile
  rcases h _ _ hread with hdeep | ⟨e', he'⟩
  · omega
  · obtain ⟨p, hp, -⟩ := bind_eq_ok.1 he
    rw [he'] at hp
    cases hp

/-- All that may be read of the source is refused wherever it stands. -/
def Malformed (source : List Char) : Prop :=
  ∀ (fuel d : Nat) (names₀ : List (List Char)) (c : Char) (rest : List Char), c = ')' ∨ c = '|' →
    4 * source.length + 4 ≤ fuel →
      Doomed (readAlternatives fuel ⟨source ++ c :: rest, false, d, names₀⟩)

section Malformed

variable {source more : List Char}

theorem Malformed.before_bar (h : Malformed source) (more : List Char) :
    Malformed (source ++ '|' :: more) := by
  intro fuel d names₀ c rest _ hfuel
  rw [List.length_append] at hfuel
  rw [List.append_assoc, List.cons_append]
  exact h fuel d names₀ '|' (more ++ c :: rest) (.inr rfl) (by omega)

theorem Malformed.behind_bar {tree : Tree} {captures : Nat} {names : List (List Char)}
    (h : Malformed more) (hsource : Reads source tree captures names)
    (hflags : keepsFlags source = true) : Malformed (source ++ '|' :: more) := by
  intro fuel d names₀ c rest hc hfuel
  rw [List.length_append, List.length_cons] at hfuel
  rw [List.append_assoc, List.cons_append]
  rcases hsource.before_bar (show 4 * source.length + 4 ≤ fuel by omega) d names₀
    (more ++ c :: rest) with ⟨⟨e, he⟩, -⟩ | ⟨fuel', hfuel', hread⟩
  · rw [he]
    exact .of_error e
  · rw [hread]
    refine (h fuel' _ _ c rest hc (by omega)).map fun next hnext => hnext.orElse_rest ?_
    intro bs g hbs
    cases hbranches : Elaborate.branches .initial tree with
    | error e =>
      rw [Tree.branches_shift_error d hsource.valid hbranches] at hbs
      cases hbs
    | ok p =>
      obtain ⟨cs, hcs, -⟩ := Tree.branches_shift_ok d hsource.valid hbranches
      cases hcs.symm.trans hbs
      exact eq_initial_of_keepsFlags hflags hsource hbranches

theorem malformed_of_read_error {e : Error} (h : readAlternatives (4 * source.length + 4)
    ⟨source, false, 0, []⟩ = .error e) (hopen : e.isOpen = false) : Malformed source := by
  intro fuel d names₀ c rest hc hfuel
  have hends : EndsSequence (c :: rest) := by
    intro x hx
    rwa [← Option.some.inj hx]
  have hdeep : e ≠ .nestingTooDeep := by
    rintro rfl
    exact readAlternatives_ne_nesting source 0 [] h
  have hsame := readAlternatives_sure hends hfuel ⟨source, false, 0, []⟩ d names₀ (by simp [h])
  simp only [State.within, Nat.zero_add, List.nil_append] at hsame
  generalize readAlternatives fuel _ = y at hsame ⊢
  rw [h] at hsame
  cases hsame with
  | unfinished he y => exact absurd he (by simp [hopen, hdeep])
  | error e e' => exact .of_error e'

theorem malformed_of_refused {tree : Tree} {captures : Nat} {names : List (List Char)}
    (hsource : Reads source tree captures names) (h : tree.Refused) : Malformed source := by
  intro fuel d names₀ c rest hc hfuel
  rcases hc with rfl | rfl
  · rcases hsource.in_group hfuel d names₀ rest with ⟨⟨e, he⟩, -⟩ | hgroup
    · rw [he]
      exact .of_error e
    · rw [hgroup]
      intro tree' s hok
      cases hok
      exact h.shift d hsource.valid
  · rcases hsource.before_bar hfuel d names₀ rest with ⟨⟨e, he⟩, -⟩ | ⟨fuel', -, hbar⟩
    · rw [he]
      exact .of_error e
    · rw [hbar]
      intro tree' s hok
      cases hnext : readAlternatives fuel' ⟨rest, false, captures + d, names ++ names₀⟩ with
      | error e =>
        rw [hnext] at hok
        cases hok
      | ok p =>
        rw [hnext] at hok
        cases hok
        exact (h.shift d hsource.valid).orElse_first p.1

/-- A source that is read alone, but does not compile, is refused if it is not only too large. -/
theorem refused_of_compile [Sizing] {tree : Tree} {captures : Nat} {names : List (List Char)}
    {e : Error} (hsource : Reads source tree captures names)
    (h : Program.compile source = .error e) (hsize : e ≠ .tooLarge) : tree.Refused := by
  by_contra hnot
  obtain ⟨hdepth, hbranches⟩ := not_or.1 hnot
  cases hbs : Elaborate.branches .initial tree with
  | error e' => exact hbranches ⟨e', hbs⟩
  | ok p =>
    rw [Reads] at hsource
    have hpattern : readPattern source = .ok tree := by
      simp [readPattern, hsource, hdepth, bind, Except.bind, pure, Except.pure]
    have helaborate : tree.elaborate = .ok (.choice p.1) := by
      rw [Tree.elaborate, hbs]
      rfl
    rw [Program.compile, hpattern] at h
    simp only [bind, Except.bind, helaborate] at h
    split at h
    · cases h
      exact hsize rfl
    · cases h

/-- A source that is refused alone is so for a fault of its own, if it is not only that something of
it is not finished or not begun, and if it does not end in verbose mode. -/
theorem malformed_of_compile [Sizing] {e : Error} (h : Program.compile source = .error e)
    (hopen : e.isOpen = false) (hsize : e ≠ .tooLarge) (hverbose : leavesVerboseOff source = true) :
    Malformed source := by
  cases hread : readAlternatives (4 * source.length + 4) ⟨source, false, 0, []⟩ with
  | error e' =>
    obtain rfl : e' = e := by
      simpa [Program.compile, readPattern, hread, bind, Except.bind] using h
    exact malformed_of_read_error hread hopen
  | ok p =>
    obtain ⟨tree, ⟨rest, verbose, captures, names⟩⟩ := p
    obtain rfl : verbose = false := verbose_of_leavesVerboseOff hverbose hread
    obtain rfl : rest = [] := by
      by_contra hne
      obtain rfl : .groupUnopened = e := by
        simpa [Program.compile, readPattern, hread, hne, bind, Except.bind, throw, throwThe,
          MonadExceptOf.throw] using h
      simp [Error.isOpen] at hopen
    exact malformed_of_refused hread (refused_of_compile hread h hsize)

end Malformed

end Reader

end PairGrep.Pattern
