import PairGrep.Proofs.Reading.Trees

/-!
# Sources that are read alone

A source that is read alone, and that does not end in verbose mode, is read in a group and before a
bar. There its captures have higher numbers, and none of them may have a name that is known from
before.
-/

namespace PairGrep.Pattern

namespace Tree

def orElse : Tree → Tree → Tree
  | .alt first rest, more => .alt first (rest.orElse more)
  | tree, more => .alt tree more

theorem shift_zero (tree : Tree) : tree.shift 0 = tree := by
  induction tree <;> simp_all [shift]

theorem orElse_of_isAlt {tree : Tree} (h : tree.isAlt = false) (more : Tree) :
    tree.orElse more = .alt tree more := by
  cases tree with
  | alt first rest => simp [isAlt] at h
  | _ => rfl

theorem isAlt_shift (d : Nat) (tree : Tree) : (tree.shift d).isAlt = tree.isAlt := by
  cases tree <;> rfl

end Tree

namespace Reader

variable {r : List Char} {d : Nat} {names₀ : List (List Char)}

section Alternatives

variable {fuel fuel' : Nat} {s t : State} {tree : Tree}

theorem names_of_readAlternatives (h : readAlternatives fuel s = .ok (tree, t))
    (hverbose : t.verbose = false) : s.names <:+ t.names := by
  have hends : EndsSequence [] := by
    intro c hc
    simp at hc
  rcases readAlternatives_within hends (by simp) (Nat.le_refl fuel) s 0 [] with
    ⟨tree', t', hread, -, hverbose'⟩ | hsure
  · cases h.symm.trans hread
    simp [hverbose] at hverbose'
  · generalize readAlternatives fuel (s.within [] 0 []) = y at hsure
    rw [h] at hsure
    cases hsure with
    | ok tree h => exact h
    | clash tree h hname hname₀ e => exact h

theorem readAlternatives_bar (hread : readAlternatives fuel s = .ok (tree, t)) (hrest : t.rest = [])
    (hverbose : t.verbose = false) (hfuel : fuel ≤ fuel') (d : Nat) (names₀ : List (List Char))
    (more : List Char) :
    ((∃ e, readAlternatives fuel' (s.within ('|' :: more) d names₀) = .error e) ∧
      ∃ name ∈ t.names, name ∈ names₀) ∨
    ∃ fuel'', fuel' ≤ fuel'' + fuel ∧ readAlternatives fuel' (s.within ('|' :: more) d names₀) =
      (readAlternatives fuel'' ⟨more, false, t.captures + d, t.names ++ names₀⟩).map fun p =>
        ((tree.shift d).orElse p.1, p.2) := by
  have hbar : EndsSequence ('|' :: more) := fun c hc => .inr (Option.some.inj hc).symm
  induction fuel generalizing fuel' s tree with
  | zero => simp [readAlternatives] at hread
  | succ fuel ih =>
    obtain ⟨fuel', rfl⟩ := Nat.exists_eq_add_of_le' (Nat.zero_lt_of_lt hfuel)
    rw [readAlternatives] at hread ⊢
    obtain ⟨⟨first, u⟩, hfirst, hnext⟩ := bind_eq_ok.1 hread
    simp only at hnext
    have hsame := readSequence_within hbar (show fuel ≤ fuel' by omega) s d names₀
    generalize readSequence fuel' (s.within ('|' :: more) d names₀) = y at hsame ⊢
    rw [hfirst] at hsame
    split at hnext
    · rename_i rest hu
      obtain ⟨⟨tail, w⟩, htail, hnext⟩ := bind_eq_ok.1 hnext
      cases hnext
      have hnames := names_of_readAlternatives htail hverbose
      rcases hsame with ⟨first', u', hmute, hu', -⟩ | hsame
      · cases hmute
        simp [hu] at hu'
      · cases hsame with
        | ok _ _ =>
          rcases ih htail (show fuel ≤ fuel' by omega) with ⟨⟨e, he⟩, hclash⟩ |
            ⟨fuel'', hle, hmore⟩
          · left
            refine ⟨⟨e, ?_⟩, hclash⟩
            simp only [State.within] at he
            simp [State.within, hu, he, bind, Except.bind]
          · right
            refine ⟨fuel'', by omega, ?_⟩
            simp only [State.within] at hmore
            simp only [State.within, hu, hmore, bind, Except.bind, List.cons_append]
            cases readAlternatives fuel'' _ <;> rfl
        | clash _ _ hname hname₀ e => exact .inl ⟨⟨e, rfl⟩, _, hnames.subset hname, hname₀⟩
    · cases hnext
      rcases hsame with ⟨first', u', hmute, -, hverbose'⟩ | hsame
      · cases hmute
        simp [hverbose] at hverbose'
      · cases hsame with
        | ok _ _ =>
          right
          refine ⟨fuel', by omega, ?_⟩
          have halt : (tree.shift d).isAlt = false := by
            rw [Tree.isAlt_shift, isAlt_of_readSequence hfirst]
          simp only [State.within, hrest, bind, Except.bind, List.nil_append,
            Tree.orElse_of_isAlt halt, hverbose]
          cases readAlternatives fuel' _ <;> rfl
        | clash _ _ hname hname₀ e => exact .inl ⟨⟨e, rfl⟩, _, hname, hname₀⟩

end Alternatives

/-- The source alone is read as the tree, and not in verbose mode to its end. So many captures are
opened, with these names. -/
def Reads (source : List Char) (tree : Tree) (captures : Nat) (names : List (List Char)) : Prop :=
  readAlternatives (4 * source.length + 4) ⟨source, false, 0, []⟩ =
    .ok (tree, ⟨[], false, captures, names⟩)

section Reads

variable {source : List Char} {tree : Tree} {captures : Nat} {names : List (List Char)}
  {fuel : Nat}

theorem Reads.valid (h : Reads source tree captures names) : tree.Valid :=
  valid_of_readAlternatives h

/-- A source is read in a group as alone, unless a name is known from before. -/
theorem Reads.in_group (h : Reads source tree captures names) (hfuel : 4 * source.length + 4 ≤ fuel)
    (d : Nat) (names₀ : List (List Char)) (rest : List Char) :
    ((∃ e, readAlternatives fuel ⟨source ++ ')' :: rest, false, d, names₀⟩ = .error e) ∧
      ∃ name ∈ names, name ∈ names₀) ∨
    readAlternatives fuel ⟨source ++ ')' :: rest, false, d, names₀⟩ =
      .ok (tree.shift d, ⟨')' :: rest, false, captures + d, names ++ names₀⟩) := by
  have hends : EndsSequence (')' :: rest) := fun c hc => .inl (Option.some.inj hc).symm
  have hsame := readAlternatives_within hends (by simp) hfuel ⟨source, false, 0, []⟩ d names₀
  simp only [State.within, Nat.zero_add, List.nil_append] at hsame
  rw [Reads] at h
  generalize readAlternatives fuel _ = y at hsame ⊢
  rw [h] at hsame
  rcases hsame with ⟨tree', t, hmute, -, hverbose⟩ | hsame
  · cases hmute
    simp at hverbose
  · cases hsame with
    | ok _ _ => exact .inr rfl
    | clash _ _ hname hname₀ e => exact .inl ⟨⟨e, rfl⟩, _, hname, hname₀⟩

theorem Reads.before_bar (h : Reads source tree captures names)
    (hfuel : 4 * source.length + 4 ≤ fuel) (d : Nat) (names₀ : List (List Char))
    (more : List Char) :
    ((∃ e, readAlternatives fuel ⟨source ++ '|' :: more, false, d, names₀⟩ = .error e) ∧
      ∃ name ∈ names, name ∈ names₀) ∨
    ∃ fuel', fuel ≤ fuel' + (4 * source.length + 4) ∧
      readAlternatives fuel ⟨source ++ '|' :: more, false, d, names₀⟩ =
        (readAlternatives fuel' ⟨more, false, captures + d, names ++ names₀⟩).map fun p =>
          ((tree.shift d).orElse p.1, p.2) := by
  have hbar := readAlternatives_bar h rfl rfl hfuel d names₀ more
  simpa only [State.within, Nat.zero_add, List.nil_append] using hbar

end Reads

/-- The tree is of the alternatives of the sources, each with its captures numbered higher. -/
inductive Joined : List (List Char) → Tree → Prop
  | single {source : List Char} {tree : Tree} {captures : Nat} {names : List (List Char)}
    (h : Reads source tree captures names) (d : Nat) : Joined [source] (tree.shift d)
  | cons {source : List Char} {tree more : Tree} {captures : Nat} {names : List (List Char)}
    {sources : List (List Char)} (h : Reads source tree captures names) (d : Nat)
    (hmore : Joined sources more) : Joined (source :: sources) ((tree.shift d).orElse more)

def captureNames (source : List Char) : List (List Char) :=
  match readAlternatives (4 * source.length + 4) ⟨source, false, 0, []⟩ with
  | .ok (_, s) => s.names
  | .error _ => []

theorem Reads.captureNames_eq {source : List Char} {tree : Tree} {captures : Nat}
    {names : List (List Char)} (h : Reads source tree captures names) :
    captureNames source = names := by
  rw [captureNames, h]

/-- No name of a capture is used by two of the sources, and none is known from before. -/
def NamesApart (sources : List (List Char)) (names₀ : List (List Char)) : Prop :=
  sources.Pairwise (fun s t => ∀ name ∈ captureNames s, name ∉ captureNames t) ∧
    ∀ s ∈ sources, ∀ name ∈ captureNames s, name ∉ names₀

theorem NamesApart.of_cons {source : List Char} {sources : List (List Char)}
    {names₀ : List (List Char)} (h : NamesApart (source :: sources) names₀) :
    NamesApart sources (captureNames source ++ names₀) := by
  obtain ⟨hpairs, hknown⟩ := h
  obtain ⟨hfirst, hmore⟩ := List.pairwise_cons.1 hpairs
  refine ⟨hmore, ?_⟩
  intro s hs name hname hmem
  rcases List.mem_append.1 hmem with hmem | hmem
  · exact hfirst s hs name hmem hname
  · exact hknown s (List.mem_cons_of_mem source hs) name hname hmem

/-- Sources that are read alone are read with bars between them in a group, unless two captures have
the same name. -/
theorem readAlternatives_joined {sources : List (List Char)} (hne : sources ≠ [])
    (hreads : ∀ s ∈ sources, ∃ tree captures names, Reads s tree captures names) {fuel : Nat}
    (hfuel : 4 * (['|'].intercalate sources).length + 4 ≤ fuel) (d : Nat)
    (names₀ : List (List Char)) (rest : List Char) :
    ((∃ e, readAlternatives fuel ⟨['|'].intercalate sources ++ ')' :: rest, false, d, names₀⟩ =
      .error e) ∧ ¬NamesApart sources names₀) ∨
    ∃ tree captures names, Joined sources tree ∧
      readAlternatives fuel ⟨['|'].intercalate sources ++ ')' :: rest, false, d, names₀⟩ =
        .ok (tree, ⟨')' :: rest, false, captures, names⟩) := by
  induction sources generalizing fuel d names₀ with
  | nil => exact absurd rfl hne
  | cons source sources ih =>
    obtain ⟨tree, captures, names, hsource⟩ := hreads source List.mem_cons_self
    have hknown : (∃ name ∈ names, name ∈ names₀) → ¬NamesApart (source :: sources) names₀ := by
      rintro ⟨name, hname, hname₀⟩ hapart
      rw [← hsource.captureNames_eq] at hname
      exact hapart.2 source List.mem_cons_self name hname hname₀
    cases sources with
    | nil =>
      simp only [List.intercalate_singleton] at hfuel ⊢
      rcases hsource.in_group hfuel d names₀ rest with ⟨he, hclash⟩ | hread
      · exact .inl ⟨he, hknown hclash⟩
      · exact .inr ⟨_, _, _, .single hsource d, hread⟩
    | cons next sources =>
      have hjoin : ['|'].intercalate (source :: next :: sources) ++ ')' :: rest =
          source ++ '|' :: (['|'].intercalate (next :: sources) ++ ')' :: rest) := by
        simp
      have hlen : (['|'].intercalate (source :: next :: sources)).length =
          source.length + (['|'].intercalate (next :: sources)).length + 1 := by
        simp
        omega
      rw [hjoin]
      rcases hsource.before_bar (show 4 * source.length + 4 ≤ fuel by omega) d names₀
        (['|'].intercalate (next :: sources) ++ ')' :: rest) with
        ⟨he, hclash⟩ | ⟨fuel', hfuel', hread⟩
      · exact .inl ⟨he, hknown hclash⟩
      · rw [hread]
        have hmoreFuel : 4 * (['|'].intercalate (next :: sources)).length + 4 ≤ fuel' := by omega
        rcases ih (by simp) (fun s hs => hreads s (List.mem_cons_of_mem source hs)) hmoreFuel
          (captures + d) (names ++ names₀) with ⟨⟨e, he⟩, hapart⟩ |
          ⟨more, captures', names', hmore, hread'⟩
        · refine .inl ⟨⟨e, by rw [he]; rfl⟩, ?_⟩
          rintro h
          exact hapart (hsource.captureNames_eq ▸ h.of_cons)
        · refine .inr ⟨_, captures', names', .cons hsource d hmore, ?_⟩
          rw [hread']
          rfl

end Reader

end PairGrep.Pattern
