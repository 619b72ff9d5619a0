import PairGrep.Proofs.Reading.Trees

/-!
# Calls of the reader

Four calls at most are made for a character. So the reader of a source never runs out of them, and a
source that nests too deep has been read to its end.
-/

namespace PairGrep.Pattern.Reader

section Opener

theorem bind_ne_error {α β : Type} {e : Error} {x : Except Error α} {f : α → Except Error β}
    (hx : x ≠ .error e) (hf : ∀ a, f a ≠ .error e) : (x >>= f) ≠ .error e := by
  cases x with
  | ok a => exact hf a
  | error e' =>
    rintro ⟨⟩
    exact hx rfl

theorem readFlags_ne_nesting (sofar : FlagChange) (negated dangling : Bool) (cs : List Char) :
    readFlags sofar negated dangling cs ≠ .error .nestingTooDeep := by
  induction cs generalizing sofar negated dangling with
  | nil => simp [readFlags]
  | cons c cs ih =>
    rw [readFlags]
    split
    · split <;> simp
    · split
      · split
        · simp
        · exact ih _ _ _
      · split
        · simp
        · split
          · simp
          · exact ih _ _ _

theorem readNameChars_ne_nesting (first : Bool) (cs : List Char) :
    readNameChars first cs ≠ .error .nestingTooDeep := by
  induction cs generalizing first with
  | nil => simp [readNameChars]
  | cons c cs ih =>
    unfold readNameChars
    split
    · simp
    · simp
    · rename_i heq
      obtain ⟨rfl, rfl⟩ := List.cons.inj heq
      split
      · exact bind_ne_error (ih false) fun _ => by simp [pure, Except.pure]
      · simp

theorem readName_ne_nesting (names : List (List Char)) (cs : List Char) :
    readName names cs ≠ .error .nestingTooDeep := by
  apply bind_ne_error (readNameChars_ne_nesting true cs)
  rintro ⟨name, rest⟩
  simp only
  split
  · simp [throw, throwThe, MonadExceptOf.throw, bind, Except.bind]
  · split <;> simp [throw, throwThe, MonadExceptOf.throw, pure, Except.pure, bind, Except.bind]

theorem readOpener_ne_nesting (s : State) : readOpener s ≠ .error .nestingTooDeep := by
  unfold readOpener
  split
  iterate 4 simp
  · exact bind_ne_error (readName_ne_nesting _ _) fun _ => by simp [pure, Except.pure]
  · exact bind_ne_error (readName_ne_nesting _ _) fun _ => by simp [pure, Except.pure]
  · simp
  · apply bind_ne_error (readFlags_ne_nesting _ _ _ _)
    rintro ⟨change, ending, rest⟩
    cases ending with
    | scope => simp [pure, Except.pure]
    | directive =>
      simp only
      split <;> simp [throw, throwThe, MonadExceptOf.throw, pure, Except.pure, bind, Except.bind]
  · simp

end Opener

/-- The calls suffice: what is read leaves so many characters at most, and no fault is one of
nesting. -/
inductive Suffices (n : Nat) : Except Error (Tree × State) → Prop
  | ok (tree : Tree) {t : State} (h : t.rest.length ≤ n) : Suffices n (.ok (tree, t))
  | error {e : Error} (h : e ≠ .nestingTooDeep) : Suffices n (.error e)

variable {m n fuel : Nat} {s : State}

theorem Suffices.bind {x : Except Error (Tree × State)}
    {f : Tree × State → Except Error (Tree × State)} (h : Suffices m x)
    (hf : ∀ tree t, t.rest.length ≤ m → Suffices n (f (tree, t))) : Suffices n (x >>= f) := by
  cases h with
  | ok tree h => exact hf tree _ h
  | error h => exact .error h

theorem Carries.suffices {α : Type} {r : List Char} {v : Bool} {x y : Except Error (α × List Char)}
    {f : α × List Char → Except Error (Tree × State)} (h : Carries r v m x y)
    (hf : ∀ a rest, rest.length ≤ m → Suffices n (f (a, rest))) : Suffices n (x >>= f) := by
  cases h with
  | ok a hlen => exact hf a _ hlen
  | ended a hv => exact hf a [] (Nat.zero_le m)
  | unfinished he =>
    refine .error ?_
    rintro rfl
    simp [Error.isOpen] at he
  | error he => exact .error he

section Readers

private theorem ends_nil : EndsSequence [] := by
  intro c hc
  simp at hc

private theorem body_suffices (ih : Suffices s.rest.length (readAlternatives fuel s)) :
    Suffices s.rest.length (readBody (fuel + 1) s) := by
  rw [readBody]
  apply ih.bind
  intro body t hle
  simp only
  split
  · rename_i rest hrest
    rw [hrest, List.length_cons] at hle
    exact .ok body (Nat.le_of_succ_le hle)
  · exact .error (by decide)

private theorem element_suffices (c : Char)
    (ih : ∀ t : State, t.rest.length ≤ s.rest.length → Suffices t.rest.length (readBody fuel t)) :
    Suffices s.rest.length (readElement (fuel + 1) c s) := by
  rw [readElement]
  split
  · exact .error (by decide)
  · split
    · have hlen : ∀ opening rest, readOpener s = .ok (opening, rest) →
          rest.length ≤ s.rest.length := by
        intro opening rest hopen
        rcases readOpener_within ends_nil s 0 [] with hopen' | ⟨e, hopen', -⟩ |
          ⟨opening', rest', hopen', hle, -⟩
        · cases hopen.symm.trans hopen'
          exact Nat.zero_le _
        · cases hopen.symm.trans hopen'
        · cases hopen.symm.trans hopen'
          exact hle
      have hdeep := readOpener_ne_nesting s
      generalize readOpener s = x at hlen hdeep ⊢
      cases x with
      | error e => exact .error (by simpa using hdeep)
      | ok p =>
        obtain ⟨opening, rest⟩ := p
        have hle := hlen opening rest rfl
        cases opening with
        | directive change => exact .ok _ hle
        | scope change => exact (ih ⟨rest, _, _, _⟩ hle).bind fun body t ht => .ok _ (ht.trans hle)
        | capture name? => exact (ih ⟨rest, _, _, _⟩ hle).bind fun body t ht => .ok _ (ht.trans hle)
    · exact (readSimple_extends ends_nil c s.rest).carries.suffices fun tree rest hle => .ok tree hle

private theorem sequence_suffices
    (ihelement : ∀ (c : Char) (t : State), t.rest.length < s.rest.length →
      Suffices t.rest.length (readElement fuel c t))
    (ih : ∀ t : State, t.rest.length < s.rest.length → Suffices t.rest.length (readSequence fuel t)) :
    Suffices s.rest.length (readSequence (fuel + 1) s) := by
  rw [readSequence]
  cases hskip : skip s.verbose s.rest with
  | nil => exact .ok _ (Nat.zero_le _)
  | cons c rest =>
    have hlen := length_of_skip hskip
    simp only
    split
    · exact .ok _ hlen
    · apply (ihelement c { s with rest } hlen).bind
      intro element t ht
      have hops := readOperators_carries (v := t.verbose) ends_nil element
        (Nat.le_refl t.rest.length) (show t.rest.length ≤ (t.rest ++ []).length by simp)
      apply hops.suffices
      intro element after hafter
      have hlt : after.length < s.rest.length := (hafter.trans ht).trans_lt hlen
      exact (ih { t with rest := after } hlt).bind fun more u hu => .ok _ (hu.trans hlt.le)

private theorem alternatives_suffices (ihsequence : Suffices s.rest.length (readSequence fuel s))
    (ih : ∀ t : State, t.rest.length < s.rest.length →
      Suffices t.rest.length (readAlternatives fuel t)) :
    Suffices s.rest.length (readAlternatives (fuel + 1) s) := by
  rw [readAlternatives]
  apply ihsequence.bind
  intro first t ht
  simp only
  split
  · rename_i rest hrest
    rw [hrest, List.length_cons] at ht
    exact (ih { t with rest } ht).bind fun more u hu => .ok _ (hu.trans (Nat.le_of_succ_le ht))
  · exact .ok first ht

private theorem readers_suffice (fuel : Nat) :
    (∀ s : State, 4 * s.rest.length + 2 ≤ fuel →
      Suffices s.rest.length (readAlternatives fuel s)) ∧
    (∀ s : State, 4 * s.rest.length + 1 ≤ fuel → Suffices s.rest.length (readSequence fuel s)) ∧
    (∀ (c : Char) (s : State), 4 * s.rest.length + 4 ≤ fuel →
      Suffices s.rest.length (readElement fuel c s)) ∧
    ∀ s : State, 4 * s.rest.length + 3 ≤ fuel → Suffices s.rest.length (readBody fuel s) := by
  induction fuel with
  | zero => exact ⟨by simp, by simp, by simp, by simp⟩
  | succ fuel ih =>
    obtain ⟨halternatives, hsequence, helement, hbody⟩ := ih
    refine ⟨?_, ?_, ?_, ?_⟩
    · intro s hfuel
      exact alternatives_suffices (hsequence s (by omega)) fun t ht => halternatives t (by omega)
    · intro s hfuel
      exact sequence_suffices (fun c t ht => helement c t (by omega))
        fun t ht => hsequence t (by omega)
    · intro c s hfuel
      exact element_suffices c fun t ht => hbody t (by omega)
    · intro s hfuel
      exact body_suffices (halternatives s (by omega))

/-- The reader of a source does not run out of calls. -/
theorem readAlternatives_ne_nesting (source : List Char) (captures : Nat)
    (names : List (List Char)) :
    readAlternatives (4 * source.length + 4) ⟨source, false, captures, names⟩ ≠
      .error .nestingTooDeep := by
  intro h
  have hsuffices := (readers_suffice (4 * source.length + 4)).1 ⟨source, false, captures, names⟩
    (Nat.le_add_right _ 2)
  rw [h] at hsuffices
  cases hsuffices with
  | error hne => exact hne rfl

end Readers

end PairGrep.Pattern.Reader
