import PairGrep.Proofs.Reading.Operator

/-!
# Reading groups in front of more text

The alternatives of a source are read of a longer source as they are read of it alone, but for the
numbers of their captures, which are higher by the number of captures opened before. A name of a
capture that is known from before is the one fault that is new in the longer source.
-/

namespace PairGrep.Pattern

def Tree.shift (d : Nat) : Tree → Tree
  | .repeated min max greedy body => .repeated min max greedy (body.shift d)
  | .capture index body => .capture (index + d) (body.shift d)
  | .scope change body => .scope change (body.shift d)
  | .cat first rest => .cat (first.shift d) (rest.shift d)
  | .alt first rest => .alt (first.shift d) (rest.shift d)
  | t => t

theorem Tree.shift_cons (d : Nat) (first rest : Tree) :
    (first.cons rest).shift d = (first.shift d).cons (rest.shift d) := by
  cases rest <;> rfl

namespace Reader

variable {r : List Char} {d : Nat} {names₀ names names' : List (List Char)}

section Shift

theorem isOperand_shift (d : Nat) (tree : Tree) : isOperand (tree.shift d) = isOperand tree := by
  cases tree <;> rfl

theorem readOperator_shift (v : Bool) (body : Tree) (c : Char) (cs : List Char) :
    readOperator v (body.shift d) c cs =
      (readOperator v body c cs).map fun p => (p.1.shift d, p.2) := by
  unfold readOperator
  rw [isOperand_shift]
  split
  · split
    · cases readBounds v cs with
      | error e => rfl
      | ok p =>
        simp only [bind, Except.bind]
        split <;> rfl
    · rfl
  · rfl

theorem readOperators_shift (v : Bool) (fuel : List Char) (body : Tree) (cs : List Char) :
    readOperators v fuel (body.shift d) cs =
      (readOperators v fuel body cs).map fun p => (p.1.shift d, p.2) := by
  induction fuel generalizing body cs with
  | nil => rfl
  | cons _ fuel ih =>
    rw [readOperators, readOperators]
    cases skip v cs with
    | nil => rfl
    | cons c rest =>
      simp only
      split
      · rw [readOperator_shift]
        cases readOperator v body c rest with
        | error e => rfl
        | ok p => exact ih p.1 p.2
      · rfl

theorem readSimple_shift (d : Nat) {v : Bool} {c : Char} {cs rest : List Char} {tree : Tree}
    (h : readSimple v c cs = .ok (tree, rest)) : tree.shift d = tree := by
  unfold readSimple at h
  split at h
  · cases hclass : readClass v (cs.length + 1) cs with
    | error e => simp [hclass, bind, Except.bind] at h
    | ok p =>
      obtain ⟨inside, after⟩ := p
      rw [hclass] at h
      cases inside <;> cases h <;> rfl
  · cases hescape : readEscape v cs with
    | error e => simp [hescape, bind, Except.bind] at h
    | ok p =>
      obtain ⟨atom, after⟩ := p
      rw [hescape] at h
      cases atom <;> cases h <;> rfl
  all_goals
    cases h
    rfl

end Shift

/-- The end of the source is reached in verbose mode. -/
def Mute (x : Except Error (Tree × State)) : Prop :=
  ∃ tree t, x = .ok (tree, t) ∧ t.rest = [] ∧ t.verbose = true

/-- What is read of the source alone and of the longer source. A fault that the source is not
finished says nothing, and nor does one that it nests too deep, since more calls may be made for the
longer source. -/
inductive Sure (r : List Char) (d : Nat) (names₀ names : List (List Char)) :
    Except Error (Tree × State) → Except Error (Tree × State) → Prop
  | ok (tree : Tree) {t : State} (h : names <:+ t.names) :
    Sure r d names₀ names (.ok (tree, t)) (.ok (tree.shift d, t.within r d names₀))
  | clash (tree : Tree) {t : State} {name : List Char} (h : names <:+ t.names)
    (hname : name ∈ t.names) (hname₀ : name ∈ names₀) (e : Error) :
    Sure r d names₀ names (.ok (tree, t)) (.error e)
  | unfinished {e : Error} (he : e.isOpen = true ∨ e = .nestingTooDeep)
    (y : Except Error (Tree × State)) : Sure r d names₀ names (.error e) y
  | error (e e' : Error) : Sure r d names₀ names (.error e) (.error e')

/-- The same where nothing is said of what ends with the source in verbose mode. -/
def Within (r : List Char) (d : Nat) (names₀ names : List (List Char))
    (x y : Except Error (Tree × State)) : Prop :=
  Mute x ∨ Sure r d names₀ names x y

theorem Sure.mono {x y : Except Error (Tree × State)} (h : Sure r d names₀ names' x y)
    (hnames : names <:+ names') : Sure r d names₀ names x y := by
  cases h with
  | ok tree h => exact .ok tree (hnames.trans h)
  | clash tree h hname hname₀ e => exact .clash tree (hnames.trans h) hname hname₀ e
  | unfinished he y => exact .unfinished he y
  | error e e' => exact .error e e'

/-- A reader goes on, and what it reads has a property that lets nothing be said, or is told of. -/
theorem Sure.bind {P : Except Error (Tree × State) → Prop} {x y : Except Error (Tree × State)}
    {f g : Tree × State → Except Error (Tree × State)} (h : Sure r d names₀ names x y)
    (hfg : ∀ tree t, P (f (tree, t)) ∨ Sure r d names₀ t.names (f (tree, t))
      (g (tree.shift d, t.within r d names₀))) :
    P (x >>= f) ∨ Sure r d names₀ names (x >>= f) (y >>= g) := by
  cases h with
  | ok tree h => exact (hfg tree _).imp id (·.mono h)
  | @clash tree t name h hname hname₀ e =>
    refine (hfg tree t).imp id fun hnext => ?_
    simp only [Bind.bind, Except.bind]
    generalize f (tree, t) = z at hnext ⊢
    generalize g (tree.shift d, t.within r d names₀) = w at hnext
    cases hnext with
    | ok tree' h' => exact .clash tree' (h.trans h') (h'.subset hname) hname₀ e
    | clash tree' h' hname' hname₀' e' => exact .clash tree' (h.trans h') hname' hname₀' e
    | unfinished he y => exact .unfinished he _
    | error e' e'' => exact .error e' e
  | unfinished he y => exact .inr (.unfinished he _)
  | error e e' => exact .inr (.error e e')

theorem Sure.bind_sure {x y : Except Error (Tree × State)}
    {f g : Tree × State → Except Error (Tree × State)} (h : Sure r d names₀ names x y)
    (hfg : ∀ tree t, Sure r d names₀ t.names (f (tree, t)) (g (tree.shift d, t.within r d names₀))) :
    Sure r d names₀ names (x >>= f) (y >>= g) :=
  (h.bind (P := fun _ => False) fun tree t => .inr (hfg tree t)).resolve_left id

section Readers

/-- The alternatives end with the source, and what follows is another alternative. -/
private def AtBar (r : List Char) (x : Except Error (Tree × State)) : Prop :=
  r.head? = some '|' ∧ ∃ tree t, x = .ok (tree, t) ∧ t.rest = []

/-- The operators after an element and what follows them in its sequence. -/
private def readAfter (fuel : Nat) (element : Tree) (t : State) : Except Error (Tree × State) := do
  let (element, rest) ← readOperators t.verbose t.rest element t.rest
  let (more, t) ← readSequence fuel { t with rest }
  return (element.cons more, t)

private theorem after_mute {fuel : Nat} {element : Tree} {t : State} (hrest : t.rest = [])
    (hverbose : t.verbose = true) (y : Except Error (Tree × State)) :
    Within r d names₀ names (readAfter fuel element t) y := by
  rw [readAfter, hrest]
  cases fuel with
  | zero => exact .inr (.unfinished (.inr rfl) _)
  | succ fuel =>
    left
    refine ⟨element, { t with rest := [] }, ?_, rfl, hverbose⟩
    simp [readOperators, readSequence, bind, Except.bind, pure, Except.pure, hverbose, skip,
      dropSpace, Tree.cons]

private theorem body_within {fuel fuel' : Nat} {s : State}
    (ih : AtBar r (readAlternatives fuel s) ∨ Within r d names₀ s.names (readAlternatives fuel s)
      (readAlternatives fuel' (s.within r d names₀))) :
    Sure r d names₀ s.names (readBody (fuel + 1) s)
      (readBody (fuel' + 1) (s.within r d names₀)) := by
  have hopen : ∀ (tree : Tree) (t : State) (y : Except Error (Tree × State)), t.rest = [] →
      readAlternatives fuel s = .ok (tree, t) → Sure r d names₀ s.names (readBody (fuel + 1) s) y := by
    intro tree t y hrest hread
    rw [readBody, hread]
    simp only [bind, Except.bind, hrest]
    exact .unfinished (.inl rfl) _
  rcases ih with ⟨-, tree, t, hread, hrest⟩ | ⟨tree, t, hread, hrest, -⟩ | h
  · exact hopen tree t _ hrest hread
  · exact hopen tree t _ hrest hread
  · rw [readBody, readBody]
    generalize readAlternatives fuel s = x at h ⊢
    generalize readAlternatives fuel' (s.within r d names₀) = y at h ⊢
    clear hopen
    cases h with
    | @ok tree t h =>
      simp only [bind, Except.bind]
      by_cases hclose : ∃ rest, t.rest = ')' :: rest
      · obtain ⟨rest, hrest⟩ := hclose
        have hrest' : (t.within r d names₀).rest = ')' :: (rest ++ r) := by
          simp [State.within, hrest]
        simp only [hrest, hrest']
        exact .ok (t := { t with rest }) tree h
      · split
        · rename_i rest hrest
          exact absurd ⟨rest, hrest⟩ hclose
        · exact .unfinished (.inl rfl) _
    | @clash tree t name h hname hname₀ e =>
      simp only [bind, Except.bind, pure, Except.pure]
      split
      · rename_i rest hrest
        exact .clash (t := { t with rest }) tree h hname hname₀ e
      · exact .unfinished (.inl rfl) _
    | unfinished he y => exact .unfinished he _
    | error e e' => exact .error _ _

private def readGroup (fuel : Nat) (s : State) (opening : Opening) (rest : List Char) :
    Except Error (Tree × State) :=
  match opening with
  | .directive change =>
    return (.flags change, { s with rest, verbose := verboseAfter s.verbose change })
  | .scope change => do
    let (body, t) ← readBody fuel { s with rest, verbose := verboseAfter s.verbose change }
    return (.scope change body, { t with verbose := s.verbose })
  | .capture name? => do
    let names := match name? with
      | some name => name :: s.names
      | none => s.names
    let (body, t) ← readBody fuel { s with rest, captures := s.captures + 1, names }
    return (.capture (s.captures + 1) body, { t with verbose := s.verbose })

private theorem readElement_group (fuel : Nat) (s : State) : readElement (fuel + 1) '(' s = (do
    let (opening, rest) ← readOpener s
    readGroup fuel s opening rest) := by
  rw [readElement]
  simp only [isRepetition, Char.reduceBEq, Bool.or_self, Bool.false_eq_true, if_false, if_true]
  cases readOpener s with
  | error e => rfl
  | ok p =>
    obtain ⟨opening, rest⟩ := p
    cases opening <;> rfl

section Group

variable {fuel fuel' : Nat} {s : State} {rest : List Char}
  (ih : ∀ s : State, Sure r d names₀ s.names (readBody fuel s)
    (readBody fuel' (s.within r d names₀)))

include ih

private theorem group_within (opening : Opening) : Sure r d names₀ s.names
    (readGroup fuel s opening rest)
    (readGroup fuel' (s.within r d names₀) opening (rest ++ r)) := by
  have hindex : s.captures + d + 1 = s.captures + 1 + d := by omega
  cases opening with
  | directive change =>
    exact .ok (t := { s with rest, verbose := verboseAfter s.verbose change }) _
      (List.suffix_refl _)
  | scope change =>
    have hbody := ih { s with rest, verbose := verboseAfter s.verbose change }
    refine hbody.bind_sure fun body t => ?_
    exact .ok (t := { t with verbose := s.verbose }) _ (List.suffix_refl _)
  | capture name? =>
    cases name? with
    | none =>
      have hbody := ih { s with rest, captures := s.captures + 1 }
      simp only [readGroup, State.within, hindex] at hbody ⊢
      refine hbody.bind_sure fun body t => ?_
      exact .ok (t := { t with verbose := s.verbose }) _ (List.suffix_refl _)
    | some name =>
      have hbody := ih { s with rest, captures := s.captures + 1, names := name :: s.names }
      simp only [readGroup, State.within, hindex, List.cons_append] at hbody ⊢
      refine (hbody.mono (List.suffix_cons name s.names)).bind_sure fun body t => ?_
      exact .ok (t := { t with verbose := s.verbose }) _ (List.suffix_refl _)

private theorem group_clash {name : List Char} (hname : name ∈ names₀) (e : Error) :
    Sure r d names₀ s.names (readGroup fuel s (.capture (some name)) rest) (.error e) := by
  have hbody := ih { s with rest, captures := s.captures + 1, names := name :: s.names }
  have hsuffix := List.suffix_cons name s.names
  simp only [readGroup, bind, Except.bind]
  generalize readBody fuel' _ = y at hbody
  generalize readBody fuel _ = x at hbody ⊢
  cases hbody with
  | @ok tree t h =>
    exact .clash (t := { t with verbose := s.verbose }) _ (hsuffix.trans h)
      (h.subset List.mem_cons_self) hname _
  | @clash tree t name' h hname' hname₀' e' =>
    exact .clash (t := { t with verbose := s.verbose }) _ (hsuffix.trans h) hname' hname₀' _
  | unfinished he y => exact .unfinished he _
  | error e' e'' => exact .error _ _

end Group

private theorem group_nil {fuel : Nat} {s : State} (y : Except Error (Tree × State)) :
    Sure r d names₀ names (readGroup fuel s (.capture none) []) y := by
  rw [readGroup]
  match fuel with
  | 0 | 1 | 2 => exact .unfinished (.inr rfl) _
  | fuel + 3 =>
    have hskip : skip s.verbose [] = [] := by cases s.verbose <;> rfl
    simp only [readBody, readAlternatives, readSequence, hskip, bind, Except.bind, pure, Except.pure]
    exact .unfinished (.inl rfl) _

private theorem element_within (hr : EndsSequence r) {fuel fuel' : Nat} {c : Char} {s : State}
    (ih : ∀ s : State, Sure r d names₀ s.names (readBody fuel s)
      (readBody fuel' (s.within r d names₀))) :
    Within r d names₀ s.names (readElement (fuel + 1) c s)
      (readElement (fuel' + 1) c (s.within r d names₀)) := by
  by_cases hc : c = '('
  · subst hc
    right
    rw [readElement_group, readElement_group]
    rcases readOpener_within hr s d names₀ with hopen | ⟨e, hopen, he⟩ |
      ⟨opening, rest, hopen, -, hsame⟩
    · rw [hopen]
      exact group_nil _
    · rw [hopen]
      rcases he with he | ⟨e', he'⟩
      · exact .unfinished (.inl he) _
      · rw [he']
        exact .error _ _
    · rw [hopen]
      rcases hsame with hsame | ⟨name, hname, rfl, hsame⟩
      · rw [hsame]
        exact group_within ih opening
      · rw [hsame]
        exact group_clash ih hname _
  · rw [readElement, readElement]
    simp only [if_neg hc]
    split
    · exact .inr (.error _ _)
    · have hsimple := (readSimple_extends (v := s.verbose) hr c s.rest).carries
      simp only [State.within]
      have hshift : ∀ tree rest, readSimple s.verbose c s.rest = .ok (tree, rest) →
          tree.shift d = tree := fun tree rest => readSimple_shift d
      generalize readSimple s.verbose c s.rest = x at hsimple hshift ⊢
      generalize readSimple s.verbose c (s.rest ++ r) = y at hsimple ⊢
      cases hsimple with
      | @ok tree rest hlen =>
        have hread : Sure r d names₀ s.names (.ok (tree, { s with rest }))
            (.ok (tree.shift d, State.within { s with rest } r d names₀)) :=
          .ok tree (List.suffix_refl s.names)
        rw [hshift tree rest rfl] at hread
        exact .inr hread
      | ended tree hv y => exact .inl ⟨tree, { s with rest := [] }, rfl, rfl, hv⟩
      | unfinished he y => exact .inr (.unfinished (.inl he) _)
      | error he e' => exact .inr (.error _ _)

private theorem after_within (hr : EndsSequence r) {fuel fuel' : Nat} {element : Tree} {t : State}
    (ih : ∀ s : State, Within r d names₀ s.names (readSequence fuel s)
      (readSequence fuel' (s.within r d names₀))) :
    Within r d names₀ t.names (readAfter fuel element t)
      (readAfter fuel' (element.shift d) (t.within r d names₀)) := by
  have hops := readOperators_carries (v := t.verbose) hr element (Nat.le_refl t.rest.length)
    (show t.rest.length ≤ (t.rest ++ r).length by simp)
  rw [readAfter, readAfter]
  simp only [State.within, readOperators_shift]
  generalize readOperators t.verbose t.rest element t.rest = x at hops ⊢
  generalize readOperators t.verbose (t.rest ++ r) element (t.rest ++ r) = y at hops ⊢
  cases hops with
  | @ok element rest hlen =>
    rcases ih { t with rest } with ⟨more, u, hmore, hrest, hverbose⟩ | hmore
    · left
      refine ⟨element.cons more, u, ?_, hrest, hverbose⟩
      simp [hmore, bind, Except.bind, pure, Except.pure]
    · apply hmore.bind
      intro more u
      have hread : Sure r d names₀ u.names (.ok (element.cons more, u))
          (.ok ((element.cons more).shift d, u.within r d names₀)) :=
        .ok _ (List.suffix_refl u.names)
      rw [Tree.shift_cons] at hread
      exact .inr hread
  | ended element hv y =>
    have hmute : ∀ y, Within r d names₀ t.names (readAfter fuel element { t with rest := [] }) y :=
      after_mute rfl hv
    exact hmute _
  | unfinished he y => exact .inr (.unfinished (.inl he) _)
  | error he e' => exact .inr (.error _ _)

private theorem sequence_within (hr : EndsSequence r) {fuel fuel' : Nat} {s : State}
    (ihelement : ∀ (c : Char) (s : State), Within r d names₀ s.names (readElement fuel c s)
      (readElement fuel' c (s.within r d names₀)))
    (ih : ∀ s : State, Within r d names₀ s.names (readSequence fuel s)
      (readSequence fuel' (s.within r d names₀))) :
    Within r d names₀ s.names (readSequence (fuel + 1) s)
      (readSequence (fuel' + 1) (s.within r d names₀)) := by
  rw [readSequence, readSequence]
  simp only [State.within]
  cases hskip : skip s.verbose s.rest with
  | nil =>
    cases hv : s.verbose with
    | true => exact .inl ⟨.empty, { s with rest := [] }, by simp [hv], rfl, hv⟩
    | false =>
      right
      obtain hrest : s.rest = [] := by simpa [hv, skip] using hskip
      have hread : Sure r d names₀ s.names (.ok (.empty, { s with rest := [] }))
          (.ok (Tree.empty.shift d, State.within { s with rest := [] } r d names₀)) :=
        .ok _ (List.suffix_refl s.names)
      cases r with
      | nil => simpa [hrest, hv, skip, State.within, Tree.shift] using hread
      | cons c r => simpa [hrest, hv, skip, State.within, Tree.shift, hr c rfl] using hread
  | cons c rest =>
    rw [skip_append hskip]
    simp only
    split
    · exact .inr (.ok (t := { s with rest := c :: rest }) .empty (List.suffix_refl _))
    · rcases ihelement c { s with rest } with ⟨element, t, helement, hrest, hverbose⟩ | helement
      · rw [helement]
        exact after_mute hrest hverbose _
      · exact helement.bind fun element t => after_within hr ih

private def readMore (fuel : Nat) (first : Tree) (t : State) : Except Error (Tree × State) :=
  match t.rest with
  | '|' :: rest => do
    let (more, u) ← readAlternatives fuel { t with rest }
    return (.alt first more, u)
  | _ => .ok (first, t)

private theorem readAlternatives_succ (fuel : Nat) (s : State) :
    readAlternatives (fuel + 1) s = readSequence fuel s >>= fun p => readMore fuel p.1 p.2 := rfl

private theorem readMore_none {fuel : Nat} {first : Tree} {t : State}
    (h : t.rest.head? ≠ some '|') : readMore fuel first t = .ok (first, t) := by
  unfold readMore
  split
  · rename_i rest hrest
    exact absurd (by rw [hrest]; rfl) h
  · rfl

private theorem more_within {fuel fuel' : Nat} {first : Tree} {t : State}
    (ih : ∀ s : State, AtBar r (readAlternatives fuel s) ∨ Within r d names₀ s.names
      (readAlternatives fuel s) (readAlternatives fuel' (s.within r d names₀))) :
    (AtBar r (readMore fuel first t) ∨ Mute (readMore fuel first t)) ∨
      Sure r d names₀ t.names (readMore fuel first t)
        (readMore fuel' (first.shift d) (t.within r d names₀)) := by
  by_cases hbar : ∃ rest, t.rest = '|' :: rest
  · obtain ⟨rest, hrest⟩ := hbar
    have hrest' : (t.within r d names₀).rest = '|' :: (rest ++ r) := by
      simp [State.within, hrest]
    simp only [readMore, hrest, hrest', or_assoc]
    rcases ih { t with rest } with ⟨hhead, more, u, hmore, hend⟩ |
      ⟨more, u, hmore, hend, hverbose⟩ | hmore
    · refine .inl ⟨hhead, .alt first more, u, ?_, hend⟩
      simp [hmore, bind, Except.bind, pure, Except.pure]
    · refine .inr (.inl ⟨.alt first more, u, ?_, hend, hverbose⟩)
      simp [hmore, bind, Except.bind, pure, Except.pure]
    · right
      apply hmore.bind
      intro more u
      exact .inr (.ok _ (List.suffix_refl _))
  · have hhead : t.rest.head? ≠ some '|' := by
      intro hhead
      exact hbar ⟨t.rest.tail, List.eq_cons_of_mem_head? hhead⟩
    rw [readMore_none hhead]
    by_cases hend : t.rest = [] ∧ r.head? = some '|'
    · exact .inl (.inl ⟨hend.2, first, t, rfl, hend.1⟩)
    · rw [readMore_none]
      · exact .inr (.ok _ (List.suffix_refl _))
      · cases hrest : t.rest with
        | nil => exact fun hr => hend ⟨hrest, by simpa [State.within, hrest] using hr⟩
        | cons c cs => simpa [State.within, hrest] using hhead

private theorem alternatives_within {fuel fuel' : Nat} {s : State}
    (ihsequence : ∀ s : State, Within r d names₀ s.names (readSequence fuel s)
      (readSequence fuel' (s.within r d names₀)))
    (ih : ∀ s : State, AtBar r (readAlternatives fuel s) ∨ Within r d names₀ s.names
      (readAlternatives fuel s) (readAlternatives fuel' (s.within r d names₀))) :
    AtBar r (readAlternatives (fuel + 1) s) ∨ Within r d names₀ s.names
      (readAlternatives (fuel + 1) s) (readAlternatives (fuel' + 1) (s.within r d names₀)) := by
  rw [readAlternatives_succ, readAlternatives_succ, Within, ← or_assoc]
  rcases ihsequence s with ⟨first, t, hfirst, hrest, hverbose⟩ | hfirst
  · left
    right
    refine ⟨first, t, ?_, hrest, hverbose⟩
    rw [hfirst]
    exact readMore_none (by simp [hrest])
  · exact hfirst.bind (P := fun x => AtBar r x ∨ Mute x) fun first t => more_within ih

private theorem readers_within (hr : EndsSequence r) (fuel : Nat) :
    ∀ fuel', fuel ≤ fuel' →
      (∀ s : State, AtBar r (readAlternatives fuel s) ∨ Within r d names₀ s.names
        (readAlternatives fuel s) (readAlternatives fuel' (s.within r d names₀))) ∧
      (∀ s : State, Within r d names₀ s.names (readSequence fuel s)
        (readSequence fuel' (s.within r d names₀))) ∧
      (∀ (c : Char) (s : State), Within r d names₀ s.names (readElement fuel c s)
        (readElement fuel' c (s.within r d names₀))) ∧
      ∀ s : State, Sure r d names₀ s.names (readBody fuel s)
        (readBody fuel' (s.within r d names₀)) := by
  induction fuel with
  | zero =>
    intro fuel' _
    exact ⟨fun _ => .inr (.inr (.unfinished (.inr rfl) _)), fun _ => .inr (.unfinished (.inr rfl) _),
      fun _ _ => .inr (.unfinished (.inr rfl) _), fun _ => .unfinished (.inr rfl) _⟩
  | succ fuel ih =>
    intro fuel' hfuel
    obtain ⟨fuel', rfl⟩ := Nat.exists_eq_add_of_le' (Nat.zero_lt_of_lt hfuel)
    obtain ⟨halternatives, hsequence, helement, hbody⟩ := ih fuel' (by omega)
    exact ⟨fun _ => alternatives_within hsequence halternatives,
      fun _ => sequence_within hr helement hsequence, fun _ _ => element_within hr hbody,
      fun s => body_within (halternatives s)⟩

theorem readSequence_within (hr : EndsSequence r) {fuel fuel' : Nat} (hfuel : fuel ≤ fuel')
    (s : State) (d : Nat) (names₀ : List (List Char)) : Within r d names₀ s.names (readSequence fuel s)
      (readSequence fuel' (s.within r d names₀)) :=
  (readers_within hr fuel fuel' hfuel).2.1 s

/-- Alternatives are read alike where no other alternative follows them. -/
theorem readAlternatives_within (hr : EndsSequence r) (hbar : r.head? ≠ some '|') {fuel fuel' : Nat}
    (hfuel : fuel ≤ fuel') (s : State) (d : Nat) (names₀ : List (List Char)) :
    Within r d names₀ s.names (readAlternatives fuel s)
      (readAlternatives fuel' (s.within r d names₀)) :=
  ((readers_within hr fuel fuel' hfuel).1 s).resolve_left fun h => hbar h.1

/-- Alternatives that are at fault, or do not reach the end of the source, are read alike. -/
theorem readAlternatives_sure (hr : EndsSequence r) {fuel fuel' : Nat} (hfuel : fuel ≤ fuel')
    (s : State) (d : Nat) (names₀ : List (List Char))
    (h : ∀ tree t, readAlternatives fuel s = .ok (tree, t) → t.rest ≠ []) :
    Sure r d names₀ s.names (readAlternatives fuel s)
      (readAlternatives fuel' (s.within r d names₀)) := by
  rcases (readers_within hr fuel fuel' hfuel).1 s with ⟨-, tree, t, hread, hrest⟩ |
    ⟨tree, t, hread, hrest, -⟩ | hsure
  · exact absurd hrest (h tree t hread)
  · exact absurd hrest (h tree t hread)
  · exact hsure

end Readers

end Reader

end PairGrep.Pattern
