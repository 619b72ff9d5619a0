import PairGrep.Proofs.Reading.Group
import PairGrep.Proofs.Search.Classes

/-!
# The trees that are read

No range of a class that is read runs backwards, and verbose mode is off after a source in which no
flag turns it on.
-/

namespace PairGrep.Pattern

theorem bind_eq_ok {α β : Type} {x : Except Error α} {f : α → Except Error β} {b : β} :
    (x >>= f) = .ok b ↔ ∃ a, x = .ok a ∧ f a = .ok b := by
  cases x <;> simp [bind, Except.bind]

theorem exists_of_isOk {α : Type} {x : Except Error α} (h : x.isOk = true) : ∃ a, x = .ok a := by
  cases x with
  | ok a => exact ⟨a, rfl⟩
  | error e => simp [Except.isOk, Except.toBool] at h

@[simp] theorem throw_ne_ok {α : Type} {e : Error} {a : α} :
    (throw e : Except Error α) ≠ .ok a := by
  simp [throw, throwThe, MonadExceptOf.throw]

@[simp] theorem pure_eq_ok {α : Type} {a b : α} : (pure a : Except Error α) = .ok b ↔ a = b := by
  simp [pure, Except.pure]

namespace Tree

/-- No range of a class of the tree runs backwards. -/
def Valid : Tree → Prop
  | .bracket _ inside => inside.Valid
  | .repeated _ _ _ body | .capture _ body | .scope _ body => body.Valid
  | .cat first rest | .alt first rest => first.Valid ∧ rest.Valid
  | _ => True

/-- Does a flag of the tree turn verbose mode on? -/
def turnsVerboseOn : Tree → Bool
  | .flags change => change.contains (.verbose, true)
  | .scope change body => change.contains (.verbose, true) || body.turnsVerboseOn
  | .repeated _ _ _ body | .capture _ body => body.turnsVerboseOn
  | .cat first rest | .alt first rest => first.turnsVerboseOn || rest.turnsVerboseOn
  | _ => false

def isAlt : Tree → Bool
  | .alt _ _ => true
  | _ => false

theorem isAlt_cons {first : Tree} (h : first.isAlt = false) (rest : Tree) :
    (first.cons rest).isAlt = false := by
  cases rest <;> first | exact h | rfl

theorem valid_cons {first rest : Tree} : (first.cons rest).Valid ↔ first.Valid ∧ rest.Valid := by
  cases rest <;> simp [cons, Valid]

theorem turnsVerboseOn_cons (first rest : Tree) :
    (first.cons rest).turnsVerboseOn = (first.turnsVerboseOn || rest.turnsVerboseOn) := by
  cases rest <;> simp [cons, turnsVerboseOn]

end Tree

namespace Reader

variable {v : Bool} {cs rest : List Char}

section Class

variable {item : ClassTree} {items : List ClassTree}

theorem valid_of_toItem {a : Atom} (h : a.toItem = .ok item) : item.Valid := by
  cases a <;> cases h <;> trivial

theorem valid_of_readRange (h : readRange v cs = .ok (item, rest)) : item.Valid := by
  unfold readRange at h
  obtain ⟨⟨first, cs⟩, -, h⟩ := bind_eq_ok.1 h
  simp only at h
  split at h
  · simp at h
  · split at h
    · obtain ⟨item', hitem, h⟩ := bind_eq_ok.1 h
      obtain ⟨rfl, -⟩ := Prod.mk.inj (Except.ok.inj h)
      exact valid_of_toItem hitem
    · split at h
      · simp at h
      · obtain ⟨⟨second, cs⟩, -, h⟩ := bind_eq_ok.1 h
        obtain ⟨lo, -, h⟩ := bind_eq_ok.1 h
        obtain ⟨hi, -, h⟩ := bind_eq_ok.1 h
        split at h
        · cases h
        · rename_i hle
          obtain ⟨rfl, -⟩ := Prod.mk.inj (Except.ok.inj h)
          exact not_lt.1 hle
  · obtain ⟨item', hitem, h⟩ := bind_eq_ok.1 h
    obtain ⟨rfl, -⟩ := Prod.mk.inj (Except.ok.inj h)
    exact valid_of_toItem hitem

theorem valid_of_readAscii? (h : readAscii? cs = some (item, rest)) : item.Valid := by
  unfold readAscii? at h
  split at h
  · simp only at h
    split at h
    · obtain ⟨name, -, h⟩ := Option.map_eq_some_iff.1 h
      obtain ⟨rfl, -⟩ := Prod.mk.inj h
      trivial
    · simp at h
  · simp at h

theorem valid_of_readHyphens {fuel : Nat} (h : readHyphens v fuel cs = .ok (items, rest)) :
    ∀ item ∈ items, item.Valid := by
  induction fuel generalizing cs items with
  | zero =>
    obtain ⟨rfl, -⟩ := Prod.mk.inj (Except.ok.inj h)
    simp
  | succ fuel ih =>
    unfold readHyphens at h
    split at h
    · rename_i heq
      obtain rfl := Nat.succ.inj heq
      split at h
      · simp at h
      · obtain ⟨⟨more, cs⟩, hmore, h⟩ := bind_eq_ok.1 h
        obtain ⟨rfl, rfl⟩ := Prod.mk.inj (Except.ok.inj h)
        intro item hitem
        rcases List.mem_cons.1 hitem with rfl | hitem
        · trivial
        · exact ih hmore item hitem
    · obtain ⟨rfl, -⟩ := Prod.mk.inj (Except.ok.inj h)
      simp

private theorem valid_of_readFirst {negated negated' : Bool}
    (h : readFirst v negated cs = .ok (negated', items, rest)) : ∀ item ∈ items, item.Valid := by
  unfold readFirst at h
  split at h
  · cases h
  · obtain ⟨⟨first, after⟩, hfirst, h⟩ := bind_eq_ok.1 h
    have hvalid := valid_of_readHyphens hfirst
    simp only at h
    split at h
    · split at h
      · simp at h
      · cases h
        simp [ClassTree.Valid]
    · cases h
      exact hvalid

theorem valid_of_readOpening {negated : Bool} (h : readOpening v cs = .ok (negated, items, rest)) :
    ∀ item ∈ items, item.Valid := by
  rw [readOpening_eq] at h
  split at h <;> exact valid_of_readFirst h

theorem valid_unionOf (h : ∀ item ∈ items, item.Valid) : (unionOf items).Valid := by
  induction items with
  | nil => trivial
  | cons item items ih =>
    cases items with
    | nil => exact h item List.mem_cons_self
    | cons next items =>
      exact ⟨h item List.mem_cons_self, ih fun x hx => h x (List.mem_cons_of_mem item hx)⟩

theorem valid_close {pending : Pending} (hpending : ∀ p ∈ pending, p.2.Valid)
    (h : ∀ item ∈ items, item.Valid) : (pending.close items).Valid := by
  have hitems : (unionOf items.reverse).Valid :=
    valid_unionOf fun item hitem => h item (List.mem_reverse.1 hitem)
  cases pending with
  | none => exact hitems
  | some p => exact ⟨hpending p rfl, hitems⟩

private theorem valid_of_readClass_readInside (fuel : Nat) :
    (∀ cs tree rest, readClass v fuel cs = .ok (tree, rest) → tree.Valid) ∧
    ∀ (pending : Pending) items cs tree rest, (∀ p ∈ pending, p.2.Valid) →
      (∀ item ∈ items, item.Valid) → readInside v fuel pending items cs = .ok (tree, rest) →
      tree.Valid := by
  induction fuel with
  | zero => exact ⟨by simp [readClass], by simp [readInside]⟩
  | succ fuel ih =>
    obtain ⟨ihclass, ihinside⟩ := ih
    constructor
    · intro cs tree rest h
      rw [readClass] at h
      obtain ⟨⟨negated, items, cs⟩, hopen, h⟩ := bind_eq_ok.1 h
      obtain ⟨⟨inside, cs⟩, hinside, h⟩ := bind_eq_ok.1 h
      obtain ⟨rfl, -⟩ := Prod.mk.inj (Except.ok.inj h)
      refine ihinside none _ _ inside _ (by simp) ?_ hinside
      intro item hitem
      exact valid_of_readOpening hopen item (List.mem_reverse.1 hitem)
    · intro pending items cs tree rest hpending hitems h
      have hcons : ∀ {item : ClassTree}, item.Valid → ∀ x ∈ item :: items, x.Valid := by
        intro item hitem x hx
        rcases List.mem_cons.1 hx with rfl | hx
        · exact hitem
        · exact hitems x hx
      cases hskip : skip v cs with
      | nil =>
        rw [readInside, hskip] at h
        simp at h
      | cons c more =>
        rw [readInside_succ fuel pending items hskip] at h
        split at h
        · obtain ⟨rfl, -⟩ := Prod.mk.inj (Except.ok.inj h)
          exact valid_close hpending hitems
        · split at h
          · refine ihinside _ _ _ _ _ ?_ (by simp) h
            simpa using valid_close hpending hitems
          · split at h
            · split at h
              · rename_i hascii
                exact ihinside _ _ _ _ _ hpending (hcons (valid_of_readAscii? hascii)) h
              · obtain ⟨⟨item, cs⟩, hitem, h⟩ := bind_eq_ok.1 h
                exact ihinside _ _ _ _ _ hpending (hcons (ihclass _ _ _ hitem)) h
            · obtain ⟨⟨item, cs⟩, hitem, h⟩ := bind_eq_ok.1 h
              exact ihinside _ _ _ _ _ hpending (hcons (valid_of_readRange hitem)) h

theorem valid_of_readClass {fuel : Nat} {tree : ClassTree}
    (h : readClass v fuel cs = .ok (tree, rest)) : tree.Valid :=
  (valid_of_readClass_readInside fuel).1 _ _ _ h

end Class

section Element

variable {tree body : Tree}

theorem regular_of_readSimple {c : Char} (h : readSimple v c cs = .ok (tree, rest)) :
    tree.Valid ∧ tree.isAlt = false := by
  unfold readSimple at h
  split at h
  · obtain ⟨⟨inside, after⟩, hinside, h⟩ := bind_eq_ok.1 h
    have hvalid := valid_of_readClass hinside
    cases inside <;> cases h <;> exact ⟨hvalid, rfl⟩
  · obtain ⟨⟨atom, after⟩, -, h⟩ := bind_eq_ok.1 h
    cases atom <;> cases h <;> exact ⟨trivial, rfl⟩
  all_goals
    cases h
    exact ⟨trivial, rfl⟩

theorem regular_of_readOperator {c : Char} (h : readOperator v body c cs = .ok (tree, rest)) :
    (tree.Valid ↔ body.Valid) ∧ tree.turnsVerboseOn = body.turnsVerboseOn ∧
      tree.isAlt = false := by
  unfold readOperator at h
  split at h
  · split at h
    · obtain ⟨⟨bounds, after⟩, -, h⟩ := bind_eq_ok.1 h
      simp only at h
      split at h
      · cases h
      · cases h
        exact ⟨Iff.rfl, rfl, rfl⟩
    · cases h
      exact ⟨Iff.rfl, rfl, rfl⟩
  · simp at h

theorem regular_of_readOperators {fuel : List Char}
    (h : readOperators v fuel body cs = .ok (tree, rest)) :
    (tree.Valid ↔ body.Valid) ∧ tree.turnsVerboseOn = body.turnsVerboseOn ∧
      (body.isAlt = false → tree.isAlt = false) := by
  induction fuel generalizing body cs with
  | nil =>
    cases h
    exact ⟨Iff.rfl, rfl, id⟩
  | cons _ fuel ih =>
    unfold readOperators at h
    split at h
    · cases h
      exact ⟨Iff.rfl, rfl, id⟩
    · split at h
      · obtain ⟨⟨next, after⟩, hnext, h⟩ := bind_eq_ok.1 h
        obtain ⟨hvalid, hverbose, halt⟩ := regular_of_readOperator hnext
        obtain ⟨hvalid', hverbose', halt'⟩ := ih h
        exact ⟨hvalid'.trans hvalid, hverbose'.trans hverbose, fun _ => halt' halt⟩
      · cases h
        exact ⟨Iff.rfl, rfl, id⟩

theorem verboseAfter_eq_true {change : FlagChange} (h : verboseAfter v change = true) :
    v = true ∨ change.contains (.verbose, true) = true := by
  unfold verboseAfter at h
  cases hlookup : change.lookup .verbose with
  | none => exact .inl (by simpa [hlookup] using h)
  | some value =>
    obtain rfl : value = true := by simpa [hlookup] using h
    right
    induction change with
    | nil => simp at hlookup
    | cons p change ih =>
      obtain ⟨flag, on⟩ := p
      rw [List.lookup_cons] at hlookup
      split at hlookup
      · rename_i hflag
        simp_all
      · have hmem := ih (by simp [hlookup]) hlookup
        simp_all

/-- What is read gives a tree whose ranges do not run backwards, and turns verbose mode on only by
a flag of the tree. -/
private def Regular (s : State) (x : Except Error (Tree × State)) : Prop :=
  ∀ tree t, x = .ok (tree, t) →
    tree.Valid ∧ (t.verbose = true → s.verbose = true ∨ tree.turnsVerboseOn = true)

private theorem element_regular {fuel : Nat} (c : Char) (s : State)
    (ih : ∀ s, Regular s (readBody fuel s)) : Regular s (readElement (fuel + 1) c s) := by
  intro tree t h
  rw [readElement] at h
  split at h
  · simp at h
  · split at h
    · obtain ⟨⟨opening, rest⟩, -, h⟩ := bind_eq_ok.1 h
      simp only at h
      split at h
      · cases h
        exact ⟨trivial, verboseAfter_eq_true⟩
      · obtain ⟨⟨body, u⟩, hbody, h⟩ := bind_eq_ok.1 h
        cases h
        exact ⟨(ih _ _ _ hbody).1, .inl⟩
      · obtain ⟨⟨body, u⟩, hbody, h⟩ := bind_eq_ok.1 h
        cases h
        exact ⟨(ih _ _ _ hbody).1, .inl⟩
    · obtain ⟨⟨simple, rest⟩, hsimple, h⟩ := bind_eq_ok.1 h
      cases h
      exact ⟨(regular_of_readSimple hsimple).1, .inl⟩

private theorem sequence_regular {fuel : Nat} (s : State)
    (ihelement : ∀ c s, Regular s (readElement fuel c s))
    (ih : ∀ s, Regular s (readSequence fuel s)) : Regular s (readSequence (fuel + 1) s) := by
  intro tree t h
  rw [readSequence] at h
  split at h
  · cases h
    exact ⟨trivial, .inl⟩
  · split at h
    · cases h
      exact ⟨trivial, .inl⟩
    · obtain ⟨⟨element, u⟩, helement, h⟩ := bind_eq_ok.1 h
      obtain ⟨⟨body, rest⟩, hbody, h⟩ := bind_eq_ok.1 h
      obtain ⟨⟨more, w⟩, hmore, h⟩ := bind_eq_ok.1 h
      cases h
      obtain ⟨hvalid, hverbose⟩ := ihelement _ _ _ _ helement
      obtain ⟨hbodyValid, hbodyVerbose, -⟩ := regular_of_readOperators hbody
      obtain ⟨hmoreValid, hmoreVerbose⟩ := ih _ _ _ hmore
      refine ⟨Tree.valid_cons.2 ⟨hbodyValid.2 hvalid, hmoreValid⟩, ?_⟩
      intro hw
      rw [Tree.turnsVerboseOn_cons, Bool.or_eq_true, hbodyVerbose, ← or_assoc]
      exact (hmoreVerbose hw).imp hverbose id

private theorem alternatives_regular {fuel : Nat} (s : State)
    (ihsequence : ∀ s, Regular s (readSequence fuel s))
    (ih : ∀ s, Regular s (readAlternatives fuel s)) :
    Regular s (readAlternatives (fuel + 1) s) := by
  intro tree t h
  rw [readAlternatives] at h
  obtain ⟨⟨first, u⟩, hfirst, h⟩ := bind_eq_ok.1 h
  obtain ⟨hvalid, hverbose⟩ := ihsequence _ _ _ hfirst
  simp only at h
  split at h
  · obtain ⟨⟨more, w⟩, hmore, h⟩ := bind_eq_ok.1 h
    cases h
    obtain ⟨hmoreValid, hmoreVerbose⟩ := ih _ _ _ hmore
    refine ⟨⟨hvalid, hmoreValid⟩, ?_⟩
    intro hw
    rw [Tree.turnsVerboseOn, Bool.or_eq_true, ← or_assoc]
    exact (hmoreVerbose hw).imp hverbose id
  · cases h
    exact ⟨hvalid, hverbose⟩

private theorem body_regular {fuel : Nat} (s : State)
    (ih : ∀ s, Regular s (readAlternatives fuel s)) : Regular s (readBody (fuel + 1) s) := by
  intro tree t h
  rw [readBody] at h
  obtain ⟨⟨body, u⟩, hbody, h⟩ := bind_eq_ok.1 h
  simp only at h
  split at h
  · cases h
    exact ih s _ u hbody
  · simp at h

private theorem readers_regular (fuel : Nat) :
    (∀ s, Regular s (readAlternatives fuel s)) ∧ (∀ s, Regular s (readSequence fuel s)) ∧
      (∀ c s, Regular s (readElement fuel c s)) ∧ ∀ s, Regular s (readBody fuel s) := by
  induction fuel with
  | zero =>
    refine ⟨?_, ?_, ?_, ?_⟩
    all_goals
      intros
      intro tree t h
      cases h
  | succ fuel ih =>
    obtain ⟨halternatives, hsequence, helement, hbody⟩ := ih
    exact ⟨fun s => alternatives_regular s hsequence halternatives,
      fun s => sequence_regular s helement hsequence, fun c s => element_regular c s hbody,
      fun s => body_regular s halternatives⟩

theorem valid_of_readAlternatives {fuel : Nat} {s t : State}
    (h : readAlternatives fuel s = .ok (tree, t)) : tree.Valid :=
  ((readers_regular fuel).1 s tree t h).1

theorem verbose_of_readAlternatives {fuel : Nat} {s t : State}
    (h : readAlternatives fuel s = .ok (tree, t)) (hs : s.verbose = false)
    (htree : tree.turnsVerboseOn = false) : t.verbose = false := by
  have hverbose := ((readers_regular fuel).1 s tree t h).2
  rw [hs, htree] at hverbose
  simpa using hverbose

theorem isAlt_of_readElement {fuel : Nat} {c : Char} {s t : State}
    (h : readElement fuel c s = .ok (tree, t)) : tree.isAlt = false := by
  cases fuel with
  | zero => cases h
  | succ fuel =>
    rw [readElement] at h
    split at h
    · simp at h
    · split at h
      · obtain ⟨⟨opening, rest⟩, -, h⟩ := bind_eq_ok.1 h
        simp only at h
        split at h
        · cases h
          rfl
        · obtain ⟨⟨body, u⟩, -, h⟩ := bind_eq_ok.1 h
          cases h
          rfl
        · obtain ⟨⟨body, u⟩, -, h⟩ := bind_eq_ok.1 h
          cases h
          rfl
      · obtain ⟨⟨simple, rest⟩, hsimple, h⟩ := bind_eq_ok.1 h
        cases h
        exact (regular_of_readSimple hsimple).2

theorem isAlt_of_readSequence {fuel : Nat} {s t : State}
    (h : readSequence fuel s = .ok (tree, t)) : tree.isAlt = false := by
  cases fuel with
  | zero => cases h
  | succ fuel =>
    rw [readSequence] at h
    split at h
    · cases h
      rfl
    · split at h
      · cases h
        rfl
      · obtain ⟨⟨element, u⟩, helement, h⟩ := bind_eq_ok.1 h
        obtain ⟨⟨body, rest⟩, hbody, h⟩ := bind_eq_ok.1 h
        obtain ⟨⟨more, w⟩, -, h⟩ := bind_eq_ok.1 h
        cases h
        obtain ⟨-, -, halt⟩ := regular_of_readOperators hbody
        exact Tree.isAlt_cons (halt (isAlt_of_readElement helement)) more

end Element

end Reader

end PairGrep.Pattern
