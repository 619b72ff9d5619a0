import PairGrep.Proofs.Reading.Class

/-!
# Reading operators and openings in front of more text

Flags, names of captures, bounds of repetitions and the operators after an element, read of a source
alone and of a longer one. An operator that is read up to the end of the source in verbose mode may
turn out otherwise in the longer source, since what follows a comment may belong to it.
-/

namespace PairGrep.Pattern.Reader

variable {r cs cs' : List Char} {v : Bool} {n : Nat}

section Flags

theorem readFlags_append {sofar : FlagChange} {negated dangling : Bool} (r : List Char)
    (h : readFlags sofar negated dangling cs ≠ .error .flagUnfinished) :
    readFlags sofar negated dangling (cs ++ r) =
      (readFlags sofar negated dangling cs).map fun p => (p.1, p.2.1, p.2.2 ++ r) := by
  induction cs generalizing sofar negated dangling with
  | nil => exact absurd rfl h
  | cons c cs ih =>
    rw [readFlags] at h
    rw [List.cons_append, readFlags, readFlags]
    by_cases hend : c = ')' ∨ c = ':'
    · simp only [if_pos hend]
      split <;> rfl
    · simp only [if_neg hend] at h ⊢
      by_cases hneg : c = '-'
      · simp only [if_pos hneg] at h ⊢
        by_cases hn : negated = true
        · simp only [if_pos hn]
          rfl
        · simp only [if_neg hn] at h ⊢
          exact ih h
      · simp only [if_neg hneg] at h ⊢
        cases hflag : flagOf? c with
        | none => rfl
        | some flag =>
          simp only [hflag] at h ⊢
          by_cases hany : sofar.any (·.1 == flag) = true
          · simp only [if_pos hany]
            rfl
          · simp only [if_neg hany] at h ⊢
            exact ih h

theorem length_readFlags {sofar change : FlagChange} {negated dangling : Bool} {ending : FlagEnd}
    {rest : List Char} (h : readFlags sofar negated dangling cs = .ok (change, ending, rest)) :
    rest.length < cs.length := by
  induction cs generalizing sofar negated dangling with
  | nil => simp [readFlags] at h
  | cons c cs ih =>
    rw [readFlags] at h
    split at h
    · split at h
      · simp at h
      · obtain ⟨-, h⟩ := Prod.mk.inj (Except.ok.inj h)
        obtain ⟨-, rfl⟩ := Prod.mk.inj h
        exact Nat.lt_succ_self _
    · split at h
      · split at h
        · simp at h
        · exact (ih h).trans (Nat.lt_succ_self _)
      · split at h
        · simp at h
        · split at h
          · simp at h
          · exact (ih h).trans (Nat.lt_succ_self _)

end Flags

section Names

theorem readNameChars_append {first : Bool} (r : List Char)
    (h : readNameChars first cs ≠ .error .nameUnclosed) :
    readNameChars first (cs ++ r) =
      (readNameChars first cs).map fun p => (p.1, p.2 ++ r) := by
  induction cs generalizing first with
  | nil => exact absurd rfl h
  | cons c cs ih =>
    by_cases hc : c = '>'
    · subst hc
      rfl
    · have hread : ∀ cs, readNameChars first (c :: cs) = if isNameChar first c then
          (readNameChars false cs).map fun p => (c :: p.1, p.2) else .error .nameCharacter := by
        intro cs
        rw [readNameChars]
        · cases readNameChars false cs <;> rfl
        · exact hc
      rw [List.cons_append, hread, hread]
      rw [hread] at h
      split
      · rename_i hname
        rw [if_pos hname] at h
        have hne : readNameChars false cs ≠ .error .nameUnclosed := by
          intro heq
          rw [heq] at h
          exact h rfl
        rw [ih hne]
        cases readNameChars false cs <;> rfl
      · rfl

theorem length_readNameChars {first : Bool} {name rest : List Char}
    (h : readNameChars first cs = .ok (name, rest)) : rest.length < cs.length := by
  induction cs generalizing first name with
  | nil => simp [readNameChars] at h
  | cons c cs ih =>
    unfold readNameChars at h
    split at h
    · rename_i heq
      simp at heq
    · rename_i heq
      obtain ⟨-, rfl⟩ := List.cons.inj heq
      obtain ⟨-, rfl⟩ := Prod.mk.inj (Except.ok.inj h)
      exact Nat.lt_succ_self _
    · rename_i heq
      obtain ⟨rfl, rfl⟩ := List.cons.inj heq
      split at h
      · cases hread : readNameChars false cs with
        | error e => simp [hread, bind, Except.bind] at h
        | ok p =>
          obtain ⟨more, after⟩ := p
          simp only [hread, bind, Except.bind, pure, Except.pure] at h
          obtain ⟨-, rfl⟩ := Prod.mk.inj (Except.ok.inj h)
          exact (ih hread).trans (Nat.lt_succ_self _)
      · simp at h

theorem readName_append (names names₀ : List (List Char)) (cs r : List Char) :
    (∃ e, readName names cs = .error e ∧
      (e.isOpen = true ∨ ∃ e', readName (names ++ names₀) (cs ++ r) = .error e')) ∨
    ∃ name rest, readName names cs = .ok (name, rest) ∧ rest.length < cs.length ∧
      (readName (names ++ names₀) (cs ++ r) = .ok (name, rest ++ r) ∨
        name ∈ names₀ ∧ readName (names ++ names₀) (cs ++ r) = .error .nameDuplicate) := by
  unfold readName
  cases hread : readNameChars true cs with
  | error e =>
    left
    refine ⟨e, rfl, ?_⟩
    by_cases he : e = .nameUnclosed
    · subst he
      exact .inl rfl
    · right
      have hne : readNameChars true cs ≠ .error .nameUnclosed := by simpa [hread] using he
      have happend := readNameChars_append r hne
      rw [happend, hread]
      exact ⟨e, rfl⟩
  | ok p =>
    obtain ⟨name, rest⟩ := p
    have hne : readNameChars true cs ≠ .error .nameUnclosed := by simp [hread]
    have happend := readNameChars_append r hne
    have hlen := length_readNameChars hread
    rw [happend, hread]
    simp only [Except.map, bind, Except.bind]
    by_cases hname : name = []
    · simp only [hname, if_true]
      exact .inl ⟨_, rfl, .inr ⟨_, rfl⟩⟩
    · simp only [hname, if_false]
      by_cases hmem : name ∈ names
      · have hold : names.contains name = true := by simpa using hmem
        have hold' : (names ++ names₀).contains name = true := by simp [hmem]
        simp only [hold, hold', if_true]
        exact .inl ⟨_, rfl, .inr ⟨_, rfl⟩⟩
      · right
        have hnew : ¬names.contains name = true := by simpa using hmem
        simp only [if_neg hnew]
        by_cases hmem₀ : name ∈ names₀
        · have hold : (names ++ names₀).contains name = true := by simp [hmem₀]
          simp only [hold, if_true]
          exact ⟨name, rest, rfl, hlen, .inr ⟨hmem₀, rfl⟩⟩
        · have hnew' : ¬(names ++ names₀).contains name = true := by simp [hmem, hmem₀]
          simp only [if_neg hnew']
          exact ⟨name, rest, rfl, hlen, .inl rfl⟩

end Names

section Opener

/-- The state in the longer source, before which captures have been opened and named. -/
def State.within (s : State) (r : List Char) (d : Nat) (names₀ : List (List Char)) : State :=
  ⟨s.rest ++ r, s.verbose, s.captures + d, s.names ++ names₀⟩

private def readChange (cs : List Char) : Except Error (Opening × List Char) := do
  let (change, ending, cs) ← readFlags [] false false cs
  match ending with
  | .scope => return (.scope change, cs)
  | .directive =>
    if change = [] then throw .operandMissing
    return (.directive change, cs)

private theorem readChange_append (cs r : List Char) :
    (∃ e, readChange cs = .error e ∧
      (e.isOpen = true ∨ ∃ e', readChange (cs ++ r) = .error e')) ∨
    ∃ opening rest, readChange cs = .ok (opening, rest) ∧ rest.length < cs.length ∧
      readChange (cs ++ r) = .ok (opening, rest ++ r) := by
  unfold readChange
  cases hread : readFlags [] false false cs with
  | error e =>
    left
    refine ⟨e, rfl, ?_⟩
    by_cases he : e = .flagUnfinished
    · subst he
      exact .inl rfl
    · right
      rw [readFlags_append r (by simpa [hread] using he), hread]
      exact ⟨e, rfl⟩
  | ok p =>
    obtain ⟨change, ending, rest⟩ := p
    have hlen := length_readFlags hread
    rw [readFlags_append r (by simp [hread]), hread]
    simp only [Except.map, bind, Except.bind]
    cases ending with
    | scope => exact .inr ⟨.scope change, rest, rfl, hlen, rfl⟩
    | directive =>
      by_cases hchange : change = []
      · simp only [hchange, if_true]
        exact .inl ⟨_, rfl, .inr ⟨_, rfl⟩⟩
      · simp only [hchange, if_false]
        exact .inr ⟨.directive change, rest, rfl, hlen, rfl⟩

private def readGroupStart (names : List (List Char)) (cs : List Char) :
    Except Error (Opening × List Char) :=
  match cs with
  | '?' :: '=' :: _ | '?' :: '!' :: _ | '?' :: '<' :: '=' :: _ | '?' :: '<' :: '!' :: _ =>
    .error .lookAround
  | '?' :: 'P' :: '<' :: rest | '?' :: '<' :: rest => do
    let (name, cs) ← readName names rest
    return (.capture (some name), cs)
  | ['?'] => .error .groupUnclosed
  | '?' :: rest => readChange rest
  | cs => .ok (.capture none, cs)

private theorem readOpener_eq (s : State) :
    readOpener s = readGroupStart s.names (skip s.verbose s.rest) := rfl

/-- The two starts of a group: it is not finished in the source, it is faulty, or it is the same in
the longer source, if its name is not known there from before. -/
private def SameStart (r : List Char) (n : Nat) (names₀ : List (List Char))
    (x y : Except Error (Opening × List Char)) : Prop :=
  (∃ e, x = .error e ∧ (e.isOpen = true ∨ ∃ e', y = .error e')) ∨
  ∃ opening rest, x = .ok (opening, rest) ∧ rest.length ≤ n ∧
    (y = .ok (opening, rest ++ r) ∨
      ∃ name ∈ names₀, opening = .capture (some name) ∧ y = .error .nameDuplicate)

private theorem sameStart_name {names names₀ : List (List Char)} (hle : cs.length ≤ n) :
    SameStart r n names₀
      (do
        let (name, cs) ← readName names cs
        return (.capture (some name), cs))
      (do
        let (name, cs) ← readName (names ++ names₀) (cs ++ r)
        return (.capture (some name), cs)) := by
  rcases readName_append names names₀ cs r with
    ⟨e, hread, he⟩ | ⟨name, rest, hread, hlen, hread'⟩
  · left
    refine ⟨e, by rw [hread]; rfl, he.imp id ?_⟩
    rintro ⟨e', he'⟩
    exact ⟨e', by rw [he']; rfl⟩
  · right
    refine ⟨_, rest, by rw [hread]; rfl, hlen.le.trans hle, ?_⟩
    rcases hread' with hread' | ⟨hmem, hread'⟩
    · exact .inl (by rw [hread']; rfl)
    · exact .inr ⟨name, hmem, rfl, by rw [hread']; rfl⟩

private theorem sameStart_change {names₀ : List (List Char)} (cs : List Char)
    (hle : cs.length ≤ n) :
    SameStart r n names₀ (readChange cs) (readChange (cs ++ r)) := by
  rcases readChange_append cs r with h | ⟨opening, rest, hread, hlen, hread'⟩
  · exact .inl h
  · exact .inr ⟨opening, rest, hread, hlen.le.trans hle, .inl hread'⟩

private theorem sameStart_lookAround {names₀ : List (List Char)} :
    SameStart r n names₀ (.error .lookAround) (.error .lookAround) :=
  .inl ⟨_, rfl, .inr ⟨_, rfl⟩⟩

private theorem readGroupStart_change {a : Char} (names : List (List Char)) (hlook : a ≠ '=')
    (hlook' : a ≠ '!') (hangle : a ≠ '<') (hname : a = 'P' → cs.head? ≠ some '<') :
    readGroupStart names ('?' :: a :: cs) = readChange (a :: cs) := by
  unfold readGroupStart
  split
  · rename_i heq
    simp only [List.cons.injEq] at heq
    exact absurd heq.2.1 hlook
  · rename_i heq
    simp only [List.cons.injEq] at heq
    exact absurd heq.2.1 hlook'
  · rename_i heq
    simp only [List.cons.injEq] at heq
    exact absurd heq.2.1 hangle
  · rename_i heq
    simp only [List.cons.injEq] at heq
    exact absurd heq.2.1 hangle
  · rename_i heq
    simp only [List.cons.injEq] at heq
    exact absurd (by rw [heq.2.2]; rfl) (hname heq.2.1)
  · rename_i heq
    simp only [List.cons.injEq] at heq
    exact absurd heq.2.1 hangle
  · rename_i heq
    simp at heq
  · rename_i heq
    rw [(List.cons.inj heq).2]
  · rename_i hnot
    exact absurd rfl (hnot (a :: cs))

private theorem readGroupStart_angle (names names₀ : List (List Char)) (hle : cs.length ≤ n) :
    SameStart r n names₀ (readGroupStart names ('?' :: '<' :: cs))
      (readGroupStart (names ++ names₀) ('?' :: '<' :: (cs ++ r))) := by
  cases cs with
  | nil => exact .inl ⟨.nameUnclosed, rfl, .inl rfl⟩
  | cons b cs =>
    by_cases hb : b = '=' ∨ b = '!'
    · rcases hb with rfl | rfl <;> exact sameStart_lookAround
    · simp only [not_or] at hb
      have hread : ∀ names cs, readGroupStart names ('?' :: '<' :: b :: cs) = (do
          let (name, cs) ← readName names (b :: cs)
          return (.capture (some name), cs)) := by
        intro names cs
        simp [readGroupStart, hb]
      rw [List.cons_append, hread, hread]
      exact sameStart_name hle

private theorem readGroupStart_append (hr : EndsSequence r) (names names₀ : List (List Char))
    (hne : cs ≠ []) :
    SameStart r cs.length names₀ (readGroupStart names cs)
      (readGroupStart (names ++ names₀) (cs ++ r)) := by
  obtain ⟨c, cs, rfl⟩ := List.exists_cons_of_ne_nil hne
  by_cases hc : c = '?'
  · subst hc
    cases cs with
    | nil => exact .inl ⟨.groupUnclosed, rfl, .inl rfl⟩
    | cons a cs =>
      have hle : cs.length ≤ ('?' :: a :: cs).length := by simp; omega
      by_cases hlook : a = '=' ∨ a = '!'
      · rcases hlook with rfl | rfl <;> exact sameStart_lookAround
      · obtain ⟨hlook, hlook'⟩ := not_or.1 hlook
        by_cases hangle : a = '<'
        · subst hangle
          exact readGroupStart_angle names names₀ hle
        · by_cases hname : a = 'P' ∧ cs.head? = some '<'
          · obtain ⟨rfl, hhead⟩ := hname
            obtain ⟨cs, rfl⟩ : ∃ more, cs = '<' :: more := ⟨_, List.eq_cons_of_mem_head? hhead⟩
            exact sameStart_name (by simp; omega)
          · have hP : a = 'P' → cs.head? ≠ some '<' := fun ha hhead => hname ⟨ha, hhead⟩
            have hP' : a = 'P' → (cs ++ r).head? ≠ some '<' := by
              intro ha
              cases cs with
              | nil =>
                intro hhead
                rcases hr '<' hhead with h | h <;> exact absurd h (by decide)
              | cons b cs => exact hP ha
            rw [List.cons_append, List.cons_append, readGroupStart_change _ hlook hlook' hangle hP,
              readGroupStart_change _ hlook hlook' hangle hP']
            exact sameStart_change (a :: cs) (by simp)
  · have hread : ∀ names cs, readGroupStart names (c :: cs) = .ok (.capture none, c :: cs) := by
      intro names cs
      simp [readGroupStart, hc]
    rw [List.cons_append, hread, hread]
    exact .inr ⟨_, _, rfl, Nat.le_refl _, .inl rfl⟩

/-- The start of a group that is not finished in the source, that is faulty, or that opens the same
group in the longer source, if its name is not known there from before. -/
theorem readOpener_within (hr : EndsSequence r) (s : State) (d : Nat) (names₀ : List (List Char)) :
    readOpener s = .ok (.capture none, []) ∨
    (∃ e, readOpener s = .error e ∧
      (e.isOpen = true ∨ ∃ e', readOpener (s.within r d names₀) = .error e')) ∨
    ∃ opening rest, readOpener s = .ok (opening, rest) ∧ rest.length ≤ s.rest.length ∧
      (readOpener (s.within r d names₀) = .ok (opening, rest ++ r) ∨
        ∃ name ∈ names₀, opening = .capture (some name) ∧
          readOpener (s.within r d names₀) = .error .nameDuplicate) := by
  rw [readOpener_eq, readOpener_eq]
  cases hskip : skip s.verbose s.rest with
  | nil => exact .inl rfl
  | cons c cs =>
    right
    have hle := length_skip s.verbose s.rest
    rw [hskip] at hle
    have hstart := readGroupStart_append hr s.names names₀ (List.cons_ne_nil c cs)
    simp only [State.within, skip_append hskip]
    rw [List.cons_append] at hstart
    refine hstart.imp id ?_
    rintro ⟨opening, rest, hread, hlen, hread'⟩
    exact ⟨opening, rest, hread, hlen.trans hle, hread'⟩

end Opener

section Bounds

private theorem not_isDigit_of_ends (hr : EndsSequence r) :
    ∀ c, r.head? = some c → isDigit c = false := by
  intro c hc
  rcases hr c hc with rfl | rfl <;> rfl

private theorem not_isBlank_of_ends (hr : EndsSequence r) :
    ∀ c, r.head? = some c → isBlank c = false := by
  intro c hc
  rcases hr c hc with rfl | rfl <;> decide

theorem readCount_go_beside (hr : EndsSequence r) {fuel fuel' : Nat} (hfuel : cs.length < fuel)
    (hfuel' : fuel ≤ fuel') (h : Beside r v cs cs') {ds rest : List Char}
    (hread : readCount.go v fuel cs = (ds, rest)) :
    rest.length ≤ cs.length ∧ ∃ more rest', readCount.go v fuel' cs' = (ds ++ more, rest') ∧
      Beside r v rest rest' ∧ (rest ≠ [] ∨ v = false → more = []) := by
  induction fuel generalizing cs cs' ds fuel' with
  | zero => omega
  | succ fuel ih =>
    obtain ⟨fuel', rfl⟩ := Nat.exists_eq_add_of_le' (Nat.zero_lt_of_lt hfuel')
    cases cs with
    | nil =>
      obtain ⟨rfl, rfl⟩ := Prod.mk.inj hread
      refine ⟨Nat.le_refl _, _, _, rfl, ?_, ?_⟩
      · intro hv
        rw [h hv]
        cases r with
        | nil => rfl
        | cons c r => simp [readCount.go, not_isDigit_of_ends hr c rfl]
      · intro hv
        rw [h hv]
        cases r with
        | nil => rfl
        | cons c r => simp [readCount.go, not_isDigit_of_ends hr c rfl]
    | cons c cs =>
      rw [List.length_cons] at hfuel
      rw [h.of_cons, readCount.go]
      rw [readCount.go] at hread
      by_cases hc : isDigit c = true
      · rw [if_pos hc] at hread ⊢
        have hle := length_skip v cs
        cases hgo : readCount.go v fuel (skip v cs) with
        | mk ds' rest =>
          rw [hgo] at hread
          obtain ⟨rfl, rfl⟩ := Prod.mk.inj hread
          obtain ⟨hlen, more, rest', hgo', hrest, hmore⟩ :=
            ih (by omega) (show fuel ≤ fuel' by omega) skip_beside hgo
          refine ⟨hlen.trans (hle.trans (Nat.le_succ _)), more, rest', ?_, hrest, hmore⟩
          simp only [hgo', List.cons_append]
      · rw [if_neg hc] at hread ⊢
        obtain ⟨rfl, rfl⟩ := Prod.mk.inj hread
        exact ⟨Nat.le_refl _, [], _, rfl, .append, fun _ => rfl⟩

theorem readCount_skipAll_beside (hr : EndsSequence r) {fuel fuel' : Nat} (hfuel : cs.length < fuel)
    (hfuel' : fuel ≤ fuel') (h : Beside r v cs cs') :
    (readCount.skipAll v fuel cs).length ≤ cs.length ∧
      Beside r v (readCount.skipAll v fuel cs) (readCount.skipAll v fuel' cs') := by
  induction fuel generalizing cs cs' fuel' with
  | zero => omega
  | succ fuel ih =>
    obtain ⟨fuel', rfl⟩ := Nat.exists_eq_add_of_le' (Nat.zero_lt_of_lt hfuel')
    cases cs with
    | nil =>
      refine ⟨Nat.le_refl _, ?_⟩
      intro hv
      have hv : v = false := hv.resolve_left (by simp [readCount.skipAll])
      rw [h (.inr hv)]
      cases r with
      | nil => rfl
      | cons c r => simp [readCount.skipAll, not_isBlank_of_ends hr c rfl]
    | cons c cs =>
      rw [List.length_cons] at hfuel
      rw [h.of_cons, readCount.skipAll, readCount.skipAll]
      split
      · have hle := length_skip v cs
        obtain ⟨hlen, hrest⟩ := ih (show (skip v cs).length < fuel by omega)
          (show fuel ≤ fuel' by omega) skip_beside
        exact ⟨hlen.trans (hle.trans (Nat.le_succ _)), hrest⟩
      · exact ⟨Nat.le_refl _, .append⟩

private theorem digitsValue_append_le (ds more : List Char) :
    digitsValue ds ≤ digitsValue (ds ++ more) := by
  have hfold : ∀ n : Nat, n ≤ more.foldl (fun n c => n * 10 + (c.toNat - '0'.toNat)) n := by
    induction more with
    | nil => exact fun n => Nat.le_refl n
    | cons c more ih =>
      intro n
      have hc := ih (n * 10 + (c.toNat - '0'.toNat))
      rw [List.foldl_cons]
      omega
  rw [digitsValue, digitsValue, List.foldl_append]
  exact hfold _

private theorem dropWhile_isBlank_ends (hr : EndsSequence r) (cs : List Char) :
    (cs ++ r).dropWhile isBlank = cs.dropWhile isBlank ++ r := by
  rw [List.dropWhile_append]
  split
  · rename_i hnil
    rw [List.isEmpty_iff.mp hnil]
    cases r with
    | nil => rfl
    | cons c r => simp [not_isBlank_of_ends hr c rfl]
  · rfl

private theorem readCount_eq {ds rest : List Char}
    (h : readCount.go v (cs.length + 1) (cs.dropWhile isBlank) = (ds, rest)) :
    readCount v cs =
      (if ds = [] then .error .countMissing
        else if 0x100000000 ≤ digitsValue ds then .error .decimalInvalid else .ok (digitsValue ds),
        readCount.skipAll v (rest.length + 1) rest) := by
  unfold readCount
  simp only [h]
  split
  · rfl
  · split <;> rfl

private theorem readCount_ne_nesting (cs : List Char) :
    (readCount v cs).1 ≠ .error .nestingTooDeep := by
  rw [readCount_eq rfl]
  simp only
  split
  · simp
  · split <;> simp

/-- A number within bounds. It is the same in the longer source, unless it ends with the source in
verbose mode; and a number that is too large stays so. -/
theorem readCount_beside (hr : EndsSequence r) (cs : List Char) :
    (readCount v cs).2.length ≤ cs.length ∧
      Beside r v (readCount v cs).2 (readCount v (cs ++ r)).2 ∧
      ((readCount v cs).2 ≠ [] ∨ v = false → (readCount v (cs ++ r)).1 = (readCount v cs).1) ∧
      ((readCount v cs).1 = .error .decimalInvalid →
        (readCount v (cs ++ r)).1 = .error .decimalInvalid) := by
  have hdrop := (List.dropWhile_suffix isBlank (l := cs)).length_le
  obtain ⟨ds, rest, hgo⟩ : ∃ ds rest,
      readCount.go v (cs.length + 1) (cs.dropWhile isBlank) = (ds, rest) := ⟨_, _, rfl⟩
  obtain ⟨hlen, more, rest', hgo', hrest, hmore⟩ :=
    readCount_go_beside hr (by omega) (show cs.length + 1 ≤ (cs ++ r).length + 1 by simp) .append hgo
  have hfuel : rest.length + 1 ≤ rest'.length + 1 := by
    cases rest with
    | nil => simp
    | cons c rest => rw [hrest.of_cons]; simp
  obtain ⟨hlen', hskip⟩ := readCount_skipAll_beside hr (v := v) (Nat.lt_succ_self _) hfuel hrest
  rw [← dropWhile_isBlank_ends hr] at hgo'
  rw [readCount_eq hgo, readCount_eq hgo']
  refine ⟨hlen'.trans (hlen.trans hdrop), hskip, ?_, ?_⟩
  · intro h
    have hne : rest ≠ [] ∨ v = false := by
      refine h.imp ?_ id
      rintro hskip' rfl
      exact hskip' rfl
    simp [hmore hne]
  · simp only
    intro h
    have hds : ds ≠ [] := by
      rintro rfl
      simp at h
    rw [if_neg hds] at h
    have hvalue := digitsValue_append_le ds more
    split at h
    · rename_i hlarge
      rw [if_neg (by simp [hds]), if_pos (hlarge.trans hvalue)]
    · simp at h

private theorem isBlank_of_skip {c : Char} {rest : List Char} (h : skip true cs = c :: rest) :
    isBlank c = false := by
  have hdrop : ∀ (comment : Bool), dropSpace comment cs = c :: rest → isBlank c = false := by
    clear h
    induction cs with
    | nil => intro comment h; cases comment <;> simp [dropSpace] at h
    | cons a cs ih =>
      intro comment h
      cases comment with
      | true => exact ih _ h
      | false =>
        rw [dropSpace] at h
        split at h
        · exact ih _ h
        · rename_i hblank
          split at h
          · exact ih _ h
          · obtain ⟨rfl, -⟩ := List.cons.inj h
            simpa using hblank
  exact hdrop false h

/-- No count is missing where the source ends in verbose mode behind a character. -/
private theorem readCount_error {c : Char} {e : Error} (rest : List Char)
    (hc : v = true → isBlank c = false) (h : (readCount v (c :: rest)).1 = .error e) :
    e = .decimalInvalid ∨ (readCount v (c :: rest)).2 ≠ [] ∨ v = false := by
  cases v with
  | false => exact .inr (.inr rfl)
  | true =>
    have hblank := hc rfl
    by_cases hdigit : isDigit c = true
    · left
      obtain ⟨ds, after, hgo⟩ : ∃ ds after, readCount.go true ((c :: rest).length + 1)
          ((c :: rest).dropWhile isBlank) = (c :: ds, after) := by
        rw [List.dropWhile_cons_of_neg (by simp [hblank]), readCount.go, if_pos hdigit]
        exact ⟨_, _, rfl⟩
      rw [readCount_eq hgo] at h
      simp only [List.cons_ne_nil, if_false] at h
      split at h
      · simpa using h.symm
      · simp at h
    · right
      left
      have hgo : readCount.go true ((c :: rest).length + 1)
          ((c :: rest).dropWhile isBlank) = ([], c :: rest) := by
        rw [List.dropWhile_cons_of_neg (by simp [hblank]), readCount.go, if_neg hdigit]
      rw [readCount_eq hgo, readCount.skipAll]
      simp [hblank]

private def readUpper (v : Bool) (least : Nat) (cs : List Char) :
    Except Error (Bounds × List Char) := do
  let most ← (readCount v cs).1
  match (readCount v cs).2 with
  | '}' :: rest => return (⟨least, some most⟩, rest)
  | _ => throw .countUnclosed

private theorem readUpper_extends (hr : EndsSequence r) (least : Nat) {c : Char} {rest : List Char}
    (hc : v = true → isBlank c = false) (hlen : (c :: rest).length ≤ n) :
    Extends r v n (readUpper v least (c :: rest)) (readUpper v least (c :: rest ++ r)) := by
  obtain ⟨hle, hrest, hsame, hlarge⟩ := readCount_beside (v := v) hr (c :: rest)
  have herror := fun e => readCount_error (e := e) rest hc
  have hdeep := readCount_ne_nesting (v := v) (c :: rest)
  rw [readUpper, readUpper]
  generalize readCount v (c :: rest) = upper at *
  generalize readCount v (c :: rest ++ r) = upper' at *
  obtain ⟨most, after⟩ := upper
  obtain ⟨most', after'⟩ := upper'
  cases most with
  | error e =>
    have hmost : ∃ e', most' = .error e' := by
      rcases herror e rfl with rfl | hne
      · exact ⟨_, hlarge rfl⟩
      · exact ⟨e, hsame hne⟩
    obtain ⟨e', rfl⟩ := hmost
    exact .error (by simpa using hdeep) _
  | ok high =>
    simp only [bind, Except.bind]
    by_cases hclose : ∃ last, after = '}' :: last
    · obtain ⟨last, rfl⟩ := hclose
      obtain rfl : most' = .ok high := hsame (.inl (by simp))
      obtain rfl : after' = '}' :: (last ++ r) := hrest.of_cons
      exact .ok _ ((Nat.le_of_succ_le hle).trans hlen) .append
    · split
      · rename_i last
        exact absurd ⟨last, rfl⟩ hclose
      · exact .unfinished rfl _

theorem readBounds_extends (hr : EndsSequence r) (cs : List Char) :
    Extends r v cs.length (readBounds v cs) (readBounds v (cs ++ r)) := by
  unfold readBounds
  cases hskip : skip v cs with
  | nil => exact .unfinished rfl _
  | cons c more =>
    have hlen := length_of_skip hskip
    rw [skip_append hskip]
    obtain ⟨hle, hrest, hsame, -⟩ := readCount_beside (v := v) hr (c :: more)
    have hdeep := readCount_ne_nesting (v := v) (c :: more)
    rw [List.cons_append] at hrest hsame
    simp only
    generalize readCount v (c :: more) = lower at hle hrest hsame hdeep ⊢
    generalize readCount v (c :: (more ++ r)) = lower' at hrest hsame ⊢
    obtain ⟨least, after⟩ := lower
    obtain ⟨least', after'⟩ := lower'
    cases after with
    | nil => exact .unfinished rfl _
    | cons a after =>
      obtain rfl : least' = least := hsame (.inl (by simp))
      obtain rfl : after' = a :: (after ++ r) := hrest.of_cons
      have hafter : after.length < cs.length := by
        simp only [List.length_cons] at hle
        omega
      by_cases ha : a = ','
      · subst ha
        simp only
        cases hskip' : skip v after with
        | nil => exact .unfinished rfl _
        | cons b last =>
          have hlen' := length_of_skip hskip'
          rw [skip_append hskip']
          by_cases hb : b = '}'
          · subst hb
            cases least' with
            | error e => exact .error (by simpa using hdeep) _
            | ok low => exact .ok _ (by omega) .append
          · simp only [List.cons.injEq, hb, false_and, imp_false, not_false_eq_true, implies_true]
            cases least' with
            | error e => exact .error (by simpa using hdeep) _
            | ok low =>
              have hblank : v = true → isBlank b = false := by
                rintro rfl
                exact isBlank_of_skip hskip'
              exact readUpper_extends hr low hblank (by rw [List.length_cons]; omega)
      · simp only [List.cons.injEq, ha, false_and, imp_false, not_false_eq_true, implies_true]
        cases least' with
        | error e => exact .error (by simpa using hdeep) _
        | ok low =>
          simp only [bind, Except.bind]
          by_cases hb : a = '}'
          · subst hb
            exact .ok _ (by omega) .append
          · simp only [List.cons.injEq, hb, false_and, imp_false, not_false_eq_true, implies_true]
            exact .unfinished rfl _

end Bounds

section Operators

/-- What is read of a source alone and of the longer source, where nothing is said of what is read up
to the end of the source in verbose mode. -/
inductive Carries {α : Type} (r : List Char) (v : Bool) (n : Nat) :
    Except Error (α × List Char) → Except Error (α × List Char) → Prop
  | ok (a : α) {rest : List Char} (hlen : rest.length ≤ n) :
    Carries r v n (.ok (a, rest)) (.ok (a, rest ++ r))
  | ended (a : α) (hv : v = true) (y : Except Error (α × List Char)) : Carries r v n (.ok (a, [])) y
  | unfinished {e : Error} (he : e.isOpen = true) (y : Except Error (α × List Char)) :
    Carries r v n (.error e) y
  | error {e : Error} (he : e ≠ .nestingTooDeep) (e' : Error) :
    Carries r v n (.error e) (.error e')

theorem Extends.carries {α : Type} {x y : Except Error (α × List Char)} (h : Extends r v n x y) :
    Carries r v n x y := by
  cases h with
  | @ok a rest rest' hlen h =>
    by_cases hne : rest ≠ [] ∨ v = false
    · rw [h hne]
      exact .ok a hlen
    · simp only [not_or, not_not, Bool.not_eq_false] at hne
      obtain ⟨rfl, hv⟩ := hne
      exact .ended a hv _
  | unfinished he y => exact .unfinished he y
  | error he e' => exact .error he e'

theorem readLazy_append (hr : EndsSequence r) (cs : List Char) :
    readLazy (cs ++ r) = ((readLazy cs).1, (readLazy cs).2 ++ r) := by
  have hother : ∀ {c : Char} {cs : List Char}, c ≠ '?' →
      readLazy (c :: cs) = (true, c :: cs) := by
    intro c cs hc
    unfold readLazy
    split
    · rename_i heq
      exact absurd (List.cons.inj heq).1 hc
    · rfl
  cases cs with
  | nil =>
    cases r with
    | nil => rfl
    | cons c r => rcases hr c rfl with rfl | rfl <;> rfl
  | cons c cs =>
    by_cases hc : c = '?'
    · subst hc
      rfl
    · rw [List.cons_append, hother hc, hother hc]
      rfl

theorem length_readLazy (cs : List Char) : (readLazy cs).2.length ≤ cs.length := by
  unfold readLazy
  split
  · exact Nat.le_succ _
  · exact Nat.le_refl _

theorem readOperator_carries (hr : EndsSequence r) (body : Tree) (c : Char) (cs : List Char) :
    Carries r v cs.length (readOperator v body c cs) (readOperator v body c (cs ++ r)) := by
  unfold readOperator
  split
  · split
    · have hbounds := readBounds_extends (v := v) hr cs
      generalize readBounds v cs = x at hbounds ⊢
      generalize readBounds v (cs ++ r) = y at hbounds ⊢
      cases hbounds with
      | unfinished he y => exact .unfinished he _
      | error he e' => exact .error he _
      | @ok bounds rest rest' hlen h =>
        simp only [bind, Except.bind]
        by_cases horder : (bounds.max.map (decide <| · < bounds.min)).getD false = true
        · simp only [if_pos horder]
          exact .error (by decide) _
        · simp only [if_neg horder]
          have hle := length_skip v rest
          have hlazy := length_readLazy (skip v rest)
          by_cases hne : skip v rest ≠ [] ∨ v = false
          · have hrest : rest ≠ [] ∨ v = false := by
              refine hne.imp ?_ id
              rintro hskip rfl
              cases v <;> exact hskip rfl
            rw [h hrest, skip_beside hne, readLazy_append hr]
            exact .ok _ (hlazy.trans (hle.trans hlen))
          · simp only [not_or, not_not, Bool.not_eq_false] at hne
            rw [hne.1]
            exact .ended _ hne.2 _
    · have hlazy := length_readLazy cs
      simp only [readLazy_append hr]
      exact .ok _ hlazy
  · exact .error (by decide) _

private theorem readOperators_end (hr : EndsSequence r) (body : Tree) {fuel : List Char}
    (hcs : skip v cs = []) (hv : v = false) :
    readOperators v fuel body (cs ++ r) = .ok (body, r) := by
  subst hv
  obtain rfl : cs = [] := hcs
  cases fuel with
  | nil => rfl
  | cons _ fuel =>
    cases r with
    | nil => rfl
    | cons c r => rcases hr c rfl with rfl | rfl <;> rfl

/-- What follows an element are the same operators, of which there are as many as characters at
most. -/
theorem readOperators_carries (hr : EndsSequence r) (body : Tree) {fuel fuel' : List Char}
    (hfuel : cs.length ≤ fuel.length) (hfuel' : fuel.length ≤ fuel'.length) :
    Carries r v cs.length (readOperators v fuel body cs)
      (readOperators v fuel' body (cs ++ r)) := by
  induction fuel generalizing cs fuel' body with
  | nil =>
    obtain rfl : cs = [] := List.eq_nil_of_length_eq_zero (by simpa using hfuel)
    cases v with
    | true => exact .ended body rfl _
    | false =>
      rw [readOperators_end hr body rfl rfl]
      exact Carries.ok body (show ([] : List Char).length ≤ 0 from Nat.le_refl 0)
  | cons a fuel ih =>
    obtain ⟨a', fuel', rfl⟩ := List.exists_cons_of_length_pos
      (Nat.lt_of_lt_of_le (Nat.succ_pos _) hfuel')
    rw [readOperators]
    cases hskip : skip v cs with
    | nil =>
      cases v with
      | true => exact .ended body rfl _
      | false =>
        rw [readOperators_end hr body hskip rfl]
        exact Carries.ok body (show ([] : List Char).length ≤ cs.length from Nat.zero_le _)
    | cons c rest =>
      have hlen := length_of_skip hskip
      rw [readOperators, skip_append hskip]
      simp only
      split
      · have hop := readOperator_carries (v := v) hr body c rest
        generalize readOperator v body c rest = x at hop ⊢
        generalize readOperator v body c (rest ++ r) = y at hop ⊢
        cases hop with
        | @ok next last hlast =>
          have hmore := ih next (show last.length ≤ fuel.length by
              simp only [List.length_cons] at hfuel; omega)
            (show fuel.length ≤ fuel'.length by simp only [List.length_cons] at hfuel'; omega)
          simp only [bind, Except.bind]
          generalize readOperators v fuel next last = x at hmore ⊢
          generalize readOperators v fuel' next (last ++ r) = y at hmore ⊢
          cases hmore with
          | ok tree hle => exact .ok tree (by omega)
          | ended tree hv y => exact .ended tree hv _
          | unfinished he y => exact .unfinished he _
          | error he e' => exact .error he _
        | ended next hv y =>
          have hstop : readOperators v fuel next [] = .ok (next, []) := by
            cases fuel with
            | nil => rfl
            | cons _ fuel => cases v <;> rfl
          simp only [bind, Except.bind, hstop]
          exact .ended next hv _
        | unfinished he y => exact .unfinished he _
        | error he e' => exact .error he _
      · exact .ok body hlen

end Operators

section Simple

private def Atom.toTree : Atom → Tree
  | .literal l => .literal l
  | .anchor a => .anchor a
  | .short negated name => .short negated name
  | .property query => .property query

private def classTree : ClassTree → Tree
  | .bracket negated inside => .bracket negated inside
  | inside => .bracket false inside

theorem readSimple_extends (hr : EndsSequence r) (c : Char) (cs : List Char) :
    Extends r v cs.length (readSimple v c cs) (readSimple v c (cs ++ r)) := by
  have hclass : ∀ cs, readSimple v '[' cs =
      readClass v (cs.length + 1) cs >>= fun p => .ok (classTree p.1, p.2) := by
    intro cs
    simp only [readSimple]
    cases readClass v (cs.length + 1) cs with
    | error e => rfl
    | ok p =>
      obtain ⟨inside, after⟩ := p
      cases inside <;> rfl
  have hescape : ∀ cs, readSimple v '\\' cs =
      readEscape v cs >>= fun p => .ok (p.1.toTree, p.2) := by
    intro cs
    simp only [readSimple]
    cases readEscape v cs with
    | error e => rfl
    | ok p =>
      obtain ⟨atom, after⟩ := p
      cases atom <;> rfl
  by_cases hc : c = '['
  · subst hc
    rw [hclass, hclass]
    apply (readClass_extends hr (by simp)).bind
    intro inside rest rest' hle h
    exact .ok _ hle h
  · by_cases hc' : c = '\\'
    · subst hc'
      rw [hescape, hescape]
      apply (readEscape_extends hr).bind
      intro atom rest rest' hle h
      exact .ok _ hle h
    · unfold readSimple
      split
      · exact absurd rfl hc
      · exact absurd rfl hc'
      · exact .ok _ (Nat.le_refl _) .append
      · exact .ok _ (Nat.le_refl _) .append
      · exact .ok _ (Nat.le_refl _) .append
      · exact .ok _ (Nat.le_refl _) .append

end Simple

end PairGrep.Pattern.Reader
