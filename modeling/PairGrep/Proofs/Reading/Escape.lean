import PairGrep.Proofs.Pair.Source

/-!
# Reading in front of more text

A source that stands in a longer one is followed by a parenthesis or a bar. What is read of it there
is what is read of it alone, and where it is faulty alone it is faulty there, but for faults that
only say that its end was reached. In verbose mode its last characters may be part of a comment, which
then goes on into what follows; so it matters whether the end is reached in verbose mode.
-/

namespace PairGrep.Pattern

/-- Does the error say that something is not finished, or not begun, within the source? -/
def Error.isOpen : Error → Bool
  | .groupUnopened | .groupUnclosed | .classUnclosed | .countUnclosed | .escapeUnfinished
  | .flagUnfinished | .nameUnclosed | .boundaryUnclosed | .boundaryOrCount => true
  | _ => false

namespace Reader

/-- The second text is what is left of the longer source where the first one is left of the source
alone. Nothing is said at the end of the source in verbose mode. -/
def Beside (r : List Char) (v : Bool) (cs cs' : List Char) : Prop :=
  cs ≠ [] ∨ v = false → cs' = cs ++ r

/-- What is read of a source alone and of the longer source, the rest of the former having so many
characters at most. No fault is one of nesting. -/
inductive Extends {α : Type} (r : List Char) (v : Bool) (n : Nat) :
    Except Error (α × List Char) → Except Error (α × List Char) → Prop
  | ok (a : α) {rest rest' : List Char} (hlen : rest.length ≤ n) (h : Beside r v rest rest') :
    Extends r v n (.ok (a, rest)) (.ok (a, rest'))
  | unfinished {e : Error} (he : e.isOpen = true) (y : Except Error (α × List Char)) :
    Extends r v n (.error e) y
  | error {e : Error} (he : e ≠ .nestingTooDeep) (e' : Error) :
    Extends r v n (.error e) (.error e')

variable {α β : Type} {r cs cs' : List Char} {v : Bool} {m n : Nat}

theorem Beside.append : Beside r v cs (cs ++ r) := fun _ => rfl

theorem Beside.of_cons {c : Char} (h : Beside r v (c :: cs) cs') : cs' = c :: (cs ++ r) :=
  h (.inl (List.cons_ne_nil c cs))

theorem Extends.mono {x y : Except Error (α × List Char)} (h : Extends r v m x y) (hmn : m ≤ n) :
    Extends r v n x y := by
  cases h with
  | ok a hlen h => exact .ok a (hlen.trans hmn) h
  | unfinished he y => exact .unfinished he y
  | error he e' => exact .error he e'

/-- A reader goes on with what another one has left. -/
theorem Extends.bind {x y : Except Error (α × List Char)}
    {f g : α × List Char → Except Error (β × List Char)} (h : Extends r v m x y)
    (hfg : ∀ a rest rest', rest.length ≤ m → Beside r v rest rest' →
      Extends r v n (f (a, rest)) (g (a, rest'))) :
    Extends r v n (x >>= f) (y >>= g) := by
  cases h with
  | ok a hlen h => exact hfg a _ _ hlen h
  | unfinished he y => exact .unfinished he _
  | error he e' => exact .error he e'

section Skip

theorem length_dropSpace (comment : Bool) (cs : List Char) :
    (dropSpace comment cs).length ≤ cs.length := by
  fun_induction dropSpace comment cs with
  | case1 => exact Nat.le_refl _
  | case2 c rest ih => exact ih.trans (Nat.le_succ _)
  | case3 c rest hc ih => exact ih.trans (Nat.le_succ _)
  | case4 rest hc ih => exact ih.trans (Nat.le_succ _)
  | case5 c rest hc hc' => exact Nat.le_refl _

theorem length_skip (v : Bool) (cs : List Char) : (skip v cs).length ≤ cs.length := by
  unfold skip
  split
  · exact length_dropSpace false cs
  · exact Nat.le_refl _

theorem dropSpace_append {comment : Bool} (h : dropSpace comment cs ≠ []) :
    dropSpace comment (cs ++ r) = dropSpace comment cs ++ r := by
  fun_induction dropSpace comment cs with
  | case1 => simp at h
  | case2 c rest ih => simpa [dropSpace] using ih h
  | case3 c rest hc ih => simpa [dropSpace, hc] using ih h
  | case4 rest hc ih => simpa [dropSpace, hc] using ih h
  | case5 c rest hc hc' => simp [dropSpace, hc, hc']

theorem skip_beside : Beside r v (skip v cs) (skip v (cs ++ r)) := by
  intro h
  cases v with
  | false => rfl
  | true => exact dropSpace_append (h.resolve_right (by simp))

theorem skip_append {c : Char} {rest : List Char} (h : skip v cs = c :: rest) :
    skip v (cs ++ r) = c :: (rest ++ r) := by
  rw [skip_beside (.inl (by simp [h])), h, List.cons_append]

theorem length_of_skip {c : Char} {rest : List Char} (h : skip v cs = c :: rest) :
    rest.length < cs.length := by
  have hle := length_skip v cs
  rw [h, List.length_cons] at hle
  omega

end Skip

section Escape

theorem readDigits_extends (count : Nat) (h : Beside r v cs cs') :
    Extends r v cs.length (readDigits v count cs) (readDigits v count cs') := by
  induction count generalizing cs cs' with
  | zero => exact .ok [] (Nat.le_refl _) h
  | succ count ih =>
    cases cs with
    | nil => exact .unfinished rfl _
    | cons c rest =>
      rw [h.of_cons, readDigits, readDigits]
      split
      · apply (ih skip_beside).bind
        intro ds cs cs' hlen h
        have hle := length_skip v rest
        exact .ok _ (by rw [List.length_cons]; omega) h
      · exact .error (by decide) _

theorem readBraced_go_extends {fuel fuel' : Nat} (hfuel : fuel ≤ fuel') :
    Extends r v cs.length (readBraced.go v fuel cs) (readBraced.go v fuel' (cs ++ r)) := by
  induction fuel generalizing fuel' cs with
  | zero => exact .unfinished rfl _
  | succ fuel ih =>
    obtain ⟨fuel', rfl⟩ := Nat.exists_eq_add_of_le' (Nat.zero_lt_of_lt hfuel)
    rw [readBraced.go, readBraced.go]
    cases hskip : skip v cs with
    | nil => exact .unfinished rfl _
    | cons c rest =>
      rw [skip_append hskip]
      have hlen := length_of_skip hskip
      by_cases hc : c = '}'
      · subst hc
        exact .ok [] ((length_skip v rest).trans hlen.le) skip_beside
      · simp only
        split
        · apply (ih (by omega)).bind
          intro ds cs cs' hle h
          exact .ok _ (hle.trans hlen.le) h
        · exact .error (by decide) _

theorem charOfCode_extends {f : Char → Atom} (number : Nat) (hlen : cs.length ≤ n)
    (h : Beside r v cs cs') :
    Extends r v n (do return (f (← charOfCode number), cs))
      (do return (f (← charOfCode number), cs')) := by
  unfold charOfCode
  split
  · exact .ok _ hlen h
  · exact .error (by decide) _

theorem readHex_extends (digits : Nat) :
    Extends r v cs.length (readHex v digits cs) (readHex v digits (cs ++ r)) := by
  unfold readHex
  cases hskip : skip v cs with
  | nil => exact .unfinished rfl _
  | cons c rest =>
    rw [skip_append hskip]
    have hlen := length_of_skip hskip
    by_cases hc : c = '{'
    · subst hc
      have hbraced : Extends r v rest.length (readBraced v rest) (readBraced v (rest ++ r)) :=
        readBraced_go_extends (by simp)
      apply hbraced.bind
      intro ds cs cs' hle h
      by_cases hds : ds = []
      · simp only [hds, if_true]
        exact .error (by decide) _
      · simp only [hds, if_false]
        exact charOfCode_extends (f := fun c => .literal (plain c)) _ (hle.trans hlen.le) h
    · simp only [List.cons.injEq, hc, false_and, imp_false, not_false_eq_true, implies_true]
      have hbeside : Beside r v (c :: rest) (c :: rest ++ r) := .append
      have hdigits := readDigits_extends digits hbeside
      apply hdigits.bind
      intro ds cs cs' hle h
      exact charOfCode_extends (f := fun c => .literal ⟨c, digits == 2⟩) _
        (hle.trans hlen) h

theorem readUntilBrace_go_extends {fuel fuel' : Nat} (hfuel : fuel ≤ fuel') :
    Extends r v cs.length (readUntilBrace.go v fuel cs) (readUntilBrace.go v fuel' (cs ++ r)) := by
  induction fuel generalizing fuel' cs with
  | zero => exact .unfinished rfl _
  | succ fuel ih =>
    obtain ⟨fuel', rfl⟩ := Nat.exists_eq_add_of_le' (Nat.zero_lt_of_lt hfuel)
    rw [readUntilBrace.go, readUntilBrace.go]
    cases hskip : skip v cs with
    | nil => exact .unfinished rfl _
    | cons c rest =>
      rw [skip_append hskip]
      have hlen := length_of_skip hskip
      by_cases hc : c = '}'
      · subst hc
        exact .ok [] hlen.le .append
      · simp only
        apply (ih (by omega)).bind
        intro name cs cs' hle h
        exact .ok _ (hle.trans hlen.le) h

theorem readProperty_extends (negated : Bool) :
    Extends r v cs.length (readProperty v negated cs) (readProperty v negated (cs ++ r)) := by
  unfold readProperty
  cases hskip : skip v cs with
  | nil => exact .unfinished rfl _
  | cons c rest =>
    rw [skip_append hskip]
    have hlen := length_of_skip hskip
    by_cases hc : c = '{'
    · subst hc
      have hname : Extends r v rest.length (readUntilBrace v rest) (readUntilBrace v (rest ++ r)) :=
        readUntilBrace_go_extends (by simp)
      apply hname.bind
      intro name cs cs' hle h
      exact .ok _ (hle.trans hlen.le) h
    · by_cases hc' : c = '\\'
      · subst hc'
        exact .error (by decide) _
      · simp only
        exact .ok _ ((length_skip v rest).trans hlen.le) skip_beside

theorem readBoundaryName_append {fuel fuel' : Nat} {c : Char} {name rest : List Char}
    (hfuel : cs.length ≤ fuel) (hfuel' : fuel ≤ fuel')
    (h : readBoundaryName v fuel cs = (name, c :: rest)) :
    readBoundaryName v fuel' (cs ++ r) = (name, c :: (rest ++ r)) ∧ rest.length < cs.length := by
  induction fuel generalizing fuel' cs name with
  | zero =>
    obtain rfl : cs = [] := List.eq_nil_of_length_eq_zero (by omega)
    simp [readBoundaryName] at h
  | succ fuel ih =>
    obtain ⟨fuel', rfl⟩ := Nat.exists_eq_add_of_le' (Nat.zero_lt_of_lt hfuel')
    cases cs with
    | nil => simp [readBoundaryName] at h
    | cons a cs =>
      rw [List.length_cons] at hfuel
      rw [List.cons_append, readBoundaryName]
      rw [readBoundaryName] at h
      by_cases ha : isBoundaryChar a
      · have hle := length_skip v cs
        rw [if_pos ha] at h ⊢
        obtain ⟨hname, hafter⟩ := Prod.mk.inj h
        obtain ⟨more, hmore⟩ : ∃ more, readBoundaryName v fuel (skip v cs) = (more, c :: rest) :=
          ⟨_, Prod.ext rfl hafter⟩
        have hne : skip v cs ≠ [] := by
          intro hnil
          rw [hnil] at hmore
          cases fuel <;> simp [readBoundaryName] at hmore
        have hshort : (skip v cs).length ≤ fuel := by omega
        obtain ⟨hread, hlen⟩ := ih hshort (show fuel ≤ fuel' by omega) hmore
        rw [skip_beside (.inl hne), hread]
        rw [hmore] at hname
        exact ⟨by rw [← hname], by rw [List.length_cons]; omega⟩
      · rw [if_neg ha] at h ⊢
        obtain ⟨rfl, hcs⟩ := Prod.mk.inj h
        obtain ⟨rfl, rfl⟩ := List.cons.inj hcs
        exact ⟨rfl, Nat.lt_succ_self _⟩

theorem readBoundary_extends (hr : EndsSequence r) :
    Extends r v cs.length (readBoundary v cs) (readBoundary v (cs ++ r)) := by
  cases cs with
  | nil =>
    have hread : readBoundary v r = .ok (.anchor .boundary, r) := by
      cases r with
      | nil => rfl
      | cons c r => rcases hr c rfl with rfl | rfl <;> rfl
    rw [List.nil_append, hread]
    exact .ok _ (Nat.le_refl _) .append
  | cons c rest =>
    by_cases hc : c = '{'
    · subst hc
      rw [List.cons_append, readBoundary, readBoundary]
      cases hskip : skip v rest with
      | nil => exact .unfinished rfl _
      | cons c inside =>
        rw [skip_append hskip]
        have hlen := length_of_skip hskip
        simp only
        split
        · cases hname : readBoundaryName v (inside.length + 1) (c :: inside) with
          | mk name after =>
            cases after with
            | nil => exact .unfinished rfl _
            | cons a after =>
              have hfuel : inside.length + 1 ≤ (inside ++ r).length + 1 := by simp
              obtain ⟨hread, hle⟩ := readBoundaryName_append (r := r) (by simp) hfuel hname
              rw [List.cons_append] at hread
              rw [hread]
              by_cases ha : a = '}'
              · subst ha
                simp only
                split
                · exact .ok _ (by simp only [List.length_cons] at hle ⊢; omega) .append
                · exact .error (by decide) _
              · simp only [List.cons.injEq, ha, false_and, Prod.mk.injEq, and_false, imp_false,
                  not_false_eq_true, implies_true]
                exact .unfinished rfl _
        · exact .ok _ (Nat.le_refl _) .append
    · have hread : ∀ rest, readBoundary v (c :: rest) = .ok (.anchor .boundary, c :: rest) := by
        intro rest
        simp [readBoundary, hc]
      rw [List.cons_append, hread, hread]
      exact .ok _ (Nat.le_refl _) .append

theorem readEscape_extends (hr : EndsSequence r) :
    Extends r v cs.length (readEscape v cs) (readEscape v (cs ++ r)) := by
  cases cs with
  | nil => exact .unfinished rfl _
  | cons c rest =>
    rw [List.cons_append]
    have hle : rest.length ≤ (c :: rest).length := Nat.le_succ _
    unfold readEscape
    split
    · rename_i heq
      simp at heq
    · rename_i heq
      obtain ⟨rfl, rfl⟩ := List.cons.inj heq
      exact (readHex_extends 2).mono hle
    · rename_i heq
      obtain ⟨rfl, rfl⟩ := List.cons.inj heq
      exact (readHex_extends 4).mono hle
    · rename_i heq
      obtain ⟨rfl, rfl⟩ := List.cons.inj heq
      exact (readHex_extends 8).mono hle
    · rename_i heq
      obtain ⟨rfl, rfl⟩ := List.cons.inj heq
      exact (readProperty_extends false).mono hle
    · rename_i heq
      obtain ⟨rfl, rfl⟩ := List.cons.inj heq
      exact (readProperty_extends true).mono hle
    · rename_i heq
      obtain ⟨rfl, rfl⟩ := List.cons.inj heq
      exact (readBoundary_extends hr).mono hle
    · rename_i hx hu hU hp hP hb heq
      obtain ⟨rfl, rfl⟩ := List.cons.inj heq
      simp only
      split
      · exact .error (by decide) _
      · split
        · exact .ok _ hle .append
        · split
          · exact .ok _ hle .append
          · exact .error (by decide) _

end Escape

end Reader

end PairGrep.Pattern
