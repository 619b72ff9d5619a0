import PairGrep.Proofs.Reading.Escape

/-!
# Reading a class in front of more text

A class that is read of a source is read of the longer source too. No class that is not closed
within the source is read of it.
-/

namespace PairGrep.Pattern.Reader

variable {r cs : List Char} {v : Bool}

theorem readItem_extends (hr : EndsSequence r) :
    Extends r v cs.length (readItem v cs) (readItem v (cs ++ r)) := by
  cases cs with
  | nil => exact .unfinished rfl _
  | cons c rest =>
    have hle : rest.length ≤ (c :: rest).length := Nat.le_succ _
    by_cases hc : c = '\\'
    · subst hc
      exact (readEscape_extends hr).mono hle
    · have hread : ∀ rest, readItem v (c :: rest) = .ok (.literal (plain c), rest) := by
        intro rest
        simp [readItem]
      rw [List.cons_append, hread, hread]
      exact .ok _ hle .append

section Range

theorem toItem_extends (cs : List Char) (a : Atom) :
    Extends r v cs.length (do return (← a.toItem, cs)) (do return (← a.toItem, cs ++ r)) := by
  cases a with
  | anchor => exact .error (by decide) _
  | literal | short | property => exact .ok _ (Nat.le_refl _) .append

private theorem dropWhile_isBlank_append {c : Char} {rest : List Char}
    (h : cs.dropWhile isBlank = c :: rest) : (cs ++ r).dropWhile isBlank = c :: (rest ++ r) := by
  rw [List.dropWhile_append, h]
  simp

theorem peek_append {c : Char} (h : peek v cs = some c) : peek v (cs ++ r) = some c := by
  unfold peek at h ⊢
  split at h
  · rename_i hv
    rw [if_pos hv]
    cases hdrop : cs.dropWhile isBlank with
    | nil => simp [hdrop] at h
    | cons a rest =>
      rw [dropWhile_isBlank_append hdrop]
      rw [hdrop] at h
      by_cases ha : a = '#'
      · subst ha
        simp only at h ⊢
        cases hdrop' : rest.dropWhile isBlank with
        | nil => simp [hdrop'] at h
        | cons b more =>
          rw [dropWhile_isBlank_append hdrop']
          simpa [hdrop'] using h
      · simp only [List.cons.injEq, ha, false_and, imp_false, not_false_eq_true,
          implies_true] at h ⊢
        simpa using h
  · rename_i hv
    rw [if_neg hv]
    cases cs with
    | nil => simp at h
    | cons a rest => simpa using h

private theorem dropSpace_of_blank (h : cs.dropWhile isBlank = []) : dropSpace false cs = [] := by
  induction cs with
  | nil => rfl
  | cons c rest ih =>
    by_cases hc : isBlank c = true
    · rw [dropSpace, if_pos hc]
      exact ih (by simpa [hc] using h)
    · simp [hc] at h

private theorem dropSpace_dropWhile (cs : List Char) :
    dropSpace false (cs.dropWhile isBlank) = dropSpace false cs := by
  induction cs with
  | nil => rfl
  | cons c rest ih =>
    by_cases hc : isBlank c = true
    · rw [List.dropWhile_cons_of_pos hc, dropSpace, if_pos hc, ih]
    · rw [List.dropWhile_cons_of_neg hc]

private theorem dropSpace_comment_of_blank (h : cs.dropWhile isBlank = []) :
    dropSpace true cs = [] := by
  induction cs with
  | nil => rfl
  | cons c rest ih =>
    by_cases hc : isBlank c = true
    · have hrest : rest.dropWhile isBlank = [] := by simpa [hc] using h
      rw [dropSpace]
      cases c != '\n'
      · exact dropSpace_of_blank hrest
      · exact ih hrest
    · simp [hc] at h

theorem skip_of_peek_eq_none (h : peek v cs = none) : skip v cs = [] := by
  unfold peek at h
  unfold skip
  split at h
  · rename_i hv
    rw [if_pos hv, ← dropSpace_dropWhile]
    cases hdrop : cs.dropWhile isBlank with
    | nil => rfl
    | cons a rest =>
      rw [hdrop] at h
      by_cases ha : a = '#'
      · subst ha
        have hblank : rest.dropWhile isBlank = [] := by simpa using h
        exact dropSpace_comment_of_blank hblank
      · simp [ha] at h
  · rename_i hv
    rw [if_neg hv]
    simpa using h

theorem toBoundary_error {a : Atom} {e : Error} (h : a.toBoundary = .error e) :
    e = .rangeBoundary := by
  cases a <;> simp_all [Atom.toBoundary]

private theorem rangeEnd_extends (hr : EndsSequence r) (cs : List Char) (first : Atom) :
    Extends r v cs.length
      (do
        let (second, cs) ← readItem v cs
        let lo ← first.toBoundary
        let hi ← second.toBoundary
        if hi.char < lo.char then throw .rangeInvalid
        return (ClassTree.range lo hi, cs))
      (do
        let (second, cs) ← readItem v (cs ++ r)
        let lo ← first.toBoundary
        let hi ← second.toBoundary
        if hi.char < lo.char then throw .rangeInvalid
        return (ClassTree.range lo hi, cs)) := by
  apply (readItem_extends hr).bind
  intro second rest rest' hle h
  cases hfirst : first.toBoundary with
  | error e =>
    obtain rfl := toBoundary_error hfirst
    exact .error (by decide) _
  | ok lo =>
    cases hsecond : second.toBoundary with
    | error e =>
      obtain rfl := toBoundary_error hsecond
      simp only [hsecond]
      exact .error (by decide) _
    | ok hi =>
      simp only [hsecond, bind, Except.bind]
      split
      · exact .error (by decide) _
      · exact .ok _ hle h

theorem readRange_extends (hr : EndsSequence r) (cs : List Char) :
    Extends r v cs.length (readRange v cs) (readRange v (cs ++ r)) := by
  unfold readRange
  apply (readItem_extends hr).bind
  intro first rest rest' hle h
  simp only
  cases hskip : skip v rest with
  | nil => exact .unfinished rfl _
  | cons c more =>
    have hne : rest ≠ [] := by
      rintro rfl
      cases v <;> simp [skip, dropSpace] at hskip
    rw [h (.inl hne), skip_append hskip]
    have hlen := length_of_skip hskip
    by_cases hc : c = '-'
    · subst hc
      simp only
      cases hpeek : peek v more with
      | none =>
        rw [skip_of_peek_eq_none hpeek]
        simp only [reduceCtorEq, or_self, if_false]
        exact .unfinished rfl _
      | some p =>
        rw [peek_append hpeek]
        split
        · exact (toItem_extends ('-' :: more) first).mono (by simp; omega)
        · cases hskip' : skip v more with
          | nil => exact .unfinished rfl _
          | cons d last =>
            rw [skip_append hskip']
            have hlen' := length_of_skip hskip'
            exact (rangeEnd_extends hr (d :: last) first).mono (by simp; omega)
    · simp only [List.cons.injEq, hc, false_and, imp_false, not_false_eq_true, implies_true]
      exact (toItem_extends (c :: more) first).mono (by simp; omega)

end Range

section Ascii

private theorem asciiClassOf?_eq_none {name : List Char} (h : ')' ∈ name ∨ '|' ∈ name) :
    asciiClassOf? (String.ofList name) = none := by
  have hnames : ∀ p ∈ [("alnum", AsciiClass.alnum), ("alpha", .alpha), ("ascii", .ascii),
      ("blank", .blank), ("cntrl", .cntrl), ("digit", .digit), ("graph", .graph),
      ("lower", .lower), ("print", .print), ("punct", .punct), ("space", .space),
      ("upper", .upper), ("word", .word), ("xdigit", .xdigit)],
      ')' ∉ p.1.toList ∧ '|' ∉ p.1.toList := by decide
  unfold asciiClassOf?
  rw [List.lookup_eq_none_iff]
  intro p hp
  have hp := hnames p hp
  by_contra heq
  have heq : String.ofList name = p.1 := by simpa using heq
  rw [← heq, String.toList_ofList] at hp
  exact h.elim hp.1 hp.2

private def asciiName? (negated : Bool) (cs : List Char) : Option (ClassTree × List Char) :=
  match cs.dropWhile (· != ':') with
  | ':' :: ']' :: after =>
    (asciiClassOf? (String.ofList (cs.takeWhile (· != ':')))).map fun name =>
      (.ascii negated name, after)
  | _ => none

private theorem readAscii?_colon (cs : List Char) :
    ∃ negated name, name <:+ cs ∧ ∀ r, EndsSequence r →
      readAscii? (':' :: (cs ++ r)) = asciiName? negated (name ++ r) := by
  cases cs with
  | nil =>
    refine ⟨false, [], List.suffix_refl _, ?_⟩
    intro r hr
    cases r with
    | nil => rfl
    | cons c r => rcases hr c rfl with rfl | rfl <;> rfl
  | cons a cs =>
    by_cases ha : a = '^'
    · subst ha
      exact ⟨true, cs, List.suffix_cons _ _, fun _ _ => rfl⟩
    · refine ⟨false, a :: cs, List.suffix_refl _, fun r _ => ?_⟩
      simp only [readAscii?, List.cons_append, List.cons.injEq, ha, false_and, imp_false,
        not_false_eq_true, implies_true]
      rfl

private theorem asciiName?_append (negated : Bool) (hr : EndsSequence r) (cs : List Char) :
    asciiName? negated (cs ++ r) =
      (asciiName? negated cs).map fun p => (p.1, p.2 ++ r) := by
  unfold asciiName?
  cases hdrop : cs.dropWhile (· != ':') with
  | nil =>
    have hall : ∀ c ∈ cs, (c != ':') = true := by simpa using hdrop
    rw [List.dropWhile_append_of_pos hall, List.takeWhile_append_of_pos hall]
    cases r with
    | nil => rfl
    | cons c r =>
      have hname : ')' ∈ cs ++ (c :: r).takeWhile (· != ':') ∨
          '|' ∈ cs ++ (c :: r).takeWhile (· != ':') := by
        rcases hr c rfl with rfl | rfl <;> simp
      rw [asciiClassOf?_eq_none hname]
      split <;> rfl
  | cons c rest =>
    have hdrop' : (cs ++ r).dropWhile (· != ':') = c :: (rest ++ r) := by
      rw [List.dropWhile_append, hdrop]
      simp
    have htake : (cs ++ r).takeWhile (· != ':') = cs.takeWhile (· != ':') := by
      rw [List.takeWhile_append, if_neg]
      intro hlen
      have htotal := congrArg List.length (List.takeWhile_append_dropWhile (p := (· != ':')) (l := cs))
      rw [List.length_append, hlen, hdrop, List.length_cons] at htotal
      omega
    have hc : c = ':' := by
      have hhead := List.head?_dropWhile_not (· != ':') cs
      rw [hdrop] at hhead
      simpa using hhead
    subst hc
    rw [hdrop', htake]
    cases rest with
    | nil =>
      cases r with
      | nil => simp
      | cons a r =>
        have ha : a ≠ ']' := by rcases hr a rfl with rfl | rfl <;> decide
        simp [ha]
    | cons b rest =>
      by_cases hb : b = ']'
      · subst hb
        simp [Function.comp_def]
      · simp [hb]

theorem readAscii?_append (hr : EndsSequence r) :
    readAscii? (cs ++ r) = (readAscii? cs).map fun p => (p.1, p.2 ++ r) := by
  cases cs with
  | nil =>
    cases r with
    | nil => rfl
    | cons c r => rcases hr c rfl with rfl | rfl <;> rfl
  | cons c rest =>
    by_cases hc : c = ':'
    · subst hc
      obtain ⟨negated, name, -, hread⟩ := readAscii?_colon rest
      have halone : readAscii? (':' :: rest) = asciiName? negated name := by
        simpa using hread [] (by simp [EndsSequence])
      rw [List.cons_append, hread r hr, halone, asciiName?_append negated hr]
    · simp [readAscii?, hc]

theorem length_readAscii? {item : ClassTree} {after : List Char}
    (h : readAscii? cs = some (item, after)) : after.length ≤ cs.length := by
  cases cs with
  | nil => simp [readAscii?] at h
  | cons c rest =>
    by_cases hc : c = ':'
    · subst hc
      obtain ⟨negated, name, hname, hread⟩ := readAscii?_colon rest
      have halone : readAscii? (':' :: rest) = asciiName? negated name := by
        simpa using hread [] (by simp [EndsSequence])
      rw [halone, asciiName?] at h
      split at h
      · rename_i hdrop
        obtain ⟨a, -, ha⟩ := Option.map_eq_some_iff.mp h
        obtain ⟨-, rfl⟩ := Prod.mk.inj ha
        have hle := (List.dropWhile_suffix (· != ':') (l := name)).length_le
        have hle' := hname.length_le
        rw [hdrop] at hle
        simp only [List.length_cons] at hle ⊢
        omega
      · simp at h
    · simp [readAscii?, hc] at h

end Ascii

section Opening

theorem readHyphens_append {fuel fuel' : Nat} (hne : cs ≠ []) (hfuel : cs.length ≤ fuel)
    (hfuel' : fuel ≤ fuel') :
    (∃ items rest, readHyphens v fuel cs = .ok (items, rest) ∧ rest ≠ [] ∧
      rest.length ≤ cs.length ∧ readHyphens v fuel' (cs ++ r) = .ok (items, rest ++ r)) ∨
    readHyphens v fuel cs = .error .classUnclosed := by
  induction fuel generalizing fuel' cs with
  | zero => exact absurd (List.eq_nil_of_length_eq_zero (by omega)) hne
  | succ fuel ih =>
    obtain ⟨fuel', rfl⟩ := Nat.exists_eq_add_of_le' (Nat.zero_lt_of_lt hfuel')
    cases cs with
    | nil => exact absurd rfl hne
    | cons c rest =>
      by_cases hc : c = '-'
      · subst hc
        rw [List.cons_append, readHyphens, readHyphens]
        cases hskip : skip v rest with
        | nil => exact .inr rfl
        | cons d more =>
          have hlen := length_of_skip hskip
          rw [List.length_cons] at hfuel
          rw [skip_append hskip]
          rcases ih (List.cons_ne_nil d more) (by simp; omega) (show fuel ≤ fuel' by omega) with
            ⟨items, last, hread, hlast, hle, hread'⟩ | hread
          · rw [List.cons_append] at hread'
            refine .inl ⟨.literal (plain '-') :: items, last, ?_, hlast, ?_, ?_⟩
            · simp [hread, bind, Except.bind, pure, Except.pure]
            · simp only [List.length_cons] at hle ⊢
              omega
            · simp [hread', bind, Except.bind, pure, Except.pure]
          · exact .inr (by simp [hread, bind, Except.bind])
      · have hread : ∀ fuel rest, readHyphens v (fuel + 1) (c :: rest) = .ok ([], c :: rest) := by
          intro fuel rest
          simp [readHyphens, hc]
        refine .inl ⟨[], c :: rest, hread _ _, by simp, Nat.le_refl _, ?_⟩
        rw [List.cons_append, hread]

/-- Reads the first items of a class after its sign. -/
def readFirst (v negated : Bool) (cs : List Char) :
    Except Error (Bool × List ClassTree × List Char) := do
  if cs = [] then throw .classUnclosed
  let (items, cs) ← readHyphens v cs.length cs
  match items, cs with
  | [], ']' :: rest =>
    match skip v rest with
    | [] => throw .classUnclosed
    | cs => return (negated, [.literal (plain ']')], cs)
  | items, cs => return (negated, items, cs)

private theorem readFirst_append (negated : Bool) (hne : cs ≠ []) :
    (∃ items rest, readFirst v negated cs = .ok (negated, items, rest) ∧
      rest.length ≤ cs.length ∧ readFirst v negated (cs ++ r) = .ok (negated, items, rest ++ r)) ∨
    readFirst v negated cs = .error .classUnclosed := by
  have hne' : cs ++ r ≠ [] := by simp [hne]
  unfold readFirst
  rw [if_neg hne, if_neg hne']
  rcases readHyphens_append (v := v) (r := r) hne (Nat.le_refl _)
    (show cs.length ≤ (cs ++ r).length by simp) with ⟨items, rest, hread, hrest, hle, hread'⟩ | hread
  · simp only [hread, hread', bind, Except.bind]
    cases items with
    | nil =>
      cases rest with
      | nil => exact absurd rfl hrest
      | cons c rest =>
        by_cases hc : c = ']'
        · subst hc
          simp only [List.cons_append]
          cases hskip : skip v rest with
          | nil => exact .inr rfl
          | cons d more =>
            have hlen := length_of_skip hskip
            rw [skip_append hskip]
            exact .inl ⟨_, d :: more, rfl, by simp only [List.length_cons] at hle ⊢; omega, rfl⟩
        · simp only [List.cons_append, List.cons.injEq, hc, false_and, imp_false,
            not_false_eq_true, implies_true]
          exact .inl ⟨[], c :: rest, rfl, hle, rfl⟩
    | cons item items => exact .inl ⟨item :: items, rest, rfl, hle, rfl⟩
  · simp only [hread, bind, Except.bind]
    exact .inr trivial

theorem readOpening_eq (cs : List Char) :
    readOpening v cs = match skip v cs with
      | '^' :: rest => readFirst v true (skip v rest)
      | cs => readFirst v false cs := by
  unfold readOpening
  cases skip v cs with
  | nil => rfl
  | cons c rest =>
    by_cases hc : c = '^'
    · subst hc
      rfl
    · simp only [List.cons.injEq, hc, false_and, imp_false, not_false_eq_true, implies_true]
      rfl

theorem readOpening_append (cs : List Char) :
    (∃ negated items rest, readOpening v cs = .ok (negated, items, rest) ∧
      rest.length ≤ cs.length ∧ readOpening v (cs ++ r) = .ok (negated, items, rest ++ r)) ∨
    readOpening v cs = .error .classUnclosed := by
  rw [readOpening_eq, readOpening_eq]
  cases hskip : skip v cs with
  | nil => exact .inr rfl
  | cons c rest =>
    have hlen := length_of_skip hskip
    rw [skip_append hskip]
    by_cases hc : c = '^'
    · subst hc
      simp only
      cases hskip' : skip v rest with
      | nil => exact .inr rfl
      | cons d more =>
        have hlen' := length_of_skip hskip'
        rw [skip_append hskip']
        rcases readFirst_append true (List.cons_ne_nil d more) with
          ⟨items, last, hfirst, hle, hfirst'⟩ | hfirst
        · refine .inl ⟨true, items, last, hfirst, ?_, hfirst'⟩
          simp only [List.length_cons] at hle
          omega
        · exact .inr hfirst
    · simp only [List.cons.injEq, hc, false_and, imp_false, not_false_eq_true, implies_true]
      rcases readFirst_append false (List.cons_ne_nil c rest) with
        ⟨items, last, hfirst, hle, hfirst'⟩ | hfirst
      · refine .inl ⟨false, items, last, hfirst, ?_, hfirst'⟩
        simp only [List.length_cons] at hle
        omega
      · exact .inr hfirst

end Opening

section Inside

def doubled? (c : Char) (rest : List Char) : Option ClassOp :=
  if rest.head? = some c then
    if c = '&' then some .intersection
    else if c = '-' then some .difference
    else if c = '~' then some .symmetricDifference
    else none
  else none

private theorem doubled?_append (hr : EndsSequence r) (c : Char) (rest : List Char) :
    doubled? c (rest ++ r) = doubled? c rest := by
  cases rest with
  | nil =>
    cases r with
    | nil => rfl
    | cons a r =>
      unfold doubled?
      by_cases hc : a = c
      · subst hc
        rcases hr a rfl with rfl | rfl <;> rfl
      · simp [hc]
  | cons a rest => rfl

theorem exists_of_doubled? {c : Char} {rest : List Char} {kind : ClassOp}
    (h : doubled? c rest = some kind) : ∃ more, rest = c :: more := by
  unfold doubled? at h
  split at h
  · rename_i hhead
    cases rest with
    | nil => simp at hhead
    | cons a rest => exact ⟨rest, by rw [Option.some.inj hhead]⟩
  · simp at h

theorem readInside_succ (fuel : Nat) (pending : Pending) (items : List ClassTree)
    {c : Char} {rest : List Char} (h : skip v cs = c :: rest) :
    readInside v (fuel + 1) pending items cs =
      if c = ']' then .ok (pending.close items, rest)
      else match doubled? c rest with
        | some kind => readInside v fuel (some (kind, pending.close items)) [] rest.tail
        | none =>
          if c = '[' then
            match readAscii? rest with
            | some (item, cs) => readInside v fuel pending (item :: items) cs
            | none => (do
              let (item, cs) ← readClass v fuel rest
              readInside v fuel pending (item :: items) cs)
          else (do
            let (item, cs) ← readRange v (c :: rest)
            readInside v fuel pending (item :: items) cs) := by
  rw [readInside, h]
  split
  · rename_i heq
    simp at heq
  · rename_i heq
    obtain ⟨rfl, rfl⟩ := List.cons.inj heq
    rfl
  · rename_i heq
    obtain ⟨rfl, rfl⟩ := List.cons.inj heq
    rfl
  · rename_i heq
    obtain ⟨rfl, rfl⟩ := List.cons.inj heq
    rfl
  · rename_i heq
    obtain ⟨rfl, rfl⟩ := List.cons.inj heq
    rfl
  · rename_i heq
    obtain ⟨rfl, rfl⟩ := List.cons.inj heq
    have hnone : ∀ rest, doubled? '[' rest = none := by
      intro rest
      simp [doubled?]
    rw [if_neg (by decide), hnone]
    exact (if_pos rfl).symm
  · rename_i hclose hand hhyphen htilde hopen
    have hnone : doubled? c rest = none := by
      unfold doubled?
      split
      · rename_i hhead
        obtain ⟨more, rfl⟩ : ∃ more, rest = c :: more := by
          cases rest with
          | nil => simp at hhead
          | cons a rest => exact ⟨rest, by rw [Option.some.inj hhead]⟩
        have hand' : c ≠ '&' := by
          rintro rfl
          exact hand more rfl
        have hhyphen' : c ≠ '-' := by
          rintro rfl
          exact hhyphen more rfl
        have htilde' : c ≠ '~' := by
          rintro rfl
          exact htilde more rfl
        simp [hand', hhyphen', htilde']
      · rfl
    have hclose' : c ≠ ']' := by
      rintro rfl
      exact hclose rest rfl
    have hopen' : c ≠ '[' := by
      rintro rfl
      exact hopen rest rfl
    rw [if_neg hclose', hnone, if_neg hopen']

/-- Reading goes on behind an item that has been read. -/
private theorem readInside_nil (fuel : Nat) (pending : Pending) (items : List ClassTree) :
    readInside v fuel pending items [] = .error .classUnclosed := by
  cases fuel with
  | zero => rfl
  | succ fuel => cases v <;> rfl

section Calls

variable {fuel fuel' : Nat} (ihinside : ∀ pending items cs, Extends r v cs.length
  (readInside v fuel pending items cs) (readInside v fuel' pending items (cs ++ r)))

include ihinside

private theorem class_extends (cs : List Char) :
    Extends r v cs.length (readClass v (fuel + 1) cs) (readClass v (fuel' + 1) (cs ++ r)) := by
  rw [readClass, readClass]
  rcases readOpening_append (v := v) (r := r) cs with
    ⟨negated, items, rest, hopen, hle, hopen'⟩ | hopen
  · rw [hopen, hopen']
    apply (ihinside none items.reverse rest).bind
    intro inside last last' hlast h
    exact .ok _ (hlast.trans hle) h
  · rw [hopen]
    exact .unfinished rfl _

/-- Something is left behind an item, or the class is not closed in the source. -/
private theorem more_extends {n : Nat} {pending : Pending} {items : List ClassTree}
    {rest rest' : List Char} (hle : rest.length ≤ n) (h : Beside r v rest rest') :
    Extends r v n (readInside v fuel pending items rest)
      (readInside v fuel' pending items rest') := by
  cases rest with
  | nil =>
    rw [readInside_nil]
    exact .unfinished rfl _
  | cons c rest =>
    rw [h (.inl (by simp))]
    exact (ihinside _ _ _).mono hle

private theorem inside_extends (hr : EndsSequence r)
    (ihclass : ∀ cs, Extends r v cs.length (readClass v fuel cs) (readClass v fuel' (cs ++ r)))
    (pending : Pending) (items : List ClassTree) (cs : List Char) :
    Extends r v cs.length (readInside v (fuel + 1) pending items cs)
      (readInside v (fuel' + 1) pending items (cs ++ r)) := by
  cases hskip : skip v cs with
  | nil =>
    have hread : readInside v (fuel + 1) pending items cs = .error .classUnclosed := by
      rw [readInside, hskip]
    rw [hread]
    exact .unfinished rfl _
  | cons c rest =>
    have hlen := length_of_skip hskip
    rw [readInside_succ _ _ _ hskip, readInside_succ _ _ _ (skip_append hskip)]
    split
    · exact .ok _ hlen.le .append
    · rw [doubled?_append hr]
      cases hdouble : doubled? c rest with
      | some kind =>
        obtain ⟨more, rfl⟩ := exists_of_doubled? hdouble
        simp only [List.cons_append, List.tail_cons]
        rw [List.length_cons] at hlen
        exact more_extends ihinside (by omega) .append
      | none =>
        simp only
        split
        · rw [readAscii?_append hr]
          cases hascii : readAscii? rest with
          | some p =>
            obtain ⟨item, after⟩ := p
            have hle := length_readAscii? hascii
            exact more_extends ihinside (hle.trans hlen.le) .append
          | none =>
            apply (ihclass rest).bind
            intro item last last' hle h
            exact more_extends ihinside (hle.trans hlen.le) h
        · have hrange := readRange_extends (v := v) hr (c :: rest)
          apply hrange.bind
          intro item last last' hle h
          exact more_extends ihinside (hle.trans hlen) h

end Calls

/-- The reader of a class and the one of its inside, by induction on their calls. -/
private theorem readClass_readInside_extends (hr : EndsSequence r) (fuel : Nat) :
    ∀ fuel', fuel ≤ fuel' →
      (∀ cs, Extends r v cs.length (readClass v fuel cs) (readClass v fuel' (cs ++ r))) ∧
      ∀ pending items cs, Extends r v cs.length (readInside v fuel pending items cs)
        (readInside v fuel' pending items (cs ++ r)) := by
  induction fuel with
  | zero => exact fun _ _ => ⟨fun _ => .unfinished rfl _, fun _ _ _ => .unfinished rfl _⟩
  | succ fuel ih =>
    intro fuel' hfuel
    obtain ⟨fuel', rfl⟩ := Nat.exists_eq_add_of_le' (Nat.zero_lt_of_lt hfuel)
    obtain ⟨ihclass, ihinside⟩ := ih fuel' (by omega)
    exact ⟨class_extends ihinside, inside_extends ihinside hr ihclass⟩

theorem readClass_extends (hr : EndsSequence r) {fuel fuel' : Nat} (hfuel : fuel ≤ fuel') :
    Extends r v cs.length (readClass v fuel cs) (readClass v fuel' (cs ++ r)) :=
  (readClass_readInside_extends hr fuel fuel' hfuel).1 cs

end Inside

end PairGrep.Pattern.Reader
