import Mathlib
import PairGrep.Matcher

/-!
# The source of the pattern of pairs

What the source of a search is read as and what expression it has, where the terms are literals and
numbers: the escaped text of a term is read as the row of its characters, and bars between terms
separate alternatives.
-/

namespace PairGrep

open Pattern Pattern.Reader

def Term.text : Term → List Char
  | .literal text => text.toList
  | .number n => n.searchText
  | .pattern _ => []

/-- The texts that are searched for: an empty list of terms counts as the one empty text. -/
def Term.texts (terms : List Term) : List (List Char) :=
  match terms with
  | [] => [[]]
  | terms => terms.map text

namespace Pattern

def Tree.ofText (text : List Char) : Tree :=
  text.foldr (fun c tree => .cons (.literal (plain c)) tree) .empty

def Tree.ofTexts : List (List Char) → Tree
  | [] => .empty
  | [text] => .ofText text
  | text :: more => .alt (.ofText text) (.ofTexts more)

def textsSource : List (List Char) → List Char
  | [] => []
  | [text] => escapeMeta text
  | text :: more => escapeMeta text ++ '|' :: textsSource more

/-- Does nothing that belongs to a sequence of elements follow? -/
def EndsSequence (rest : List Char) : Prop := ∀ c, rest.head? = some c → c = ')' ∨ c = '|'

section Reading

variable {captures : Nat} {names : List (List Char)} {rest : List Char}

theorem escapeMeta_cons (c : Char) (text : List Char) :
    escapeMeta (c :: text) = (if isMeta c then ['\\', c] else [c]) ++ escapeMeta text := rfl

theorem length_le_escapeMeta (text : List Char) : text.length ≤ (escapeMeta text).length := by
  induction text with
  | nil => exact Nat.le_refl _
  | cons c text ih =>
    rw [escapeMeta_cons]
    split <;> simp <;> omega

private theorem head_escapeMeta (hrest : EndsSequence rest) (text : List Char) (c : Char)
    (hc : (escapeMeta text ++ rest).head? = some c) : isRepetition c = false := by
  cases text with
  | nil =>
    rcases hrest c hc with rfl | rfl <;> rfl
  | cons a text =>
    rw [escapeMeta_cons] at hc
    by_cases ha : isMeta a
    · obtain rfl : '\\' = c := by simpa [ha] using hc
      rfl
    · obtain rfl : a = c := by simpa [ha] using hc
      by_contra hrep
      have hrep' : isRepetition a = true := by simpa using hrep
      simp only [isRepetition, Bool.or_eq_true, beq_iff_eq] at hrep'
      rcases hrep' with ((rfl | rfl) | rfl) | rfl <;> exact ha rfl

private theorem readOperators_none (fuel : List Char) (tree : Tree) (cs : List Char)
    (h : ∀ c, cs.head? = some c → isRepetition c = false) :
    readOperators false fuel tree cs = .ok (tree, cs) := by
  cases fuel with
  | nil => rfl
  | cons _ fuel =>
    cases cs with
    | nil => rfl
    | cons c cs =>
      have hc := h c rfl
      simp [readOperators, skip, hc]

private theorem readEscape_meta {c : Char} (h : isMeta c = true) (cs : List Char) :
    readEscape false (c :: cs) = .ok (.literal (plain c), cs) := by
  unfold isMeta at h
  split at h <;> first | rfl | simp at h

private theorem readSimple_plain {c : Char} (h : isMeta c = false) (cs : List Char) :
    readSimple false c cs = .ok (.literal (plain c), cs) := by
  unfold readSimple
  split <;> first | rfl | simp [isMeta] at h

/-- An element with its operators is read in front of a sequence. -/
theorem readSequence_cons {fuel captures' : Nat} {names' : List (List Char)} {c : Char}
    {rest' rest'' : List Char} {e e' : Tree} (hc : ¬(c = ')' ∨ c = '|'))
    (helement : readElement fuel c ⟨rest, false, captures, names⟩ =
      .ok (e, ⟨rest', false, captures', names'⟩))
    (hops : readOperators false rest' e rest' = .ok (e', rest'')) :
    readSequence (fuel + 1) ⟨c :: rest, false, captures, names⟩ =
      (readSequence fuel ⟨rest'', false, captures', names'⟩).map fun p => (e'.cons p.1, p.2) := by
  rw [readSequence]
  simp only [skip, Bool.false_eq_true, if_false, if_neg hc]
  simp only [helement, hops, bind, Except.bind]
  cases readSequence fuel ⟨rest'', false, captures', names'⟩ <;> rfl

theorem readSequence_step {fuel captures' : Nat} {names' : List (List Char)} {c : Char}
    {rest' rest'' : List Char} {e e' more : Tree} {s : Reader.State} (hc : ¬(c = ')' ∨ c = '|'))
    (helement : readElement fuel c ⟨rest, false, captures, names⟩ =
      .ok (e, ⟨rest', false, captures', names'⟩))
    (hops : readOperators false rest' e rest' = .ok (e', rest''))
    (hmore : readSequence fuel ⟨rest'', false, captures', names'⟩ = .ok (more, s)) :
    readSequence (fuel + 1) ⟨c :: rest, false, captures, names⟩ = .ok (e'.cons more, s) := by
  rw [readSequence_cons hc helement hops, hmore]
  rfl

private theorem readElement_char (captures : Nat) (names : List (List Char)) (fuel : Nat) (c : Char)
    (cs : List Char) :
    ∃ x xs, (if isMeta c then ['\\', c] else [c]) ++ cs = x :: xs ∧ ¬(x = ')' ∨ x = '|') ∧
      readElement (fuel + 1) x ⟨xs, false, captures, names⟩ =
        .ok (.literal (plain c), ⟨cs, false, captures, names⟩) := by
  by_cases h : isMeta c
  · refine ⟨'\\', c :: cs, by simp [h], by decide, ?_⟩
    have hesc := readEscape_meta h cs
    rw [readElement]
    simp [isRepetition, readSimple, hesc, bind, Except.bind, pure, Except.pure]
  · have hne : ∀ x, isMeta x = true → c ≠ x := fun x hx hcx => h (hcx ▸ hx)
    have hrep : isRepetition c = false := by
      simp [isRepetition, hne '?' rfl, hne '*' rfl, hne '+' rfl, hne '{' rfl]
    refine ⟨c, cs, by simp [h], by simp [hne ')' rfl, hne '|' rfl], ?_⟩
    have hsimple := readSimple_plain (by simpa using h) cs
    rw [readElement]
    simp [hrep, hne '(' rfl, hsimple, bind, Except.bind, pure, Except.pure]

theorem readSequence_escapeMeta (hrest : EndsSequence rest) (fuel : Nat) (text : List Char)
    (hfuel : text.length < fuel) :
    readSequence fuel ⟨escapeMeta text ++ rest, false, captures, names⟩ =
      .ok (.ofText text, ⟨rest, false, captures, names⟩) := by
  induction text generalizing fuel with
  | nil =>
    obtain ⟨fuel, rfl⟩ := Nat.exists_eq_succ_of_ne_zero (Nat.ne_zero_of_lt hfuel)
    cases rest with
    | nil => rfl
    | cons c rest =>
      have hc := hrest c rfl
      rw [readSequence]
      simp [escapeMeta, skip, hc, Tree.ofText]
  | cons c text ih =>
    obtain ⟨fuel, rfl⟩ := Nat.exists_eq_succ_of_ne_zero (Nat.ne_zero_of_lt hfuel)
    rw [List.length_cons] at hfuel
    obtain ⟨more, rfl⟩ := Nat.exists_eq_succ_of_ne_zero (show fuel ≠ 0 by omega)
    obtain ⟨x, xs, hsplit, hx, helement⟩ :=
      readElement_char captures names more c (escapeMeta text ++ rest)
    have hops := readOperators_none (escapeMeta text ++ rest) (.literal (plain c))
      (escapeMeta text ++ rest) (head_escapeMeta hrest text)
    have hmore := ih (more + 1) (by omega)
    rw [escapeMeta_cons, List.append_assoc, hsplit]
    exact readSequence_step hx helement hops hmore

theorem readAlternatives_texts (hrest : rest = [] ∨ rest.head? = some ')') (fuel : Nat)
    (texts : List (List Char)) (hfuel : (textsSource texts).length + 2 ≤ fuel) :
    readAlternatives fuel ⟨textsSource texts ++ rest, false, captures, names⟩ =
      .ok (.ofTexts texts, ⟨rest, false, captures, names⟩) := by
  have hends : EndsSequence rest := by
    intro c hc
    rcases hrest with rfl | h
    · simp at hc
    · exact .inl (Option.some.inj (hc.symm.trans h))
  have hlast : ∀ (fuel : Nat) (text : List Char), (escapeMeta text).length + 2 ≤ fuel →
      readAlternatives fuel ⟨escapeMeta text ++ rest, false, captures, names⟩ =
        .ok (.ofText text, ⟨rest, false, captures, names⟩) := by
    intro fuel text hfuel
    obtain ⟨fuel, rfl⟩ := Nat.exists_eq_succ_of_ne_zero (show fuel ≠ 0 by omega)
    have hlen := length_le_escapeMeta text
    have hseq : readSequence fuel ⟨escapeMeta text ++ rest, false, captures, names⟩ =
        .ok (.ofText text, ⟨rest, false, captures, names⟩) :=
      readSequence_escapeMeta hends fuel text (by omega)
    rw [readAlternatives]
    simp only [hseq, bind, Except.bind]
    cases rest with
    | nil => rfl
    | cons c rest =>
      obtain rfl : c = ')' := by simpa using hrest
      rfl
  induction texts generalizing fuel with
  | nil => exact hlast fuel [] hfuel
  | cons text more ih =>
    cases more with
    | nil => exact hlast fuel text hfuel
    | cons next more =>
      obtain ⟨fuel, rfl⟩ := Nat.exists_eq_succ_of_ne_zero (show fuel ≠ 0 by omega)
      have hlen := length_le_escapeMeta text
      simp only [textsSource, List.length_append, List.length_cons] at hfuel
      have hbar : EndsSequence ('|' :: (textsSource (next :: more) ++ rest)) :=
        fun c hc => .inr (Option.some.inj hc).symm
      have hseq : readSequence fuel
          ⟨escapeMeta text ++ '|' :: (textsSource (next :: more) ++ rest), false, captures, names⟩ =
            .ok (.ofText text,
              ⟨'|' :: (textsSource (next :: more) ++ rest), false, captures, names⟩) :=
        readSequence_escapeMeta hbar fuel text (by omega)
      have htail := ih fuel (by omega)
      rw [readAlternatives]
      simp only [textsSource, List.append_assoc, List.cons_append]
      simp [hseq, htail, bind, Except.bind, pure, Except.pure, Tree.ofTexts]

end Reading

/-- The source reads as the tree within parentheses. -/
def ReadsAs (source : List Char) (tree : Tree) : Prop :=
  ∀ (fuel captures : Nat) (names : List (List Char)) (rest : List Char),
    4 * source.length + 2 ≤ fuel →
      readAlternatives fuel ⟨source ++ ')' :: rest, false, captures, names⟩ =
        .ok (tree, ⟨')' :: rest, false, captures, names⟩)

theorem readsAs_texts (texts : List (List Char)) : ReadsAs (textsSource texts) (.ofTexts texts) :=
  fun fuel _ _ _ hfuel => readAlternatives_texts (.inr rfl) fuel texts (by omega)

def Tree.quote : Tree := .repeated 0 (some 1) true (.literal (plain '"'))

def Tree.colonCons (more : Tree) : Tree :=
  .cons (.literal (plain ':')) (.cons (.repeated 0 none true (.short false .space)) more)

/-- The tree of the pattern of pairs, the capture of the value having the given number. -/
def pairTreeAt (index : Nat) (key value : Tree) : Tree :=
  .cat .quote (.cat (.capture 1 key) (.cat .quote (.cat (.literal (plain ':'))
    (.cat (.repeated 0 none true (.short false .space)) (.cat .quote
      (.cat (.capture index value) .quote))))))

def pairTree (key value : Tree) : Tree := pairTreeAt 2 key value

section Pair

variable {fuel captures : Nat} {names : List (List Char)} {rest : List Char} {more : Tree}
  {s : Reader.State}

private theorem head_ne_of_eq {c : Char} (hc : isRepetition c = false) (cs : List Char) :
    ∀ x, (c :: cs).head? = some x → isRepetition x = false := by
  intro x hx
  rwa [← Option.some.inj hx]

theorem readSequence_quote (hrest : ∀ c, rest.head? = some c → isRepetition c = false) :
    readSequence (fuel + 2) ⟨'"' :: '?' :: rest, false, captures, names⟩ =
      (readSequence (fuel + 1) ⟨rest, false, captures, names⟩).map fun p =>
        (Tree.quote.cons p.1, p.2) := by
  have hops : readOperators false ('?' :: rest) (.literal (plain '"')) ('?' :: rest) =
      .ok (.quote, rest) := by
    have hlazy : readLazy rest = (true, rest) := by
      cases rest with
      | nil => rfl
      | cons c rest =>
        have hc : c ≠ '?' := by
          rintro rfl
          exact absurd (hrest '?' rfl) (by decide)
        simp [readLazy, hc]
    have hop : readOperator false (.literal (plain '"')) '?' rest = .ok (.quote, rest) := by
      simp [readOperator, isOperand, hlazy, Tree.quote]
    have hstop := readOperators_none rest .quote rest hrest
    rw [readOperators]
    simp [skip, isRepetition, hop, hstop, bind, Except.bind]
  have helement : readElement (fuel + 1) '"' ⟨'?' :: rest, false, captures, names⟩ =
      .ok (.literal (plain '"'), ⟨'?' :: rest, false, captures, names⟩) := rfl
  exact readSequence_cons (by decide) helement hops

theorem readSequence_colon :
    readSequence (fuel + 3) ⟨':' :: '\\' :: 's' :: '*' :: '"' :: rest, false, captures, names⟩ =
      (readSequence (fuel + 1) ⟨'"' :: rest, false, captures, names⟩).map fun p =>
        (Tree.colonCons p.1, p.2) := by
  have hspace : readElement (fuel + 1) '\\' ⟨'s' :: '*' :: '"' :: rest, false, captures, names⟩ =
      .ok (.short false .space, ⟨'*' :: '"' :: rest, false, captures, names⟩) := rfl
  have hstar : readOperators false ('*' :: '"' :: rest) (.short false .space)
      ('*' :: '"' :: rest) = .ok (.repeated 0 none true (.short false .space), '"' :: rest) := rfl
  have hcolon : readElement (fuel + 2) ':'
      ⟨'\\' :: 's' :: '*' :: '"' :: rest, false, captures, names⟩ =
        .ok (.literal (plain ':'), ⟨'\\' :: 's' :: '*' :: '"' :: rest, false, captures, names⟩) := rfl
  have hnone : readOperators false ('\\' :: 's' :: '*' :: '"' :: rest) (.literal (plain ':'))
      ('\\' :: 's' :: '*' :: '"' :: rest) =
        .ok (.literal (plain ':'), '\\' :: 's' :: '*' :: '"' :: rest) := rfl
  rw [readSequence_cons (by decide) hcolon hnone, readSequence_cons (by decide) hspace hstar]
  cases readSequence (fuel + 1) ⟨'"' :: rest, false, captures, names⟩ <;> rfl

theorem readElement_capture {source : List Char} (hq : source.head? ≠ some '?') :
    readElement (fuel + 1) '(' ⟨source ++ ')' :: rest, false, captures, names⟩ = (do
      let (body, t) ← readBody fuel ⟨source ++ ')' :: rest, false, captures + 1, names⟩
      return (.capture (captures + 1) body, { t with verbose := false })) := by
  have hopen : readOpener ⟨source ++ ')' :: rest, false, captures, names⟩ =
      .ok (.capture none, source ++ ')' :: rest) := by
    cases source with
    | nil => rfl
    | cons c source =>
      have hc : c ≠ '?' := fun h => hq (by rw [h]; rfl)
      simp [readOpener, skip, hc]
  rw [readElement]
  simp [isRepetition, hopen, bind, Except.bind]

theorem readSequence_capture {source : List Char} {tree : Tree} {captures' : Nat}
    {names' : List (List Char)} (hq : source.head? ≠ some '?')
    (hrest : ∀ c, rest.head? = some c → isRepetition c = false)
    (hsource : readAlternatives fuel ⟨source ++ ')' :: rest, false, captures + 1, names⟩ =
      .ok (tree, ⟨')' :: rest, false, captures', names'⟩)) :
    readSequence (fuel + 3) ⟨'(' :: (source ++ ')' :: rest), false, captures, names⟩ =
      (readSequence (fuel + 2) ⟨rest, false, captures', names'⟩).map fun p =>
        ((Tree.capture (captures + 1) tree).cons p.1, p.2) := by
  have hbody : readBody (fuel + 1) ⟨source ++ ')' :: rest, false, captures + 1, names⟩ =
      .ok (tree, ⟨rest, false, captures', names'⟩) := by
    rw [readBody]
    simp [hsource, bind, Except.bind, pure, Except.pure]
  have helement : readElement (fuel + 2) '(' ⟨source ++ ')' :: rest, false, captures, names⟩ =
      .ok (.capture (captures + 1) tree, ⟨rest, false, captures', names'⟩) := by
    rw [readElement_capture hq, hbody]
    rfl
  have hops := readOperators_none rest (.capture (captures + 1) tree) rest hrest
  exact readSequence_cons (by decide) helement hops

/-- What is left of the source of pairs behind the key. -/
def afterKey (value : List Char) : List Char :=
  '"' :: '?' :: ':' :: '\\' :: 's' :: '*' :: '"' :: '?' :: '(' :: (value ++ [')', '"', '?'])

theorem pairSource_eq (key value : List Char) :
    pairSource key value = '"' :: '?' :: '(' :: (key ++ ')' :: afterKey value) := by
  simp [pairSource, afterKey]

theorem readSequence_afterKey (value : List Char) :
    readSequence (fuel + 5) ⟨afterKey value, false, captures, names⟩ =
      (readSequence (fuel + 1) ⟨'(' :: (value ++ [')', '"', '?']), false, captures, names⟩).map
        fun p => (Tree.quote.cons (.colonCons (Tree.quote.cons p.1)), p.2) := by
  rw [afterKey, readSequence_quote (head_ne_of_eq (by decide) _), readSequence_colon,
    readSequence_quote (head_ne_of_eq (by decide) _)]
  cases readSequence (fuel + 1) ⟨'(' :: (value ++ [')', '"', '?']), false, captures, names⟩ <;> rfl

theorem readAlternatives_pairSource {key value : List Char} {k v : Tree}
    {keyCaptures valueCaptures : Nat} {keyNames valueNames : List (List Char)}
    (hkq : key.head? ≠ some '?') (hvq : value.head? ≠ some '?')
    (hk : readAlternatives (fuel + 8) ⟨key ++ ')' :: afterKey value, false, 1, []⟩ =
      .ok (k, ⟨')' :: afterKey value, false, keyCaptures, keyNames⟩))
    (hv : readAlternatives (fuel + 3) ⟨value ++ [')', '"', '?'], false, keyCaptures + 1, keyNames⟩ =
      .ok (v, ⟨[')', '"', '?'], false, valueCaptures, valueNames⟩)) :
    readAlternatives (fuel + 13) ⟨pairSource key value, false, 0, []⟩ =
      .ok (pairTreeAt (keyCaptures + 1) k v, ⟨[], false, valueCaptures, valueNames⟩) := by
  have hlast : readSequence (fuel + 5) ⟨['"', '?'], false, valueCaptures, valueNames⟩ =
      .ok (.quote, ⟨[], false, valueCaptures, valueNames⟩) := rfl
  have hafter : ∀ c, (afterKey value).head? = some c → isRepetition c = false :=
    head_ne_of_eq (by decide) _
  have hread : readSequence (fuel + 12) ⟨pairSource key value, false, 0, []⟩ =
      .ok (pairTreeAt (keyCaptures + 1) k v, ⟨[], false, valueCaptures, valueNames⟩) := by
    rw [pairSource_eq, readSequence_quote (head_ne_of_eq (by decide) _),
      readSequence_capture hkq hafter hk, readSequence_afterKey,
      readSequence_capture hvq (head_ne_of_eq (by decide) _) hv, hlast]
    rfl
  rw [readAlternatives, hread]
  rfl

theorem fuel_pairSource (key value : List Char) :
    4 * (pairSource key value).length + 4 = 4 * (key.length + value.length) + 55 + 13 := by
  simp [pairSource]
  omega

/-- The source of pairs reads as the tree of pairs. -/
theorem readPattern_pairSource {key value : List Char} {k v : Tree} (hk : ReadsAs key k)
    (hv : ReadsAs value v) (hkq : key.head? ≠ some '?') (hvq : value.head? ≠ some '?')
    (hdepth : (pairTree k v).depth ≤ nestLimit) :
    readPattern (pairSource key value) = .ok (pairTree k v) := by
  let fuel := 4 * (key.length + value.length) + 55
  have hread := readAlternatives_pairSource hkq hvq (hk (fuel + 8) _ _ _ (by omega))
    (hv (fuel + 3) _ _ _ (by omega))
  have htree : pairTreeAt (1 + 1) k v = pairTree k v := rfl
  rw [readPattern, fuel_pairSource, hread, htree]
  simp [bind, Except.bind, pure, Except.pure, Nat.not_lt.mpr hdepth]

end Pair

end Pattern

end PairGrep
