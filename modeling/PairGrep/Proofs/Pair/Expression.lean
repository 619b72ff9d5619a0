import PairGrep.Proofs.Pair.Source
import PairGrep.Proofs.Search.Matches

/-!
# The expression of the pattern of pairs

The source of a search compiles to the program of one expression, in which the terms are the
alternatives of their texts; the only way to fail is the limit on the size of the program.
-/

namespace PairGrep.Pattern

open Reader

def keyTree : Tree :=
  .repeated 0 none true (.bracket false (.union (.range (plain 'a') (plain 'z'))
    (.union (.range (plain 'A') (plain 'Z')) (.union (.range (plain '0') (plain '9'))
      (.union (.literal (plain '_')) (.literal (plain '-')))))))

def valueTree : Tree :=
  .cat .quote (.cat (.repeated 0 none true
      (.bracket true (.union (.literal (plain '"')) (.literal (plain ',')))))
    (.scope [] (.alt (.bracket false (.union (.literal (plain '"')) (.literal (plain ','))))
      (.anchor .lineEnd))))

private theorem defaultKeyPattern_chars : defaultKeyPattern.toList =
    ['[', 'a', '-', 'z', 'A', '-', 'Z', '0', '-', '9', '_', '\\', '-', ']', '*'] := by decide

private theorem defaultValuePattern_chars : defaultValuePattern.toList =
    ['"', '?', '[', '^', '"', ',', ']', '*', '(', '?', ':', '[', '"', ',', ']', '|', '$', ')'] := by
  decide

-- The fuel is written out, for the reader to run on the characters one by one.
theorem readsAs_keyPattern : ReadsAs defaultKeyPattern.toList keyTree := by
  rw [defaultKeyPattern_chars]
  intro fuel captures names rest hfuel
  obtain ⟨n, rfl⟩ : ∃ n, fuel = n + 62 := Nat.exists_eq_add_of_le' hfuel
  clear hfuel
  rfl

theorem readsAs_valuePattern : ReadsAs defaultValuePattern.toList valueTree := by
  rw [defaultValuePattern_chars]
  intro fuel captures names rest hfuel
  obtain ⟨n, rfl⟩ : ∃ n, fuel = n + 74 := Nat.exists_eq_add_of_le' hfuel
  clear hfuel
  let group := '(' :: '?' :: ':' :: '[' :: '"' :: ',' :: ']' :: '|' :: '$' :: ')' :: ')' :: rest
  have hend : readSequence (n + 70) ⟨')' :: rest, false, captures, names⟩ =
      .ok (.empty, ⟨')' :: rest, false, captures, names⟩) := rfl
  have hgroup : readSequence (n + 71) ⟨group, false, captures, names⟩ =
      .ok (.scope [] (.alt (.bracket false (.union (.literal (plain '"')) (.literal (plain ','))))
        (.anchor .lineEnd)), ⟨')' :: rest, false, captures, names⟩) :=
    readSequence_step (by decide) rfl rfl hend
  have hclass : readSequence (n + 72)
      ⟨'[' :: '^' :: '"' :: ',' :: ']' :: '*' :: group, false, captures, names⟩ =
        .ok (_, ⟨')' :: rest, false, captures, names⟩) :=
    readSequence_step (by decide) (e := .bracket true (.union (.literal (plain '"'))
      (.literal (plain ',')))) rfl rfl hgroup
  have hhead : ∀ c, ('[' :: '^' :: '"' :: ',' :: ']' :: '*' :: group).head? = some c →
      isRepetition c = false := by
    rintro c ⟨⟩
    decide
  rw [readAlternatives]
  simp only [List.cons_append, List.nil_append]
  rw [readSequence_quote hhead, hclass]
  rfl

theorem depths_ofText (text : List Char) :
    (Tree.ofText text).depths.1 ≤ 1 ∧ (Tree.ofText text).depths.2.1 = 0 ∧
      (Tree.ofText text).depths.2.2 ≤ 1 := by
  induction text with
  | nil => decide
  | cons c text ih =>
    have hcons : Tree.ofText (c :: text) = .cons (.literal (plain c)) (.ofText text) := rfl
    rw [hcons]
    generalize Tree.ofText text = tree at ih
    cases tree <;> simp_all [Tree.cons, Tree.depths]

theorem depths_ofTexts (texts : List (List Char)) :
    (Tree.ofTexts texts).depths.1 ≤ 2 ∧ (Tree.ofTexts texts).depths.2.2 ≤ 1 := by
  induction texts with
  | nil => decide
  | cons text more ih =>
    have htext := depths_ofText text
    cases more with
    | nil => exact ⟨by simp only [Tree.ofTexts]; omega, htext.2.2⟩
    | cons next more =>
      simp only [Tree.ofTexts, Tree.depths] at ih ⊢
      omega

private theorem depth_pairTree {k v : Tree} (hk : k.depths.1 ≤ 5) (hv : v.depths.1 ≤ 5) :
    (pairTree k v).depth ≤ nestLimit := by
  simp only [pairTree, pairTreeAt, Tree.quote, Tree.depth, Tree.depths, nestLimit]
  omega

namespace Expr

def ofText (text : List Char) : Expr :=
  text.foldr (fun c e => .cons (.set (.single c)) e) .empty

def quote : Expr := .repeated 0 (some 1) true (.set (.single '"'))

/-- The expression of the pattern of pairs, the capture of the value having the given number. -/
def pairAt (index : Nat) (key value : Expr) : Expr :=
  .cat quote (.cat (.capture 1 key) (.cat quote (.cat (.set (.single ':'))
    (.cat (.repeated 0 none true (.set Unicode.space)) (.cat quote
      (.cat (.capture index value) quote))))))

def pair (key value : Expr) : Expr := pairAt 2 key value

end Expr

def keyChars : CharSet := ⟨[(45, 45), (48, 57), (65, 90), (95, 95), (97, 122)]⟩

def valueEnds : CharSet := ⟨[(34, 34), (44, 44)]⟩

def keyExpr : Expr := .repeated 0 none true (.set keyChars)

def valueExpr : Expr :=
  .cat .quote (.cat (.repeated 0 none true (.set valueEnds.complement))
    (.alt (.set valueEnds) (.look .textEnd)))

theorem branches_keyTree : Elaborate.branches .initial keyTree = .ok ([keyExpr], .initial) := by
  decide +kernel

theorem branches_valueTree :
    Elaborate.branches .initial valueTree = .ok ([valueExpr], .initial) := by
  decide +kernel

theorem branches_ofText (text : List Char) :
    Elaborate.branches .initial (.ofText text) = .ok ([.ofText text], .initial) := by
  induction text with
  | nil => rfl
  | cons c text ih =>
    have htree : Tree.ofText (c :: text) = .cons (.literal (plain c)) (.ofText text) := rfl
    have hexpr : Expr.ofText (c :: text) = .cons (.set (.single c)) (.ofText text) := rfl
    have hchar : Elaborate.branches .initial (.literal (plain c)) =
        .ok ([.set (.single c)], .initial) := rfl
    rw [htree, hexpr]
    cases text with
    | nil => exact hchar
    | cons d text =>
      have hcat : Tree.cons (.literal (plain c)) (.ofText (d :: text)) =
          .cat (.literal (plain c)) (.ofText (d :: text)) := by
        have hne : Tree.ofText (d :: text) ≠ .empty := by
          simp only [Tree.ofText, List.foldr_cons, Tree.cons]
          split <;> simp
        rw [Tree.cons]
        exact hne
      rw [hcat, Elaborate.branches, hchar]
      simp only [ih, bind, Except.bind]
      rfl

theorem branches_ofTexts (text : List Char) (more : List (List Char)) :
    Elaborate.branches .initial (.ofTexts (text :: more)) =
      .ok ((text :: more).map .ofText, .initial) := by
  induction more generalizing text with
  | nil => exact branches_ofText text
  | cons next more ih =>
    rw [Tree.ofTexts.eq_3 _ _ (by simp), Elaborate.branches, branches_ofText]
    simp only [ih, bind, Except.bind]
    rfl

theorem elaborate_pairTreeAt (index : Nat) {k v : Tree} {ks vs : List Expr} {f g : Flags}
    (hk : Elaborate.branches .initial k = .ok (ks, f))
    (hv : Elaborate.branches .initial v = .ok (vs, g)) :
    (pairTreeAt index k v).elaborate = .ok (.pairAt index (.choice ks) (.choice vs)) := by
  have hquote : Elaborate.branches .initial .quote = .ok ([.quote], .initial) := rfl
  have hcolon : Elaborate.branches .initial (.literal (plain ':')) =
      .ok ([.set (.single ':')], .initial) := rfl
  have hspace : Elaborate.branches .initial (.repeated 0 none true (.short false .space)) =
      .ok ([.repeated 0 none true (.set Unicode.space)], .initial) := rfl
  have hkey : Elaborate.branches .initial (.capture 1 k) =
      .ok ([.capture 1 (.choice ks)], .initial) := by
    rw [Elaborate.branches, hk]
    rfl
  have hvalue : Elaborate.branches .initial (.capture index v) =
      .ok ([.capture index (.choice vs)], .initial) := by
    rw [Elaborate.branches, hv]
    rfl
  have hcat : ∀ {a b : Tree} {d e : Expr}, Elaborate.branches .initial a = .ok ([d], .initial) →
      Elaborate.branches .initial b = .ok ([e], .initial) →
        Elaborate.branches .initial (.cat a b) = .ok ([.sequence d e], .initial) := by
    intro a b d e ha hb
    rw [Elaborate.branches, ha]
    simp only [hb, bind, Except.bind]
    rfl
  rw [Tree.elaborate, pairTreeAt, hcat hquote (hcat hkey (hcat hquote (hcat hcolon (hcat hspace
    (hcat hquote (hcat hvalue hquote))))))]
  rfl

theorem elaborate_pairTree {k v : Tree} {ks vs : List Expr} {f g : Flags}
    (hk : Elaborate.branches .initial k = .ok (ks, f))
    (hv : Elaborate.branches .initial v = .ok (vs, g)) :
    (pairTree k v).elaborate = .ok (.pair (.choice ks) (.choice vs)) :=
  elaborate_pairTreeAt 2 hk hv

/-- The expression of a search for texts. -/
def searchExpr (side : Side) (texts : List (List Char)) : Expr :=
  match side with
  | .keys => .pair keyExpr (.choice (texts.map .ofText))
  | .values => .pair (.choice (texts.map .ofText)) valueExpr

theorem head_escapeMeta_append (text : List Char) (rest : List Char) :
    (escapeMeta text ++ rest).head? = some '?' → text = [] ∧ rest.head? = some '?' := by
  cases text with
  | nil => exact fun h => ⟨rfl, h⟩
  | cons c text =>
    rw [escapeMeta_cons]
    intro h
    by_cases hc : isMeta c
    · simp [hc] at h
    · obtain rfl : c = '?' := by simpa [hc] using h
      exact absurd rfl hc

private theorem head_textsSource (texts : List (List Char)) :
    (textsSource texts).head? ≠ some '?' := by
  intro h
  match texts with
  | [] => simp [textsSource] at h
  | [text] =>
    have := head_escapeMeta_append text [] (by simpa [textsSource] using h)
    simp at this
  | text :: next :: more =>
    have := head_escapeMeta_append text _ h
    simp at this

private theorem intercalate_escapeMeta (texts : List (List Char)) :
    ['|'].intercalate (texts.map escapeMeta) = textsSource texts := by
  induction texts with
  | nil => rfl
  | cons text more ih =>
    cases more with
    | nil => simp [textsSource]
    | cons next more =>
      rw [textsSource.eq_3 _ _ (by simp), ← ih]
      simp

theorem alternatives_eq {terms : List Term} (h : ∀ t ∈ terms, t.isPattern = false) :
    Term.alternatives terms = textsSource (Term.texts terms) := by
  have hsource : ∀ t ∈ terms, t.source = escapeMeta t.text := by
    intro t ht
    cases t with
    | literal | number => rfl
    | pattern => exact absurd (h _ ht) (by simp [Term.isPattern])
  cases terms with
  | nil => rfl
  | cons t terms =>
    have hmap : (t :: terms).map Term.source = ((t :: terms).map Term.text).map escapeMeta := by
      rw [List.map_map]
      exact List.map_congr_left hsource
    rw [Term.alternatives, hmap, intercalate_escapeMeta]
    rfl

theorem compile_eq [Sizing] {source : List Char} {tree : Tree} {e : Expr}
    (hread : readPattern source = .ok tree) (he : tree.elaborate = .ok e) :
    Program.compile source =
      if sizeLimit < Sizing.bytes e then .error .tooLarge else .ok (.ofExpr e) := by
  rw [Program.compile, hread]
  simp only [bind, Except.bind, he]
  split <;> rfl

/-- A search for literals and numbers compiles to the program of one expression, but for its
size. -/
theorem compile_sides [Sizing] (side : Side) {terms : List Term}
    (h : ∀ t ∈ terms, t.isPattern = false) :
    Program.compile (pairSource (Matcher.default.sides side terms).1
        (Matcher.default.sides side terms).2) =
      if sizeLimit < Sizing.bytes (searchExpr side (Term.texts terms)) then .error .tooLarge
      else .ok (.ofExpr (searchExpr side (Term.texts terms))) := by
  obtain ⟨text, more, htexts⟩ : ∃ text more, Term.texts terms = text :: more := by
    cases terms with
    | nil => exact ⟨_, _, rfl⟩
    | cons t terms => exact ⟨_, _, rfl⟩
  have hterms := readsAs_texts (Term.texts terms)
  have hhead := head_textsSource (Term.texts terms)
  have hbranches := branches_ofTexts text more
  have hdepth := (depths_ofTexts (Term.texts terms)).1
  rw [← htexts] at hbranches
  cases side with
  | keys =>
    have hread := readPattern_pairSource readsAs_keyPattern hterms (by decide) hhead
      (depth_pairTree (by decide) (by omega))
    have helab := elaborate_pairTree branches_keyTree hbranches
    rw [← alternatives_eq h] at hread
    exact compile_eq hread helab
  | values =>
    have hread := readPattern_pairSource hterms readsAs_valuePattern hhead (by decide)
      (depth_pairTree (by omega) (by decide))
    have helab := elaborate_pairTree hbranches branches_valueTree
    rw [← alternatives_eq h] at hread
    exact compile_eq hread helab

end PairGrep.Pattern
