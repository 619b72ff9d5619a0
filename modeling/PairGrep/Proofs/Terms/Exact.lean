import PairGrep.Proofs.Terms.Union

/-!
# Terms that stand for themselves

The alternatives of literals and numbers as the source of whole texts. Main statement: the source
compiles but for its size, and matches the texts of the terms and no others. So neither the order of
the terms nor their repetition changes what is matched.
-/

namespace PairGrep

open Pattern Pattern.Reader

namespace Pattern

def wholeExpr (texts : List (List Char)) : Expr := (Expr.choice (texts.map .ofText)).anchored

section Texts

variable {texts : List (List Char)}

theorem readPattern_anchored_texts (texts : List (List Char)) :
    readPattern (anchored (textsSource texts)) = .ok (Tree.ofTexts texts).anchored := by
  have hlen : 4 * (anchored (textsSource texts)).length + 4 =
      4 * (textsSource texts).length + 22 + 6 := by
    simp [anchored]
    omega
  have hread := readsAs_texts texts (4 * (textsSource texts).length + 23) 0 [] ['$'] (by omega)
  have hdepth : (Tree.ofTexts texts).anchored.depth ≤ nestLimit := by
    have hle := (depths_ofTexts texts).1
    rw [Tree.depth_anchored, Tree.depth, nestLimit]
    omega
  rw [readPattern, hlen, readAlternatives_anchored hread]
  simp [bind, Except.bind, pure, Except.pure, Nat.not_lt.mpr hdepth]

/-- The source of whole texts compiles but for its size. -/
theorem compile_anchored_texts [Sizing] (hne : texts ≠ []) :
    Program.compile (anchored (textsSource texts)) =
      if sizeLimit < Sizing.bytes (wholeExpr texts) then .error .tooLarge
      else .ok (.ofExpr (wholeExpr texts)) := by
  obtain ⟨text, more, rfl⟩ := List.exists_cons_of_ne_nil hne
  exact compile_eq (readPattern_anchored_texts _) (Tree.elaborate_anchored (branches_ofTexts text more))

theorem tidy_ofText (text : List Char) : (Expr.ofText text).Tidy :=
  Elaborate.tidy_of_branches (reads_escapeMeta text).valid (branches_ofText text) _
    (List.mem_singleton_self _)

theorem isMatch_wholeExpr (texts : List (List Char)) (text : String) :
    (Program.ofExpr (wholeExpr texts)).isMatch text = true ↔ text.toList ∈ texts := by
  have htidy : ∀ e ∈ texts.map Expr.ofText, e.Tidy := by
    intro e he
    obtain ⟨t, -, rfl⟩ := List.mem_map.mp he
    exact tidy_ofText t
  rw [wholeExpr, Program.isMatch_anchored]
  simp only [Expr.spans_choice htidy, List.mem_map, exists_exists_and_eq_and, spans_ofText,
    List.drop_zero, zero_add]
  constructor
  · rintro ⟨j, hj, t, ht, hstart, rfl⟩
    exact hstart.eq_of_length_le hj ▸ ht
  · intro htext
    exact ⟨_, le_rfl, _, htext, List.prefix_rfl, rfl⟩

end Texts

end Pattern

section Terms

variable {terms : List Term}

theorem texts_ne_nil (terms : List Term) : Term.texts terms ≠ [] := by
  cases terms <;> simp [Term.texts]

theorem mem_texts_iff {text : String} : text.toList ∈ Term.texts terms ↔
    (∃ t ∈ terms, t.text = text.toList) ∨ terms = [] ∧ text = "" := by
  cases terms with
  | nil => simp [Term.texts, String.toList_eq_nil_iff]
  | cons t terms => simp [Term.texts, eq_comm (a := text.toList)]

/-- Literals and numbers match their texts and no others, an empty list of them the empty text; their
source compiles but for its size. So lists with the same texts match alike. -/
theorem isMatch_escaped [Sizing] (h : ∀ t ∈ terms, t.isPattern = false) :
    (Program.compile (anchored (Term.alternatives terms)) =
      if sizeLimit < Sizing.bytes (wholeExpr (Term.texts terms)) then .error .tooLarge
      else .ok (.ofExpr (wholeExpr (Term.texts terms)))) ∧
    (∀ text : String, (Program.ofExpr (wholeExpr (Term.texts terms))).isMatch text = true ↔
      (∃ t ∈ terms, t.text = text.toList) ∨ terms = [] ∧ text = "") ∧
    ∀ more : List Term, (∀ w, w ∈ more.map Term.text ↔ w ∈ terms.map Term.text) →
      ∀ text, (Program.ofExpr (wholeExpr (Term.texts more))).isMatch text =
        (Program.ofExpr (wholeExpr (Term.texts terms))).isMatch text := by
  refine ⟨?_, fun text => (isMatch_wholeExpr _ text).trans mem_texts_iff, fun more hmore text => ?_⟩
  · rw [alternatives_eq h]
    exact compile_anchored_texts (texts_ne_nil terms)
  · have hmem : text.toList ∈ Term.texts more ↔ text.toList ∈ Term.texts terms := by
      have hnil : more = [] ↔ terms = [] := by
        rw [← List.map_eq_nil_iff (f := Term.text), ← List.map_eq_nil_iff (f := Term.text),
          List.eq_nil_iff_forall_not_mem, List.eq_nil_iff_forall_not_mem]
        exact forall_congr' fun w => not_congr (hmore w)
      have htext := hmore text.toList
      rw [List.mem_map, List.mem_map] at htext
      rw [mem_texts_iff, mem_texts_iff, htext, hnil]
    rw [Bool.eq_iff_iff, isMatch_wholeExpr, isMatch_wholeExpr, hmem]

def escapedTerms : List Term := [.literal "(a|b)*\n", .number (.int (-7) (by decide)), .literal ""]

theorem isMatch_escapedTerms :
    (∀ t ∈ escapedTerms, t.isPattern = false) ∧
    ∃ p, Program.compile (anchored (Term.alternatives escapedTerms)) = .ok p ∧
      p.isMatch "(a|b)*\n" = true ∧ p.isMatch "-7" = true ∧ p.isMatch "" = true ∧
      p.isMatch "ab" = false := by
  have hterms : ∀ t ∈ escapedTerms, t.isPattern = false := by decide +kernel
  have hsize : ¬sizeLimit < Sizing.bytes (wholeExpr (Term.texts escapedTerms)) := by decide +kernel
  obtain ⟨hcompile, hmatch, -⟩ := isMatch_escaped hterms
  rw [if_neg hsize] at hcompile
  refine ⟨hterms, _, hcompile, (hmatch _).mpr ?_, (hmatch _).mpr ?_, (hmatch _).mpr ?_, ?_⟩
  · decide +kernel
  · decide +kernel
  · decide +kernel
  · rw [Bool.eq_false_iff, ne_eq, hmatch]
    decide +kernel

end Terms

end PairGrep
