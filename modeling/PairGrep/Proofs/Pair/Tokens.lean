import PairGrep.Proofs.Pair.Elements

/-!
# The tokens of a search

A search for literals and numbers reports one token for each pair of places that its expression's
paths join, from left to right.
-/

namespace PairGrep.Pattern

namespace Cursor

def taken (c d : Cursor) : List Char := c.after.take (d.before.length - c.before.length)

theorem taken_of_over {c d : Cursor} {w : List Char} (h : c.Over w d) : c.taken d = w := by
  obtain ⟨ha, hb⟩ := h
  rw [taken, ha, hb]
  simp

end Cursor

namespace Moves

theorem mem_scan {f : Moves} (hf : f.Forward) (hadv : f.Advances) {c : Cursor}
    {x : Cursor × Cursor} (hx : x ∈ f.scan c) :
    x.1.whole = c.whole ∧ x.1.marks = [] ∧ x.2 ∈ f x.1 := by
  induction hn : c.after.length using Nat.strong_induction_on generalizing c with
  | h n ih =>
    cases hd : (f c.bare).head? with
    | some d =>
      have hmem := List.mem_of_head? hd
      obtain ⟨w, hover⟩ := hf c.bare d hmem
      rw [scan_of_some hadv hd] at hx
      rcases List.mem_cons.mp hx with rfl | hx
      · exact ⟨rfl, rfl, hmem⟩
      · obtain ⟨hwhole, hrest⟩ := ih d.after.length (hn ▸ hadv c.bare d hmem) hx rfl
        exact ⟨hwhole.trans hover.whole_eq, hrest⟩
    | none =>
      obtain ⟨before, after, marks⟩ := c
      cases after with
      | nil => simp [scan_of_end hadv] at hx
      | cons a after =>
        rw [scan_of_none hd] at hx
        obtain ⟨hwhole, hrest⟩ := ih after.length (by simp [← hn]) hx rfl
        exact ⟨by rw [hwhole]; simp [Cursor.whole], hrest⟩

end Moves

theorem Match.text_between {c d : Cursor} {w text : List Char} (h : c.Over w d)
    (hc : c.whole = text) : (Match.between c d).text text.toArray = c.taken d := by
  obtain ⟨ha, hb⟩ := h
  subst hc
  simp [Match.text, Match.between, Cursor.taken, Cursor.whole, ha, hb]

theorem productive_searchExpr (side : Side) (texts : List (List Char)) :
    (searchExpr side texts).productive = true := by
  have hchoice := Expr.productive_choice texts
  cases side with
  | keys =>
    simp [searchExpr, Expr.pair, Expr.pairAt, Expr.productive, Expr.takesChar, Expr.quote, keyExpr,
      hchoice]
  | values =>
    simp [searchExpr, Expr.pair, Expr.pairAt, Expr.productive, Expr.takesChar, Expr.quote,
      valueExpr, hchoice]

theorem takesChar_searchExpr (side : Side) (texts : List (List Char)) :
    (searchExpr side texts).takesChar = true := by
  cases side <;> simp [searchExpr, Expr.pair, Expr.pairAt, Expr.takesChar]

end PairGrep.Pattern

namespace PairGrep

open Pattern

/-- The tokens of the first paths from place to place. -/
def pathTokens (side : Side) (texts : List (List Char)) (c : Cursor) : List Token :=
  ((searchExpr side texts).paths.scan c).map fun x => Token.ofMatch side (x.1.taken x.2)

/-- The answer of a search for literals and numbers: their expression is too large, or the tokens are
those of its paths. -/
theorem Matcher.search_default [Sizing] (side : Side) {terms : List Term}
    (h : ∀ t ∈ terms, t.isPattern = false) (text : String) :
    Matcher.default.search text terms side =
      if sizeLimit < Sizing.bytes (searchExpr side (Term.texts terms)) then .error .tooLarge
      else .ok (pathTokens side (Term.texts terms) ⟨[], text.toList, []⟩) := by
  have hcompile := compile_sides side h
  have hproductive := productive_searchExpr side (Term.texts terms)
  have htakes := takesChar_searchExpr side (Term.texts terms)
  rw [pathTokens]
  generalize searchExpr side (Term.texts terms) = e at *
  have hmatches : ((Program.ofExpr e).allMatches text.toList.toArray).map
      (·.text text.toList.toArray) =
        (e.paths.scan ⟨[], text.toList, []⟩).map fun x => x.1.taken x.2 := by
    rw [Program.allMatches_ofExpr hproductive htakes, List.map_map]
    apply List.map_congr_left
    intro x hx
    obtain ⟨hwhole, -, hpath⟩ :=
      Moves.mem_scan e.paths_forward (Expr.paths_advances htakes) hx
    obtain ⟨w, hover⟩ := e.paths_forward _ _ hpath
    exact Match.text_between hover hwhole
  simp only [search, scanPairs, hcompile]
  split
  · rfl
  · simp only [bind, Except.bind, pure, Except.pure, hmatches, List.map_map]
    rfl

end PairGrep
