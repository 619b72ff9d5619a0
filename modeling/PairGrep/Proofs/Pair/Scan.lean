import PairGrep.Proofs.Pair.FirstPath
import PairGrep.Proofs.Pair.Groups

/-!
# Scanning for pairs

A search for texts without quotes and colons goes from colon to colon: at each it looks whether the
characters in front of it end in a key and those behind it start with a value, reports the pair and
goes on behind the value, or else goes on behind the colon.
-/

namespace PairGrep

open Pattern

/-- The longest end of a text that can be matched as a key of a pair. -/
def longestKey? (side : Side) (texts : List (List Char)) (front : List Char) : Option (List Char) :=
  front.tails.find? fun u => decide (keyFits side texts (unquote u))

/-- The tokens of the pairs in a text, colon by colon. -/
def scanTokens (side : Side) (texts : List (List Char)) (text : List Char) : List Token :=
  match _h : text.dropWhile (· != ':') with
  | [] => []
  | _ :: rest =>
    match longestKey? side texts (text.takeWhile (· != ':')), pastSide? side texts rest with
    | some key, some more =>
      if more.length < text.length then
        .ofGroup side key (rest.take (rest.length - more.length)) :: scanTokens side texts more
      else []
    | _, _ => scanTokens side texts rest
termination_by text.length
decreasing_by
  · assumption
  all_goals
    have hle := (List.dropWhile_suffix (· != ':') (l := text)).length_le
    rw [_h] at hle
    exact hle

def colonTokens (side : Side) (texts : List (List Char)) (front rest : List Char) : List Token :=
  match longestKey? side texts front, pastSide? side texts rest with
  | some key, some more =>
    .ofGroup side key (rest.take (rest.length - more.length)) :: scanTokens side texts more
  | _, _ => scanTokens side texts rest

section Equations

variable {side : Side} {texts : List (List Char)}

theorem exists_of_pastText? {text more : List Char} (h : pastText? texts text = some more) :
    ∃ t ∈ texts, t <+: text ∧ more = unquote (text.drop t.length) := by
  obtain ⟨t, ht, rfl⟩ := Option.map_eq_some_iff.mp h
  exact ⟨t, List.mem_of_find?_eq_some ht, by simpa using List.find?_some ht, rfl⟩

theorem pastText?_suffix {text more : List Char} (h : pastText? texts text = some more) :
    more <:+ text := by
  obtain ⟨t, -, -, rfl⟩ := exists_of_pastText? h
  exact (unquote_suffix _).trans (List.drop_suffix _ _)

theorem pastValue_suffix (text : List Char) : pastValue text <:+ text :=
  (unquote_suffix _).trans ((List.drop_suffix _ _).trans (List.dropWhile_suffix _))

theorem pastSide?_suffix {text more : List Char} (h : pastSide? side texts text = some more) :
    more <:+ text := by
  cases side with
  | keys => exact (pastText?_suffix h).trans ((unquote_suffix _).trans (List.dropWhile_suffix _))
  | values =>
    obtain rfl := Option.some.inj h
    exact (pastValue_suffix _).trans ((unquote_suffix _).trans ((unquote_suffix _).trans
      (List.dropWhile_suffix _)))

theorem scanTokens_of_not_mem {text : List Char} (h : ':' ∉ text) :
    scanTokens side texts text = [] := by
  have hdrop : text.dropWhile (· != ':') = [] := by
    rw [List.dropWhile_eq_nil_iff]
    intro c hc
    exact bne_iff_ne.mpr fun hcolon => h (hcolon ▸ hc)
  rw [scanTokens]
  split
  · rfl
  · rename_i heq
    rw [hdrop] at heq
    simp at heq

theorem scanTokens_append {front : List Char} (h : ':' ∉ front) (rest : List Char) :
    scanTokens side texts (front ++ ':' :: rest) = colonTokens side texts front rest := by
  have hfront : ∀ c ∈ front, (c != ':') = true := by
    intro c hc
    exact bne_iff_ne.mpr fun hcolon => h (hcolon ▸ hc)
  have hdrop : (front ++ ':' :: rest).dropWhile (· != ':') = ':' :: rest := by
    rw [List.dropWhile_append_of_pos hfront, List.dropWhile_cons_of_neg (by simp)]
  have htake : (front ++ ':' :: rest).takeWhile (· != ':') = front := by
    rw [List.takeWhile_append_of_pos hfront, List.takeWhile_cons_of_neg (by simp), List.append_nil]
  rw [scanTokens]
  split
  · rename_i heq
    rw [hdrop] at heq
    simp at heq
  · rename_i heq
    rw [hdrop] at heq
    obtain ⟨-, rfl⟩ := List.cons.inj heq
    rw [htake, colonTokens]
    cases longestKey? side texts front with
    | none => rfl
    | some key =>
      cases hpast : pastSide? side texts rest with
      | none => rfl
      | some more =>
        have hle := (pastSide?_suffix hpast).length_le
        simp only
        rw [if_pos (by simp; omega)]

end Equations

section Search

variable {side : Side} {texts : List (List Char)}

theorem ofMatch_append {u : List Char} (hu : ':' ∉ u) (v : List Char) :
    Token.ofMatch side (u ++ ':' :: v) = .ofGroup side u v := by
  apply ofMatch_eq_ofGroup _ hu
  rw [strip_append]
  rfl

theorem taken_of_after {c d : Cursor} (hd : d ∈ (searchExpr side texts).paths c) {v : List Char}
    (h : c.after = v ++ d.after) : c.taken d = v := by
  obtain ⟨w, hover⟩ := (searchExpr side texts).paths_forward c d hd
  rw [Cursor.taken_of_over hover]
  exact List.append_cancel_right (hover.1.symm.trans h)

theorem longestKey?_cons (a : Char) (front : List Char) :
    longestKey? side texts (a :: front) =
      if keyFits side texts (unquote (a :: front)) then some (a :: front)
      else longestKey? side texts front := by
  rw [longestKey?, List.tails_cons, List.find?_cons]
  by_cases h : keyFits side texts (unquote (a :: front)) <;> simp [h, longestKey?]

theorem longestKey?_of_fits {front : List Char} (h : keyFits side texts (unquote front)) :
    longestKey? side texts front = some front := by
  cases front <;> simp [longestKey?, h]

private theorem pathTokens_of_some (htexts : Delimited side texts) {front rest : List Char}
    (hfront : ':' ∉ front) {c d : Cursor} (hc : c.after = front ++ ':' :: rest)
    (hd : ((searchExpr side texts).paths c.bare).head? = some d) :
    keyFits side texts (unquote front) ∧ pastSide? side texts rest = some d.after ∧
      pathTokens side texts c =
        .ofGroup side front (rest.take (rest.length - d.after.length)) ::
          pathTokens side texts d := by
  have hadv := Expr.paths_advances (takesChar_searchExpr side texts)
  have hhead := head?_paths_of_colon side (c := c.bare) htexts hfront hc
  rw [hd, Option.map_some] at hhead
  by_cases hfits : keyFits side texts (unquote front)
  · rw [if_pos hfits] at hhead
    obtain ⟨v, hv⟩ := pastSide?_suffix hhead.symm
    have hafter : c.bare.after = (front ++ ':' :: v) ++ d.after := by
      rw [Cursor.bare, hc, ← hv]
      simp
    have htake : rest.take (rest.length - d.after.length) = v := by
      rw [← hv]
      simp
    refine ⟨hfits, hhead.symm, ?_⟩
    rw [pathTokens, Moves.scan_of_some hadv hd, List.map_cons,
      taken_of_after (List.mem_of_head? hd) hafter, ofMatch_append hfront, htake]
    rfl
  · simp [hfits] at hhead

private theorem colonTokens_nil {rest : List Char}
    (h : (if keyFits side texts (unquote []) then pastSide? side texts rest else none) = none) :
    colonTokens side texts [] rest = scanTokens side texts rest := by
  rw [colonTokens]
  by_cases hfits : keyFits side texts (unquote [])
  · rw [if_pos hfits] at h
    rw [h]
    cases longestKey? side texts [] <;> rfl
  · have hnone : longestKey? side texts [] = none := by simp [longestKey?, hfits]
    rw [hnone]

private theorem colonTokens_cons {a : Char} {front rest : List Char}
    (h : (if keyFits side texts (unquote (a :: front)) then pastSide? side texts rest else none) =
      none) : colonTokens side texts (a :: front) rest = colonTokens side texts front rest := by
  rw [colonTokens, colonTokens, longestKey?_cons]
  by_cases hfits : keyFits side texts (unquote (a :: front))
  · rw [if_pos hfits] at h
    rw [h, if_pos hfits]
    cases longestKey? side texts front <;> rfl
  · rw [if_neg hfits]

private theorem pathTokens_front (htexts : Delimited side texts) {rest : List Char}
    (hrest : ∀ d : Cursor, d.after.length ≤ rest.length →
      pathTokens side texts d = scanTokens side texts d.after)
    {front : List Char} (hfront : ':' ∉ front) (c : Cursor) (hc : c.after = front ++ ':' :: rest) :
    pathTokens side texts c = colonTokens side texts front rest := by
  have hhit : ∀ {front : List Char}, ':' ∉ front → ∀ {c d : Cursor}, c.after = front ++ ':' :: rest →
      ((searchExpr side texts).paths c.bare).head? = some d →
        pathTokens side texts c = colonTokens side texts front rest := by
    intro front hfront c d hc hd
    obtain ⟨hfits, hpast, htokens⟩ := pathTokens_of_some htexts hfront hc hd
    rw [htokens, colonTokens, longestKey?_of_fits hfits, hpast,
      hrest d (pastSide?_suffix hpast).length_le]
  -- Where no path starts, the key does not fit or no value follows, and the next place is tried.
  induction front generalizing c with
  | nil =>
    cases hd : ((searchExpr side texts).paths c.bare).head? with
    | some d => exact hhit hfront hc hd
    | none =>
      have hhead := head?_paths_of_colon side (c := c.bare) htexts hfront hc
      rw [hd, Option.map_none] at hhead
      obtain ⟨before, after, marks⟩ := c
      obtain rfl : after = ':' :: rest := hc
      rw [pathTokens, Moves.scan_of_none hd, colonTokens_nil hhead.symm]
      exact hrest _ (Nat.le_refl _)
  | cons a front ih =>
    cases hd : ((searchExpr side texts).paths c.bare).head? with
    | some d => exact hhit hfront hc hd
    | none =>
      have hhead := head?_paths_of_colon side (c := c.bare) htexts hfront hc
      rw [hd, Option.map_none] at hhead
      obtain ⟨before, after, marks⟩ := c
      obtain rfl : after = a :: (front ++ ':' :: rest) := hc
      rw [pathTokens, Moves.scan_of_none hd, colonTokens_cons hhead.symm]
      exact ih (fun h => hfront (List.mem_cons_of_mem a h)) _ rfl

/-- The tokens of the first paths from place to place are those of the scan from colon to colon. -/
theorem pathTokens_eq (htexts : Delimited side texts) (c : Cursor) :
    pathTokens side texts c = scanTokens side texts c.after := by
  have hadv := Expr.paths_advances (takesChar_searchExpr side texts)
  induction hn : c.after.length using Nat.strong_induction_on generalizing c with
  | h n ih =>
    by_cases hcolon : ':' ∈ c.after
    · obtain ⟨front, rest, hsplit, hfront⟩ := List.eq_append_cons_of_mem hcolon
      rw [hsplit, scanTokens_append hfront]
      refine pathTokens_front htexts (fun d hd => ih d.after.length ?_ d rfl) hfront c hsplit
      rw [hsplit, List.length_append, List.length_cons] at hn
      omega
    · rw [scanTokens_of_not_mem hcolon]
      obtain ⟨before, after, marks⟩ := c
      cases after with
      | nil => rw [pathTokens, Moves.scan_of_end hadv, List.map_nil]
      | cons a after =>
        rw [pathTokens, Moves.scan_of_none (head?_paths_of_not_mem htexts hcolon)]
        have hnext : ':' ∉ after := fun h => hcolon (List.mem_cons_of_mem a h)
        exact (ih after.length (by simp [← hn]) ⟨a :: before, after, []⟩ rfl).trans
          (scanTokens_of_not_mem hnext)

end Search

/-- The answer of a search for delimited texts: their expression is too large, or the tokens are those
of the scan from colon to colon. -/
theorem Matcher.search_delimited [Sizing] (side : Side) {terms : List Term}
    (h : ∀ t ∈ terms, t.isPattern = false) (htexts : Delimited side (Term.texts terms))
    (text : String) :
    Matcher.default.search text terms side =
      if sizeLimit < Sizing.bytes (searchExpr side (Term.texts terms)) then .error .tooLarge
      else .ok (scanTokens side (Term.texts terms) text.toList) := by
  rw [Matcher.search_default side h, pathTokens_eq htexts]

theorem Matcher.search_plain [Sizing] (side : Side) {terms : List Term}
    (h : ∀ t ∈ terms, t.isPattern = false) (hplain : ∀ t ∈ Term.texts terms, Plain t)
    (text : String) :
    Matcher.default.search text terms side =
      if sizeLimit < Sizing.bytes (searchExpr side (Term.texts terms)) then .error .tooLarge
      else .ok (scanTokens side (Term.texts terms) text.toList) :=
  Matcher.search_delimited side h (delimited_of_plain side hplain) text

end PairGrep
