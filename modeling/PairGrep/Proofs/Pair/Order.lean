import PairGrep.Proofs.Pair.Scan
import PairGrep.Proofs.Pair.Size

/-!
# The order of the terms in a search for values

A search for values asks of its texts only which keys one of them ends. Main statement: searches for
the same texts without quotes and colons find the same tokens, in whatever order and however often the
texts are given; only the size of the expression can tell them apart.
-/

namespace PairGrep

open Pattern

section Scan

variable {texts more : List (List Char)}

theorem keyFits_congr (h : ∀ w, w ∈ texts ↔ w ∈ more) (u : List Char) :
    keyFits .values texts u ↔ keyFits .values more u :=
  exists_congr fun t => and_congr_left fun _ => h t

theorem longestKey?_congr (h : ∀ w, w ∈ texts ↔ w ∈ more) (front : List Char) :
    longestKey? .values texts front = longestKey? .values more front := by
  unfold longestKey?
  congr 1
  funext u
  exact decide_eq_decide.mpr (keyFits_congr h (unquote u))

theorem scanTokens_congr (h : ∀ w, w ∈ texts ↔ w ∈ more) (text : List Char) :
    scanTokens .values texts text = scanTokens .values more text := by
  induction hn : text.length using Nat.strong_induction_on generalizing text with
  | h n ih =>
    by_cases hcolon : ':' ∈ text
    · obtain ⟨front, rest, rfl, hfront⟩ := List.eq_append_cons_of_mem hcolon
      have hrest : ∀ left : List Char, left.length ≤ rest.length →
          scanTokens .values texts left = scanTokens .values more left := by
        intro left hleft
        refine ih left.length ?_ left rfl
        rw [← hn, List.length_append, List.length_cons]
        omega
      have hpast : pastSide? .values texts rest = pastSide? .values more rest := rfl
      rw [scanTokens_append hfront, scanTokens_append hfront, colonTokens, colonTokens,
        longestKey?_congr h, hpast, hrest rest le_rfl]
      cases longestKey? .values more front with
      | none => rfl
      | some key =>
        cases hleft : pastSide? .values more rest with
        | none => rfl
        | some left => simp only [hrest left (pastSide?_suffix hleft).length_le]
    · rw [scanTokens_of_not_mem hcolon, scanTokens_of_not_mem hcolon]

end Scan

/-- Searches for values with the same texts, of which none has a quote or a colon, find the same tokens,
unless the expression of one of them is too large. -/
theorem Matcher.values_same_texts [Sizing] {terms more : List Term}
    (hterms : ∀ t ∈ terms, t.isPattern = false) (hmore : ∀ t ∈ more, t.isPattern = false)
    (hsame : ∀ w, w ∈ Term.texts terms ↔ w ∈ Term.texts more)
    (hfree : ∀ w ∈ Term.texts terms, '"' ∉ w ∧ ':' ∉ w) (text : String) :
    ∃ tokens, ∀ list ∈ [terms, more], Matcher.default.values text list =
      if sizeLimit < Sizing.bytes (searchExpr .values (Term.texts list)) then .error .tooLarge
      else .ok tokens := by
  refine ⟨scanTokens .values (Term.texts terms) text.toList, ?_⟩
  rw [List.forall_mem_cons, List.forall_mem_singleton]
  constructor
  · exact Matcher.search_delimited .values hterms hfree text
  · rw [scanTokens_congr hsame]
    exact Matcher.search_delimited .values hmore (fun w hw => hfree w ((hsame w).mpr hw)) text

theorem Matcher.values_reorderedTerms :
    Matcher.default.values "\x7b\"b c\":1, \"c\":\"x\"\x7d"
      [.literal "c", .literal "b c", .literal "c"] = .ok [.number (.int 1 (by decide)), .text "x"] := by
  have hset : ∀ w, w ∈ Term.texts [.literal "b c", .literal "c"] ↔
      w ∈ Term.texts [.literal "c", .literal "b c", .literal "c"] := by
    intro w
    simp only [Term.texts, List.map_cons, List.map_nil, List.mem_cons, List.not_mem_nil, or_false]
    tauto
  have hfirst : Matcher.default.values "\x7b\"b c\":1, \"c\":\"x\"\x7d"
      [.literal "b c", .literal "c"] = .ok [.number (.int 1 (by decide)), .text "x"] := by
    decide +kernel
  have hsize : ∀ list ∈ [[Term.literal "b c", .literal "c"],
      [Term.literal "c", .literal "b c", .literal "c"]],
      ¬sizeLimit < Sizing.bytes (searchExpr .values (Term.texts list)) := by decide +kernel
  obtain ⟨tokens, htokens⟩ := Matcher.values_same_texts (by decide) (by decide) hset (by decide)
    "\x7b\"b c\":1, \"c\":\"x\"\x7d"
  have hsame := fun list hlist => (htokens list hlist).trans (if_neg (hsize list hlist))
  rw [hsame _ (by simp), ← hsame _ List.mem_cons_self, hfirst]

section Size

def wideText : List Char := List.replicate 20 '𝒳'

def repeatedTerms (n : ℕ) : List Term :=
  .literal "" :: List.replicate n (.literal (String.ofList wideText))

theorem texts_repeatedTerms (n : ℕ) :
    Term.texts (repeatedTerms n) = [] :: List.replicate n wideText := by
  simp [Term.texts, repeatedTerms, Term.text]

theorem mem_texts_repeatedTerms {n : ℕ} {w : List Char} :
    w ∈ Term.texts (repeatedTerms n) ↔ w = [] ∨ n ≠ 0 ∧ w = wideText := by
  rw [texts_repeatedTerms, List.mem_cons, List.mem_replicate]

theorem sizeLimit_lt_repeatedTerms [Sizing] [LawfulSizing] {n : ℕ} (hn : 5000 ≤ n) :
    sizeLimit < Sizing.bytes (searchExpr .values (Term.texts (repeatedTerms n))) := by
  have hempty : [] ∈ Term.texts (repeatedTerms n) := mem_texts_repeatedTerms.mpr (.inl rfl)
  have hsum := LawfulSizing.sum_le .values _ hempty
  have hlength : ((Term.texts (repeatedTerms n)).map utf8Length).sum = n * 80 := by
    have hwide : utf8Length wideText = 80 := by decide +kernel
    rw [texts_repeatedTerms, List.map_cons, List.map_replicate, List.sum_cons,
      List.sum_replicate, hwide, smul_eq_mul]
    exact Nat.zero_add _
  rw [sizeLimit]
  omega

/-- Repetition of a term can make the expression too large. -/
theorem Matcher.values_repeatedTerms :
    (∀ n ∈ [1, 10000], (∀ t ∈ repeatedTerms n, t.isPattern = false) ∧
      ∀ w ∈ Term.texts (repeatedTerms n), '"' ∉ w ∧ ':' ∉ w) ∧
    (∀ w, w ∈ Term.texts (repeatedTerms 1) ↔ w ∈ Term.texts (repeatedTerms 10000)) ∧
    ∀ [Sizing] [LawfulSizing],
      Matcher.default.values "\x7b\"a\":1\x7d" (repeatedTerms 1) =
        .ok [.number (.int 1 (by decide))] ∧
      Matcher.default.values "\x7b\"a\":1\x7d" (repeatedTerms 10000) = .error .tooLarge := by
  have hterms : ∀ n, ∀ t ∈ repeatedTerms n, t.isPattern = false := by
    intro n
    simp [repeatedTerms, Term.isPattern]
  have hfree : ∀ n, ∀ w ∈ Term.texts (repeatedTerms n), '"' ∉ w ∧ ':' ∉ w := by
    intro n w hw
    rcases mem_texts_repeatedTerms.mp hw with rfl | ⟨-, rfl⟩ <;> decide
  refine ⟨fun n _ => ⟨hterms n, hfree n⟩, fun w => ?_, ?_⟩
  · rw [mem_texts_repeatedTerms, mem_texts_repeatedTerms]
    simp
  intro _ _
  have hsearch := fun n => Matcher.search_delimited .values (hterms n) (hfree n) "\x7b\"a\":1\x7d"
  constructor
  · have hsize : ¬sizeLimit < Sizing.bytes (searchExpr .values (Term.texts (repeatedTerms 1))) :=
      not_lt.mpr (bytes_le_sizeLimit .values (by decide +kernel))
    have htext : "\x7b\"a\":1\x7d".toList = ['{', '"', 'a', '"'] ++ ':' :: ['1', '}'] := by decide
    have hscan : scanTokens .values (Term.texts (repeatedTerms 1)) "\x7b\"a\":1\x7d".toList =
        [.number (.int 1 (by decide))] := by
      have hkey : longestKey? .values (Term.texts (repeatedTerms 1)) ['{', '"', 'a', '"'] =
        some ['"'] := by decide +kernel
      have hpast : pastSide? .values (Term.texts (repeatedTerms 1)) ['1', '}'] = some [] := by
        decide +kernel
      rw [htext, scanTokens_append (by decide), colonTokens, hkey, hpast]
      simp only
      rw [scanTokens_of_not_mem (by decide)]
      decide +kernel
    rw [Matcher.values, hsearch, if_neg hsize, hscan]
  · rw [Matcher.values, hsearch, if_pos (sizeLimit_lt_repeatedTerms (by decide))]

end Size

end PairGrep
