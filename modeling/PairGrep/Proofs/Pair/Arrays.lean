import PairGrep.Proofs.Pair.Document

/-!
# Searching arrays

The tokens of an array are those of its elements, one element after the other. A value that runs to the
end of its element takes the comma or bracket behind it, and with a comma the quote that may open the
next element; neither changes a token or hides a key.
-/

namespace PairGrep

open Pattern

section Separators

variable {side : Side} {texts : List (List Char)}

theorem not_keyFits_of_mem (hplain : ∀ t ∈ texts, Plain t) {a : Char} (ha : a ∈ ['[', ',', ']'])
    {text : List Char} (h : a ∈ text) : ¬keyFits side texts text := by
  have hclass : isKeyChar a = false ∧ isPlain a = false ∧ a ≠ '"' := by
    fin_cases ha <;> decide
  obtain ⟨hkey, hnot, hquote⟩ := hclass
  have hrest : ∀ {rest : List Char}, a ∈ rest → unquote rest ≠ [] := by
    intro rest hmem hnil
    rcases unquote_eq_nil hnil with rfl | rfl
    · simp at hmem
    · exact hquote (by simpa using hmem)
  cases side with
  | keys =>
    apply hrest
    rw [← List.takeWhile_append_dropWhile (p := isKeyChar) (l := text)] at h
    apply (List.mem_append.mp h).resolve_left
    intro hmem
    exact ne_of_class (List.mem_takeWhile_imp hmem) hkey rfl
  | values =>
    rintro ⟨t, ht, ⟨rest, rfl⟩, hnil⟩
    rw [List.drop_left] at hnil
    apply hrest _ hnil
    apply (List.mem_append.mp h).resolve_left
    intro hmem
    exact ne_of_class (hplain t ht a hmem) hnot rfl

theorem longestKey?_append (hplain : ∀ t ∈ texts, Plain t) {a : Char} (ha : a ∈ ['[', ',', ']'])
    (front rest : List Char) :
    longestKey? side texts (front ++ a :: rest) = longestKey? side texts rest := by
  have hquote : a ≠ '"' := by
    fin_cases ha <;> decide
  have hnot : ∀ {text : List Char}, a ∈ text → ¬keyFits side texts (unquote text) := by
    intro text hmem
    apply not_keyFits_of_mem hplain ha
    obtain ⟨q, hq, hsplit⟩ := exists_append_unquote text
    rw [hsplit] at hmem
    apply (List.mem_append.mp hmem).resolve_left
    rcases hq with rfl | rfl <;> simp [hquote]
  induction front with
  | nil => rw [List.nil_append, longestKey?_cons, if_neg (hnot (by simp))]
  | cons b front ih => rw [List.cons_append, longestKey?_cons, if_neg (hnot (by simp)), ih]

theorem scanTokens_separator (hplain : ∀ t ∈ texts, Plain t) {a : Char} (ha : a ∈ ['[', ',', ']'])
    {front : List Char} (hfront : ':' ∉ front) (rest : List Char) :
    scanTokens side texts (front ++ a :: rest) = scanTokens side texts rest := by
  have hcolon : a ≠ ':' := by
    fin_cases ha <;> decide
  by_cases hrest : ':' ∈ rest
  · obtain ⟨u, v, rfl, hu⟩ := List.eq_append_cons_of_mem hrest
    have hsplit : front ++ a :: (u ++ ':' :: v) = (front ++ a :: u) ++ ':' :: v := by simp
    rw [hsplit, scanTokens_append (by simp [hfront, hu, hcolon.symm]), scanTokens_append hu,
      colonTokens, colonTokens, longestKey?_append hplain ha]
  · rw [scanTokens_of_not_mem hrest, scanTokens_of_not_mem (by simp [hfront, hrest, hcolon.symm])]

theorem scanTokens_cons (hplain : ∀ t ∈ texts, Plain t) {a : Char} (ha : a ∈ ['[', ',', ']'])
    (rest : List Char) : scanTokens side texts (a :: rest) = scanTokens side texts rest := by
  have hskip : scanTokens side texts ([] ++ a :: rest) = scanTokens side texts rest :=
    scanTokens_separator hplain ha List.not_mem_nil rest
  exact hskip

private theorem colonTokens_values {front front' : List Char}
    (h : (longestKey? .values texts front).isSome ↔ (longestKey? .values texts front').isSome)
    (rest : List Char) : colonTokens .values texts front rest = colonTokens .values texts front' rest := by
  rw [colonTokens, colonTokens]
  cases hfront : longestKey? .values texts front with
  | none =>
    have hnone : longestKey? .values texts front' = none := by simpa [hfront] using h
    rw [hnone]
  | some key =>
    have hsome : (longestKey? .values texts front').isSome := h.mp (by simp [hfront])
    obtain ⟨key', hkey'⟩ := Option.isSome_iff_exists.mp hsome
    rw [hkey']
    rfl

theorem scanTokens_unquote (hplain : ∀ t ∈ texts, Plain t) (text : List Char) :
    scanTokens .values texts (unquote text) = scanTokens .values texts text := by
  obtain ⟨q, hq, hsplit⟩ := exists_append_unquote text
  generalize unquote text = rest at hsplit ⊢
  subst hsplit
  rcases hq with rfl | rfl
  · rfl
  · by_cases hrest : ':' ∈ rest
    · obtain ⟨u, v, rfl, hu⟩ := List.eq_append_cons_of_mem hrest
      rw [← List.append_assoc, scanTokens_append hu, scanTokens_append (by simp [hu])]
      apply colonTokens_values
      rw [longestKey?_isSome, longestKey?_isSome]
      constructor
      · rintro ⟨w, hw, hfits⟩
        exact ⟨w, hw.trans (List.suffix_append _ _), hfits⟩
      · rintro ⟨w, hw, hfits⟩
        rcases List.suffix_cons_iff.mp hw with rfl | hw
        · -- The key that takes the quote fits without it, or is the quote behind an empty key.
          obtain ⟨t, ht, hstart, hnil⟩ := hfits
          cases t with
          | nil => exact ⟨[], List.nil_suffix, [], ht, List.nil_prefix, rfl⟩
          | cons b t =>
            have hb : b ≠ '"' := fun h => quote_not_mem (hplain _ ht) (h ▸ List.mem_cons_self)
            refine ⟨u, List.suffix_refl u, b :: t, ht, ?_⟩
            obtain ⟨more, rfl⟩ : ∃ more, u = b :: t ++ more := ⟨_, hstart.choose_spec.symm⟩
            rw [unquote_of_ne (by simpa using hb)]
            exact ⟨hstart, hnil⟩
        · exact ⟨w, hw, hfits⟩
    · rw [scanTokens_of_not_mem hrest, scanTokens_of_not_mem (by simp [hrest])]

end Separators

section Seams

variable {side : Side} {texts : List (List Char)} {tail : List Char}

/-- What stands behind an element of an array: a comma and other elements, or the closing bracket. -/
inductive Seam : List Char → Prop where
  | comma (more : List Char) : Seam (',' :: more)
  | bracket : Seam [']']

theorem Seam.sealed (h : Seam tail) : Sealed tail := by
  cases h with
  | comma more => exact sealed_comma more
  | bracket => exact sealed_nil.closing (.inl rfl)

theorem Seam.scan (hplain : ∀ t ∈ texts, Plain t) (h : Seam tail) {front : List Char}
    (hfront : ':' ∉ front) :
    scanTokens side texts (front ++ tail) = scanTokens side texts tail := by
  have hskip : ∀ {a : Char} {rest : List Char}, a ∈ ['[', ',', ']'] →
      scanTokens side texts (front ++ a :: rest) = scanTokens side texts (a :: rest) := by
    intro a rest ha
    rw [scanTokens_separator hplain ha hfront, scanTokens_cons hplain ha]
  cases h with
  | comma more => exact hskip (by simp)
  | bracket => exact hskip (by simp)

/-- A value that runs into the seam leaves a place from which the same tokens are found. -/
theorem Seam.passed (hplain : ∀ t ∈ texts, Plain t) (h : Seam tail) :
    scanTokens .values texts (pastValue tail) = scanTokens .values texts tail := by
  cases h with
  | comma more =>
    have hpast : pastValue (',' :: more) = unquote more := rfl
    rw [hpast, scanTokens_unquote hplain, scanTokens_cons hplain (by simp)]
  | bracket => exact (scanTokens_cons hplain (by simp) []).symm

theorem Seam.dropWhile_isBlank (h : Seam tail) (text : List Char) :
    (text ++ tail).dropWhile isBlank = text.dropWhile isBlank ++ tail := by
  have htail : tail.dropWhile isBlank = tail := by
    cases h <;> exact List.dropWhile_cons_of_neg (by decide)
  rw [List.dropWhile_append, htail]
  split
  · rename_i hnil
    rw [List.isEmpty_iff.mp hnil, List.nil_append]
  · rfl

theorem Seam.unquote_append (h : Seam tail) (text : List Char) :
    unquote (text ++ tail) = unquote text ++ tail :=
  PairGrep.unquote_append fun _ => h.sealed.head?_ne

theorem Seam.pastText?_append (hplain : ∀ t ∈ texts, Plain t) (h : Seam tail) (text : List Char) :
    pastText? texts (text ++ tail) = (pastText? texts text).map (· ++ tail) := by
  have hfind : (texts.find? fun t => decide (t <+: text ++ tail)) =
      texts.find? fun t => decide (t <+: text) := by
    apply List.find?_congr
    intro t ht
    rw [decide_eq_decide]
    exact prefix_append_iff (hplain t ht) fun a ha => (h.sealed.stops a ha).1
  rw [pastText?, pastText?, hfind]
  cases hfound : texts.find? fun t => decide (t <+: text) with
  | none => rfl
  | some t =>
    have hstart : t <+: text := by simpa using List.find?_some hfound
    rw [Option.map_some, Option.map_some, Option.map_some,
      List.drop_append_of_le_length hstart.length_le, h.unquote_append]

theorem Seam.pastValue_append (h : Seam tail) (text : List Char) :
    pastValue (text ++ tail) = pastValue text ++ tail ∨
      pastValue text = [] ∧ pastValue (text ++ tail) = pastValue tail := by
  cases hdrop : text.dropWhile isValueChar with
  | nil =>
    apply Or.inr
    refine ⟨?_, PairGrep.pastValue_append (List.dropWhile_eq_nil_iff.mp hdrop) tail⟩
    rw [pastValue, hdrop]
    rfl
  | cons a rest =>
    apply Or.inl
    rw [pastValue, pastValue, List.dropWhile_append, hdrop]
    exact h.unquote_append rest

theorem Seam.pastSide?_append (side : Side) (hplain : ∀ t ∈ texts, Plain t) (h : Seam tail)
    (text : List Char) :
    pastSide? side texts (text ++ tail) = (pastSide? side texts text).map (· ++ tail) ∨
      side = .values ∧ pastSide? side texts text = some [] ∧
        pastSide? side texts (text ++ tail) = some (pastValue tail) := by
  cases side with
  | keys =>
    apply Or.inl
    rw [pastSide?, pastSide?, h.dropWhile_isBlank, h.unquote_append, h.pastText?_append hplain]
  | values =>
    rw [pastSide?, pastSide?, h.dropWhile_isBlank, h.unquote_append, h.unquote_append]
    rcases h.pastValue_append (unquote (unquote (text.dropWhile isBlank))) with hin | ⟨hnil, hout⟩
    · exact .inl (congrArg some hin)
    · exact .inr ⟨rfl, congrArg some hnil, congrArg some hout⟩

private theorem take_length_sub (v w : List Char) :
    (v ++ w).take ((v ++ w).length - w.length) = v := by
  simp

theorem Seam.ofGroup_values (h : Seam tail) (key value : List Char) :
    Token.ofGroup .values key
        ((value ++ tail).take ((value ++ tail).length - (pastValue tail).length)) =
      Token.ofGroup .values key value := by
  obtain ⟨w, hsplit, hstrip⟩ := exists_append_pastValue tail
  rw [h.sealed.bare] at hstrip
  generalize pastValue tail = rest at hsplit ⊢
  subst hsplit
  rw [← List.append_assoc, take_length_sub, Token.ofGroup, Token.ofGroup, strip_append, hstrip,
    List.append_nil]

theorem scanTokens_seam (hplain : ∀ t ∈ texts, Plain t) (h : Seam tail) (text : List Char) :
    scanTokens side texts (text ++ tail) =
      scanTokens side texts text ++ scanTokens side texts tail := by
  induction hn : text.length using Nat.strong_induction_on generalizing text with
  | h n ih =>
    by_cases hcolon : ':' ∈ text
    · obtain ⟨front, rest, rfl, hfront⟩ := List.eq_append_cons_of_mem hcolon
      have hlen : rest.length < n := by
        rw [← hn, List.length_append, List.length_cons]
        omega
      rw [List.append_assoc, List.cons_append, scanTokens_append hfront, scanTokens_append hfront,
        colonTokens, colonTokens]
      cases longestKey? side texts front with
      | none => exact ih _ hlen rest rfl
      | some key =>
        rcases h.pastSide?_append side hplain rest with hpast | ⟨rfl, hnil, hpast⟩
        · rw [hpast]
          cases hmore : pastSide? side texts rest with
          | none => exact ih _ hlen rest rfl
          | some more =>
            obtain ⟨v, rfl⟩ := pastSide?_suffix hmore
            have hshort : more.length < n := by
              rw [List.length_append] at hlen
              omega
            simp only [Option.map_some]
            rw [ih _ hshort more rfl, List.append_assoc, take_length_sub, take_length_sub,
              List.cons_append]
        · rw [hpast, hnil]
          simp only [List.length_nil, Nat.sub_zero, List.take_length]
          rw [h.ofGroup_values, h.passed hplain, scanTokens_of_not_mem List.not_mem_nil]
          rfl
    · rw [scanTokens_of_not_mem hcolon, h.scan hplain hcolon, List.nil_append]

theorem scanTokens_array (hplain : ∀ t ∈ texts, Plain t) (items : List (List Char)) :
    scanTokens side texts ('[' :: ([','].intercalate items ++ [']'])) =
      items.flatMap (scanTokens side texts) := by
  have hend : scanTokens side texts [']'] = [] := scanTokens_of_not_mem (by simp)
  rw [scanTokens_cons hplain (by simp)]
  induction items with
  | nil => exact hend
  | cons item items ih =>
    cases items with
    | nil =>
      rw [List.intercalate_singleton, scanTokens_seam hplain .bracket, hend, List.flatMap_singleton,
        List.append_nil]
    | cons next items =>
      rw [List.intercalate_cons_cons, List.append_assoc, List.append_assoc, List.singleton_append,
        scanTokens_seam hplain (.comma _), scanTokens_cons hplain (by simp), ih, ← List.flatMap_cons]

end Seams

def arrayText (items : List String) : String := "[" ++ ",".intercalate items ++ "]"

/-- The answer of a search of an array is that of the searches of its elements, one after the other. The
elements need not be valid JSON for this. -/
theorem Matcher.search_array [Sizing] (side : Side) {terms : List Term}
    (h : ∀ t ∈ terms, t.isPattern = false) (hplain : ∀ t ∈ Term.texts terms, Plain t)
    {items : List String} (hitems : items ≠ []) :
    Matcher.default.search (arrayText items) terms side =
      (items.mapM fun item => Matcher.default.search item terms side).map List.flatten := by
  have htext : (arrayText items).toList =
      '[' :: ([','].intercalate (items.map String.toList) ++ [']']) := by
    simp [arrayText, String.toList_intercalate]
  have hsearch := Matcher.search_plain side h hplain
  by_cases hsize : sizeLimit < Sizing.bytes (searchExpr side (Term.texts terms))
  · have hlarge : ∀ text : String, Matcher.default.search text terms side = .error .tooLarge := by
      intro text
      rw [hsearch, if_pos hsize]
    obtain ⟨item, more, rfl⟩ := List.exists_cons_of_ne_nil hitems
    rw [List.mapM_cons, hlarge, hlarge]
    rfl
  · have hfound : ∀ text : String, Matcher.default.search text terms side =
        .ok (scanTokens side (Term.texts terms) text.toList) := by
      intro text
      rw [hsearch, if_neg hsize]
    have hmap : (items.mapM fun item => Matcher.default.search item terms side) =
        .ok (items.map fun item => scanTokens side (Term.texts terms) item.toList) := by
      simp only [hfound]
      exact List.mapM_pure
    rw [hmap, hfound, htext, scanTokens_array hplain, List.flatMap_map]
    rfl

/-- The value of the first element takes the opening quote of the second, which holds a colon. -/
theorem Matcher.search_array_passed :
    (∀ t ∈ Term.texts [.literal "a"], Plain t) ∧
    Matcher.default.search
        (arrayText ["\x7b\"a\":1\x7d", "\"a:b, c\" ", "\x7b\"b\":[\x7b\"a\":\"\\\"\"\x7d]\x7d"])
        [.literal "a"] .values =
      .ok [.number (.int 1 (by decide)), .text "b", .text "\\"] := by
  have hplain : ∀ t ∈ Term.texts [.literal "a"], Plain t := by decide +kernel
  refine ⟨hplain, ?_⟩
  rw [Matcher.search_array .values (by simp [Term.isPattern]) hplain (by simp)]
  decide +kernel

end PairGrep
