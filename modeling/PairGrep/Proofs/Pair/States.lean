import PairGrep.Proofs.Pair.Size

/-!
# The states of a search

The count that runs are made with keeps the bounds that are relied on. For texts that share their
states these follow from the tree of the texts, one insertion at a time.
-/

namespace PairGrep

open Pattern

namespace Pattern.Trie

/-- A bound on the bytes of a row, in which no edge shares a state. -/
def rowBound : Trie → ℕ
  | nil => 0
  | ends rest => rest.rowBound + 4
  | edge _ child rest => child.rowBound + rest.rowBound + 68

private theorem rowBytes_edge (before : ℕ) (b : UInt8) (child rest : Trie) :
    (edge b child rest).rowBytes before =
      (if before = 0 then 36 else if before = 1 then 16 else 8) + child.bytes +
        rest.rowBytes (before + 1) := rfl

private theorem rowBytes_le (before : ℕ) (t : Trie) : t.rowBytes before ≤ t.rowBound := by
  induction t generalizing before with
  | nil => exact le_rfl
  | ends rest ih => exact Nat.add_le_add_right (ih 0) 4
  | edge b child rest ihchild ihrest =>
    have hchild := ihchild 0
    have hrest := ihrest (before + 1)
    rw [rowBytes, rowBound]
    split_ifs <;> omega

private theorem bytes_le (t : Trie) : t.bytes ≤ t.rowBound + 32 := by
  have hrow := rowBytes_le 0 t
  rw [bytes]
  split_ifs <;> omega

private theorem rowBound_path (bytes : List UInt8) :
    (path bytes).rowBound = 68 * bytes.length + 4 := by
  induction bytes with
  | nil => rfl
  | cons b bytes ih =>
    rw [path, rowBound, ih, rowBound, List.length_cons]
    omega

private theorem rowBound_insert_le (bytes : List UInt8) (t : Trie) :
    (t.insert bytes).rowBound ≤ t.rowBound + 68 * bytes.length + 4 := by
  induction bytes, t using insert.induct with
  | case1 t =>
    rw [insert]
    exact le_rfl
  | case2 b bytes | case3 b bytes rest =>
    rw [insert]
    simp only [rowBound, rowBound_path, List.length_cons]
    omega
  | case4 b bytes child rest ih =>
    rw [insert, if_pos rfl]
    simp only [rowBound, List.length_cons]
    omega
  | case5 b bytes c child rest hne ih =>
    rw [insert, if_neg hne]
    simp only [rowBound, List.length_cons] at ih ⊢
    omega

private theorem le_bytes_path (bytes : List UInt8) : 32 * bytes.length ≤ (path bytes).bytes := by
  induction bytes with
  | nil => exact Nat.zero_le _
  | cons b bytes ih =>
    have hbytes : (path (b :: bytes)).bytes = 36 + (path bytes).bytes + 32 := rfl
    rw [hbytes, List.length_cons]
    omega

private theorem isLeaf_insert (bytes : List UInt8) (t : Trie) :
    (t.insert bytes).isLeaf = (bytes.isEmpty && t.isLeaf) := by
  induction bytes, t using insert.induct with
  | case1 t =>
    rw [insert]
    rfl
  | case2 | case3 => rfl
  | case4 =>
    rw [insert, if_pos rfl]
    rfl
  | case5 b bytes c child rest hne =>
    rw [insert, if_neg hne]
    rfl

private theorem rowBytes_anti (t : Trie) {before after : ℕ} (h : before ≤ after) :
    t.rowBytes after ≤ t.rowBytes before := by
  induction t generalizing before after with
  | nil | ends => exact le_rfl
  | edge c child rest ihchild ihrest =>
    have hrest := ihrest (Nat.succ_le_succ h)
    rw [rowBytes_edge, rowBytes_edge]
    simp only [Nat.succ_eq_add_one] at hrest
    split_ifs <;> omega

private theorem bytes_insert_of_row {bytes : List UInt8} {t : Trie}
    (h : t.rowBytes 0 ≤ (t.insert bytes).rowBytes 0 ∧
      32 * bytes.length ≤ (t.insert bytes).rowBytes 0 + 32) :
    t.bytes ≤ (t.insert bytes).bytes ∧ 32 * bytes.length ≤ (t.insert bytes).bytes := by
  rw [Trie.bytes, Trie.bytes, isLeaf_insert]
  cases bytes with
  | nil =>
    refine ⟨?_, Nat.zero_le _⟩
    rw [List.isEmpty_nil, Bool.true_and]
    split_ifs
    · exact le_rfl
    · exact Nat.add_le_add_right h.1 32
  | cons b bytes =>
    rw [List.isEmpty_cons, Bool.false_and, if_neg Bool.false_ne_true]
    split_ifs <;> omega

/-- A literal adds to a row, and it has a state for each byte behind its first. -/
private theorem rowBytes_insert (before : ℕ) (bytes : List UInt8) (t : Trie) :
    t.rowBytes before ≤ (t.insert bytes).rowBytes before ∧
      32 * bytes.length ≤ (t.insert bytes).rowBytes before + 32 := by
  induction bytes, t using insert.induct generalizing before with
  | case1 t =>
    have hanti := t.rowBytes_anti (Nat.zero_le before)
    rw [insert, rowBytes, List.length_nil]
    omega
  | case2 b bytes =>
    have hpath := le_bytes_path bytes
    rw [insert, rowBytes_edge, List.length_cons]
    exact ⟨Nat.zero_le _, by omega⟩
  | case3 b bytes rest =>
    have hpath := le_bytes_path bytes
    rw [insert, rowBytes_edge, List.length_cons, rowBytes, rowBytes]
    omega
  | case4 b bytes child rest ih =>
    have hchild := bytes_insert_of_row (ih 0)
    rw [insert, if_pos rfl, rowBytes_edge, rowBytes_edge, List.length_cons]
    omega
  | case5 b bytes c child rest hne ih =>
    have hrest := ih (before + 1)
    rw [insert, if_neg hne, rowBytes_edge, rowBytes_edge]
    omega

private theorem bytes_insert (bytes : List UInt8) (t : Trie) :
    t.bytes ≤ (t.insert bytes).bytes ∧ 32 * bytes.length ≤ (t.insert bytes).bytes :=
  bytes_insert_of_row (rowBytes_insert 0 bytes t)

private theorem length_literalBytes (backward : Bool) (literal : List Char) :
    (literalBytes backward literal).length = utf8Length literal := by
  rw [literalBytes, apply_ite List.length, List.length_reverse, ite_self, List.length_flatMap,
    utf8Length]
  simp only [String.length_utf8EncodeChar]

theorem le_bytes_ofLiterals (backward : Bool) {literals : List (List Char)} {literal : List Char}
    (h : literal ∈ literals) : 32 * utf8Length literal ≤ (ofLiterals backward literals).bytes := by
  induction literals with
  | nil => simp at h
  | cons first literals ih =>
    have hinsert := bytes_insert (literalBytes backward first) (ofLiterals backward literals)
    rw [length_literalBytes] at hinsert
    rcases List.mem_cons.mp h with rfl | h
    · exact hinsert.2
    · exact (ih h).trans hinsert.1

theorem bytes_ofLiterals_le (backward : Bool) (literals : List (List Char)) :
    (ofLiterals backward literals).bytes ≤
      (literals.map fun literal => 68 * utf8Length literal + 4).sum + 32 := by
  apply (bytes_le _).trans
  apply Nat.add_le_add_right
  induction literals with
  | nil => exact le_rfl
  | cons first literals ih =>
    have hinsert :=
      rowBound_insert_le (literalBytes backward first) (ofLiterals backward literals)
    rw [length_literalBytes] at hinsert
    rw [List.map_cons, List.sum_cons]
    apply hinsert.trans
    omega

end Pattern.Trie

namespace Pattern.CharSet

private theorem length_insertRange_le (lo hi : ℕ) (ranges : List (ℕ × ℕ)) :
    (insertRange lo hi ranges).length ≤ ranges.length + 1 := by
  induction ranges generalizing lo hi with
  | nil => exact le_rfl
  | cons r ranges ih =>
    rw [insertRange]
    split
    · exact le_rfl
    · split
      · simpa using ih lo hi
      · exact (ih _ _).trans (by simp)

private theorem length_union_le (s t : CharSet) :
    (s.union t).ranges.length ≤ s.ranges.length + t.ranges.length := by
  obtain ⟨ranges⟩ := s
  induction ranges with
  | nil => exact (Nat.zero_add _).ge
  | cons r ranges ih =>
    apply (length_insertRange_le r.1 r.2 _).trans
    rw [List.length_cons, Nat.succ_add]
    exact Nat.succ_le_succ ih

private theorem length_singles_le (chars : List Char) (s : CharSet) :
    ((chars.map single).foldl union s).ranges.length ≤ s.ranges.length + chars.length := by
  induction chars generalizing s with
  | nil => exact le_rfl
  | cons c chars ih =>
    apply (ih (s.union (single c))).trans
    have hunion := length_union_le s (single c)
    simp only [single, List.length_cons, List.length_nil] at hunion ⊢
    omega

private theorem stateBytes_single (c : Char) : (single c).stateBytes = 32 * c.utf8Size := by
  have hsingle : (single c).single? = some c := by simp [single, single?]
  rw [stateBytes, hsingle]

private theorem stateBytes_le (s : CharSet) : s.stateBytes ≤ 264 + 64 * s.ranges.length := by
  rw [stateBytes]
  split
  · rename_i c hc
    have hranges : s.ranges ≠ [] := by
      intro hnil
      simp [single?, hnil] at hc
    have hlength := List.length_pos_iff.mpr hranges
    have hsize := c.utf8Size_le_four
    omega
  · have hfilter := List.length_filter_le (fun r : ℕ × ℕ => decide (0x7F < r.2)) s.ranges
    simp only
    split <;> omega

end Pattern.CharSet

namespace Pattern.Expr

variable {texts : List (List Char)}

private theorem literal?_ofText (text : List Char) :
    (ofText text).literal? = if text = [] then none else some text := by
  have hset : ∀ c : Char, (set (.single c)).literal? = some [c] := by
    intro c
    simp [literal?, CharSet.single, CharSet.single?]
  induction text with
  | nil => rfl
  | cons c text ih =>
    cases text with
    | nil => exact hset c
    | cons d text =>
      rw [ofText_cons_cons, literal?, hset, ih]
      rfl

private theorem literals?_ofText (text : List Char) :
    (ofText text).literals? = if text = [] then none else some [text] := by
  have hliteral : (ofText text).literals? = (ofText text).literal?.map ([·]) := by
    match text with
    | [] | [c] => rfl
    | c :: d :: text =>
      rw [ofText_cons_cons, literals?]
      simp
  rw [hliteral, literal?_ofText, apply_ite (Option.map ([·]))]
  rfl

private theorem ofBranches_cons_cons (text next : List Char) (texts : List (List Char)) :
    ofBranches ((text :: next :: texts).map ofText) =
      alt (ofText text) (ofBranches ((next :: texts).map ofText)) := rfl

private theorem literals?_ofBranches (hne : texts ≠ []) :
    (ofBranches (texts.map ofText)).literals? = if [] ∈ texts then none else some texts := by
  induction texts with
  | nil => exact absurd rfl hne
  | cons text texts ih =>
    cases texts with
    | nil => simp [ofBranches, literals?_ofText, eq_comm]
    | cons next texts =>
      rw [ofBranches_cons_cons, literals?, literals?_ofText, ih (List.cons_ne_nil _ _)]
      by_cases htext : text = []
      · simp [htext]
      · have hmem : [] ∈ text :: next :: texts ↔ [] ∈ next :: texts := by
          simp [Ne.symm htext]
        rw [if_neg htext, if_congr hmem rfl rfl]
        split_ifs <;> rfl

private theorem stateBytes_ofText (backward branch : Bool) (text : List Char) :
    (ofText text).stateBytes backward branch = 32 * max 1 (utf8Length text) := by
  have hsize : ∀ (c : Char) (text : List Char), max 1 (utf8Length (c :: text)) =
      c.utf8Size + utf8Length text := by
    intro c text
    have hpos := c.utf8Size_pos
    rw [utf8Length, List.map_cons, List.sum_cons, utf8Length]
    omega
  induction text generalizing branch with
  | nil => rfl
  | cons c text ih =>
    cases text with
    | nil =>
      rw [hsize]
      exact CharSet.stateBytes_single c
    | cons d text =>
      rw [ofText_cons_cons, stateBytes, stateBytes, CharSet.stateBytes_single, ih, hsize, hsize]
      simp only [utf8Length, List.map_cons, List.sum_cons]
      omega

private theorem stateBytes_branches (backward : Bool) (hne : texts ≠ []) :
    (ofBranches (texts.map ofText)).stateBytes backward true =
      (texts.map fun t => 32 * max 1 (utf8Length t)).sum := by
  induction texts with
  | nil => exact absurd rfl hne
  | cons text texts ih =>
    cases texts with
    | nil => simp [ofBranches, stateBytes_ofText]
    | cons next texts =>
      rw [ofBranches_cons_cons, stateBytes, stateBytes_ofText, ih (List.cons_ne_nil _ _)]
      rfl

private theorem length_branches (hne : texts ≠ []) :
    (ofBranches (texts.map ofText)).branches.length = texts.length := by
  induction texts with
  | nil => exact absurd rfl hne
  | cons text texts ih =>
    cases texts with
    | nil => simp [ofBranches, ofText_branches]
    | cons next texts =>
      rw [ofBranches_cons_cons, branches, ofText_branches, List.length_append,
        ih (List.cons_ne_nil _ _), List.length_singleton, Nat.add_comm]
      rfl

private theorem stateBytes_alt (backward : Bool) (first rest : Expr) :
    (alt first rest).stateBytes backward false = match (alt first rest).literals? with
      | some literals => (Trie.ofLiterals backward literals).bytes + 32
      | none => (alt first rest).stateBytes backward true +
          4 * (alt first rest).branches.length + 64 := rfl

/-- Texts share their states, but not if one of them is empty. -/
private theorem stateBytes_ofBranches (backward : Bool) (text next : List Char)
    (texts : List (List Char)) :
    (ofBranches ((text :: next :: texts).map ofText)).stateBytes backward false =
      if [] ∈ text :: next :: texts then
        ((text :: next :: texts).map fun t => 32 * max 1 (utf8Length t) + 4).sum + 64
      else (Trie.ofLiterals backward (text :: next :: texts)).bytes + 32 := by
  have hne : text :: next :: texts ≠ [] := List.cons_ne_nil _ _
  rw [ofBranches_cons_cons, stateBytes_alt, ← ofBranches_cons_cons, literals?_ofBranches hne]
  split_ifs
  · simp only
    rw [stateBytes_branches backward hne, length_branches hne, List.sum_map_add, List.map_const',
      List.sum_replicate, smul_eq_mul, mul_comm 4]
  · rfl

private theorem bounds_ofBranches (backward : Bool) (texts : List (List Char)) :
    let bytes := (ofBranches (texts.map ofText)).stateBytes backward false
    (∀ t ∈ texts, 32 * utf8Length t ≤ bytes) ∧
    ([] ∈ texts → 32 * (texts.map utf8Length).sum ≤ bytes) ∧
    bytes ≤ 96 * (texts.map fun t => max 1 (utf8Length t)).sum + 64 := by
  intro bytes
  cases texts with
  | nil => simp [bytes, ofBranches, stateBytes, CharSet.stateBytes, CharSet.single?, CharSet.empty]
  | cons text texts =>
    cases texts with
    | nil =>
      have hbytes : bytes = 32 * max 1 (utf8Length text) := stateBytes_ofText backward false text
      simp only [List.forall_mem_singleton, List.map_cons, List.map_nil, List.sum_cons, List.sum_nil]
      omega
    | cons next texts =>
      have hbytes := stateBytes_ofBranches backward text next texts
      change bytes = _ at hbytes
      generalize text :: next :: texts = texts at *
      rw [← List.sum_map_mul_left, ← List.sum_map_mul_left, hbytes]
      split_ifs with hempty
      · refine ⟨fun t ht => ?_, fun _ => ?_, ?_⟩
        · have hmem := List.mem_map_of_mem (f := fun t => 32 * max 1 (utf8Length t) + 4) ht
          have hle := List.le_sum_of_mem hmem
          omega
        · apply Nat.le_add_right_of_le
          exact List.sum_le_sum fun t _ => by omega
        · apply Nat.add_le_add_right
          exact List.sum_le_sum fun t _ => by omega
      · refine ⟨fun t ht => ?_, fun h => absurd h hempty, ?_⟩
        · exact Nat.le_add_right_of_le (Trie.le_bytes_ofLiterals backward ht)
        · apply (Nat.add_le_add_right (Trie.bytes_ofLiterals_le backward texts) 32).trans
          apply Nat.add_le_add_right _ 64
          exact List.sum_le_sum fun t _ => by omega

private theorem utf8Length_single_le (c : Char) : utf8Length [c] ≤ 4 := by
  have hle := c.utf8Size_le_four
  simp only [utf8Length, List.map_cons, List.map_nil, List.sum_cons, List.sum_nil]
  omega

/-- A choice of texts is one of branches or, for single characters, a set. -/
private theorem bounds_choice (backward : Bool) (texts : List (List Char)) :
    let bytes := (choice (texts.map ofText)).stateBytes backward false
    (∀ t ∈ texts, 32 * utf8Length t ≤ bytes + 128) ∧
    ([] ∈ texts → 32 * (texts.map utf8Length).sum ≤ bytes) ∧
    bytes ≤ 96 * (texts.map fun t => max 1 (utf8Length t)).sum + 264 := by
  intro bytes
  rcases choice_texts texts with hchoice | ⟨s, hset, hchoice⟩
  · obtain ⟨htext, hsum, hle⟩ := bounds_ofBranches backward texts
    rw [← hchoice] at htext hsum hle
    exact ⟨fun t ht => Nat.le_add_right_of_le (htext t ht), hsum, hle.trans (by omega)⟩
  · obtain ⟨chars, rfl, rfl⟩ := asSet?_texts hset
    refine ⟨List.forall_mem_map.mpr fun c _ => ?_, by simp, ?_⟩
    · have hsingle := utf8Length_single_le c
      omega
    · have hlength := CharSet.length_singles_le chars .empty
      have hbytes := CharSet.stateBytes_le ((chars.map CharSet.single).foldl CharSet.union .empty)
      have hsum : (chars.map fun _ => 1).sum ≤
          ((chars.map ([·])).map fun t => max 1 (utf8Length t)).sum := by
        rw [List.map_map]
        exact List.sum_le_sum fun c _ => Nat.le_max_left _ _
      rw [List.map_const', List.sum_replicate, smul_eq_mul] at hsum
      have hempty : CharSet.empty.ranges.length = 0 := rfl
      simp only [bytes, hchoice, stateBytes]
      omega

private theorem stateBytes_searchExpr (backward : Bool) (side : Side) (texts : List (List Char)) :
    ∃ frame, 128 ≤ frame ∧ frame ≤ 4096 ∧ (searchExpr side texts).stateBytes backward false =
      (choice (texts.map ofText)).stateBytes backward false + frame := by
  have hpair : ∀ key value : Expr, (pair key value).stateBytes backward false + 64 =
      key.stateBytes backward false + value.stateBytes backward false +
        (pair empty empty).stateBytes backward false := by
    intro key value
    simp only [pair, pairAt, stateBytes]
    omega
  have hempty : 128 ≤ (pair empty empty).stateBytes backward false - 64 ∧
      (pair empty empty).stateBytes backward false ≤ 2048 := by
    cases backward <;> decide +kernel
  cases side with
  | keys =>
    have hkey : keyExpr.stateBytes backward false ≤ 2048 := by
      cases backward <;> decide +kernel
    have hbytes := hpair keyExpr (choice (texts.map ofText))
    refine ⟨keyExpr.stateBytes backward false + (pair empty empty).stateBytes backward false - 64,
      by omega, by omega, ?_⟩
    rw [searchExpr]
    omega
  | values =>
    have hvalue : valueExpr.stateBytes backward false ≤ 2048 := by
      cases backward <;> decide +kernel
    have hbytes := hpair (choice (texts.map ofText)) valueExpr
    refine ⟨valueExpr.stateBytes backward false + (pair empty empty).stateBytes backward false - 64,
      by omega, by omega, ?_⟩
    rw [searchExpr]
    omega

end Pattern.Expr

instance : LawfulSizing where
  text_le side texts t ht := by
    obtain ⟨frame, hframe, -, hbytes⟩ := Expr.stateBytes_searchExpr false side texts
    have htext := (Expr.bounds_choice false texts).1 t ht
    apply le_max_of_le_left
    omega
  sum_le side texts hempty := by
    obtain ⟨frame, -, -, hbytes⟩ := Expr.stateBytes_searchExpr false side texts
    have hsum := (Expr.bounds_choice false texts).2.1 hempty
    apply le_max_of_le_left
    omega
  le_sum side texts := by
    have hle : ∀ backward, (searchExpr side texts).stateBytes backward false + 208 ≤
        96 * (texts.map fun t => max 1 (utf8Length t)).sum + 65536 := by
      intro backward
      obtain ⟨frame, -, hframe, hbytes⟩ := Expr.stateBytes_searchExpr backward side texts
      have hchoice := (Expr.bounds_choice backward texts).2.2
      omega
    exact max_le (hle false) ((Nat.add_le_add_left (by decide) _).trans (hle true))

end PairGrep
