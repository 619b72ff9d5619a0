import PairGrep.Proofs.Search.Sets
import PairGrep.Proofs.Search.Spans

/-!
# The reduced form

Sequences, alternatives and repetitions are built in a reduced form, which can change the match that
is preferred. It changes none of the places that are spanned: a sequence spans what its parts span
one after the other, a choice what one of its branches spans, a repetition what so many rounds of
its body span.
-/

namespace PairGrep.Pattern.Expr

variable {text : Array Char}

/-- Expressions are matched one after the other. -/
def Row (text : Array Char) : List Expr → Nat → Nat → Prop
  | [] => (· = ·)
  | e :: es => fun i j => ∃ k, e.Spans text i k ∧ Row text es k j

theorem row_append {es fs : List Expr} {i j : Nat} :
    Row text (es ++ fs) i j ↔ ∃ k, Row text es i k ∧ Row text fs k j := by
  induction es generalizing i with
  | nil => simp [Row]
  | cons e es ih =>
    simp only [List.cons_append, Row, ih]
    constructor
    · rintro ⟨k, hk, l, hl, h⟩
      exact ⟨l, ⟨k, hk, hl⟩, h⟩
    · rintro ⟨l, ⟨k, hk, hl⟩, h⟩
      exact ⟨k, hk, l, hl, h⟩

theorem spans_cons {e rest : Expr} {i j : Nat} :
    (e.cons rest).Spans text i j ↔ ∃ k, e.Spans text i k ∧ rest.Spans text k j := by
  cases rest <;> simp [cons, Spans]

theorem spans_foldr_cons {es : List Expr} {rest : Expr} {i j : Nat} :
    (es.foldr cons rest).Spans text i j ↔ ∃ k, Row text es i k ∧ rest.Spans text k j := by
  induction es generalizing i with
  | nil => simp [Row]
  | cons e es ih =>
    simp only [List.foldr_cons, spans_cons, ih, Row]
    constructor
    · rintro ⟨k, hk, l, hl, h⟩
      exact ⟨l, ⟨k, hk, hl⟩, h⟩
    · rintro ⟨l, ⟨k, hk, hl⟩, h⟩
      exact ⟨k, hk, l, hl, h⟩

theorem row_parts {e : Expr} {i j : Nat} : Row text e.parts i j ↔ e.Spans text i j := by
  induction e generalizing i j with
  | empty => simp [parts, Row, Spans]
  | cat first rest ihf ihr => simp only [parts, row_append, ihf, ihr, Spans]
  | set | look | capture | alt | repeated => simp [parts, Row]

theorem spans_ofParts {es : List Expr} {i j : Nat} :
    (ofParts es).Spans text i j ↔ Row text es i j := by
  rw [ofParts, spans_foldr_cons]
  simp [Spans]

theorem spans_sequence {first rest : Expr} {i j : Nat} :
    (sequence first rest).Spans text i j ↔
      ∃ k, first.Spans text i k ∧ rest.Spans text k j := by
  simp only [sequence, spans_foldr_cons, row_parts]

theorem spans_ofBranches {es : List Expr} {i j : Nat} :
    (ofBranches es).Spans text i j ↔ ∃ e ∈ es, e.Spans text i j := by
  fun_induction ofBranches es with
  | case1 => simp [Spans, CharSet.empty, CharSet.contains, CharSet.containsCode, CharSet.inRanges]
  | case2 e => simp
  | case3 e rest h ih => simp [Spans, ih]

theorem exists_mem_branches {e : Expr} {i j : Nat} :
    (∃ b ∈ e.branches, b.Spans text i j) ↔ e.Spans text i j := by
  induction e with
  | alt first rest ihf ihr =>
    simp only [branches, List.mem_append, or_and_right, exists_or, ihf, ihr, Spans]
  | empty | set | look | capture | cat | repeated => simp [branches]

theorem exists_mem_flatMap_branches {es : List Expr} {i j : Nat} :
    (∃ b ∈ es.flatMap branches, b.Spans text i j) ↔ ∃ e ∈ es, e.Spans text i j := by
  simp only [List.mem_flatMap]
  constructor
  · rintro ⟨b, ⟨e, he, hb⟩, h⟩
    exact ⟨e, he, exists_mem_branches.mp ⟨b, hb, h⟩⟩
  · rintro ⟨e, he, h⟩
    obtain ⟨b, hb, h⟩ := exists_mem_branches.mpr h
    exact ⟨b, ⟨e, he, hb⟩, h⟩

theorem flatten_pieces (es : List Expr) : (pieces es).flatten = es := by
  induction es with
  | nil => rfl
  | cons e es ih =>
    rw [pieces]
    split
    · rename_i f piece more hpieces
      rw [hpieces] at ih
      split <;> simpa using ih
    · simpa using ih

theorem commonStart_prefix_left (ps qs : List (List Expr)) : commonStart ps qs <+: ps := by
  fun_induction commonStart ps qs with
  | case1 p ps qs ih => exact List.cons_prefix_cons.mpr ⟨rfl, ih⟩
  | case2 => exact List.nil_prefix
  | case3 => exact List.nil_prefix

theorem commonStart_prefix_right (ps qs : List (List Expr)) : commonStart ps qs <+: qs := by
  fun_induction commonStart ps qs with
  | case1 p ps qs ih => exact List.cons_prefix_cons.mpr ⟨rfl, ih⟩
  | case2 => exact List.nil_prefix
  | case3 => exact List.nil_prefix

private theorem foldl_commonStart (first : List (List Expr)) (rest : List (List (List Expr))) :
    rest.foldl commonStart first <+: first ∧
      ∀ b ∈ rest, rest.foldl commonStart first <+: b := by
  induction rest generalizing first with
  | nil => simp
  | cons b rest ih =>
    obtain ⟨hfirst, hrest⟩ := ih (commonStart first b)
    refine ⟨hfirst.trans (commonStart_prefix_left first b), ?_⟩
    intro c hc
    rcases List.mem_cons.mp hc with rfl | hc
    · exact hfirst.trans (commonStart_prefix_right first c)
    · exact hrest c hc

theorem sharedStart_prefix_of_mem {bs : List (List (List Expr))} {b : List (List Expr)} (hb : b ∈ bs) :
    sharedStart bs <+: b := by
  cases bs with
  | nil => simp at hb
  | cons first rest =>
    obtain ⟨hfirst, hrest⟩ := foldl_commonStart first rest
    rw [sharedStart]
    split
    · rcases List.mem_cons.mp hb with rfl | hb
      · exact hfirst
      · exact hrest b hb
    · exact List.nil_prefix

/-- The sets of the expression have their ranges in order. -/
def Tidy : Expr → Prop
  | empty | look _ => True
  | set s => s.Ordered
  | capture _ body | repeated _ _ _ body => body.Tidy
  | cat first rest | alt first rest => first.Tidy ∧ rest.Tidy

theorem tidy_cons {e rest : Expr} (he : e.Tidy) (hrest : rest.Tidy) : (e.cons rest).Tidy := by
  unfold cons
  split
  · exact he
  · exact ⟨he, hrest⟩

theorem tidy_foldr_cons {es : List Expr} {rest : Expr} (hes : ∀ e ∈ es, e.Tidy)
    (hrest : rest.Tidy) : (es.foldr cons rest).Tidy := by
  induction es with
  | nil => exact hrest
  | cons e es ih =>
    obtain ⟨he, hes⟩ := List.forall_mem_cons.mp hes
    exact tidy_cons he (ih hes)

theorem tidy_parts {e : Expr} (he : e.Tidy) : ∀ p ∈ e.parts, p.Tidy := by
  induction e with
  | empty => simp [parts]
  | cat first rest ihf ihr =>
    intro p hp
    rcases List.mem_append.mp hp with hp | hp
    · exact ihf he.1 p hp
    · exact ihr he.2 p hp
  | set | look | capture | alt | repeated => simpa [parts] using he

theorem tidy_sequence {first rest : Expr} (hfirst : first.Tidy) (hrest : rest.Tidy) :
    (sequence first rest).Tidy :=
  tidy_foldr_cons (tidy_parts hfirst) hrest

theorem tidy_branches {e : Expr} (he : e.Tidy) : ∀ b ∈ e.branches, b.Tidy := by
  induction e with
  | alt first rest ihf ihr =>
    intro b hb
    rcases List.mem_append.mp hb with hb | hb
    · exact ihf he.1 b hb
    · exact ihr he.2 b hb
  | empty | set | look | capture | cat | repeated => simpa [branches] using he

theorem tidy_flatMap_branches {es : List Expr} (hes : ∀ e ∈ es, e.Tidy) :
    ∀ b ∈ es.flatMap branches, b.Tidy := by
  intro b hb
  obtain ⟨e, he, hb⟩ := List.mem_flatMap.mp hb
  exact tidy_branches (hes e he) b hb

theorem tidy_ofBranches {es : List Expr} (hes : ∀ e ∈ es, e.Tidy) : (ofBranches es).Tidy := by
  fun_induction ofBranches es with
  | case1 => exact CharSet.ordered_empty
  | case2 e => simpa using hes
  | case3 e rest h ih =>
    obtain ⟨he, hrest⟩ := List.forall_mem_cons.mp hes
    exact ⟨he, ih hrest⟩

section Alternatives

def set? : Expr → Option CharSet
  | set s => some s
  | _ => none

theorem asSet?_eq (es : List Expr) :
    asSet? es = if (es.filterMap set?).length = es.length ∧
        (es.all isLiteral ∨ es.all (!·.isLiteral)) then
      some ((es.filterMap set?).foldl CharSet.union .empty) else none := rfl

private theorem eq_map_set {es : List Expr} (h : (es.filterMap set?).length = es.length) :
    es = (es.filterMap set?).map set := by
  induction es with
  | nil => rfl
  | cons e es ih =>
    have hle := List.length_filterMap_le set? es
    cases he : e.set? with
    | none =>
      rw [List.filterMap_cons_none he, List.length_cons] at h
      omega
    | some s =>
      obtain rfl : e = set s := by
        cases e <;> simp [set?] at he
        rw [he]
      rw [List.filterMap_cons_some he, List.length_cons, List.length_cons] at h
      rw [List.filterMap_cons_some he, List.map_cons, ← ih (by omega)]

private theorem exists_map_of_asSet? {es : List Expr} {s : CharSet} (h : asSet? es = some s) :
    ∃ sets : List CharSet, es = sets.map set ∧ s = sets.foldl CharSet.union .empty := by
  rw [asSet?_eq] at h
  split at h
  · rename_i hall
    exact ⟨_, eq_map_set hall.1, (Option.some.inj h).symm⟩
  · simp at h

private theorem spans_asSet? (text : Array Char) {es : List Expr} {s : CharSet}
    (htidy : ∀ e ∈ es, e.Tidy) (h : asSet? es = some s) :
    s.Ordered ∧ ∀ i j, (set s).Spans text i j ↔ ∃ e ∈ es, e.Spans text i j := by
  obtain ⟨sets, rfl, rfl⟩ := exists_map_of_asSet? h
  have hsets : ∀ s ∈ sets, s.Ordered := fun s hs => htidy (set s) (List.mem_map_of_mem hs)
  constructor
  · clear h htidy
    have hunion : ∀ u : CharSet, u.Ordered → (sets.foldl CharSet.union u).Ordered := by
      induction sets with
      | nil => exact fun u hu => hu
      | cons s sets ih =>
        obtain ⟨hs, hsets⟩ := List.forall_mem_cons.mp hsets
        exact fun u hu => ih hsets _ (CharSet.ordered_union hu hs)
    exact hunion _ CharSet.ordered_empty
  · intro i j
    simp only [Spans, CharSet.contains_foldl_union hsets]
    constructor
    · rintro ⟨hj, c, hc, s, hs, hmem⟩
      exact ⟨set s, List.mem_map_of_mem hs, hj, c, hc, hmem⟩
    · rintro ⟨e, he, h⟩
      obtain ⟨s, hs, rfl⟩ := List.mem_map.mp he
      obtain ⟨hj, c, hc, hmem⟩ := h
      exact ⟨hj, c, hc, s, hs, hmem⟩

private theorem tails_spans {bs : List Expr} {i j : Nat} :
    let split := bs.map fun b => pieces b.parts
    let shared := sharedStart split
    (∃ k, Row text shared.flatten i k ∧
      ∃ e ∈ split.map (fun b => ofParts (b.drop shared.length).flatten), e.Spans text k j) ↔
      ∃ b ∈ bs, b.Spans text i j := by
  intro split shared
  have hpart : ∀ b ∈ bs, ∀ i j, b.Spans text i j ↔ ∃ k, Row text shared.flatten i k ∧
      (ofParts ((pieces b.parts).drop shared.length).flatten).Spans text k j := by
    intro b hb i j
    obtain ⟨rest, hrest⟩ : shared <+: pieces b.parts :=
      sharedStart_prefix_of_mem (List.mem_map_of_mem hb)
    have hflat : shared.flatten ++ rest.flatten = b.parts := by
      rw [← List.flatten_append, hrest, flatten_pieces]
    rw [← hrest, List.drop_left, ← row_parts, ← hflat, row_append]
    simp only [spans_ofParts]
  constructor
  · rintro ⟨k, hk, e, he, h⟩
    simp only [split, List.map_map, List.mem_map] at he
    obtain ⟨b, hb, rfl⟩ := he
    exact ⟨b, hb, (hpart b hb i j).mpr ⟨k, hk, h⟩⟩
  · rintro ⟨b, hb, h⟩
    obtain ⟨k, hk, h⟩ := (hpart b hb i j).mp h
    refine ⟨k, hk, _, ?_, h⟩
    simp only [split, List.map_map, List.mem_map]
    exact ⟨b, hb, rfl⟩

private theorem tidy_pieces {b : Expr} (hb : b.Tidy) {taken : List (List Expr)}
    (h : taken <+: pieces b.parts ∨ taken <:+ pieces b.parts) :
    (ofParts taken.flatten).Tidy := by
  refine tidy_foldr_cons ?_ (show empty.Tidy from trivial)
  intro e he
  apply tidy_parts hb
  obtain ⟨piece, hpiece, he⟩ := List.mem_flatten.mp he
  have hmem : piece ∈ pieces b.parts := h.elim (·.subset hpiece) (·.subset hpiece)
  rw [← flatten_pieces b.parts]
  exact List.mem_flatten.mpr ⟨piece, hmem, he⟩

theorem tidy_alternatives {fuel : Nat} {es : List Expr} (htidy : ∀ e ∈ es, e.Tidy) :
    (alternatives fuel es).Tidy := by
  fun_induction alternatives fuel es with
  | case1 _ e => simpa using htidy
  | case2 es => exact tidy_ofBranches htidy
  | case3 fuel es hes bs s hs =>
    have hbs : ∀ b ∈ bs, b.Tidy := tidy_flatMap_branches htidy
    exact (spans_asSet? #[] hbs hs).1
  | case4 fuel es hes bs hnone hshared =>
    exact tidy_ofBranches (tidy_flatMap_branches htidy)
  | case5 fuel es hes bs hnone split hshared tails ih =>
    have hbs : ∀ b ∈ bs, b.Tidy := tidy_flatMap_branches htidy
    apply tidy_sequence
    · cases hsplit : bs with
      | nil => simp [split, hsplit, sharedStart] at hshared
      | cons b rest =>
        have hb : b ∈ bs := by simp [hsplit]
        exact tidy_pieces (hbs b hb) (.inl (sharedStart_prefix_of_mem (List.mem_map_of_mem hb)))
    · apply ih
      intro e he
      simp only [tails, split, List.map_map, List.mem_map] at he
      obtain ⟨b, hb, rfl⟩ := he
      exact tidy_pieces (hbs b hb) (.inr (List.drop_suffix _ _))

/-- Factoring keeps what is spanned. -/
theorem spans_alternatives {fuel : Nat} {es : List Expr} (htidy : ∀ e ∈ es, e.Tidy) {i j : Nat} :
    (alternatives fuel es).Spans text i j ↔ ∃ e ∈ es, e.Spans text i j := by
  fun_induction alternatives fuel es generalizing i j with
  | case1 _ e => simp
  | case2 es => exact spans_ofBranches
  | case3 fuel es hes bs s hs =>
    have hbs : ∀ b ∈ bs, b.Tidy := tidy_flatMap_branches htidy
    rw [(spans_asSet? text hbs hs).2, exists_mem_flatMap_branches]
  | case4 fuel es hes bs hnone hshared =>
    rw [spans_ofBranches, exists_mem_flatMap_branches]
  | case5 fuel es hes bs hnone split hshared =>
    rename_i tails ih
    have htails : ∀ e ∈ tails, e.Tidy := by
      intro e he
      simp only [tails, split, List.map_map, List.mem_map] at he
      obtain ⟨b, hb, rfl⟩ := he
      exact tidy_pieces (tidy_flatMap_branches htidy b hb) (.inr (List.drop_suffix _ _))
    rw [spans_sequence]
    simp only [spans_ofParts, ih htails]
    exact tails_spans.trans exists_mem_flatMap_branches

end Alternatives

theorem tidy_choice {es : List Expr} (htidy : ∀ e ∈ es, e.Tidy) : (choice es).Tidy := by
  unfold choice
  split
  · simpa using htidy
  · exact tidy_alternatives htidy

/-- A choice spans what one of its branches spans. -/
theorem spans_choice {es : List Expr} (htidy : ∀ e ∈ es, e.Tidy) {i j : Nat} :
    (choice es).Spans text i j ↔ ∃ e ∈ es, e.Spans text i j := by
  unfold choice
  split
  · simp
  · exact spans_alternatives htidy

theorem eq_of_isWidthless {e : Expr} (h : e.isWidthless = true) {i j : Nat}
    (hspan : e.Spans text i j) : i = j := by
  induction e generalizing i j with
  | empty => exact hspan
  | set s => simp [isWidthless] at h
  | look l => exact hspan.1
  | capture index body ih => exact ih h hspan
  | cat first rest ihf ihr =>
    simp only [isWidthless, Bool.and_eq_true] at h
    obtain ⟨k, hk, hj⟩ := hspan
    exact (ihf h.1 hk).trans (ihr h.2 hj)
  | alt first rest ihf ihr =>
    simp only [isWidthless, Bool.and_eq_true] at h
    exact hspan.elim (ihf h.1) (ihr h.2)
  | repeated min max greedy body ih =>
    simp only [isWidthless, Bool.and_eq_true] at h
    obtain ⟨n, -, hrounds⟩ := hspan
    generalize min + n = m at hrounds
    induction m generalizing i with
    | zero => exact hrounds
    | succ m ihm =>
      obtain ⟨k, hk, hrounds⟩ := hrounds
      exact (ih h.2 hk).trans (ihm hrounds)

/-- Rounds that take no character are as good as one. -/
theorem rounds_of_isWidthless {e : Expr} (h : e.isWidthless = true) {n i j : Nat} :
    Rounds (e.Spans text) n i j ↔ Rounds (e.Spans text) (min n 1) i j := by
  have hrounds : ∀ n, Rounds (e.Spans text) n i i ↔ n = 0 ∨ e.Spans text i i := by
    intro n
    induction n with
    | zero => simp [Rounds]
    | succ n ih =>
      constructor
      · rintro ⟨k, hk, -⟩
        obtain rfl := eq_of_isWidthless h hk
        exact .inr hk
      · rintro (hn | hi)
        · omega
        · exact ⟨i, hi, ih.mpr (.inr hi)⟩
  have heq : ∀ n, Rounds (e.Spans text) n i j → i = j := by
    intro n hn
    exact eq_of_isWidthless (e := repeated n (some n) true e) (by simpa [isWidthless] using h)
      ⟨0, by simp, by simpa using hn⟩
  constructor
  · intro hn
    obtain rfl := heq _ hn
    rw [hrounds] at hn ⊢
    exact hn.imp (by omega) id
  · intro hn
    obtain rfl := heq _ hn
    rw [hrounds] at hn ⊢
    exact hn.imp (by omega) id

private theorem spans_repeated_clip {body : Expr} (h : body.isWidthless = true) {low : Nat}
    {high : Option Nat} {greedy : Bool} {i j : Nat} :
    (repeated (low.min 1) (some ((high.map (Nat.min · 1)).getD 1)) greedy body).Spans text i j ↔
      (repeated low high greedy body).Spans text i j := by
  constructor
  · rintro ⟨n, hn, hrounds⟩
    have hn := hn _ rfl
    refine ⟨n, ?_, ?_⟩
    · rintro m rfl
      simp only [Option.map_some, Option.getD_some, Nat.min_eq_min] at hn
      omega
    · rw [rounds_of_isWidthless h] at hrounds ⊢
      have hmin : min (low.min 1 + n) 1 = min (low + n) 1 := by
        rw [Nat.min_eq_min]
        omega
      rwa [hmin] at hrounds
  · rintro ⟨n, hn, hrounds⟩
    refine ⟨min (low + n) 1 - low.min 1, ?_, ?_⟩
    · rintro _ ⟨⟩
      rw [Nat.min_eq_min]
      cases high with
      | none => simp
      | some m =>
        have hn := hn m rfl
        simp only [Option.map_some, Option.getD_some, Nat.min_eq_min]
        omega
    · rw [rounds_of_isWidthless h] at hrounds
      have hmin : low.min 1 + (min (low + n) 1 - low.min 1) = min (low + n) 1 := by
        rw [Nat.min_eq_min]
        omega
      rwa [hmin]

private theorem spans_reduced {body : Expr} {low : Nat} {high : Option Nat} {greedy : Bool}
    {i j : Nat} :
    (if low = 0 ∧ high = some 0 then empty else if low = 1 ∧ high = some 1 then body
      else repeated low high greedy body).Spans text i j ↔
      (repeated low high greedy body).Spans text i j := by
  split
  · rename_i h
    obtain ⟨rfl, rfl⟩ := h
    constructor
    · rintro rfl
      exact ⟨0, by simp, rfl⟩
    · rintro ⟨n, hn, hrounds⟩
      obtain rfl : n = 0 := by simpa using hn 0 rfl
      exact hrounds
  · split
    · rename_i h
      obtain ⟨rfl, rfl⟩ := h
      constructor
      · intro h
        exact ⟨0, by simp, j, h, rfl⟩
      · rintro ⟨n, hn, hrounds⟩
        obtain rfl : n = 0 := by simpa using hn 1 rfl
        obtain ⟨k, hk, rfl⟩ := hrounds
        exact hk
    · rfl

/-- A repetition spans what so many rounds of its body span. -/
theorem spans_repetition {body : Expr} {low : Nat} {high : Option Nat} {greedy : Bool}
    {i j : Nat} :
    (repetition low high greedy body).Spans text i j ↔
      (repeated low high greedy body).Spans text i j := by
  unfold repetition
  by_cases h : body.isWidthless = true
  · simp only [if_pos h]
    exact spans_reduced.trans (spans_repeated_clip h)
  · simp only [if_neg h]
    exact spans_reduced

theorem tidy_repetition {low : Nat} {high : Option Nat} {greedy : Bool} {body : Expr}
    (hbody : body.Tidy) : (repetition low high greedy body).Tidy := by
  unfold repetition
  generalize (if body.isWidthless = true then (low.min 1, some ((high.map (Nat.min · 1)).getD 1))
    else (low, high)) = bounds
  obtain ⟨low, high⟩ := bounds
  simp only
  split
  · trivial
  · split <;> exact hbody

end PairGrep.Pattern.Expr
