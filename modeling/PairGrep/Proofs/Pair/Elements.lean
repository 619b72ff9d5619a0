import PairGrep.Proofs.Pair.Expression
import PairGrep.Proofs.Search.Choice

/-!
# The elements of the pattern of pairs

The paths of a text, of alternatives of texts, of a run of characters of a set, and of a quote that
may be missing.
-/

namespace PairGrep.Pattern

namespace Cursor

def past (c : Cursor) (w : List Char) : Cursor :=
  ⟨w.reverse ++ c.before, c.after.drop w.length, c.marks⟩

@[simp] theorem past_nil (c : Cursor) : c.past [] = c := rfl

@[simp] theorem past_after (c : Cursor) (w : List Char) :
    (c.past w).after = c.after.drop w.length := rfl

theorem past_past (c : Cursor) (v w : List Char) : (c.past v).past w = c.past (v ++ w) := by
  simp [past]

theorem over_past {c : Cursor} {w : List Char} (h : w <+: c.after) : c.Over w (c.past w) := by
  obtain ⟨rest, hrest⟩ := h
  exact ⟨by simp [past, ← hrest], rfl⟩

end Cursor

theorem contains_space (c : Char) : Unicode.space.contains c = isBlank c := by
  have hranges : Unicode.space.ranges = [(9, 13), (32, 32), (133, 133), (160, 160), (5760, 5760),
      (8192, 8202), (8232, 8233), (8239, 8239), (8287, 8287), (12288, 12288)] := by
    decide +kernel
  simp only [CharSet.contains, CharSet.containsCode, hranges, CharSet.inRanges, isBlank]
  generalize c.toNat = n
  rw [Bool.eq_iff_iff]
  simp
  omega

namespace Expr

theorem paths_cons (e rest : Expr) : (e.cons rest).paths = e.paths.seq rest.paths := by
  unfold cons
  split
  · funext c
    simp [Moves.seq, paths]
  · rfl

theorem paths_ofText (text : List Char) (c : Cursor) :
    (ofText text).paths c = if text <+: c.after then [c.past text] else [] := by
  induction text generalizing c with
  | nil => simp [ofText, paths]
  | cons a text ih =>
    have hcons : ofText (a :: text) = (set (.single a)).cons (ofText text) := rfl
    rw [hcons, paths_cons, Moves.seq]
    obtain ⟨before, after, marks⟩ := c
    cases after with
    | nil => simp [paths]
    | cons b after =>
      by_cases hab : b = a
      · subst hab
        have hself : (CharSet.single b).contains b = true := (CharSet.contains_single b b).mpr rfl
        simp [paths, hself, ih, Cursor.past]
      · have hnot : (CharSet.single a).contains b = false := by
          rw [← Bool.not_eq_true, CharSet.contains_single]
          exact hab
        have hne : ¬a = b := fun h => hab h.symm
        simp [paths, hnot, hne]

theorem findSome?_ofText {α : Type} (text : List Char) (c : Cursor) (k : Cursor → Option α) :
    ((ofText text).paths c).findSome? k = if text <+: c.after then k (c.past text) else none := by
  rw [paths_ofText]
  split <;> simp

theorem paths_ofBranches (es : List Expr) (c : Cursor) :
    (ofBranches es).paths c = es.flatMap (·.paths c) := by
  induction es with
  | nil =>
    obtain ⟨before, after, marks⟩ := c
    cases after <;> rfl
  | cons e es ih =>
    cases es with
    | nil => simp [ofBranches]
    | cons f es => simp only [ofBranches, paths, List.flatMap_cons] at ih ⊢; rw [ih]

theorem ofText_cons_cons (a b : Char) (text : List Char) :
    ofText (a :: b :: text) = .cat (.set (.single a)) (ofText (b :: text)) := by
  have hne : ofText (b :: text) ≠ empty := by
    simp only [ofText, List.foldr_cons, cons]
    split <;> simp
  change (set (.single a)).cons (ofText (b :: text)) = _
  rw [cons]
  exact hne

private theorem parts_ofText (text : List Char) :
    (ofText text).parts = text.map fun a => set (.single a) := by
  induction text with
  | nil => rfl
  | cons a text ih =>
    cases text with
    | nil => rfl
    | cons b text =>
      rw [ofText_cons_cons, parts, ih]
      rfl

theorem ofText_branches (text : List Char) : (ofText text).branches = [ofText text] := by
  match text with
  | [] | [a] => rfl
  | a :: b :: text =>
    rw [ofText_cons_cons]
    rfl

private theorem flatMap_branches (texts : List (List Char)) :
    (texts.map ofText).flatMap branches = texts.map ofText := by
  induction texts with
  | nil => rfl
  | cons text texts ih =>
    rw [List.map_cons, List.flatMap_cons, ofText_branches, ih]
    rfl

private theorem isLiteral_single (a : Char) : (set (.single a)).isLiteral = true := by
  simp [isLiteral, CharSet.single?, CharSet.single]

private theorem pieces_literals (a : Char) (text : List Char) :
    pieces ((a :: text).map fun a => set (.single a)) =
      [(a :: text).map fun a => set (.single a)] := by
  induction text generalizing a with
  | nil => rfl
  | cons b text ih =>
    rw [List.map_cons, pieces, ih b]
    simp [isLiteral_single]

private theorem sharedStart_texts (texts : List (List Char)) :
    sharedStart ((texts.map ofText).map fun b => pieces b.parts) = [] := by
  cases texts with
  | nil => rfl
  | cons text more =>
    have hlen : (pieces (ofText text).parts).length ≤ 1 := by
      rw [parts_ofText]
      cases text with
      | nil => decide
      | cons a text => rw [pieces_literals, List.length_singleton]
    have hall : (((text :: more).map ofText).map fun b => pieces b.parts).all
        (fun b => decide (2 ≤ b.length)) = false := by
      rw [List.map_cons, List.map_cons, List.all_cons, decide_eq_false (by omega), Bool.false_and]
    rw [List.map_cons, List.map_cons] at hall ⊢
    exact if_neg (by rw [hall]; simp)

theorem filterMap_set? (texts : List (List Char))
    (hlen : ((texts.map ofText).filterMap set?).length = (texts.map ofText).length) :
    ∃ chars : List Char, texts = chars.map ([·]) ∧
      (texts.map ofText).filterMap set? = chars.map CharSet.single := by
  induction texts with
  | nil => exact ⟨[], rfl, rfl⟩
  | cons text texts ih =>
    have hle := List.length_filterMap_le set? (texts.map ofText)
    cases text with
    | nil =>
      rw [List.map_cons, List.filterMap_cons_none rfl, List.length_cons] at hlen
      omega
    | cons a text =>
      cases text with
      | nil =>
        have hset : set? (ofText [a]) = some (.single a) := rfl
        rw [List.map_cons, List.filterMap_cons_some hset, List.length_cons,
          List.length_cons] at hlen
        obtain ⟨chars, htexts, hmap⟩ := ih (by omega)
        refine ⟨a :: chars, by rw [htexts]; rfl, ?_⟩
        rw [List.map_cons, List.filterMap_cons_some hset, hmap, List.map_cons]
      | cons b text =>
        have hset : set? (ofText (a :: b :: text)) = none := by
          rw [ofText_cons_cons]
          rfl
        rw [List.map_cons, List.filterMap_cons_none hset, List.length_cons] at hlen
        omega

theorem asSet?_texts {texts : List (List Char)} {s : CharSet}
    (h : asSet? (texts.map ofText) = some s) :
    ∃ chars : List Char, texts = chars.map ([·]) ∧
      s = (chars.map CharSet.single).foldl CharSet.union .empty := by
  rw [asSet?_eq] at h
  split at h
  · rename_i hlen
    obtain ⟨chars, htexts, hmap⟩ := filterMap_set? texts hlen.1
    rw [hmap] at h
    exact ⟨chars, htexts, (Option.some.inj h).symm⟩
  · simp at h

private theorem contains_singles (chars : List Char) (a : Char) :
    ((chars.map CharSet.single).foldl CharSet.union .empty).contains a = true ↔ a ∈ chars := by
  rw [CharSet.contains_foldl_union]
  · simp [CharSet.contains_single]
  · intro t ht
    obtain ⟨b, -, rfl⟩ := List.mem_map.mp ht
    exact CharSet.ordered_single b

/-- Alternatives of texts stay as they are, but for single characters, which make a set. -/
theorem choice_texts (texts : List (List Char)) :
    choice (texts.map ofText) = ofBranches (texts.map ofText) ∨
      ∃ s, asSet? (texts.map ofText) = some s ∧ choice (texts.map ofText) = set s := by
  generalize hes : texts.map ofText = es
  have hbranches : es.flatMap branches = es := by rw [← hes, flatMap_branches]
  have hshared : sharedStart (es.map fun b => pieces b.parts) = [] := by
    rw [← hes, sharedStart_texts]
  have hchoice : ∃ fuel, choice es = alternatives fuel es := by
    unfold choice
    split
    · exact ⟨0, rfl⟩
    · exact ⟨_, rfl⟩
  obtain ⟨fuel, hchoice⟩ := hchoice
  rw [hchoice]
  unfold alternatives
  split
  · exact .inl rfl
  · exact .inl rfl
  · simp only [hbranches, hshared]
    cases hset : asSet? es with
    | some s => exact .inr ⟨s, rfl, rfl⟩
    | none => exact .inl rfl

private theorem findSome?_chars {α : Type} (chars : List Char) (c : Cursor)
    (k : Cursor → Option α) :
    (chars.map ([·])).findSome? (fun text => if text <+: c.after then k (c.past text) else none) =
      match c.after with
      | a :: _ => if a ∈ chars then k (c.past [a]) else none
      | [] => none := by
  obtain ⟨before, after, marks⟩ := c
  induction chars with
  | nil => cases after <;> rfl
  | cons b chars ih =>
    rw [List.map_cons, List.findSome?_cons, ih]
    cases after with
    | nil => simp
    | cons a rest =>
      by_cases hb : b = a
      · subst hb
        simp
        split <;> simp [*]
      · have hb' : ¬a = b := fun h => hb h.symm
        simp [hb, hb']

/-- The alternatives of texts are tried in their order. -/
theorem findSome?_choice {α : Type} (texts : List (List Char)) (c : Cursor)
    (k : Cursor → Option α) :
    ((choice (texts.map ofText)).paths c).findSome? k =
      texts.findSome? fun text => if text <+: c.after then k (c.past text) else none := by
  have hbranches : ((ofBranches (texts.map ofText)).paths c).findSome? k =
      texts.findSome? fun text => if text <+: c.after then k (c.past text) else none := by
    rw [paths_ofBranches]
    induction texts with
    | nil => rfl
    | cons text texts ih =>
      rw [List.map_cons, List.flatMap_cons, List.findSome?_append, findSome?_ofText, ih,
        List.findSome?_cons]
      cases (if text <+: c.after then k (c.past text) else none) <;> rfl
  rcases choice_texts texts with hchoice | ⟨s, hset, hchoice⟩
  · rw [hchoice, hbranches]
  · obtain ⟨chars, rfl, heq⟩ := asSet?_texts hset
    have hs : ∀ a, s.contains a = true ↔ a ∈ chars := by
      rw [heq]
      exact contains_singles chars
    rw [hchoice]
    rw [findSome?_chars]
    obtain ⟨before, after, marks⟩ := c
    cases after with
    | nil => rfl
    | cons a rest =>
      by_cases ha : a ∈ chars
      · have hmem := (hs a).mpr ha
        simp [paths, hmem, ha, Cursor.past]
      · have hnot : s.contains a = false := by simpa using fun h => ha ((hs a).mp h)
        simp [paths, hnot, ha]

theorem productive_choice (texts : List (List Char)) :
    (choice (texts.map ofText)).productive = true := by
  have htext : ∀ text : List Char, (ofText text).productive = true := by
    intro text
    induction text with
    | nil => rfl
    | cons a text ih =>
      cases text with
      | nil => rfl
      | cons b text =>
        rw [ofText_cons_cons, productive, ih]
        rfl
  rcases choice_texts texts with hchoice | ⟨s, -, hchoice⟩
  · rw [hchoice]
    clear hchoice
    induction texts with
    | nil => rfl
    | cons text texts ih =>
      cases texts with
      | nil => exact htext text
      | cons next texts =>
        simp only [List.map_cons, ofBranches, productive] at ih ⊢
        rw [htext, ih]
        rfl
  · rw [hchoice]
    rfl

theorem paths_quote (c : Cursor) :
    quote.paths c = if c.after.head? = some '"' then [c.past ['"'], c] else [c] := by
  obtain ⟨before, after, marks⟩ := c
  cases after with
  | nil => rfl
  | cons a after =>
    have hpaths : quote.paths ⟨before, a :: after, marks⟩ =
        (set (.single '"')).paths ⟨before, a :: after, marks⟩ ++ [⟨before, a :: after, marks⟩] := by
      simp [quote, paths, Moves.times, Moves.upTo, Moves.opt, Moves.seq]
    rw [hpaths]
    by_cases ha : a = '"'
    · subst ha
      rfl
    · have hnot : (CharSet.single '"').contains a = false := by
        rw [← Bool.not_eq_true, CharSet.contains_single]
        exact ha
      simp [paths, hnot, ha]

/-- A run takes as many characters of the set as follow; other paths stop before one of them. -/
theorem paths_run (s : CharSet) (c : Cursor) :
    ∃ more, (repeated 0 none true (set s)).paths c = c.past (c.after.takeWhile s.contains) :: more ∧
      ∀ d ∈ more, ∃ w a rest, d = c.past w ∧ c.after = w ++ a :: rest ∧ s.contains a = true ∧
        ∀ b ∈ w, s.contains b = true := by
  have hmany : (repeated 0 none true (set s)).paths = Moves.many true (set s).paths := by
    exact Moves.nil_seq _
  have htake : ∀ (before : List Char) (a : Char) (after : List Char) (marks : List (Nat × Nat)),
      (set s).paths ⟨before, a :: after, marks⟩ =
        if s.contains a then [⟨a :: before, after, marks⟩] else [] := fun _ _ _ _ => rfl
  rw [hmany]
  obtain ⟨before, after, marks⟩ := c
  induction after generalizing before with
  | nil => exact ⟨[], rfl, by simp⟩
  | cons a after ih =>
    rw [Moves.many_eq (paths_advances rfl)]
    by_cases ha : s.contains a = true
    · obtain ⟨more, hmore, hstop⟩ := ih (a :: before)
      refine ⟨more ++ [⟨before, a :: after, marks⟩], ?_, ?_⟩
      · simp only [Cursor.past] at hmore
        simp [Moves.opt, Moves.seq, htake, ha, hmore, Cursor.past]
      · intro d hd
        rcases List.mem_append.mp hd with hd | hd
        · obtain ⟨w, b, rest, rfl, hafter, hb, hw⟩ := hstop d hd
          exact ⟨a :: w, b, rest, by simp [Cursor.past], congrArg (a :: ·) hafter, hb,
            List.forall_mem_cons.mpr ⟨ha, hw⟩⟩
        · rw [List.mem_singleton.mp hd]
          exact ⟨[], a, after, rfl, rfl, ha, by simp⟩
    · refine ⟨[], ?_, by simp⟩
      simp [Moves.opt, Moves.seq, htake, ha]

/-- Every match of the expression takes characters of the given form, and leaves the marks as they
are. -/
def Takes (e : Expr) (P : List Char → Prop) : Prop :=
  ∀ c, ∀ d ∈ e.paths c, ∃ w, w <+: c.after ∧ d = c.past w ∧ P w

theorem takes_quote : quote.Takes fun w => w = [] ∨ w = ['"'] := by
  intro c d hd
  rw [paths_quote] at hd
  split at hd
  · rename_i hq
    rcases List.mem_cons.mp hd with rfl | hd
    · refine ⟨['"'], ?_, rfl, .inr rfl⟩
      obtain ⟨rest, hrest⟩ := List.head?_eq_some_iff.mp hq
      exact ⟨rest, hrest.symm⟩
    · exact ⟨[], List.nil_prefix, List.mem_singleton.mp hd, .inl rfl⟩
  · exact ⟨[], List.nil_prefix, List.mem_singleton.mp hd, .inl rfl⟩

theorem takes_run (s : CharSet) :
    (repeated 0 none true (set s)).Takes fun w => ∀ a ∈ w, s.contains a = true := by
  intro c d hd
  obtain ⟨more, hpaths, hmore⟩ := paths_run s c
  rw [hpaths] at hd
  rcases List.mem_cons.mp hd with rfl | hd
  · exact ⟨_, List.takeWhile_prefix _, rfl, fun a ha => List.mem_takeWhile_imp ha⟩
  · obtain ⟨w, a, rest, rfl, hafter, -, hw⟩ := hmore d hd
    exact ⟨w, ⟨a :: rest, hafter.symm⟩, rfl, hw⟩

theorem takes_set (s : CharSet) : (set s).Takes fun w => ∃ a, w = [a] ∧ s.contains a = true := by
  rintro ⟨before, after, marks⟩ d hd
  cases after with
  | nil => simp [paths] at hd
  | cons a after =>
    simp only [paths] at hd
    split at hd
    · rename_i ha
      exact ⟨[a], ⟨after, rfl⟩, List.mem_singleton.mp hd, a, rfl, ha⟩
    · simp at hd

theorem takes_look (l : Look) : (look l).Takes (· = []) := by
  intro c d hd
  simp only [paths] at hd
  split at hd
  · exact ⟨[], List.nil_prefix, List.mem_singleton.mp hd, rfl⟩
  · simp at hd

theorem takes_choice (texts : List (List Char)) :
    (choice (texts.map ofText)).Takes (· ∈ texts) := by
  intro c d hd
  classical
  have hfind := findSome?_choice texts c fun e => if e = d then some d else none
  have hsome : (((choice (texts.map ofText)).paths c).findSome? fun e =>
      if e = d then some d else none).isSome := by
    rw [List.findSome?_isSome_iff]
    exact ⟨d, hd, by simp⟩
  rw [hfind, List.findSome?_isSome_iff] at hsome
  obtain ⟨text, htext, hsome⟩ := hsome
  by_cases hstart : text <+: c.after
  · by_cases hpast : c.past text = d
    · exact ⟨text, hstart, hpast.symm, htext⟩
    · simp [hstart, hpast] at hsome
  · simp [hstart] at hsome

theorem Takes.cat {e f : Expr} {P Q : List Char → Prop} (he : e.Takes P) (hf : f.Takes Q) :
    (e.cat f).Takes fun w => ∃ u v, w = u ++ v ∧ P u ∧ Q v := by
  intro c d hd
  obtain ⟨b, hb, hd⟩ := Moves.mem_seq.mp hd
  obtain ⟨u, hu, rfl, hP⟩ := he c b hb
  obtain ⟨v, hv, rfl, hQ⟩ := hf _ d hd
  refine ⟨u ++ v, ?_, Cursor.past_past c u v, u, v, rfl, hP, hQ⟩
  obtain ⟨rest, hrest⟩ := hu
  rw [Cursor.past_after, ← hrest, List.drop_left] at hv
  rw [← hrest]
  exact (List.prefix_append_right_inj u).mpr hv

theorem Takes.alt {e f : Expr} {P Q : List Char → Prop} (he : e.Takes P) (hf : f.Takes Q) :
    (e.alt f).Takes fun w => P w ∨ Q w := by
  intro c d hd
  rcases List.mem_append.mp hd with hd | hd
  · obtain ⟨w, hw, hd, hP⟩ := he c d hd
    exact ⟨w, hw, hd, .inl hP⟩
  · obtain ⟨w, hw, hd, hQ⟩ := hf c d hd
    exact ⟨w, hw, hd, .inr hQ⟩

end Expr

end PairGrep.Pattern
