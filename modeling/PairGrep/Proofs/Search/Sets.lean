import Mathlib
import PairGrep.Pattern.CharSet

/-!
# Members of character sets

The ranges of a set are in order. A range may be empty, as some that are read off a table might be,
and neighbours may touch. All operations on sets keep this form, and a union has the members of both
sets.
-/

namespace PairGrep.Pattern.CharSet

def OrderedFrom : Nat → List (Nat × Nat) → Prop
  | _, [] => True
  | n, (lo, hi) :: rest => n ≤ lo ∧ lo ≤ hi + 1 ∧ OrderedFrom (hi + 1) rest

theorem OrderedFrom.mono {m n : Nat} {ranges : List (Nat × Nat)} (h : OrderedFrom n ranges)
    (hmn : m ≤ n) : OrderedFrom m ranges := by
  cases ranges with
  | nil => trivial
  | cons r rest => exact ⟨by have := h.1; omega, h.2⟩

theorem inRanges_of_lt {m n : Nat} {ranges : List (Nat × Nat)} (h : OrderedFrom m ranges)
    (hn : n < m) : inRanges n ranges = false := by
  cases ranges with
  | nil => rfl
  | cons r rest =>
    have hlo := h.1
    rw [inRanges, if_pos (by omega)]

theorem orderedFrom_insertRange {m lo hi : Nat} {ranges : List (Nat × Nat)}
    (h : OrderedFrom m ranges) (hm : m ≤ lo) (hlo : lo ≤ hi + 1) :
    OrderedFrom m (insertRange lo hi ranges) := by
  induction ranges generalizing m lo hi with
  | nil => exact ⟨hm, hlo, trivial⟩
  | cons r rest ih =>
    obtain ⟨a, b⟩ := r
    obtain ⟨ha, hab, hrest⟩ := h
    rw [insertRange]
    split
    · exact ⟨hm, hlo, by omega, hab, hrest⟩
    · split
      · exact ⟨ha, hab, ih hrest (by omega) hlo⟩
      · exact ih (hrest.mono (by omega)) (by omega) (by omega)

theorem inRanges_insertRange {m lo hi : Nat} {ranges : List (Nat × Nat)}
    (h : OrderedFrom m ranges) (hlo : lo ≤ hi + 1) (n : Nat) :
    inRanges n (insertRange lo hi ranges) = true ↔
      (lo ≤ n ∧ n ≤ hi) ∨ inRanges n ranges = true := by
  induction ranges generalizing m lo hi with
  | nil =>
    simp only [insertRange, inRanges]
    split <;> simp <;> omega
  | cons r rest ih =>
    obtain ⟨a, b⟩ := r
    obtain ⟨-, hab, hrest⟩ := h
    have hbelow : n < b + 1 → inRanges n rest = false := inRanges_of_lt hrest
    rw [insertRange]
    split
    · simp only [inRanges]
      split <;> (try split) <;> (try split) <;> simp <;> omega
    · split
      · have hih := ih hrest hlo
        simp only [inRanges]
        split
        · simp
          omega
        · split
          · simp
          · exact hih
      · rw [ih hrest (by omega)]
        simp only [inRanges]
        by_cases hn : n < b + 1
        · rw [hbelow hn]
          split <;> (try split) <;> simp <;> omega
        · rw [if_neg (by omega), if_neg (by omega)]
          constructor
          · rintro (h | h)
            · exact .inl (by omega)
            · exact .inr h
          · rintro (h | h)
            · exact .inl (by omega)
            · exact .inr h

/-- The set in its proper form: the ranges are in order and do not touch. -/
def Ordered (s : CharSet) : Prop := OrderedFrom 0 s.ranges

theorem ordered_single (c : Char) : (single c).Ordered := ⟨Nat.zero_le _, Nat.le_succ _, trivial⟩

theorem ordered_empty : empty.Ordered := trivial

theorem ordered_all : all.Ordered := ⟨Nat.zero_le _, Nat.zero_le _, trivial⟩

theorem ordered_insert {s : CharSet} (hs : s.Ordered) {lo hi : Nat} (h : lo ≤ hi + 1) :
    (s.insert lo hi).Ordered :=
  orderedFrom_insertRange hs (Nat.zero_le _) h

/-- Ranges may be given in any order, if none runs backwards. -/
theorem ordered_ofRanges {ranges : List (Nat × Nat)} (h : ∀ r ∈ ranges, r.1 ≤ r.2 + 1) :
    (ofRanges ranges).Ordered := by
  induction ranges with
  | nil => trivial
  | cons r ranges ih =>
    obtain ⟨hr, hranges⟩ := List.forall_mem_cons.mp h
    exact orderedFrom_insertRange (ih hranges) (Nat.zero_le _) hr

theorem orderedFrom_gaps {start last : Nat} {ranges : List (Nat × Nat)}
    (h : OrderedFrom start ranges) : OrderedFrom start (gaps start last ranges) := by
  induction ranges generalizing start with
  | nil =>
    rw [gaps]
    split
    · exact ⟨Nat.le_refl _, by omega, trivial⟩
    · trivial
  | cons r ranges ih =>
    obtain ⟨lo, hi⟩ := r
    obtain ⟨hstart, hlo, hrest⟩ := h
    rw [gaps]
    split
    · exact ⟨Nat.le_refl _, by omega, (ih hrest).mono (by omega)⟩
    · exact (ih hrest).mono (by omega)

theorem ordered_complement {s : CharSet} (hs : s.Ordered) : s.complement.Ordered :=
  orderedFrom_gaps hs

theorem ordered_byteComplement {s : CharSet} (hs : s.Ordered) : s.byteComplement.Ordered :=
  orderedFrom_gaps hs

private theorem foldr_insertRange {m : Nat} {added ranges : List (Nat × Nat)}
    (hadded : OrderedFrom m added) (h : OrderedFrom 0 ranges) (n : Nat) :
    OrderedFrom 0 (added.foldr (fun r u => insertRange r.1 r.2 u) ranges) ∧
      (inRanges n (added.foldr (fun r u => insertRange r.1 r.2 u) ranges) = true ↔
        inRanges n added = true ∨ inRanges n ranges = true) := by
  induction added generalizing m with
  | nil => exact ⟨h, by simp [inRanges]⟩
  | cons r added ih =>
    obtain ⟨lo, hi⟩ := r
    obtain ⟨-, hlo, hrest⟩ := hadded
    obtain ⟨hordered, hmem⟩ := ih hrest
    refine ⟨orderedFrom_insertRange hordered (Nat.zero_le _) hlo, ?_⟩
    rw [List.foldr_cons, inRanges_insertRange hordered hlo, hmem, inRanges]
    by_cases hn : n < hi + 1
    · rw [inRanges_of_lt hrest hn]
      split <;> (try split) <;> simp <;> omega
    · rw [if_neg (by omega), if_neg (by omega)]
      constructor
      · rintro (h | h)
        · omega
        · exact h
      · exact .inr

theorem ordered_union {s t : CharSet} (hs : s.Ordered) (ht : t.Ordered) : (s.union t).Ordered :=
  (foldr_insertRange hs ht 0).1

theorem ordered_inter {s t : CharSet} (hs : s.Ordered) (ht : t.Ordered) : (s.inter t).Ordered :=
  ordered_complement (ordered_union (ordered_complement hs) (ordered_complement ht))

theorem ordered_diff {s t : CharSet} (hs : s.Ordered) (ht : t.Ordered) : (s.diff t).Ordered :=
  ordered_inter hs (ordered_complement ht)

theorem ordered_symmDiff {s t : CharSet} (hs : s.Ordered) (ht : t.Ordered) :
    (s.symmDiff t).Ordered :=
  ordered_diff (ordered_union hs ht) (ordered_inter hs ht)

theorem ordered_foldl {α : Type} {f : CharSet → α → CharSet}
    (hf : ∀ s a, s.Ordered → (f s a).Ordered) {s : CharSet} (hs : s.Ordered) (l : List α) :
    (l.foldl f s).Ordered := by
  induction l generalizing s with
  | nil => exact hs
  | cons a l ih => exact ih (hf s a hs)

theorem ordered_foldAscii {s : CharSet} (hs : s.Ordered) : s.foldAscii.Ordered := by
  apply ordered_foldl _ hs
  intro t i ht
  dsimp only
  split
  · exact ordered_insert (ordered_insert ht (Nat.le_succ _)) (Nat.le_succ _)
  · exact ht

theorem contains_union {s t : CharSet} (hs : s.Ordered) (ht : t.Ordered) (c : Char) :
    (s.union t).contains c = true ↔ s.contains c = true ∨ t.contains c = true :=
  (foldr_insertRange hs ht c.toNat).2

/-- The union of sets has the members of all of them. -/
theorem contains_foldl_union {sets : List CharSet} (hsets : ∀ s ∈ sets, s.Ordered) (c : Char) :
    (sets.foldl union empty).contains c = true ↔ ∃ s ∈ sets, s.contains c = true := by
  have hstep : ∀ (u : CharSet), u.Ordered → ((sets.foldl union u).contains c = true ↔
      u.contains c = true ∨ ∃ s ∈ sets, s.contains c = true) := by
    induction sets with
    | nil => simp
    | cons s sets ih =>
      intro u hu
      have hs := hsets s List.mem_cons_self
      have hrest := ih (fun t ht => hsets t (List.mem_cons_of_mem s ht)) _ (ordered_union hu hs)
      rw [List.foldl_cons, hrest, contains_union hu hs]
      simp [or_assoc]
  have hempty := hstep empty trivial
  simpa [empty, contains, containsCode, inRanges] using hempty

theorem contains_single (a c : Char) : (single a).contains c = true ↔ c = a := by
  simp only [contains, containsCode, single, inRanges, Char.ext_iff, UInt32.ext_iff]
  change (if c.toNat < a.toNat then false else if c.toNat ≤ a.toNat then true else false) = true ↔
    c.toNat = a.toNat
  split
  · simp
    omega
  · split <;> simp <;> omega

-- Were it unfolded, a set of a table would be read off to see whether it is in order.
attribute [irreducible] Ordered

end PairGrep.Pattern.CharSet
