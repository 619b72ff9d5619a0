import Mathlib
import PairGrep.Number.Reading
import PairGrep.Proofs.Number.Shortest
import PairGrep.Proofs.Number.Text

/-!
# Texts that numbers are searched under

A number is searched under a text that its own text starts with, even where a whole double is searched
under the text of an integer. The one number that is not is negative zero, whose sign an integer
cannot have. All texts of numbers are short.
-/

namespace PairGrep

open Json

theorem Number.isNumeral_searchText (n : Number) : IsNumeral n.searchText := by
  cases n with
  | int i hfits => exact isNumeral_intText i
  | float x =>
    simp only [searchText]
    split
    · split
      · exact isNumeral_intText _
      · exact x.isNumeral_text
    · exact x.isNumeral_text

section Whole

private theorem toDigits_mul_pow {n : ℕ} (hn : n ≠ 0) (k : ℕ) :
    Nat.toDigits 10 (n * 10 ^ k) = Nat.toDigits 10 n ++ List.replicate k '0' := by
  induction k with
  | zero => simp
  | succ k ih =>
    have hpos : 0 < n * 10 ^ k := Nat.mul_pos (Nat.pos_of_ne_zero hn) (Nat.pow_pos (by decide))
    rw [pow_succ, ← mul_assoc, Nat.toDigits_of_base_le (by decide) (by omega),
      Nat.mul_div_cancel _ (by decide), Nat.mul_mod_left, ih, List.replicate_succ', ← List.append_assoc]
    rfl

variable {x : Double} {n : ℕ}

/-- A whole double below `2 ^ 53` is written as the natural, with a zero behind the point. -/
theorem Double.text_of_natCast (hvalue : x.absValue = n) (hlt : n < 2 ^ 53) :
    x.text = x.signed (Nat.toDigits 10 n ++ ['.', '0']) := by
  obtain ⟨hexponent, hdigits⟩ := Decimal.shortest_natCast hvalue hlt
  have hwhole : Nat.toDigits 10 n = (Decimal.shortest x).digitText ++
      List.replicate (Decimal.shortest x).exponent.toNat '0' := by
    rw [← hdigits]
    by_cases hzero : (Decimal.shortest x).digits = 0
    · rw [Decimal.shortest_exponent_of_digits hzero]
      simp [Decimal.digitText]
    · exact toDigits_mul_pow hzero _
  have hlength : (Nat.toDigits 10 n).length ≤ 16 := by
    rw [Nat.length_toDigits_le_iff (by decide) (by decide)]
    exact hlt.trans (by norm_num)
  have hscientific : (Decimal.shortest x).scientificExponent = (Nat.toDigits 10 n).length - 1 := by
    rw [Decimal.scientificExponent, hwhole, List.length_append, List.length_replicate]
    push_cast
    omega
  have hpos : 0 < (Nat.toDigits 10 n).length := List.length_pos_of_ne_nil Nat.toDigits_ne_nil
  simp only [Double.text]
  rw [if_pos (by omega), Decimal.positional]
  simp only
  rw [if_pos hexponent, hwhole]

theorem Double.absValue_of_toInt? {i : ℤ} (h : x.toInt? = some i) :
    x.absValue = i.natAbs ∧ i = if x.negative then -(i.natAbs : ℤ) else i.natAbs := by
  unfold toInt? at h
  simp only at h
  split at h
  · rename_i hmod
    have hden : (x.magnitude.den : ℚ) ≠ 0 := by
      exact_mod_cast Ratio.den_scaleTwo one_ne_zero x.exponent
    have hvalue : x.absValue = (x.magnitude.floor : ℕ) := by
      rw [← value_magnitude, Ratio.value, Ratio.floor,
        Nat.cast_div (Nat.dvd_of_mod_eq_zero hmod) hden]
    obtain rfl := Option.some.inj h
    cases x.negative with
    | true => simp [hvalue]
    | false => simp [hvalue]
  · simp at h

private theorem intText_eq_signed {i : ℤ} (hi : i = if x.negative then -(n : ℤ) else n)
    (hn : x.negative = true → n ≠ 0) : Number.intText i = x.signed (Nat.toDigits 10 n) := by
  cases hnegative : x.negative with
  | true =>
    have hne := hn hnegative
    rw [hnegative, if_pos rfl] at hi
    rw [Number.intText, if_pos (by omega), Double.signed, if_pos hnegative, hi, Int.natAbs_neg,
      Int.natAbs_natCast]
  | false =>
    rw [hnegative, if_neg (by decide)] at hi
    rw [Number.intText, if_neg (by omega), Double.signed, if_neg (by simp [hnegative]), hi,
      Int.natAbs_natCast]

theorem Double.signed_append (x : Double) (v w : List Char) :
    x.signed (v ++ w) = x.signed v ++ w := by
  unfold signed
  split <;> rfl

private theorem searchText_float_prefix (hx : x ≠ .zero true) :
    (Number.float x).searchText <+: x.text := by
  simp only [Number.searchText]
  cases hi : x.toInt? with
  | none => exact List.prefix_rfl
  | some i =>
    obtain ⟨hvalue, hsign⟩ := Double.absValue_of_toInt? hi
    simp only
    split_ifs with hlt
    · have hzero : x.negative = true → i.natAbs ≠ 0 := by
        intro hnegative hzero
        rw [hzero, Nat.cast_zero, ← Double.absValue_zero true] at hvalue
        exact hx (Double.eq_of_absValue hnegative hvalue)
      rw [intText_eq_signed hsign hzero, Double.text_of_natCast hvalue hlt, Double.signed_append]
      exact List.prefix_append _ _
    · exact List.prefix_rfl

/-- The text of a number starts with the text that the number is searched under, unless the number
is negative zero. -/
theorem Number.searchText_prefix_iff (n : Number) :
    n.searchText <+: n.text ↔ n ≠ .float (.zero true) := by
  by_cases hn : n = .float (.zero true)
  · subst hn
    decide +kernel
  · refine iff_of_true ?_ hn
    cases n with
    | int i hfits => exact List.prefix_rfl
    | float x => exact searchText_float_prefix fun hx => hn (congrArg Number.float hx)

end Whole

section Length

theorem length_toDigits_le {n k : ℕ} (hk : 0 < k) (h : n < 10 ^ k) :
    (Nat.toDigits 10 n).length ≤ k :=
  (Nat.length_toDigits_le_iff (by decide) hk).mpr h

variable {x : Double} {d : Decimal}

private theorem exponent_bounds (hx : x.mantissa ≠ 0) (h : Decimal.reads x d = true) :
    -400 - (Nat.log2 d.digits : ℤ) ≤ d.exponent ∧ d.exponent ≤ 400 := by
  rw [Decimal.reads_iff, Double.ofDecimal?] at h
  split_ifs at h with hsmall hlarge
  · exact absurd (congrArg Double.mantissa (Option.some.inj h)).symm hx
  · omega

private theorem length_digitText_le (x : Double) : (Decimal.shortest x).digitText.length ≤ 18 := by
  apply length_toDigits_le (by decide)
  exact (Decimal.digits_shortest_le x).trans_lt (by norm_num)

private theorem scientificExponent_lt (x : Double) :
    (Decimal.shortest x).scientificExponent.natAbs < 10 ^ 3 := by
  by_cases hx : x.mantissa = 0
  · rw [Decimal.shortest, if_pos hx]
    decide
  · have hbounds := exponent_bounds hx (Decimal.reads_shortest x)
    have hlog : Nat.log2 (Decimal.shortest x).digits < 57 := by
      rw [Nat.log2_eq_log_two]
      apply Nat.log_lt_of_lt_pow' (by decide)
      exact (Decimal.digits_shortest_le x).trans_lt (by norm_num)
    have hlength := length_digitText_le x
    rw [Decimal.scientificExponent]
    omega

private theorem length_signed_le (x : Double) (text : List Char) :
    (x.signed text).length ≤ text.length + 1 := by
  unfold Double.signed
  split
  · exact le_rfl
  · exact Nat.le_succ _

private theorem length_positional_le (x : Double)
    (hlow : -5 ≤ (Decimal.shortest x).scientificExponent)
    (hhigh : (Decimal.shortest x).scientificExponent ≤ 15) :
    ((Decimal.shortest x).positional ['.', '0']).length ≤ 24 := by
  have hlength := length_digitText_le x
  rw [Decimal.scientificExponent] at hlow hhigh
  simp only [Decimal.positional]
  split_ifs
  · simp
    omega
  · simp
    omega
  · simp
    omega

private theorem length_scientific_le (x : Double) :
    (Decimal.shortest x).scientific.length ≤ 24 := by
  have hlength := length_digitText_le x
  have hexponent := length_toDigits_le (by decide) (scientificExponent_lt x)
  unfold Decimal.scientific
  simp only
  split
  · simp
    omega
  · simp
    omega
  · rename_i c ds _ hds
    rw [hds] at hlength
    simp at hlength ⊢
    omega

theorem Double.length_text_le (x : Double) : x.text.length ≤ 25 := by
  unfold Double.text
  refine (length_signed_le x _).trans (Nat.succ_le_succ ?_)
  split_ifs with hexponent
  · exact length_positional_le x hexponent.1 hexponent.2
  · exact length_scientific_le x

private theorem length_intText_le {i : ℤ} (hi : i.natAbs < 10 ^ 20) :
    (Number.intText i).length ≤ 25 := by
  have hdigits := length_toDigits_le (by decide) hi
  unfold Number.intText
  split
  · simp
    omega
  · omega

theorem Number.length_text_le (n : Number) : n.text.length ≤ 25 := by
  cases n with
  | int i hfits =>
    apply length_intText_le
    obtain ⟨hlow, hhigh⟩ := hfits
    omega
  | float x => exact x.length_text_le

/-- No search for a number is a long one. -/
theorem Number.length_searchText_le (n : Number) : n.searchText.length ≤ 25 := by
  unfold searchText
  split
  · exact Number.length_text_le _
  · rename_i x
    split
    · rename_i i _
      split_ifs with hlt
      · exact length_intText_le (by omega)
      · exact x.length_text_le
    · exact x.length_text_le

end Length

end PairGrep
