import Mathlib
import PairGrep.Term
import PairGrep.Token
import PairGrep.Proofs.Number.Nearest
import PairGrep.Proofs.Number.Reading
import PairGrep.Proofs.Number.SearchText

/-!
# Values of numbers

A number is searched under the text of a number of the same value, so that numbers which are searched
under one text have one value. Whole doubles below `2 ^ 53` are searched as the integers that they
are: dropping their fraction drops nothing, and they fit in 64 bits by far.
-/

namespace PairGrep

def Number.value : Number → ℚ
  | .int n _ => n
  | .float x => x.value

/-- A double as a signed integer of 64 bits: its fraction is dropped, and what is out of range is the
nearer end of the range. -/
def Double.toSigned64 (x : Double) : ℤ :=
  let n : ℤ := if x.negative then -(x.magnitude.floor : ℤ) else x.magnitude.floor
  max (-0x8000000000000000) (min n 0x7FFFFFFFFFFFFFFF)

namespace Double

variable {x : Double} {i : ℤ}

theorem absValue_of_value (h : x.value = i) : x.absValue = i.natAbs := by
  have hnonneg := x.absValue_nonneg
  rw [Nat.cast_natAbs, Int.cast_abs, ← h, value, withSign]
  split_ifs
  · rw [abs_neg, abs_of_nonneg hnonneg]
  · rw [abs_of_nonneg hnonneg]

private theorem magnitude_of_value (h : x.value = i) :
    x.magnitude.num % x.magnitude.den = 0 ∧ x.magnitude.floor = i.natAbs := by
  have hden : x.magnitude.den ≠ 0 := Ratio.den_scaleTwo one_ne_zero x.exponent
  have hvalue : x.magnitude.value = (i.natAbs : ℚ) := x.value_magnitude.trans (absValue_of_value h)
  have hnum : x.magnitude.num = i.natAbs * x.magnitude.den := by
    rw [Ratio.value, div_eq_iff (by exact_mod_cast hden)] at hvalue
    exact_mod_cast hvalue
  refine ⟨by rw [hnum, Nat.mul_mod_left], ?_⟩
  rw [Ratio.floor, hnum, Nat.mul_div_cancel _ (Nat.pos_of_ne_zero hden)]

private theorem withSign_eq_iff {negative : Bool} {n : ℕ} :
    withSign negative n = i ↔ (if negative then -(n : ℤ) else n) = i := by
  rw [withSign]
  split_ifs
  · exact_mod_cast Iff.rfl
  · exact_mod_cast Iff.rfl

private theorem signed_natAbs (h : x.value = i) :
    (if x.negative then -(i.natAbs : ℤ) else i.natAbs) = i := by
  rw [← withSign_eq_iff, ← absValue_of_value h]
  exact h

theorem toInt?_eq_some_iff : x.toInt? = some i ↔ x.value = i := by
  constructor
  · intro h
    obtain ⟨habs, hi⟩ := absValue_of_toInt? h
    rw [value, habs, withSign_eq_iff]
    exact hi.symm
  · intro h
    obtain ⟨hmod, hfloor⟩ := magnitude_of_value h
    rw [toInt?, if_pos hmod, hfloor, signed_natAbs h]

theorem toSigned64_of_value (h : x.value = i) (hlow : -2 ^ 63 ≤ i) (hhigh : i < 2 ^ 63) :
    x.toSigned64 = i := by
  rw [toSigned64, (magnitude_of_value h).2, signed_natAbs h]
  omega

theorem exists_absValue_natCast (negative : Bool) {n : ℕ} (h : n < 2 ^ 53) :
    ∃ x : Double, x.negative = negative ∧ x.absValue = n := by
  have hcast : (n : ℚ) < 2 ^ (53 : ℤ) := by exact_mod_cast h
  obtain ⟨e, hgrid⟩ := exists_onGrid n 0
  rw [zpow_zero, mul_one] at hgrid
  have hexponent : e ≤ 0 := by
    by_contra hgt
    have hlower : (2 : ℚ) ^ 52 * 2 ^ e ≤ n := hgrid.lower.resolve_left (by omega)
    have hcoarse : (2 : ℚ) ^ (53 : ℤ) ≤ 2 ^ 52 * 2 ^ e := by
      rw [pow_mul_two_zpow]
      exact two_zpow_le (by push_cast; omega)
    linarith
  have hrange : (n : ℚ) < 2 ^ (1024 : ℤ) - 2 ^ (970 : ℤ) := by
    have hsmall : (2 : ℚ) ^ (53 : ℤ) ≤ 2 ^ (970 : ℤ) := two_zpow_le (by decide)
    have htwice : (2 : ℚ) ^ (970 : ℤ) * 2 ≤ 2 ^ (1024 : ℤ) := by
      rw [← two_zpow_succ]
      exact two_zpow_le (by decide)
    generalize (2 : ℚ) ^ (1024 : ℤ) = top at *
    generalize (2 : ℚ) ^ (970 : ℤ) = half at *
    linarith
  obtain ⟨x, hnegative, habs⟩ := (hgrid.exists_rounded_iff (Nat.cast_nonneg n)).mpr hrange
  exact ⟨x, hnegative, habs.trans (rounded_natCast_of_nonpos hexponent)⟩

theorem exists_value_eq (h : i.natAbs < 2 ^ 53) : ∃ x : Double, x.value = i := by
  obtain ⟨x, hnegative, habs⟩ := exists_absValue_natCast (decide (i < 0)) h
  refine ⟨x, ?_⟩
  rw [value, habs, withSign_eq_iff, hnegative]
  simp only [decide_eq_true_eq]
  split_ifs
  · omega
  · omega

end Double

namespace Number

variable {x : Double} {i : ℤ}

theorem searchText_of_value (h : x.value = i) (hlt : i.natAbs < 2 ^ 53) :
    (Number.float x).searchText = intText i := by
  simp only [searchText]
  rw [Double.toInt?_eq_some_iff.mpr h]
  exact if_pos hlt

/-- A number is searched under the text of a number of the same value. -/
theorem exists_searchText_eq (n : Number) : ∃ m : Number, n.searchText = m.text ∧ m.value = n.value := by
  cases n with
  | int i hfits => exact ⟨.int i hfits, rfl, rfl⟩
  | float x =>
    simp only [searchText]
    cases hi : x.toInt? with
    | none => exact ⟨.float x, rfl, rfl⟩
    | some i =>
      simp only
      split_ifs with hlt
      · have hfits : Fits64 i := ⟨by omega, by omega⟩
        exact ⟨.int i hfits, rfl, (Double.toInt?_eq_some_iff.mp hi).symm⟩
      · exact ⟨.float x, rfl, rfl⟩

/-- The text under which a number is searched is read as a number of the same value, so that numbers
with one such text have one value. Every integer below `2 ^ 53` is the value of a double, and whatever
double has the value is cast to the integer and is the same search term as it. -/
theorem ofText_searchText :
    (∀ n : Number, ∃ m, Token.ofText n.searchText = .number m ∧ m.value = n.value) ∧
    (∀ m n : Number, m.searchText = n.searchText → m.value = n.value) ∧
    ∀ i : ℤ, |i| < 2 ^ 53 → ∃ hfits : Fits64 i, (∃ x : Double, x.value = i) ∧
      ∀ x : Double, x.value = i → x.toInt? = some i ∧ x.toSigned64 = i ∧
        (Number.float x).searchText = (Number.int i hfits).searchText ∧
        (Term.number (.float x)).source = (Term.number (.int i hfits)).source := by
  refine ⟨fun n => ?_, fun m n hsame => ?_, fun i hi => ?_⟩
  · obtain ⟨m, htext, hvalue⟩ := n.exists_searchText_eq
    exact ⟨m, by rw [htext, Token.ofText, read?_text], hvalue⟩
  · obtain ⟨m', hm, hmvalue⟩ := m.exists_searchText_eq
    obtain ⟨n', hn, hnvalue⟩ := n.exists_searchText_eq
    have hread : some m' = some n' := by rw [← read?_text m', ← read?_text n', ← hm, ← hn, hsame]
    rw [← hmvalue, ← hnvalue, Option.some.inj hread]
  · obtain ⟨hlow, hhigh⟩ := abs_lt.mp hi
    have hlt : i.natAbs < 2 ^ 53 := by omega
    refine ⟨⟨by omega, by omega⟩, Double.exists_value_eq hlt, fun x hx => ?_⟩
    have hsearch := searchText_of_value hx hlt
    refine ⟨Double.toInt?_eq_some_iff.mpr hx,
      Double.toSigned64_of_value hx (by omega) (by omega), hsearch, ?_⟩
    rw [Term.source, hsearch]
    rfl

theorem ofText_searchText_negative_zero :
    (Number.float (.zero true)).searchText = (Number.int 0 (by decide)).searchText ∧
    (Number.float (.zero true)).value = (Number.int 0 (by decide)).value ∧
    |(-3 : ℤ)| < 2 ^ 53 ∧ (⟨true, 3 * 2 ^ 51, -51, by decide⟩ : Double).value = (-3 : ℤ) ∧
    (Term.number (.float ⟨true, 3 * 2 ^ 51, -51, by decide⟩)).source =
      (Term.number (.int (-3) (by decide))).source := by
  have hsame : (Number.float (.zero true)).searchText =
      (Number.int 0 (by decide)).searchText := by decide +kernel
  have hbound : |(-3 : ℤ)| < 2 ^ 53 := by decide
  have hvalue : (⟨true, 3 * 2 ^ 51, -51, by decide⟩ : Double).value = (-3 : ℤ) := by
    norm_num [Double.value, Double.withSign, Double.absValue]
  obtain ⟨-, hvalues, hwhole⟩ := ofText_searchText
  obtain ⟨hfits, -, hterms⟩ := hwhole (-3) hbound
  exact ⟨hsame, hvalues _ _ hsame, hbound, hvalue, (hterms _ hvalue).2.2.2⟩

end Number

end PairGrep
