import Mathlib
import PairGrep.Proofs.Number.Rounding

/-!
# The nearest double

What reading a decimal promises to one who knows nothing of grids: no double is nearer to the
decimal than the one that is read, one that is as near tells that the double read has an even
mantissa, and nothing is read exactly from half a unit beyond the largest double on.
-/

namespace PairGrep.Double

section Naturals

variable {t : ℚ}

theorem nearestNat_spec (ht : 0 ≤ t) :
    |t - nearestNat t| ≤ 1 / 2 ∧ (|t - nearestNat t| = 1 / 2 → Even (nearestNat t)) := by
  have hlow : (⌊t⌋₊ : ℚ) ≤ t := Nat.floor_le ht
  have hhigh : t < ⌊t⌋₊ + 1 := Nat.lt_floor_add_one t
  rw [nearestNat]
  split_ifs with hbelow habove
  · rw [abs_of_nonneg (by linarith)]
    exact ⟨by linarith, fun htie => by linarith⟩
  · push_cast
    rw [abs_of_nonpos (by linarith)]
    exact ⟨by linarith, fun htie => by linarith⟩
  · -- Halfway between two naturals, of which the even one is taken.
    have htie : t = ⌊t⌋₊ + 1 / 2 := le_antisymm (not_lt.mp habove) (not_lt.mp hbelow)
    refine ⟨?_, fun _ => ?_⟩
    · rcases Nat.mod_two_eq_zero_or_one ⌊t⌋₊ with hmod | hmod <;>
        rw [hmod, abs_le] <;> push_cast <;> constructor <;> linarith
    · rw [Nat.even_iff]
      omega

theorem abs_sub_nearestNat_le (ht : 0 ≤ t) (k : ℤ) :
    |t - nearestNat t| ≤ |t - k| ∧
      ((k : ℚ) ≠ nearestNat t → |t - k| = |t - nearestNat t| → Even (nearestNat t)) := by
  obtain ⟨hhalf, heven⟩ := nearestNat_spec ht
  by_cases hk : k = nearestNat t
  · subst hk
    exact ⟨by simp, fun hne => absurd (by simp) hne⟩
  · have hgap : (1 : ℚ) ≤ |(nearestNat t : ℚ) - k| := by
      have hgap' : 1 ≤ |(nearestNat t : ℤ) - k| := Int.one_le_abs (sub_ne_zero.mpr (Ne.symm hk))
      exact_mod_cast hgap'
    have htriangle : |(nearestNat t : ℚ) - k| ≤ |t - nearestNat t| + |t - k| := by
      rw [abs_sub_comm t (nearestNat t)]
      exact abs_sub_le _ t _
    exact ⟨by linarith, fun _ htie => heven (by linarith)⟩

theorem nearestNat_le_iff_of_odd {m : ℕ} (ht : 0 ≤ t) (hm : Odd m) :
    nearestNat t ≤ m ↔ t < m + 1 / 2 := by
  obtain ⟨hhalf, heven⟩ := nearestNat_spec ht
  constructor
  · intro hle
    have hcast : (nearestNat t : ℚ) ≤ m := by exact_mod_cast hle
    refine lt_of_le_of_ne (by linarith [(abs_le.mp hhalf).2]) fun htie => ?_
    have heq : nearestNat t = m := by
      have hge : (m : ℚ) ≤ nearestNat t := by linarith [(abs_le.mp hhalf).2]
      exact_mod_cast le_antisymm hcast hge
    have htie' : |t - nearestNat t| = 1 / 2 := by rw [heq, htie, add_sub_cancel_left]; norm_num
    exact Nat.not_even_iff_odd.mpr hm (heq ▸ heven htie')
  · intro hlt
    by_contra hgt
    have hcast : (m : ℚ) + 1 ≤ nearestNat t := by exact_mod_cast not_le.mp hgt
    linarith [(abs_le.mp hhalf).1]

end Naturals

section Grids

variable {x : Double} {negative : Bool} {q : ℚ} {e d : ℤ}

private theorem two_zpow_mul_le (h : d < e) : (2 : ℚ) ^ 53 * 2 ^ d ≤ 2 ^ 52 * 2 ^ e := by
  rw [pow_mul_two_zpow, pow_mul_two_zpow]
  exact two_zpow_le (by push_cast; omega)

/-- No multiple of a power of two with 53 bits is nearer to a rational than the point of its grid to
which it is rounded. -/
theorem OnGrid.abs_sub_rounded_le (h : OnGrid q e) (hq : 0 ≤ q) (hd : -1074 ≤ d) {m : ℤ}
    (hm : |m| < 2 ^ 53) :
    |q - rounded q e| ≤ |q - m * 2 ^ d| ∧
      ((m : ℚ) * 2 ^ d ≠ rounded q e → |q - m * 2 ^ d| = |q - rounded q e| →
        Even (nearestNat (q / 2 ^ e))) := by
  have hpos := two_zpow_pos e
  have hscaled : 0 ≤ q / 2 ^ e := div_nonneg hq hpos.le
  -- Distances from points of the grid, in units of the grid.
  have hunits : ∀ k : ℤ, |q - k * 2 ^ e| = |q / 2 ^ e - k| * 2 ^ e := by
    intro k
    rw [← abs_of_pos hpos, ← abs_mul, abs_of_pos hpos, sub_mul, div_mul_cancel₀ _ hpos.ne']
  have hrounded : |q - rounded q e| = |q / 2 ^ e - nearestNat (q / 2 ^ e)| * 2 ^ e := by
    exact_mod_cast hunits (nearestNat (q / 2 ^ e))
  rcases le_or_gt e d with hle | hlt
  · -- The multiple lies on the grid.
    obtain ⟨k, hk⟩ : ∃ k : ℤ, (m : ℚ) * 2 ^ d = k * 2 ^ e := by
      refine ⟨m * 2 ^ (d - e).toNat, ?_⟩
      rw [Int.cast_mul, Int.cast_pow, Int.cast_two, mul_assoc, pow_mul_two_zpow]
      congr 2
      omega
    obtain ⟨hnear, heven⟩ := abs_sub_nearestNat_le hscaled k
    rw [hk, hunits, hrounded]
    refine ⟨by gcongr, fun hne htie => heven (fun heq => hne ?_) ?_⟩
    · rw [heq, rounded]
    · exact mul_right_cancel₀ hpos.ne' htie
  · -- It lies on a finer grid, so it is below the least point with 53 bits.
    have hlower := h.lower.resolve_left (by omega)
    have hbelow : (m : ℚ) * 2 ^ d < 2 ^ 52 * 2 ^ e := by
      have hcast : (m : ℚ) < 2 ^ 53 := by exact_mod_cast (abs_lt.mp hm).2
      calc (m : ℚ) * 2 ^ d < 2 ^ 53 * 2 ^ d := mul_lt_mul_of_pos_right hcast (two_zpow_pos d)
        _ ≤ 2 ^ 52 * 2 ^ e := two_zpow_mul_le hlt
    have hcorner := (abs_sub_nearestNat_le hscaled (2 ^ 52)).1
    have hstrict : |q - rounded q e| < |q - m * 2 ^ d| := by
      calc |q - rounded q e| ≤ |q - (2 ^ 52 : ℤ) * 2 ^ e| := by rw [hunits, hrounded]; gcongr
        _ = q - 2 ^ 52 * 2 ^ e := by
          rw [Int.cast_pow, Int.cast_two, abs_of_nonneg (sub_nonneg.mpr hlower)]
        _ < q - m * 2 ^ d := by linarith
        _ ≤ |q - m * 2 ^ d| := le_abs_self _
    exact ⟨hstrict.le, fun _ htie => absurd htie hstrict.ne'⟩

private theorem exists_absValue {m : ℕ} (hleast : -1074 ≤ e) (hle : m ≤ 2 ^ 53)
    (hge : e = -1074 ∨ 2 ^ 52 ≤ m) (hlt : (m : ℚ) * 2 ^ e < 2 ^ (1024 : ℤ)) :
    ∃ y : Double, y.negative = negative ∧ y.absValue = m * 2 ^ e ∧ (Even m → Even y.mantissa) := by
  by_cases hcarries : m = 2 ^ 53
  · have hmost : e + 1 ≤ 971 := by
      by_contra hgt
      refine absurd hlt (not_lt.mpr (two_zpow_le_mul (n := 53) hcarries.ge ?_))
      push_cast
      omega
    refine ⟨⟨negative, 2 ^ 52, e + 1, by decide, by omega, hmost, .inl (by decide)⟩, rfl, ?_, ?_⟩
    · rw [absValue, hcarries, two_zpow_succ]
      push_cast
      ring
    · exact fun _ => Nat.even_pow.mpr ⟨even_two, by decide⟩
  · have hmost : e ≤ 971 := by
      by_contra hgt
      refine absurd hlt (not_lt.mpr (two_zpow_le_mul (n := 52) (hge.resolve_left (by omega)) ?_))
      push_cast
      omega
    exact ⟨⟨negative, m, e, lt_of_le_of_ne hle hcarries, hleast, hmost, hge.symm⟩, rfl, rfl, id⟩

theorem OnGrid.even_mantissa (h : OnGrid q e) (hq : 0 ≤ q) (hx : x.absValue = rounded q e)
    (heven : Even (nearestNat (q / 2 ^ e))) : Even x.mantissa := by
  obtain ⟨hle, hge⟩ := h.nearestNat_bounds hq
  have hlt : (nearestNat (q / 2 ^ e) : ℚ) * 2 ^ e < 2 ^ (1024 : ℤ) := by
    rw [← rounded, ← hx]
    exact x.absValue_lt
  obtain ⟨y, hnegative, habs, hmantissa⟩ : ∃ y : Double, y.negative = x.negative ∧ _ :=
    exists_absValue h.least hle hge hlt
  obtain rfl : y = x := eq_of_absValue hnegative (habs.trans hx.symm)
  exact hmantissa heven

theorem OnGrid.rounded_lt_iff (h : OnGrid q e) (hq : 0 ≤ q) :
    rounded q e < 2 ^ (1024 : ℤ) ↔ q < 2 ^ (1024 : ℤ) - 2 ^ (970 : ℤ) := by
  obtain ⟨hle, hge⟩ := h.nearestNat_bounds hq
  have hstep : (2 : ℚ) ^ (970 : ℤ) ≤ 2 ^ (1023 : ℤ) := two_zpow_le (by decide)
  have htop : (2 : ℚ) ^ (1024 : ℤ) = 2 ^ (1023 : ℤ) * 2 := two_zpow_succ 1023
  have hpositive := two_zpow_pos 970
  rcases lt_trichotomy e 971 with hlt | rfl | hgt
  · have hpower : (2 : ℚ) ^ 53 * 2 ^ e ≤ 2 ^ (1023 : ℤ) := by
      rw [pow_mul_two_zpow]
      exact two_zpow_le (by push_cast; omega)
    have hcast : (nearestNat (q / 2 ^ e) : ℚ) ≤ 2 ^ 53 := by exact_mod_cast hle
    have hrounded : rounded q e ≤ 2 ^ 53 * 2 ^ e :=
      mul_le_mul_of_nonneg_right hcast (two_zpow_pos e).le
    have hupper := h.upper
    rw [htop]
    generalize (2 : ℚ) ^ (1023 : ℤ) = power at *
    generalize (2 : ℚ) ^ (970 : ℤ) = half at *
    exact iff_of_true (by linarith) (by linarith)
  · have hpos := two_zpow_pos 971
    have hunits : (2 : ℚ) ^ (1024 : ℤ) = (2 ^ 53 : ℕ) * 2 ^ (971 : ℤ) := by
      rw [Nat.cast_pow, Nat.cast_two, pow_mul_two_zpow]
      rfl
    have hodd : Odd (2 ^ 53 - 1) := by decide
    calc rounded q 971 < 2 ^ (1024 : ℤ) ↔ nearestNat (q / 2 ^ (971 : ℤ)) ≤ 2 ^ 53 - 1 := by
          rw [rounded, hunits, mul_lt_mul_iff_left₀ hpos, Nat.cast_lt]
          omega
      _ ↔ q / 2 ^ (971 : ℤ) < (2 ^ 53 - 1 : ℕ) + 1 / 2 :=
          nearestNat_le_iff_of_odd (div_nonneg hq hpos.le) hodd
      _ ↔ q < 2 ^ (1024 : ℤ) - 2 ^ (970 : ℤ) := by
          have htwice : (2 : ℚ) ^ (971 : ℤ) = 2 ^ (970 : ℤ) * 2 := two_zpow_succ 970
          rw [div_lt_iff₀ hpos, hunits, htwice]
          generalize (2 : ℚ) ^ (970 : ℤ) = half
          have hunder : ((2 ^ 53 - 1 : ℕ) + 1 / 2) * (half * 2) = (2 ^ 53 : ℕ) * (half * 2) - half := by
            push_cast
            ring
          rw [hunder]
  · have hlarge : (2 : ℚ) ^ (1024 : ℤ) ≤ rounded q e :=
      two_zpow_le_mul (hge.resolve_left (by omega)) (by push_cast; omega)
    have hlower := h.lower.resolve_left (by omega)
    have hlarge' : (2 : ℚ) ^ (1024 : ℤ) ≤ 2 ^ 52 * 2 ^ e := by
      rw [pow_mul_two_zpow]
      exact two_zpow_le (by push_cast; omega)
    refine iff_of_false (not_lt.mpr hlarge) (not_lt.mpr ?_)
    exact (sub_le_self _ hpositive.le).trans (hlarge'.trans hlower)

theorem OnGrid.exists_rounded_iff (h : OnGrid q e) (hq : 0 ≤ q) :
    (∃ x : Double, x.negative = negative ∧ x.absValue = rounded q e) ↔
      q < 2 ^ (1024 : ℤ) - 2 ^ (970 : ℤ) := by
  rw [← h.rounded_lt_iff hq]
  constructor
  · rintro ⟨x, -, hx⟩
    exact hx ▸ x.absValue_lt
  · intro hlt
    obtain ⟨hle, hge⟩ := h.nearestNat_bounds hq
    obtain ⟨y, hnegative, habs, -⟩ := exists_absValue h.least hle hge hlt
    exact ⟨y, hnegative, habs⟩

end Grids

section Signs

variable {x y : Double} {negative : Bool} {q : ℚ} {e : ℤ}

def withSign (negative : Bool) (q : ℚ) : ℚ := if negative then -q else q

theorem withSign_withSign (negative : Bool) (q : ℚ) :
    withSign negative (withSign negative q) = q := by
  unfold withSign
  split_ifs <;> simp

theorem abs_sub_withSign (negative : Bool) (p q : ℚ) :
    |p - withSign negative q| = |withSign negative p - q| := by
  unfold withSign
  split_ifs
  · rw [← abs_neg]
    congr 1
    ring
  · rfl

def value (x : Double) : ℚ := withSign x.negative x.absValue

/-- The double is the one that rounding to nearest gives for the rational, a tie going to the even
mantissa. -/
structure IsNearest (x : Double) (q : ℚ) : Prop where
  near (y : Double) : |q - x.value| ≤ |q - y.value|
  even (y : Double) : y.value ≠ x.value → |q - y.value| = |q - x.value| → Even x.mantissa

private theorem exists_withSign_value (negative : Bool) (y : Double) :
    ∃ m : ℤ, |m| < 2 ^ 53 ∧ withSign negative y.value = m * 2 ^ y.exponent := by
  have hmantissa : (y.mantissa : ℤ) < 2 ^ 53 := by exact_mod_cast y.canonical.1
  simp only [value, withSign, absValue]
  split_ifs
  · exact ⟨y.mantissa, by simpa using hmantissa, by simp⟩
  · exact ⟨-y.mantissa, by simpa using hmantissa, by simp⟩
  · exact ⟨-y.mantissa, by simpa using hmantissa, by simp⟩
  · exact ⟨y.mantissa, by simpa using hmantissa, by simp⟩

theorem OnGrid.isNearest (h : OnGrid q e) (hq : 0 ≤ q) (hx : x.absValue = rounded q e) :
    x.IsNearest (withSign x.negative q) := by
  -- The sign is moved from the rational to the doubles.
  have hself : |withSign x.negative q - x.value| = |q - rounded q e| := by
    rw [value, abs_sub_withSign, withSign_withSign, hx]
  constructor
  · intro y
    obtain ⟨m, hm, hvalue⟩ := exists_withSign_value x.negative y
    rw [hself, ← abs_sub_withSign, hvalue]
    exact (h.abs_sub_rounded_le hq y.canonical.2.1 hm).1
  · intro y hne htie
    obtain ⟨m, hm, hvalue⟩ := exists_withSign_value x.negative y
    rw [hself, ← abs_sub_withSign, hvalue] at htie
    refine h.even_mantissa hq hx ((h.abs_sub_rounded_le hq y.canonical.2.1 hm).2 ?_ htie)
    intro heq
    refine hne ?_
    rw [← withSign_withSign x.negative y.value, hvalue, heq, ← hx, value]

/-- Between the values of two doubles with even mantissas lies that of another double. -/
private theorem exists_between (hx : Even x.mantissa) (hy : Even y.mantissa)
    (hlt : x.absValue < y.absValue) :
    ∃ z : Double, z.negative = x.negative ∧ x.absValue < z.absValue ∧ z.absValue < y.absValue := by
  obtain ⟨hmantissa, hleast, hmost, hnormal⟩ := x.canonical
  have hpos := two_zpow_pos x.exponent
  have hcanonical : Canonical (x.mantissa + 1) x.exponent := by
    obtain ⟨half, hhalf⟩ := hx
    exact ⟨by omega, hleast, hmost, hnormal.imp_left fun hle => by omega⟩
  refine ⟨⟨x.negative, x.mantissa + 1, x.exponent, hcanonical⟩, rfl, ?_, ?_⟩
  · exact mul_lt_mul_of_pos_right (by exact_mod_cast Nat.lt_succ_self _) hpos
  · rcases le_or_gt x.exponent y.exponent with hle | hgt
    · -- The other double lies on the grid of the first, at an even point.
      obtain ⟨k, hk, hunits⟩ : ∃ k : ℕ, Even k ∧ y.absValue = k * 2 ^ x.exponent := by
        refine ⟨y.mantissa * 2 ^ (y.exponent - x.exponent).toNat, hy.mul_right _, ?_⟩
        rw [Nat.cast_mul, Nat.cast_pow, Nat.cast_two, mul_assoc, pow_mul_two_zpow, absValue]
        congr 2
        omega
      rw [hunits, absValue, mul_lt_mul_iff_left₀ hpos, Nat.cast_lt] at hlt
      have hne : x.mantissa + 1 ≠ k := fun heq => Nat.not_even_iff_odd.mpr hx.add_one (heq ▸ hk)
      rw [hunits]
      exact mul_lt_mul_of_pos_right (by exact_mod_cast Nat.lt_of_le_of_ne hlt hne) hpos
    · have hnormal' : x.mantissa * 2 ^ x.exponent ≥ (2 ^ 52 : ℚ) * 2 ^ x.exponent := by
        have hle : 2 ^ 52 ≤ x.mantissa := hnormal.resolve_right (by have := y.canonical.2.1; omega)
        exact mul_le_mul_of_nonneg_right (by exact_mod_cast hle) hpos.le
      have hupper := y.onGrid_absValue.upper
      have hcoarse := two_zpow_mul_le hgt
      rw [absValue] at hlt
      exact absurd hlt (not_lt.mpr (hupper.le.trans (hcoarse.trans hnormal')))

private theorem IsNearest.not_absValue_lt (hx : x.IsNearest q) (hy : y.IsNearest q)
    (hnegative : x.negative = y.negative) : ¬ x.absValue < y.absValue := by
  intro hlt
  have htie : |q - x.value| = |q - y.value| := le_antisymm (hx.near y) (hy.near x)
  have hvalue : x.value ≠ y.value := by
    intro heq
    rw [value, value, ← hnegative] at heq
    have habs := congrArg (withSign x.negative) heq
    rw [withSign_withSign, withSign_withSign] at habs
    exact hlt.ne habs
  obtain ⟨z, hz, hxz, hzy⟩ := exists_between (hx.even y hvalue.symm htie.symm)
    (hy.even x hvalue htie) hlt
  have hnear := hx.near z
  rw [value, value, abs_sub_withSign, abs_sub_withSign, ← hnegative] at htie
  rw [value, value, abs_sub_withSign, abs_sub_withSign, hz] at hnear
  generalize withSign x.negative q = p at htie hnear
  -- The rational is halfway between the two, and the third double is nearer.
  rcases abs_eq_abs.mp htie with hsame | hhalf
  · linarith
  · have hdist : |p - x.absValue| = (y.absValue - x.absValue) / 2 := by
      rw [abs_of_nonneg (by linarith)]
      linarith
    have hnearer : |p - z.absValue| < (y.absValue - x.absValue) / 2 := by
      rw [abs_lt]
      constructor <;> linarith
    linarith

/-- A rational has one nearest double of either sign. -/
theorem IsNearest.unique (hx : x.IsNearest q) (hy : y.IsNearest q)
    (hnegative : x.negative = y.negative) : x = y := by
  have hle : x.absValue ≤ y.absValue := not_lt.mp (hy.not_absValue_lt hx hnegative.symm)
  have hge : y.absValue ≤ x.absValue := not_lt.mp (hx.not_absValue_lt hy hnegative)
  exact eq_of_absValue hnegative (le_antisymm hle hge)

end Signs

section Decimals

variable {x : Double} {negative : Bool} {digits : ℕ} {exponent : ℤ}

private theorem ofDecimal?_isNearest (h : ofDecimal? negative digits exponent = some x) :
    x.negative = negative ∧ x.IsNearest (withSign negative (digits * 10 ^ exponent)) := by
  obtain ⟨e, hgrid⟩ := exists_onGrid digits exponent
  obtain ⟨rfl, habs⟩ := (ofDecimal?_eq_some_iff hgrid).mp h
  exact ⟨rfl, hgrid.isNearest (by positivity) habs⟩

/-- A decimal is read exactly below half a unit beyond the largest double. -/
theorem exists_ofDecimal?_iff :
    (∃ x, ofDecimal? negative digits exponent = some x) ↔
      (digits : ℚ) * 10 ^ exponent < 2 ^ (1024 : ℤ) - 2 ^ (970 : ℤ) := by
  obtain ⟨e, hgrid⟩ := exists_onGrid digits exponent
  simp only [ofDecimal?_eq_some_iff hgrid]
  exact hgrid.exists_rounded_iff (by positivity)

/-- Below half a unit beyond the largest double, reading a decimal gives the nearest double under the
sign that was asked for; from there on it gives none. -/
theorem ofDecimal?_eq_some_iff_isNearest :
    ofDecimal? negative digits exponent = some x ↔
      (digits : ℚ) * 10 ^ exponent < 2 ^ (1024 : ℤ) - 2 ^ (970 : ℤ) ∧
        x.negative = negative ∧ x.IsNearest (withSign negative (digits * 10 ^ exponent)) := by
  constructor
  · intro h
    exact ⟨exists_ofDecimal?_iff.mp ⟨x, h⟩, ofDecimal?_isNearest h⟩
  · rintro ⟨hlt, hnegative, hnearest⟩
    obtain ⟨y, hy⟩ := exists_ofDecimal?_iff.mpr hlt
    obtain ⟨hyNegative, hyNearest⟩ := ofDecimal?_isNearest hy
    rw [hy, hyNearest.unique hnearest (hyNegative.trans hnegative.symm)]

end Decimals

end PairGrep.Double
