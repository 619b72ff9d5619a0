import Mathlib
import PairGrep.Number.Double

/-!
# Rounding to doubles

Rounding told on rationals. A rational is rounded on the one binary grid on which it takes 53 bits, to
the nearest point, and the double that is found is the one with that value. So equal rationals are
rounded alike, and the value of a double to the double itself.
-/

namespace PairGrep.Double

namespace Ratio

def value (r : Ratio) : ℚ := r.num / r.den

theorem value_nonneg (r : Ratio) : 0 ≤ r.value := div_nonneg (Nat.cast_nonneg _) (Nat.cast_nonneg _)

private theorem zpow_eq_div {b : ℚ} (hb : b ≠ 0) (e : ℤ) :
    b ^ e = b ^ e.toNat / b ^ (-e).toNat := by
  have hsub : b ^ ((e.toNat : ℤ) - ((-e).toNat : ℤ)) = b ^ e.toNat / b ^ (-e).toNat := by
    rw [zpow_sub₀ hb, zpow_natCast, zpow_natCast]
  rwa [Int.toNat_sub_toNat_neg] at hsub

theorem value_scaleTwo (r : Ratio) (e : ℤ) : (r.scaleTwo e).value = r.value * 2 ^ e := by
  rw [zpow_eq_div (by norm_num), value, value, scaleTwo, div_mul_div_comm]
  simp

theorem value_scaleTen (r : Ratio) (e : ℤ) : (r.scaleTen e).value = r.value * 10 ^ e := by
  rw [zpow_eq_div (by norm_num), value, value, scaleTen, div_mul_div_comm]
  simp

theorem value_natural (n : ℕ) : (Ratio.mk n 1).value = n := by simp [value]

theorem floor_eq (r : Ratio) : r.floor = ⌊r.value⌋₊ := (Nat.floor_div_eq_div _ _).symm

theorem den_scaleTwo {r : Ratio} (h : r.den ≠ 0) (e : ℤ) : (r.scaleTwo e).den ≠ 0 :=
  Nat.mul_ne_zero h (pow_ne_zero _ (by decide))

theorem den_scaleTen {r : Ratio} (h : r.den ≠ 0) (e : ℤ) : (r.scaleTen e).den ≠ 0 :=
  Nat.mul_ne_zero h (pow_ne_zero _ (by decide))

end Ratio

section Nearest

variable {q : ℚ} {n : ℕ}

/-- The natural nearest to a rational, the even one of two that are equally near. -/
def nearestNat (q : ℚ) : ℕ :=
  if q < ⌊q⌋₊ + 1 / 2 then ⌊q⌋₊
  else if ⌊q⌋₊ + 1 / 2 < q then ⌊q⌋₊ + 1
  else ⌊q⌋₊ + ⌊q⌋₊ % 2

theorem Ratio.nearest_eq {r : Ratio} (h : r.den ≠ 0) : r.nearest = nearestNat r.value := by
  have hden : (0 : ℚ) < r.den := by exact_mod_cast Nat.pos_of_ne_zero h
  have hnum : (r.num : ℚ) = r.den * (r.num / r.den : ℕ) + (r.num % r.den : ℕ) := by
    exact_mod_cast (Nat.div_add_mod r.num r.den).symm
  have hvalue : r.value = (r.num / r.den : ℕ) + (r.num % r.den : ℕ) / (r.den : ℚ) := by
    rw [Ratio.value, hnum, add_div, mul_div_cancel_left₀ _ hden.ne']
  have hlt : r.value < (r.num / r.den : ℕ) + 1 / 2 ↔ 2 * (r.num % r.den) < r.den := by
    rw [hvalue, add_lt_add_iff_left, div_lt_div_iff₀ hden two_pos, one_mul, mul_comm]
    exact_mod_cast Iff.rfl
  have hgt : (r.num / r.den : ℕ) + 1 / 2 < r.value ↔ r.den < 2 * (r.num % r.den) := by
    rw [hvalue, add_lt_add_iff_left, div_lt_div_iff₀ two_pos hden, one_mul, mul_comm (_ : ℚ) 2]
    exact_mod_cast Iff.rfl
  have hfloor : ⌊r.value⌋₊ = r.num / r.den := r.floor_eq.symm
  simp only [Ratio.nearest, nearestNat, hfloor, hlt, hgt]

theorem nearestNat_of_abs_lt (hq : 0 ≤ q) (h : |q - n| < 1 / 2) : nearestNat q = n := by
  obtain ⟨hlow, hhigh⟩ := abs_lt.mp h
  rcases lt_or_ge q n with hlt | hge
  · -- The rational lies in the upper half below the natural.
    have hpos : 0 < n := by exact_mod_cast hq.trans_lt hlt
    have hpred : ((n - 1 : ℕ) : ℚ) = n - 1 := by push_cast [hpos]; ring
    have hfloor : ⌊q⌋₊ = n - 1 := by
      rw [Nat.floor_eq_iff hq, hpred]
      constructor <;> linarith
    rw [nearestNat, hfloor, hpred, if_neg (by linarith), if_pos (by linarith)]
    omega
  · have hfloor : ⌊q⌋₊ = n := by
      rw [Nat.floor_eq_iff hq]
      constructor <;> linarith
    rw [nearestNat, hfloor, if_pos (by linarith)]

theorem nearestNat_natCast (n : ℕ) : nearestNat n = n :=
  nearestNat_of_abs_lt (Nat.cast_nonneg n) (by norm_num)

theorem nearestNat_le (hq : 0 ≤ q) (h : q < n) : nearestNat q ≤ n := by
  have hfloor : ⌊q⌋₊ < n := (Nat.floor_lt hq).mpr h
  unfold nearestNat
  split_ifs <;> omega

theorem le_nearestNat (h : (n : ℚ) ≤ q) : n ≤ nearestNat q := by
  have hfloor : n ≤ ⌊q⌋₊ := Nat.le_floor h
  unfold nearestNat
  split_ifs <;> omega

end Nearest

section Grids

variable {q : ℚ} {d e : ℤ}

theorem two_zpow_pos (e : ℤ) : (0 : ℚ) < 2 ^ e := zpow_pos two_pos e

theorem two_zpow_succ (e : ℤ) : (2 : ℚ) ^ (e + 1) = 2 ^ e * 2 := zpow_add_one₀ two_ne_zero e

theorem pow_mul_two_zpow (n : ℕ) (e : ℤ) : (2 : ℚ) ^ n * 2 ^ e = 2 ^ (e + n) := by
  rw [zpow_add₀ two_ne_zero, zpow_natCast, mul_comm]

theorem two_zpow_le (h : d ≤ e) : (2 : ℚ) ^ d ≤ 2 ^ e := zpow_le_zpow_right₀ one_le_two h

theorem two_zpow_le_mul {m n : ℕ} (hm : 2 ^ n ≤ m) (h : d ≤ e + n) :
    (2 : ℚ) ^ d ≤ m * 2 ^ e := by
  have hcast : (2 : ℚ) ^ n ≤ m := by exact_mod_cast hm
  calc (2 : ℚ) ^ d ≤ 2 ^ (e + n) := two_zpow_le h
    _ = 2 ^ n * 2 ^ e := (pow_mul_two_zpow n e).symm
    _ ≤ m * 2 ^ e := by gcongr

/-- The rational is rounded on the grid with this exponent: it takes 53 bits there, or fewer on the
finest grid. -/
structure OnGrid (q : ℚ) (e : ℤ) : Prop where
  least : -1074 ≤ e
  upper : q < 2 ^ 53 * 2 ^ e
  lower : e = -1074 ∨ 2 ^ 52 * 2 ^ e ≤ q

private theorem onGrid_units_iff {t : ℚ} :
    OnGrid (t * 2 ^ e) e ↔ -1074 ≤ e ∧ t < 2 ^ 53 ∧ (e = -1074 ∨ 2 ^ 52 ≤ t) := by
  have hlt : t * 2 ^ e < 2 ^ 53 * 2 ^ e ↔ t < 2 ^ 53 := mul_lt_mul_iff_left₀ (two_zpow_pos e)
  have hle : 2 ^ 52 * 2 ^ e ≤ t * 2 ^ e ↔ 2 ^ 52 ≤ t := mul_le_mul_iff_left₀ (two_zpow_pos e)
  rw [← hlt, ← hle]
  constructor
  · intro h
    exact ⟨h.least, h.upper, h.lower⟩
  · intro h
    exact ⟨h.1, h.2.1, h.2.2⟩

/-- A rational is rounded on one grid only. -/
theorem OnGrid.unique (hd : OnGrid q d) (he : OnGrid q e) : d = e := by
  have hle : ∀ {d e : ℤ}, OnGrid q d → OnGrid q e → e ≤ d := by
    intro d e hd he
    by_contra hlt
    have hlower := he.lower.resolve_left (by linarith [hd.least])
    have hstep := two_zpow_le (d := d + 1) (e := e) (by omega)
    rw [two_zpow_succ] at hstep
    linarith [hd.upper]
  exact le_antisymm (hle he hd) (hle hd he)

theorem OnGrid.scaled_lt (h : OnGrid q e) : q / 2 ^ e < (2 ^ 53 : ℕ) := by
  rw [div_lt_iff₀ (two_zpow_pos e)]
  exact_mod_cast h.upper

theorem OnGrid.le_scaled (h : OnGrid q e) : e = -1074 ∨ ((2 ^ 52 : ℕ) : ℚ) ≤ q / 2 ^ e := by
  refine h.lower.imp_right fun hlower => ?_
  rw [le_div_iff₀ (two_zpow_pos e)]
  exact_mod_cast hlower

/-- In units of the grid the nearest point has 53 bits, or is the next power of two. -/
theorem OnGrid.nearestNat_bounds (h : OnGrid q e) (hq : 0 ≤ q) :
    nearestNat (q / 2 ^ e) ≤ 2 ^ 53 ∧ (e = -1074 ∨ 2 ^ 52 ≤ nearestNat (q / 2 ^ e)) := by
  have hscaled : 0 ≤ q / 2 ^ e := div_nonneg hq (two_zpow_pos e).le
  exact ⟨nearestNat_le hscaled h.scaled_lt, h.le_scaled.imp_right le_nearestNat⟩

private theorem log2_bounds {n : ℕ} (hn : n ≠ 0) :
    (2 : ℚ) ^ (n.log2 : ℤ) ≤ n ∧ (n : ℚ) < 2 ^ ((n.log2 : ℤ) + 1) := by
  have hlow := Nat.log2_self_le hn
  have hhigh := Nat.lt_log2_self (n := n)
  constructor
  · exact_mod_cast hlow
  · exact_mod_cast hhigh

private theorem value_bounds {r : Ratio} (hnum : r.num ≠ 0) (hden : r.den ≠ 0) :
    (2 : ℚ) ^ ((r.num.log2 : ℤ) - r.den.log2 - 1) ≤ r.value ∧
      r.value < 2 ^ ((r.num.log2 : ℤ) - r.den.log2 + 1) := by
  have hpos : (0 : ℚ) < r.den := by exact_mod_cast Nat.pos_of_ne_zero hden
  obtain ⟨hnumLow, hnumHigh⟩ := log2_bounds hnum
  obtain ⟨hdenLow, hdenHigh⟩ := log2_bounds hden
  rw [Ratio.value, le_div_iff₀ hpos, div_lt_iff₀ hpos]
  constructor
  · calc (2 : ℚ) ^ ((r.num.log2 : ℤ) - r.den.log2 - 1) * r.den
        ≤ 2 ^ ((r.num.log2 : ℤ) - r.den.log2 - 1) * 2 ^ ((r.den.log2 : ℤ) + 1) := by gcongr
      _ = 2 ^ (r.num.log2 : ℤ) := by rw [← zpow_add₀ two_ne_zero]; congr 1; ring
      _ ≤ r.num := hnumLow
  · calc (r.num : ℚ) < 2 ^ ((r.num.log2 : ℤ) + 1) := hnumHigh
      _ = 2 ^ ((r.num.log2 : ℤ) - r.den.log2 + 1) * 2 ^ (r.den.log2 : ℤ) := by
        rw [← zpow_add₀ two_ne_zero]; congr 1; ring
      _ ≤ 2 ^ ((r.num.log2 : ℤ) - r.den.log2 + 1) * r.den := by gcongr

private theorem value_scaleTwo_neg (r : Ratio) (e : ℤ) :
    (r.scaleTwo (-e)).value = r.value / 2 ^ e := by
  rw [Ratio.value_scaleTwo, zpow_neg, div_eq_mul_inv]

private theorem floor_scaled_lt_iff (r : Ratio) (e : ℤ) :
    (r.scaleTwo (-e)).floor < 0x20000000000000 ↔ r.value < 2 ^ 53 * 2 ^ e := by
  have hnonneg : 0 ≤ r.value / 2 ^ e := div_nonneg r.value_nonneg (two_zpow_pos e).le
  rw [Ratio.floor_eq, value_scaleTwo_neg, Nat.floor_lt hnonneg, div_lt_iff₀ (two_zpow_pos e)]
  norm_num

/-- The grid that is found is the one that a quotient is rounded on. -/
theorem onGrid_gridExponent {r : Ratio} (hnum : r.num ≠ 0) (hden : r.den ≠ 0) :
    OnGrid r.value (gridExponent r) := by
  obtain ⟨hlow, hhigh⟩ := value_bounds hnum hden
  unfold gridExponent
  simp only [floor_scaled_lt_iff]
  generalize (r.num.log2 : ℤ) - r.den.log2 = l at hlow hhigh ⊢
  split_ifs with hfits
  · refine ⟨le_max_left _ _, hfits, ?_⟩
    rcases le_total (l - 53) (-1074) with hle | hle
    · exact .inl (max_eq_left hle)
    · refine .inr ?_
      rw [max_eq_right hle, pow_mul_two_zpow]
      calc (2 : ℚ) ^ (l - 53 + (52 : ℕ)) = 2 ^ (l - 1) := by congr 1; push_cast; ring
        _ ≤ r.value := hlow
  · have hbound : l - 53 ≤ max (-1074) (l - 53) := le_max_right _ _
    refine ⟨by omega, ?_, .inr ?_⟩
    · calc r.value < 2 ^ (l + 1) := hhigh
        _ ≤ 2 ^ (max (-1074) (l - 53) + 1 + (53 : ℕ)) := two_zpow_le (by omega)
        _ = 2 ^ 53 * 2 ^ (max (-1074) (l - 53) + 1) := (pow_mul_two_zpow _ _).symm
    · rw [two_zpow_succ]
      linarith [not_lt.mp hfits]

end Grids

section Values

variable {x y : Double} {negative : Bool} {q : ℚ} {e : ℤ}

def absValue (x : Double) : ℚ := x.mantissa * 2 ^ x.exponent

theorem absValue_nonneg (x : Double) : 0 ≤ x.absValue := by
  unfold absValue
  positivity

theorem value_magnitude (x : Double) : x.magnitude.value = x.absValue := by
  rw [magnitude, Ratio.value_scaleTwo, Ratio.value_natural, absValue]

theorem onGrid_absValue (x : Double) : OnGrid x.absValue x.exponent := by
  obtain ⟨hmantissa, hleast, -, hnormal⟩ := x.canonical
  apply onGrid_units_iff.mpr
  refine ⟨hleast, by exact_mod_cast hmantissa, hnormal.symm.imp_right fun hle => ?_⟩
  exact_mod_cast hle

theorem absValue_lt (x : Double) : x.absValue < 2 ^ (1024 : ℤ) := by
  calc x.absValue < 2 ^ 53 * 2 ^ x.exponent := x.onGrid_absValue.upper
    _ = 2 ^ (x.exponent + (53 : ℕ)) := pow_mul_two_zpow _ _
    _ ≤ 2 ^ (1024 : ℤ) := two_zpow_le (by have hmost := x.canonical.2.2.1; omega)

theorem eq_of_absValue (hnegative : x.negative = y.negative) (habs : x.absValue = y.absValue) :
    x = y := by
  have hexponent : x.exponent = y.exponent := x.onGrid_absValue.unique (habs ▸ y.onGrid_absValue)
  have hmantissa : x.mantissa = y.mantissa := by
    rw [absValue, absValue, hexponent] at habs
    exact_mod_cast mul_right_cancel₀ (two_zpow_pos y.exponent).ne' habs
  cases x
  cases y
  simp_all

theorem absValue_zero (negative : Bool) : (zero negative).absValue = 0 := by simp [absValue, zero]

/-- The value on the grid to which a rational is rounded. -/
def rounded (q : ℚ) (e : ℤ) : ℚ := nearestNat (q / 2 ^ e) * 2 ^ e

private theorem rounded_units (t : ℚ) (e : ℤ) : rounded (t * 2 ^ e) e = nearestNat t * 2 ^ e := by
  rw [rounded, mul_div_cancel_right₀ _ (two_zpow_pos e).ne']

theorem OnGrid.rounded_absValue (h : OnGrid x.absValue e) : rounded x.absValue e = x.absValue := by
  obtain rfl := x.onGrid_absValue.unique h
  rw [absValue, rounded_units, nearestNat_natCast]

theorem rounded_natCast_of_nonpos {n : ℕ} (he : e ≤ 0) : rounded n e = n := by
  have hunits : (n : ℚ) = (n * 2 ^ (-e).toNat : ℕ) * 2 ^ e := by
    rw [Nat.cast_mul, Nat.cast_pow, Nat.cast_two, ← zpow_natCast, Int.toNat_of_nonneg (by omega),
      mul_assoc, ← zpow_add₀ two_ne_zero, neg_add_cancel, zpow_zero, mul_one]
  rw [hunits, rounded_units, nearestNat_natCast]

theorem OnGrid.rounded_natCast {n : ℕ} (h : OnGrid n e) (hlt : rounded n e < 2 ^ 53) :
    rounded n e = n := by
  apply rounded_natCast_of_nonpos
  by_contra hgt
  have hm : 2 ^ 52 ≤ nearestNat (n / 2 ^ e) := le_nearestNat (h.le_scaled.resolve_left (by omega))
  have hlarge : (2 : ℚ) ^ (53 : ℤ) ≤ rounded n e := two_zpow_le_mul hm (by push_cast; omega)
  exact absurd hlt (not_lt.mpr (by exact_mod_cast hlarge))

private theorem rounded_of_near {t : ℚ} {n : ℕ} (ht : 0 ≤ t) (hnear : |t - n| < 1 / 2) :
    rounded (t * 2 ^ e) e = n * 2 ^ e := by
  rw [rounded_units, nearestNat_of_abs_lt ht hnear]

/-- A rational that is closer to a double than any other, and much so, is rounded to its value. -/
theorem exists_rounded_of_close (hq : 0 ≤ q) (h : |q - x.absValue| * (2 * 10 ^ 16) ≤ x.absValue) :
    ∃ e, OnGrid q e ∧ rounded q e = x.absValue := by
  obtain ⟨hmantissa, hleast, -, hnormal⟩ := x.canonical
  have hpos := two_zpow_pos x.exponent
  have hmost : (x.mantissa : ℚ) + 1 ≤ 2 ^ 53 := by exact_mod_cast hmantissa
  -- All is told in units of the grid of the double.
  obtain ⟨t, rfl⟩ : ∃ t, q = t * 2 ^ x.exponent :=
    ⟨q / 2 ^ x.exponent, (div_mul_cancel₀ _ hpos.ne').symm⟩
  have ht : 0 ≤ t := nonneg_of_mul_nonneg_left hq hpos
  have hclose : |t - x.mantissa| * (2 * 10 ^ 16) ≤ x.mantissa := by
    rw [absValue, ← sub_mul, abs_mul, abs_of_pos hpos, mul_right_comm] at h
    exact le_of_mul_le_mul_right h hpos
  have hbounds : |t - x.mantissa| ≤ x.mantissa / (2 * 10 ^ 16) := by
    rwa [le_div_iff₀ (by norm_num)]
  obtain ⟨hlow, hhigh⟩ := abs_le.mp hbounds
  by_cases hbelow : t < x.mantissa ∧ x.mantissa = 2 ^ 52 ∧ x.exponent ≠ -1074
  · -- Below a power of two the grid is finer.
    obtain ⟨hlt, hpower, hexponent⟩ := hbelow
    have hcast : (x.mantissa : ℚ) = 2 ^ 52 := by exact_mod_cast hpower
    have hstep : (2 : ℚ) ^ x.exponent = 2 ^ (x.exponent - 1) * 2 := by
      rw [← two_zpow_succ, sub_add_cancel]
    have hunits : t * 2 ^ x.exponent = 2 * t * 2 ^ (x.exponent - 1) := by rw [hstep]; ring
    have hvalue : x.absValue = (2 ^ 53 : ℕ) * 2 ^ (x.exponent - 1) := by
      rw [absValue, hcast, hstep]
      push_cast
      ring
    rw [hcast] at hlow hlt
    have hnear : |2 * t - (2 ^ 53 : ℕ)| < 1 / 2 := by
      rw [abs_lt]
      push_cast
      constructor <;> linarith
    refine ⟨x.exponent - 1, ?_, ?_⟩
    · rw [hunits, onGrid_units_iff]
      exact ⟨by omega, by linarith, .inr (by linarith)⟩
    · rw [hunits, hvalue, rounded_of_near (by linarith) hnear]
  · have hnear : |t - x.mantissa| < 1 / 2 := by
      rw [abs_lt]
      constructor <;> linarith
    refine ⟨x.exponent, onGrid_units_iff.mpr ⟨hleast, by linarith, ?_⟩, rounded_of_near ht hnear⟩
    by_cases hexponent : x.exponent = -1074
    · exact .inl hexponent
    · have hle : 2 ^ 52 ≤ x.mantissa := hnormal.resolve_right hexponent
      refine .inr ?_
      rcases lt_or_ge t x.mantissa with hlt | hge
      · have hne : x.mantissa ≠ 2 ^ 52 := fun hpower => hbelow ⟨hlt, hpower, hexponent⟩
        have hnext : (2 ^ 52 + 1 : ℚ) ≤ x.mantissa := by
          exact_mod_cast Nat.lt_of_le_of_ne hle hne.symm
        linarith
      · exact le_trans (by exact_mod_cast hle) hge

private theorem some_eq_iff {v : ℚ} (hnegative : y.negative = negative) (habs : y.absValue = v) :
    some y = some x ↔ x.negative = negative ∧ x.absValue = v := by
  rw [Option.some.injEq]
  constructor
  · intro hy
    exact hy ▸ ⟨hnegative, habs⟩
  · intro hx
    exact eq_of_absValue (hnegative.trans hx.1.symm) (habs.trans hx.2.symm)

private theorem carried_eq_some_iff {m : ℕ} (hleast : -1074 ≤ e) (hle : m ≤ 0x20000000000000)
    (hge : e = -1074 ∨ 0x10000000000000 ≤ m) :
    (if h : Canonical m e then some ⟨negative, m, e, h⟩
      else if h : m = 0x20000000000000 ∧ Canonical 0x10000000000000 (e + 1) then
        some ⟨negative, 0x10000000000000, e + 1, h.2⟩
      else none) = some x ↔ x.negative = negative ∧ x.absValue = m * 2 ^ e := by
  split_ifs with hfits hcarries
  · exact some_eq_iff rfl rfl
  · refine some_eq_iff rfl ?_
    have hm : (m : ℚ) = 2 ^ 53 := by exact_mod_cast hcarries.1
    rw [absValue, two_zpow_succ, hm]
    norm_num
    ring
  · -- Any such double would have too large a value.
    have hlarge : (2 : ℚ) ^ (1024 : ℤ) ≤ m * 2 ^ e := by
      have hbeyond : 971 < e ∨ m = 0x20000000000000 ∧ 971 ≤ e := by
        simp only [Canonical] at hfits hcarries
        omega
      rcases hbeyond with hexponent | ⟨rfl, hexponent⟩
      · exact two_zpow_le_mul (n := 52) (hge.resolve_left (by omega)) (by push_cast; omega)
      · exact two_zpow_le_mul (n := 53) le_rfl (by push_cast; omega)
    refine ⟨fun hnone => by simp at hnone, fun hx => ?_⟩
    exact absurd (hx.2 ▸ hlarge) (not_le.mpr x.absValue_lt)

/-- Rounding gives the double with the value to which the quotient is rounded on its grid, where there
is one. -/
theorem round?_eq_some_iff {r : Ratio} (hden : r.den ≠ 0) (h : OnGrid r.value e) :
    round? negative r = some x ↔ x.negative = negative ∧ x.absValue = rounded r.value e := by
  have hgrid : (if r.num = 0 then -1074 else gridExponent r) = e := by
    split_ifs with hnum
    · refine OnGrid.unique ⟨le_rfl, ?_, .inl rfl⟩ h
      simp [Ratio.value, hnum]
    · exact (onGrid_gridExponent hnum hden).unique h
  obtain ⟨hle, hge⟩ := h.nearestNat_bounds r.value_nonneg
  simp only [round?, hgrid, Ratio.nearest_eq (Ratio.den_scaleTwo hden (-e)), value_scaleTwo_neg]
  exact carried_eq_some_iff h.least hle hge

end Values

section Decimals

variable {x : Double} {negative : Bool} {digits : ℕ} {exponent e : ℤ}

private theorem ten_zpow_pos (e : ℤ) : (0 : ℚ) < 10 ^ e := zpow_pos (by norm_num) e

private theorem value_decimal (digits : ℕ) (exponent : ℤ) :
    ((Ratio.mk digits 1).scaleTen exponent).value = digits * 10 ^ exponent := by
  rw [Ratio.value_scaleTen, Ratio.value_natural]

theorem exists_onGrid (digits : ℕ) (exponent : ℤ) : ∃ e, OnGrid (digits * 10 ^ exponent) e := by
  by_cases hdigits : digits = 0
  · exact ⟨-1074, le_rfl, by simp [hdigits], .inl rfl⟩
  · rw [← value_decimal]
    exact ⟨_, onGrid_gridExponent (Nat.mul_ne_zero hdigits (pow_ne_zero _ (by decide)))
      (Ratio.den_scaleTen one_ne_zero _)⟩

private theorem decimal_lt (h : digits = 0 ∨ exponent < -400 - (Nat.log2 digits : ℤ)) :
    (digits : ℚ) * 10 ^ exponent < 2 ^ (-1075 : ℤ) := by
  rcases h with rfl | hexponent
  · simp
  · have hdigits : (digits : ℚ) < 10 ^ (-400 - exponent) := by
      calc (digits : ℚ) < 2 ^ ((digits.log2 : ℤ) + 1) := by exact_mod_cast Nat.lt_log2_self
        _ ≤ 2 ^ (-400 - exponent) := two_zpow_le (by omega)
        _ ≤ 10 ^ (-400 - exponent) := zpow_le_zpow_left₀ (by omega) (by norm_num) (by norm_num)
    calc (digits : ℚ) * 10 ^ exponent < 10 ^ (-400 - exponent) * 10 ^ exponent :=
          mul_lt_mul_of_pos_right hdigits (ten_zpow_pos exponent)
      _ = 10 ^ (-400 : ℤ) := by rw [← zpow_add₀ (by norm_num)]; congr 1; ring
      _ ≤ 2 ^ (-1075 : ℤ) := by
        have hpowers : 2 ^ 1075 ≤ 10 ^ 400 := by decide +kernel
        rw [zpow_neg, zpow_neg, inv_le_inv₀ (ten_zpow_pos _) (two_zpow_pos _)]
        exact_mod_cast hpowers

private theorem le_decimal (hdigits : digits ≠ 0) (h : 400 < exponent) :
    (2 : ℚ) ^ (1025 : ℤ) ≤ digits * 10 ^ exponent := by
  have hpowers : 2 ^ 1025 ≤ 10 ^ 401 := by decide +kernel
  have hone : (1 : ℚ) ≤ digits := by exact_mod_cast Nat.one_le_iff_ne_zero.mpr hdigits
  calc (2 : ℚ) ^ (1025 : ℤ) ≤ 10 ^ (401 : ℤ) := by exact_mod_cast hpowers
    _ ≤ 10 ^ exponent := zpow_le_zpow_right₀ (by norm_num) h
    _ ≤ digits * 10 ^ exponent := le_mul_of_one_le_left (ten_zpow_pos exponent).le hone

/-- Reading a decimal gives the double with the value to which the decimal is rounded on its grid,
where there is one. -/
theorem ofDecimal?_eq_some_iff (h : OnGrid (digits * 10 ^ exponent) e) :
    ofDecimal? negative digits exponent = some x ↔
      x.negative = negative ∧ x.absValue = rounded (digits * 10 ^ exponent) e := by
  unfold ofDecimal?
  split_ifs with hsmall hlarge
  · have hlt := decimal_lt hsmall
    have hgrid : OnGrid (digits * 10 ^ exponent) (-1074) := by
      refine ⟨le_rfl, hlt.trans_le ?_, .inl rfl⟩
      rw [pow_mul_two_zpow]
      exact two_zpow_le (by norm_num)
    obtain rfl := h.unique hgrid
    apply some_eq_iff rfl
    have hnonneg : (0 : ℚ) ≤ digits * 10 ^ exponent / 2 ^ (-1074 : ℤ) := by positivity
    have hhalf : |(digits : ℚ) * 10 ^ exponent / 2 ^ (-1074 : ℤ) - (0 : ℕ)| < 1 / 2 := by
      rw [Nat.cast_zero, sub_zero, abs_of_nonneg hnonneg, div_lt_iff₀ (two_zpow_pos _)]
      calc (digits : ℚ) * 10 ^ exponent < 2 ^ (-1075 : ℤ) := hlt
        _ = 1 / 2 * 2 ^ ((-1075 : ℤ) + 1) := by rw [two_zpow_succ]; ring
    rw [absValue_zero, rounded, nearestNat_of_abs_lt hnonneg hhalf, Nat.cast_zero, zero_mul]
  · have hle := le_decimal (fun hzero => hsmall (.inl hzero)) hlarge
    have hexponent : 1025 < e + (53 : ℕ) := by
      have hlt := hle.trans_lt h.upper
      rwa [pow_mul_two_zpow, zpow_lt_zpow_iff_right₀ one_lt_two] at hlt
    have hrounded : (2 : ℚ) ^ (1024 : ℤ) ≤ rounded (digits * 10 ^ exponent) e :=
      two_zpow_le_mul (le_nearestNat (h.le_scaled.resolve_left (by omega))) (by push_cast; omega)
    refine ⟨fun hnone => by simp at hnone, fun hx => ?_⟩
    exact absurd (hx.2 ▸ hrounded) (not_le.mpr x.absValue_lt)
  · rw [← value_decimal] at h ⊢
    exact round?_eq_some_iff (Ratio.den_scaleTen one_ne_zero _) h

theorem ofDecimal?_congr {digits' : ℕ} {exponent' : ℤ}
    (h : (digits : ℚ) * 10 ^ exponent = digits' * 10 ^ exponent') :
    ofDecimal? negative digits exponent = ofDecimal? negative digits' exponent' := by
  obtain ⟨e, he⟩ := exists_onGrid digits exponent
  ext x
  rw [ofDecimal?_eq_some_iff he, ofDecimal?_eq_some_iff (h ▸ he), h]

end Decimals

end PairGrep.Double
