import Mathlib
import PairGrep.Number.Shortest
import PairGrep.Proofs.Number.Rounding

/-!
# Shortest decimals read back

The decimal that is written for a double reads back as the double, and never has more than seventeen
digits. A whole double whose digits all fit is written exactly.
-/

namespace PairGrep.Decimal

section Leading

theorem digitCount_eq (n : ℕ) : digitCount n = Nat.log 10 n + 1 := by
  have hbound : ∀ k, 0 < k → (digitCount n ≤ k ↔ Nat.log 10 n < k) := by
    intro k hk
    rw [digitCount, Nat.length_toDigits_le_iff (by decide) hk]
    exact ⟨Nat.log_lt_of_lt_pow' hk.ne', Nat.lt_pow_of_log_lt (by decide)⟩
  have hpos : 0 < digitCount n := List.length_pos_of_ne_nil Nat.toDigits_ne_nil
  exact le_antisymm ((hbound _ (Nat.succ_pos _)).mpr (Nat.lt_succ_self _)) ((hbound _ hpos).mp le_rfl)

private theorem log_eq {q : ℚ} {z : ℤ} (hlow : (10 : ℚ) ^ z ≤ q) (hhigh : q < 10 ^ (z + 1)) :
    Int.log 10 q = z := by
  have hpos : 0 < q := (zpow_pos (by norm_num) z).trans_le hlow
  have hle : z ≤ Int.log 10 q := by
    rw [← Int.zpow_le_iff_le_log (by decide) hpos]
    exact_mod_cast hlow
  have hlt : Int.log 10 q < z + 1 := by
    rw [← Int.lt_zpow_iff_log_lt (by decide) hpos]
    exact_mod_cast hhigh
  omega

section Small

variable {r : Double.Ratio}

private theorem zpow_neg_le_value_iff (hden : r.den ≠ 0) (k : ℕ) :
    (10 : ℚ) ^ (-(k : ℤ)) ≤ r.value ↔ r.den ≤ r.num * 10 ^ k := by
  have hpos : (0 : ℚ) < r.den := by exact_mod_cast Nat.pos_of_ne_zero hden
  rw [Double.Ratio.value, zpow_neg, zpow_natCast, le_div_iff₀ hpos,
    inv_mul_le_iff₀ (by positivity), mul_comm]
  exact_mod_cast Iff.rfl

private theorem value_le_zpow_neg_iff (hden : r.den ≠ 0) (k : ℕ) :
    r.value ≤ (10 : ℚ) ^ (-(k : ℤ)) ↔ r.num * 10 ^ k ≤ r.den := by
  have hpos : (0 : ℚ) < r.den := by exact_mod_cast Nat.pos_of_ne_zero hden
  rw [Double.Ratio.value, zpow_neg, zpow_natCast, div_le_iff₀ hpos,
    le_inv_mul_iff₀ (by positivity), mul_comm]
  exact_mod_cast Iff.rfl

private theorem log_quotient_bounds (hnum : r.num ≠ 0) (hlt : r.num < r.den) :
    r.num * 10 ^ Nat.log 10 (r.den / r.num) ≤ r.den ∧
      r.den < r.num * 10 ^ (Nat.log 10 (r.den / r.num) + 1) := by
  have hpos : 0 < r.num := Nat.pos_of_ne_zero hnum
  have hquotient : r.den / r.num ≠ 0 := (Nat.div_pos hlt.le hpos).ne'
  constructor
  · rw [mul_comm, ← Nat.le_div_iff_mul_le hpos]
    exact Nat.pow_log_le_self 10 hquotient
  · rw [mul_comm, ← Nat.div_lt_iff_lt_mul hpos]
    exact Nat.lt_pow_succ_log_self (by decide) _

end Small

/-- The exponent of the first digit is the integral part of the decimal logarithm. -/
theorem leadingExponent_eq_log {r : Double.Ratio} (hnum : r.num ≠ 0) (hden : r.den ≠ 0) :
    leadingExponent r = Int.log 10 r.value := by
  simp only [leadingExponent, digitCount_eq, Nat.add_sub_cancel, Nat.cast_add_one,
    add_sub_cancel_right]
  by_cases hone : r.den ≤ r.num
  · have hvalue : 1 ≤ r.value := by
      rw [Double.Ratio.value, one_le_div (by exact_mod_cast Nat.pos_of_ne_zero hden)]
      exact_mod_cast hone
    rw [if_pos hone, Int.log_of_one_le_right 10 hvalue, Double.Ratio.floor_eq]
  · obtain ⟨hlow, hhigh⟩ := log_quotient_bounds hnum (not_le.mp hone)
    generalize Nat.log 10 (r.den / r.num) = l at hlow hhigh ⊢
    rw [if_neg hone]
    split_ifs with hpower
    · -- The quotient is a power of ten.
      refine (log_eq ((zpow_neg_le_value_iff hden l).mpr hpower) ?_).symm
      calc r.value ≤ 10 ^ (-(l : ℤ)) := (value_le_zpow_neg_iff hden l).mpr hlow
        _ < 10 ^ (-(l : ℤ) + 1) := zpow_lt_zpow_right₀ (by norm_num) (lt_add_one _)
    · refine (log_eq ((zpow_neg_le_value_iff hden (l + 1)).mpr hhigh.le) ?_).symm
      have hbelow : r.value < 10 ^ (-(l : ℤ)) :=
        lt_of_not_ge fun hge => hpower ((zpow_neg_le_value_iff hden l).mp hge)
      simpa using hbelow

end Leading

section Values

variable {x : Double} {d d' : Decimal} {fuel : ℕ}

def value (d : Decimal) : ℚ := d.digits * 10 ^ d.exponent

theorem value_trim (fuel : ℕ) (d : Decimal) : (trim fuel d).value = d.value := by
  induction fuel generalizing d with
  | zero => rfl
  | succ fuel ih =>
    unfold trim
    split_ifs with hzero
    · have hdigits : d.digits = d.digits / 10 * 10 := by omega
      rw [ih, value, value, hdigits, Nat.mul_div_cancel _ (by decide), zpow_add_one₀ (by norm_num)]
      push_cast
      ring
    · rfl

theorem digits_trim_le (fuel : ℕ) (d : Decimal) : (trim fuel d).digits ≤ d.digits := by
  induction fuel generalizing d with
  | zero => exact le_rfl
  | succ fuel ih =>
    unfold trim
    split_ifs with hzero
    · exact (ih _).trans (Nat.div_le_self _ _)
    · exact le_rfl

theorem le_exponent_trim (fuel : ℕ) (d : Decimal) : d.exponent ≤ (trim fuel d).exponent := by
  induction fuel generalizing d with
  | zero => exact le_rfl
  | succ fuel ih =>
    unfold trim
    split_ifs with hzero
    · exact (Int.le_add_one le_rfl).trans (ih _)
    · exact le_rfl

theorem reads_iff :
    reads x d = true ↔ Double.ofDecimal? x.negative d.digits d.exponent = some x := beq_iff_eq

theorem reads_of_value (h : d.value = x.absValue) : reads x d = true := by
  have hgrid : Double.OnGrid d.value x.exponent := h ▸ x.onGrid_absValue
  rw [reads_iff, Double.ofDecimal?_eq_some_iff hgrid, ← value, h]
  exact ⟨rfl, x.onGrid_absValue.rounded_absValue.symm⟩

theorem reads_congr (h : d.value = d'.value) : reads x d = reads x d' := by
  rw [reads, reads, Double.ofDecimal?_congr h]

theorem value_eq_natCast (h : 0 ≤ d.exponent) :
    d.value = (d.digits * 10 ^ d.exponent.toNat : ℕ) := by
  rw [value, Nat.cast_mul, Nat.cast_pow, Nat.cast_ofNat, ← zpow_natCast, Int.toNat_of_nonneg h]

theorem absValue_eq_of_reads (hexponent : 0 ≤ d.exponent) (h : reads x d = true)
    (hlt : x.absValue < 2 ^ 53) : x.absValue = d.value := by
  obtain ⟨e, hgrid⟩ := Double.exists_onGrid d.digits d.exponent
  have hrounded := ((Double.ofDecimal?_eq_some_iff hgrid).mp (reads_iff.mp h)).2
  rw [← value] at hgrid hrounded
  rw [value_eq_natCast hexponent] at hgrid hrounded ⊢
  exact hrounded.trans (hgrid.rounded_natCast (hrounded ▸ hlt))

end Values

section Neighbours

variable {x : Double} {d : Decimal} {count : ℕ}

private theorem absValue_pos (hx : x.mantissa ≠ 0) : 0 < x.absValue :=
  mul_pos (by exact_mod_cast Nat.pos_of_ne_zero hx) (zpow_pos two_pos _)

private theorem leadingExponent_magnitude (hx : x.mantissa ≠ 0) :
    leadingExponent x.magnitude = Int.log 10 x.absValue := by
  rw [← Double.value_magnitude]
  apply leadingExponent_eq_log
  · exact Nat.mul_ne_zero hx (pow_ne_zero _ (by decide))
  · exact Double.Ratio.den_scaleTwo one_ne_zero _

/-- The neighbours of a double are the points of the grid that are next to it. -/
theorem mem_neighbours_iff (hx : x.mantissa ≠ 0) :
    d ∈ neighbours x count ↔ d.exponent = Int.log 10 x.absValue - count + 1 ∧
      (d.digits = ⌊x.absValue / 10 ^ d.exponent⌋₊ ∨
        d.digits = ⌊x.absValue / 10 ^ d.exponent⌋₊ + 1) := by
  obtain ⟨digits, exponent⟩ := d
  simp only [neighbours, leadingExponent_magnitude hx, Double.Ratio.floor_eq,
    Double.Ratio.value_scaleTen, Double.value_magnitude, zpow_neg, ← div_eq_mul_inv]
  split_ifs
  · simp only [List.mem_cons, List.not_mem_nil, or_false, Decimal.mk.injEq]
    grind
  · simp only [List.mem_cons, List.not_mem_nil, or_false, Decimal.mk.injEq]
    grind

theorem digits_le_of_mem_neighbours (hx : x.mantissa ≠ 0) (h : d ∈ neighbours x count) :
    d.digits ≤ 10 ^ count := by
  obtain ⟨hexponent, hdigits⟩ := (mem_neighbours_iff hx).mp h
  have hlt : x.absValue / 10 ^ d.exponent < (10 ^ count : ℕ) := by
    rw [div_lt_iff₀ (zpow_pos (by norm_num) _)]
    calc x.absValue < (10 : ℚ) ^ (Int.log 10 x.absValue + 1) := by
          exact_mod_cast Int.lt_zpow_succ_log_self (by decide) x.absValue
      _ = 10 ^ ((count : ℤ) + d.exponent) := by rw [hexponent]; congr 1; ring
      _ = (10 ^ count : ℕ) * 10 ^ d.exponent := by rw [zpow_add₀ (by norm_num)]; norm_cast
  have hfloor := Nat.floor_lt' (pow_ne_zero count (by decide)) |>.mpr hlt
  omega

/-- One of the neighbours is within a half of a step of the grid. -/
theorem exists_near_neighbour (hx : x.mantissa ≠ 0) (count : ℕ) :
    ∃ d ∈ neighbours x count, |d.value - x.absValue| * 2 ≤ 10 ^ d.exponent := by
  generalize hexponent : Int.log 10 x.absValue - count + 1 = e
  have hpos : (0 : ℚ) < 10 ^ e := zpow_pos (by norm_num) e
  have hscaled : 0 ≤ x.absValue / 10 ^ e := div_nonneg x.absValue_nonneg hpos.le
  have hnear : ∃ n : ℕ, (n = ⌊x.absValue / 10 ^ e⌋₊ ∨ n = ⌊x.absValue / 10 ^ e⌋₊ + 1) ∧
      |n - x.absValue / 10 ^ e| * 2 ≤ 1 := by
    have hlow := Nat.floor_le hscaled
    have hhigh := Nat.lt_floor_add_one (x.absValue / 10 ^ e)
    by_cases hhalf : x.absValue / 10 ^ e ≤ ⌊x.absValue / 10 ^ e⌋₊ + 1 / 2
    · refine ⟨_, .inl rfl, ?_⟩
      rw [abs_of_nonpos (by linarith)]
      linarith
    · refine ⟨_, .inr rfl, ?_⟩
      rw [Nat.cast_add_one, abs_of_nonneg (by linarith)]
      linarith
  obtain ⟨n, hn, hle⟩ := hnear
  refine ⟨⟨n, e⟩, (mem_neighbours_iff hx).mpr ⟨hexponent.symm, hn⟩, ?_⟩
  calc |n * 10 ^ e - x.absValue| * 2 = |(n - x.absValue / 10 ^ e) * 10 ^ e| * 2 := by
        rw [sub_mul, div_mul_cancel₀ _ hpos.ne']
    _ = |n - x.absValue / 10 ^ e| * 2 * 10 ^ e := by rw [abs_mul, abs_of_pos hpos]; ring
    _ ≤ 1 * 10 ^ e := by gcongr
    _ = 10 ^ e := one_mul _

/-- Seventeen digits tell a double from all others. -/
theorem exists_reads_neighbours (hx : x.mantissa ≠ 0) :
    ∃ d ∈ neighbours x 17, reads x d = true := by
  obtain ⟨d, hd, hnear⟩ := exists_near_neighbour hx 17
  have hexponent := ((mem_neighbours_iff hx).mp hd).1
  have hclose : |d.value - x.absValue| * (2 * 10 ^ 16) ≤ x.absValue := by
    calc |d.value - x.absValue| * (2 * 10 ^ 16) = |d.value - x.absValue| * 2 * 10 ^ 16 := by ring
      _ ≤ 10 ^ d.exponent * 10 ^ 16 := by gcongr
      _ = 10 ^ (Int.log 10 x.absValue) := by
        rw [← zpow_natCast, ← zpow_add₀ (by norm_num), hexponent]
        congr 1
        push_cast
        ring
      _ ≤ x.absValue := by exact_mod_cast Int.zpow_log_le_self (by decide) (absValue_pos hx)
  have hnonneg : 0 ≤ d.value := by
    rw [value]
    positivity
  obtain ⟨e, hgrid, hrounded⟩ := Double.exists_rounded_of_close hnonneg hclose
  refine ⟨d, hd, ?_⟩
  rw [reads_iff, Double.ofDecimal?_eq_some_iff hgrid]
  exact ⟨rfl, hrounded.symm⟩

end Neighbours

section Shortest

variable {x : Double} {count : ℕ}

/-- Where one of the neighbours on a grid reads back, what is written is a neighbour on that grid or
on a coarser one. -/
theorem exists_shortest_eq (hx : x.mantissa ≠ 0) (hcount : count < 17)
    (h : ∃ d ∈ neighbours x (count + 1), reads x d = true) :
    ∃ k ≤ count, ∃ d ∈ neighbours x (k + 1), reads x d = true ∧
      shortest x = trim (digitCount d.digits) d := by
  obtain ⟨m, hm⟩ : ∃ m, 17 = count + 1 + m := Nat.exists_eq_add_of_le hcount
  have hsome : (((List.range (count + 1)).flatMap fun k => neighbours x (k + 1)).find?
      (reads x)).isSome = true := by
    obtain ⟨d, hd, hreads⟩ := h
    rw [List.find?_isSome]
    exact ⟨d, List.mem_flatMap.mpr ⟨count, List.mem_range.mpr (Nat.lt_succ_self _), hd⟩, hreads⟩
  obtain ⟨d, hfound⟩ := Option.isSome_iff_exists.mp hsome
  obtain ⟨k, hk, hd⟩ := List.mem_flatMap.mp (List.mem_of_find?_eq_some hfound)
  have hall : ((List.range 17).flatMap fun k => neighbours x (k + 1)).find? (reads x) = some d := by
    rw [hm, List.range_add, List.flatMap_append, List.find?_append, hfound, Option.some_or]
  refine ⟨k, Nat.le_of_lt_succ (List.mem_range.mp hk), d, hd, List.find?_some hfound, ?_⟩
  simp only [shortest, if_neg hx, hall, Option.getD_some]

/-- What is written for a double reads back as it. -/
theorem reads_shortest (x : Double) : reads x (shortest x) = true := by
  by_cases hx : x.mantissa = 0
  · rw [shortest, if_pos hx]
    apply reads_of_value
    simp [value, Double.absValue, hx]
  · obtain ⟨k, -, d, -, hreads, hshortest⟩ :=
      exists_shortest_eq hx (by decide) (exists_reads_neighbours hx)
    rw [hshortest, reads_congr (value_trim _ d), hreads]

theorem digits_shortest_le (x : Double) : (shortest x).digits ≤ 10 ^ 17 := by
  by_cases hx : x.mantissa = 0
  · rw [shortest, if_pos hx]
    exact Nat.zero_le _
  · obtain ⟨k, hk, d, hd, -, hshortest⟩ :=
      exists_shortest_eq hx (by decide) (exists_reads_neighbours hx)
    calc (shortest x).digits = (trim (digitCount d.digits) d).digits := by rw [hshortest]
      _ ≤ d.digits := digits_trim_le _ d
      _ ≤ 10 ^ (k + 1) := digits_le_of_mem_neighbours hx hd
      _ ≤ 10 ^ 17 := Nat.pow_le_pow_right (by decide) (by omega)

theorem shortest_natCast {n : ℕ} (hvalue : x.absValue = n) (hlt : n < 2 ^ 53) :
    0 ≤ (shortest x).exponent ∧ (shortest x).digits * 10 ^ (shortest x).exponent.toNat = n := by
  by_cases hx : x.mantissa = 0
  · have hn : (n : ℚ) = 0 := by rw [← hvalue, Double.absValue, hx, Nat.cast_zero, zero_mul]
    rw [shortest, if_pos hx]
    exact ⟨le_rfl, by exact_mod_cast hn.symm⟩
  · have hn : n ≠ 0 := by
      intro hzero
      exact (absValue_pos hx).ne' (by rw [hvalue, hzero, Nat.cast_zero])
    have hcount : Nat.log 10 n < 17 :=
      Nat.log_lt_of_lt_pow hn (hlt.trans (by norm_num))
    have hlog : Int.log 10 x.absValue = Nat.log 10 n := by rw [hvalue, Int.log_natCast]
    have hexact : (⟨n, 0⟩ : Decimal) ∈ neighbours x (Nat.log 10 n + 1) := by
      rw [mem_neighbours_iff hx, hlog]
      exact ⟨by push_cast; ring, .inl (by simp [hvalue])⟩
    obtain ⟨k, hk, d, hd, hreads, hshortest⟩ :=
      exists_shortest_eq hx hcount ⟨_, hexact, reads_of_value (by simp [value, hvalue])⟩
    have hexponent : 0 ≤ d.exponent := by
      have hgrid := ((mem_neighbours_iff hx).mp hd).1
      rw [hlog] at hgrid
      push_cast at hgrid
      omega
    have hwritten : 0 ≤ (shortest x).exponent := by
      rw [hshortest]
      exact hexponent.trans (le_exponent_trim _ d)
    refine ⟨hwritten, ?_⟩
    have hreal : (shortest x).value = n := by
      rw [hshortest, value_trim, ← absValue_eq_of_reads hexponent hreads, hvalue]
      rw [hvalue]
      exact_mod_cast hlt
    rw [value_eq_natCast hwritten] at hreal
    exact_mod_cast hreal

end Shortest

end PairGrep.Decimal
