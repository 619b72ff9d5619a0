import Mathlib
import PairGrep.Number.Reading
import PairGrep.Proofs.Number.Shortest
import PairGrep.Proofs.Number.Text

/-!
# Numbers survive their text

The text of a number is read as the number, of the same kind and with the same value. Integers are
read digit by digit; the text of a double has a point or an exponent, so it is never read as an
integer, and as decimal notation it has the value of the shortest decimal.
-/

namespace PairGrep

open Json

section Digits

variable {ds : List Char} {n k : ℕ}

theorem digitsValue_eq (ds : List Char) : digitsValue ds = Nat.ofDigitChars 10 ds 0 := by
  simp only [digitsValue, Nat.ofDigitChars, mul_comm]

theorem digitsValue_toDigits (n : ℕ) : digitsValue (Nat.toDigits 10 n) = n := by
  rw [digitsValue_eq, Nat.ofDigitChars_toDigits (by decide) (by decide)]

private theorem digitsValue_zeros_behind (n k : ℕ) :
    digitsValue (Nat.toDigits 10 n ++ List.replicate k '0') = n * 10 ^ k := by
  rw [digitsValue_eq, Nat.ofDigitChars_append, Nat.ofDigitChars_replicate_zero, ← digitsValue_eq,
    digitsValue_toDigits, mul_comm]

private theorem digitsValue_zeros_before (n k : ℕ) :
    digitsValue (List.replicate k '0' ++ Nat.toDigits 10 n) = n := by
  rw [digitsValue_eq, Nat.ofDigitChars_append, Nat.ofDigitChars_replicate_zero, mul_zero,
    ← digitsValue_eq, digitsValue_toDigits]

end Digits

section Integers

variable {ds rest : List Char}

theorem splitSign_of_isDigits (hds : IsDigits ds) :
    splitSign (ds ++ rest) = (false, ds ++ rest) := by
  have hminus : (ds ++ rest).head? ≠ some '-' := sign_ne_digit hds (by decide)
  have hplus : (ds ++ rest).head? ≠ some '+' := sign_ne_digit hds (by decide)
  rw [splitSign]
  · intro tail htail
    exact hminus (by rw [htail]; rfl)
  · intro tail htail
    exact hplus (by rw [htail]; rfl)

theorem readInt?_of_isDigits {text : List Char} {negative : Bool}
    (h : splitSign text = (negative, ds)) (hds : IsDigits ds) :
    readInt? text = some (signedInt negative (digitsValue ds)) := by
  simp only [readInt?, h]
  exact if_pos ⟨hds.1, List.all_eq_true.mpr hds.2⟩

theorem readInt?_eq_none {text : List Char} {negative : Bool} {c : Char}
    (h : splitSign text = (negative, ds)) (hmem : c ∈ ds) (hc : isDigit c = false) :
    readInt? text = none := by
  simp only [readInt?, h]
  refine if_neg fun hds => ?_
  rw [List.all_eq_true.mp hds.2 c hmem] at hc
  simp at hc

private theorem signedInt_natAbs (n : ℤ) : signedInt (decide (n < 0)) n.natAbs = n := by
  simp only [signedInt, decide_eq_true_eq]
  split_ifs <;> omega

theorem readInt?_intText (n : ℤ) : readInt? (Number.intText n) = some n := by
  have hdigits : IsDigits (Nat.toDigits 10 n.natAbs) := isDigits_toDigits _
  have hsign : splitSign (Number.intText n) = (decide (n < 0), Nat.toDigits 10 n.natAbs) := by
    unfold Number.intText
    split_ifs with hneg
    · simp [splitSign, hneg]
    · have hunsigned : splitSign (Nat.toDigits 10 n.natAbs ++ []) = _ := splitSign_of_isDigits hdigits
      simpa [hneg] using hunsigned
  rw [readInt?_of_isDigits hsign hdigits, digitsValue_toDigits, signedInt_natAbs]

theorem readExponent?_signed (e : ℤ) :
    readExponent? ('e' :: (if 0 ≤ e then '+' else '-') :: Nat.toDigits 10 e.natAbs) = some e := by
  have hsign : splitSign ((if 0 ≤ e then '+' else '-') :: Nat.toDigits 10 e.natAbs) =
      (decide (e < 0), Nat.toDigits 10 e.natAbs) := by
    split_ifs with hneg
    · simp [splitSign, hneg]
    · simpa [splitSign] using hneg
  rw [readExponent?, if_pos (.inl rfl), readInt?_of_isDigits hsign (isDigits_toDigits _),
    digitsValue_toDigits, signedInt_natAbs]

end Integers

section Notation

variable {x : Double} {whole fraction exponent text : List Char} {e : ℤ} {q : ℚ}

/-- The text spells the rational in decimal notation: digits, and behind them a fraction or an
exponent. -/
inductive Spells : List Char → ℚ → Prop where
  | parts {whole fraction exponent : List Char} {e : ℤ} (hwhole : IsDigits whole)
    (hfraction : IsFraction fraction) (hexponent : IsExponent exponent)
    (hread : readExponent? exponent = some e) (hmore : fraction ++ exponent ≠ []) :
    Spells (whole ++ (fraction ++ exponent))
      (digitsValue (whole ++ fraction.tail) * 10 ^ (e - fraction.tail.length))

private theorem splitSign_signed (x : Double) {ds rest : List Char} (hds : IsDigits ds) :
    splitSign (x.signed (ds ++ rest)) = (x.negative, ds ++ rest) := by
  unfold Double.signed
  split_ifs with hnegative
  · rw [splitSign, hnegative]
  · rw [splitSign_of_isDigits hds, Bool.eq_false_iff.mpr hnegative]

theorem DecimalNotation.read?_signed (x : Double) (hwhole : IsDigits whole)
    (hfraction : IsFraction fraction) (hexponent : IsExponent exponent)
    (hread : readExponent? exponent = some e) :
    DecimalNotation.read? (x.signed (whole ++ (fraction ++ exponent))) =
      some ⟨x.negative, whole, fraction.tail, e⟩ := by
  have hend : StopsAt isNumberChar [] := by simp [StopsAt]
  obtain ⟨hdigit, hpoint⟩ := stopsAt_exponent hexponent hend
  rw [List.append_nil] at hdigit hpoint
  have hafter : StopsAt isDigit (fraction ++ exponent) := by
    cases hfraction with
    | none => exact hdigit
    | point _ => exact .cons (by decide)
  simp only [DecimalNotation.read?, splitSign_signed x hwhole, takeWhile_digits hwhole.2 hafter,
    dropWhile_digits hwhole.2 hafter]
  cases hfraction with
  | none =>
    rw [List.nil_append]
    split
    · rename_i tail
      exact absurd rfl hpoint
    · simp [hwhole.1, hread]
  | point hds =>
    simp [hwhole.1, hread, takeWhile_digits hds.2 hdigit, dropWhile_digits hds.2 hdigit]

private theorem exists_not_digit (hfraction : IsFraction fraction) (hexponent : IsExponent exponent)
    (hmore : fraction ++ exponent ≠ []) : ∃ c ∈ fraction ++ exponent, isDigit c = false := by
  have hmark : ∀ {c : Char} {tail : List Char}, c = 'e' ∨ c = 'E' →
      ∃ d ∈ c :: tail, isDigit d = false := by
    intro c tail hc
    refine ⟨c, List.mem_cons_self, ?_⟩
    cases hc with
    | inl h => rw [h]; decide
    | inr h => rw [h]; decide
  cases hfraction with
  | point _ => exact ⟨'.', by simp, by decide⟩
  | none =>
    cases hexponent with
    | none => simp at hmore
    | plain hc _ => exact hmark hc
    | signed hc _ _ => exact hmark hc

/-- What spells the shortest decimal of a double is read as the double. -/
theorem Number.read?_signed (h : Spells text (Decimal.shortest x).value) :
    Number.read? (x.signed text) = some (.float x) := by
  generalize hq : (Decimal.shortest x).value = q at h
  cases h with
  | @parts whole fraction exponent e hwhole hfraction hexponent hread hmore =>
    have hint : readInt? (x.signed (whole ++ (fraction ++ exponent))) = none := by
      obtain ⟨c, hmem, hc⟩ := exists_not_digit hfraction hexponent hmore
      exact readInt?_eq_none (splitSign_signed x hwhole) (List.mem_append_right _ hmem) hc
    have hdouble : Double.ofDecimal? x.negative (digitsValue (whole ++ fraction.tail))
        (e - fraction.tail.length) = some x := by
      rw [← Decimal.reads_iff.mp (Decimal.reads_shortest x)]
      exact Double.ofDecimal?_congr hq.symm
    rw [Number.read?, hint, DecimalNotation.read?_signed x hwhole hfraction hexponent hread]
    simp only [Option.bind_none, Option.orElse_none, Option.bind_some, DecimalNotation.toDouble?,
      hdouble, Option.map_some]

end Notation

namespace Decimal

private theorem spells_point {whole ds : List Char} {q : ℚ} (hwhole : IsDigits whole)
    (hds : IsDigits ds) (hq : q = digitsValue (whole ++ ds) * 10 ^ (-(ds.length : ℤ))) :
    Spells (whole ++ '.' :: ds) q := by
  have h := Spells.parts hwhole (.point hds) .none (e := 0) rfl (by simp)
  rwa [List.append_nil, List.tail_cons, zero_sub, ← hq] at h

theorem spells_positional (d : Decimal) : Spells (d.positional ['.', '0']) d.value := by
  have hdigits : IsDigits d.digitText := isDigits_toDigits d.digits
  have hzeros : ∀ n : ℕ, ∀ c ∈ List.replicate n '0', isDigit c = true := by
    intro n c hc
    rw [List.eq_of_mem_replicate hc]
    decide
  unfold positional
  simp only
  split_ifs with hexponent hplaces
  · apply spells_point
    · exact ⟨by simp [hdigits.1], List.forall_mem_append.mpr ⟨hdigits.2, hzeros _⟩⟩
    · exact ⟨by simp, hzeros 1⟩
    · have hvalue : digitsValue (d.digitText ++ List.replicate d.exponent.toNat '0' ++ ['0']) =
          d.digits * 10 ^ (d.exponent.toNat + 1) := by
        rw [List.append_assoc, ← List.replicate_succ', digitText, digitsValue_zeros_behind]
      rw [hvalue, value_eq_natCast hexponent, List.length_singleton, Nat.cast_one, zpow_neg_one]
      push_cast
      ring
  · apply spells_point
    · refine ⟨?_, fun c hc => hdigits.2 c (List.mem_of_mem_take hc)⟩
      rw [ne_eq, List.take_eq_nil_iff]
      exact not_or.mpr ⟨by omega, hdigits.1⟩
    · refine ⟨?_, fun c hc => hdigits.2 c (List.mem_of_mem_drop hc)⟩
      rw [ne_eq, List.drop_eq_nil_iff]
      omega
    · rw [List.take_append_drop, digitText, digitsValue_toDigits, List.length_drop, value]
      congr 2
      rw [digitText] at hplaces
      omega
  · have hzero : IsDigits ['0'] := ⟨by simp, hzeros 1⟩
    apply spells_point hzero
    · exact ⟨by simp [hdigits.1], List.forall_mem_append.mpr ⟨hzeros _, hdigits.2⟩⟩
    · have hvalue : digitsValue (['0'] ++
          (List.replicate ((-d.exponent).toNat - d.digitText.length) '0' ++ d.digitText)) =
          d.digits := by
        rw [← List.append_assoc, List.singleton_append, ← List.replicate_succ, digitText,
          digitsValue_zeros_before]
      rw [hvalue, value, List.length_append, List.length_replicate]
      congr 2
      omega

theorem spells_scientific (d : Decimal) : Spells d.scientific d.value := by
  have hdigits : IsDigits d.digitText := isDigits_toDigits d.digits
  have hvalue : digitsValue d.digitText = d.digits := digitsValue_toDigits d.digits
  have hexponent := isExponent_signed d.scientificExponent
  have hread := readExponent?_signed d.scientificExponent
  have hplaces : d.scientificExponent - ((d.digitText.length : ℤ) - 1) = d.exponent := by
    rw [scientificExponent]
    ring
  unfold scientific
  simp only
  split
  · rename_i hnil
    exact absurd hnil hdigits.1
  · rename_i c hone
    rw [hone] at hdigits hvalue hplaces
    have h := Spells.parts hdigits .none hexponent hread (by simp)
    rw [List.tail_nil, List.append_nil, hvalue, List.length_nil, Nat.cast_zero, sub_zero] at h
    rw [List.length_singleton, Nat.cast_one, sub_self, sub_zero] at hplaces
    rwa [value, ← hplaces]
  · rename_i c ds hne hmore
    rw [hmore] at hdigits hvalue hplaces
    obtain ⟨hc, hds⟩ := List.forall_mem_cons.mp hdigits.2
    have hfirst : IsDigits [c] := ⟨by simp, by simpa using hc⟩
    have h := Spells.parts hfirst (.point ⟨hne, hds⟩) hexponent hread (by simp)
    rw [List.length_cons, Nat.cast_add_one, add_sub_cancel_right] at hplaces
    rw [List.tail_cons, List.singleton_append, List.singleton_append, hvalue, hplaces] at h
    exact h

end Decimal

theorem Number.read?_doubleText (x : Double) : Number.read? x.text = some (.float x) := by
  unfold Double.text
  apply Number.read?_signed
  split_ifs
  · exact Decimal.spells_positional _
  · exact Decimal.spells_scientific _

/-- The text of a number is read as the number. -/
theorem Number.read?_text (n : Number) : Number.read? n.text = some n := by
  cases n with
  | int n hfits => simp [Number.read?, Number.text, readInt?_intText, Number.ofInt?, hfits]
  | float x => exact Number.read?_doubleText x

section Colon

private theorem colon_mem_splitSign {text : List Char} (h : ':' ∈ text) :
    ':' ∈ (splitSign text).2 := by
  unfold splitSign
  split <;> simp_all

private theorem readInt?_of_colon {text : List Char} (h : ':' ∈ text) : readInt? text = none :=
  readInt?_eq_none rfl (colon_mem_splitSign h) (by decide)

private theorem readExponent?_of_colon {text : List Char} (h : ':' ∈ text) :
    readExponent? text = none := by
  cases text with
  | nil => simp at h
  | cons c cs =>
    rw [readExponent?]
    split
    · rename_i he
      rcases List.mem_cons.mp h with rfl | h
      · simp at he
      · exact readInt?_of_colon h
    · rfl

private theorem colon_mem_dropWhile {text : List Char} (h : ':' ∈ text) :
    ':' ∈ text.dropWhile isDigit := by
  rw [← List.takeWhile_append_dropWhile (p := isDigit) (l := text)] at h
  rcases List.mem_append.mp h with h | h
  · exact absurd (List.mem_takeWhile_imp h) (by decide)
  · exact h

theorem Number.read?_of_colon {text : List Char} (h : ':' ∈ text) : Number.read? text = none := by
  have hafter := colon_mem_dropWhile (colon_mem_splitSign h)
  have hdecimal : DecimalNotation.read? text = none := by
    unfold DecimalNotation.read?
    dsimp only
    split
    · rename_i r hr
      rw [hr] at hafter
      have htail := readExponent?_of_colon (colon_mem_dropWhile (by simpa using hafter))
      simp [htail]
    · have htail := readExponent?_of_colon hafter
      simp [htail]
  simp [Number.read?, readInt?_of_colon h, hdecimal]

end Colon

end PairGrep
