import Mathlib
import PairGrep.Number.Basic
import PairGrep.Proofs.Json.Lexeme
import PairGrep.Proofs.Number.Shortest

/-!
# Texts of numbers

The text of a number is a numeral of the grammar: an integer has no zero in front, and neither has
the shortest decimal of a double, in positional notation or with an exponent.
-/

namespace PairGrep

open Json

section Digits

private theorem isDigit_of_mem_toDigits {n : Nat} {c : Char} (h : c ∈ Nat.toDigits 10 n) :
    isDigit c = true := by
  have hc : c.isDigit = true := Nat.isDigit_of_mem_toDigits (by decide) (by decide) h
  simpa [isDigit, Char.isDigit, Char.le_def] using hc

theorem isDigits_toDigits (n : Nat) : IsDigits (Nat.toDigits 10 n) :=
  ⟨Nat.toDigits_ne_nil, fun _ => isDigit_of_mem_toDigits⟩

private theorem exists_toDigits_cons {n : Nat} (hn : n ≠ 0) :
    ∃ c ds, Nat.toDigits 10 n = c :: ds ∧ c ≠ '0' := by
  induction n using Nat.strong_induction_on with
  | _ n ih =>
    by_cases hlt : n < 10
    · exact ⟨n.digitChar, [], Nat.toDigits_of_lt_base hlt, by simpa using hn⟩
    · obtain ⟨c, ds, hds, hc⟩ := ih (n / 10) (by omega) (by omega)
      rw [Nat.toDigits_of_base_le (by decide) (by omega), hds]
      exact ⟨c, ds ++ [(n % 10).digitChar], rfl, hc⟩

private theorem isWhole_toDigits_append {n : Nat} (hn : n ≠ 0) {more : List Char}
    (hmore : ∀ c ∈ more, isDigit c = true) : IsWhole (Nat.toDigits 10 n ++ more) := by
  obtain ⟨c, ds, hds, hc⟩ := exists_toDigits_cons hn
  have hdigits := (isDigits_toDigits n).2
  rw [hds] at hdigits ⊢
  obtain ⟨hfirst, hrest⟩ := List.forall_mem_cons.mp hdigits
  exact .digits hc hfirst (List.forall_mem_append.mpr ⟨hrest, hmore⟩)

private theorem isWhole_take_toDigits {n k : Nat} (hn : n ≠ 0) (hk : k ≠ 0) :
    IsWhole ((Nat.toDigits 10 n).take k) := by
  obtain ⟨c, ds, hds, hc⟩ := exists_toDigits_cons hn
  have hdigits := (isDigits_toDigits n).2
  obtain ⟨k, rfl⟩ := Nat.exists_eq_succ_of_ne_zero hk
  rw [hds] at hdigits ⊢
  obtain ⟨hfirst, hrest⟩ := List.forall_mem_cons.mp hdigits
  exact .digits hc hfirst fun d hd => hrest d (List.mem_of_mem_take hd)

private theorem isWhole_toDigits (n : Nat) : IsWhole (Nat.toDigits 10 n) := by
  by_cases hn : n = 0
  · rw [hn, Nat.toDigits_zero]
    exact .zero
  · rw [← List.append_nil (Nat.toDigits 10 n)]
    exact isWhole_toDigits_append hn (by simp)

theorem isNumeral_intText (n : Int) : IsNumeral (Number.intText n) := by
  have hunsigned : IsUnsigned (Nat.toDigits 10 n.natAbs) := by
    simpa using IsUnsigned.parts (isWhole_toDigits n.natAbs) .none .none
  unfold Number.intText
  split
  · exact .negative hunsigned
  · exact .unsigned hunsigned

end Digits

namespace Decimal

private theorem isWhole_singleton {c : Char} (hc : isDigit c = true) : IsWhole [c] := by
  by_cases hzero : c = '0'
  · rw [hzero]
    exact .zero
  · exact .digits hzero hc (by simp)

theorem isExponent_signed (e : Int) :
    IsExponent ('e' :: (if 0 ≤ e then '+' else '-') :: Nat.toDigits 10 e.natAbs) := by
  refine .signed (.inl rfl) ?_ (isDigits_toDigits _)
  split
  · exact .inl rfl
  · exact .inr rfl

theorem isUnsigned_scientific (d : Decimal) : IsUnsigned d.scientific := by
  have hdigits : IsDigits d.digitText := isDigits_toDigits d.digits
  have hexponent := isExponent_signed d.scientificExponent
  unfold scientific
  simp only
  split
  · rename_i hnil
    exact absurd hnil hdigits.1
  · rename_i c hone
    rw [hone] at hdigits
    exact .parts (isWhole_singleton (hdigits.2 c (by simp))) .none hexponent
  · rename_i c ds hne hmore
    rw [hmore] at hdigits
    obtain ⟨hc, hds⟩ := List.forall_mem_cons.mp hdigits.2
    exact .parts (isWhole_singleton hc) (.point ⟨hne, hds⟩) hexponent

theorem isUnsigned_positional {d : Decimal} (h : d.digits = 0 → d.exponent = 0) {whole : List Char}
    (hwhole : IsFraction whole) : IsUnsigned (d.positional whole) := by
  have hdigits : IsDigits d.digitText := isDigits_toDigits d.digits
  have hzeros : ∀ n : Nat, ∀ c ∈ List.replicate n '0', isDigit c = true := by
    intro n c hc
    rw [List.eq_of_mem_replicate hc]
    decide
  unfold positional
  simp only
  split
  · -- Zeros are put behind the digits.
    have hfront : IsWhole (d.digitText ++ List.replicate d.exponent.toNat '0') := by
      by_cases hzero : d.digits = 0
      · rw [h hzero, digitText, hzero, Nat.toDigits_zero]
        exact .zero
      · exact isWhole_toDigits_append hzero (hzeros _)
    simpa using IsUnsigned.parts hfront hwhole .none
  · rename_i hexponent
    split
    · rename_i hplaces
      have hpoint : IsDigits (d.digitText.drop (d.digitText.length - (-d.exponent).toNat)) := by
        refine ⟨?_, fun c hc => hdigits.2 c (List.mem_of_mem_drop hc)⟩
        rw [ne_eq, List.drop_eq_nil_iff]
        omega
      have hzero : d.digits ≠ 0 := fun hzero => hexponent (h hzero).ge
      have hfront : IsWhole (d.digitText.take (d.digitText.length - (-d.exponent).toNat)) :=
        isWhole_take_toDigits hzero (Nat.sub_ne_zero_of_lt hplaces)
      simpa using IsUnsigned.parts hfront (.point hpoint) .none
    · have hfraction : IsDigits (List.replicate ((-d.exponent).toNat - d.digitText.length) '0' ++
          d.digitText) :=
        ⟨by simp [hdigits.1], List.forall_mem_append.mpr ⟨hzeros _, hdigits.2⟩⟩
      simpa using IsUnsigned.parts .zero (.point hfraction) .none

/-- Only zero has the digits of zero, and it is written out with no exponent. -/
theorem shortest_exponent_of_digits {x : Double} (h : (shortest x).digits = 0) :
    (shortest x).exponent = 0 := by
  have hreads : Double.ofDecimal? x.negative (shortest x).digits (shortest x).exponent = some x :=
    reads_iff.mp (reads_shortest x)
  rw [Double.ofDecimal?, if_pos (.inl h)] at hreads
  have hx : x.mantissa = 0 := (congrArg Double.mantissa (Option.some.inj hreads)).symm
  rw [shortest, if_pos hx]

end Decimal

private theorem isFraction_zero : IsFraction ['.', '0'] :=
  .point ⟨by simp, by simp [isDigit]⟩

theorem Double.isNumeral_text (x : Double) : IsNumeral x.text := by
  have hunsigned : ∀ text, IsUnsigned text → IsNumeral (x.signed text) := by
    intro text h
    unfold signed
    split
    · exact .negative h
    · exact .unsigned h
  unfold text
  apply hunsigned
  split
  · exact Decimal.isUnsigned_positional Decimal.shortest_exponent_of_digits
      isFraction_zero
  · exact Decimal.isUnsigned_scientific _

/-- The text of a number is a numeral. -/
theorem Number.isNumeral_text (n : Number) : IsNumeral n.text := by
  cases n with
  | int n h => exact isNumeral_intText n
  | float x => exact x.isNumeral_text

end PairGrep
