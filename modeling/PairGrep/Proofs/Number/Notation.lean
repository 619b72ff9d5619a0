import Mathlib
import PairGrep.Token
import PairGrep.Proofs.Number.Nearest
import PairGrep.Proofs.Number.Reading

/-!
# Which texts spell numbers

The grammar of bare numbers, told apart from how they are read: `[+-]?[0-9]+` for integers and
`[+-]?([0-9]+(\.[0-9]*)?|\.[0-9]+)([eE][+-]?[0-9]+)?` for decimal notation. What is read is what the
grammar spells, so a text is an integer, a double or no number by its spelling and value alone.
-/

namespace PairGrep

open Json

/-- A sign in front of a number, or none; `true` stands for minus. -/
inductive IsSign : List Char → Bool → Prop where
  | none : IsSign [] false
  | plus : IsSign ['+'] false
  | minus : IsSign ['-'] true

/-- The texts of integers: a sign or none, and one or more digits. -/
inductive SpellsInt : List Char → ℤ → Prop where
  | digits {sign ds : List Char} {negative : Bool} (hsign : IsSign sign negative)
    (hds : IsDigits ds) : SpellsInt (sign ++ ds) (signedInt negative (Nat.ofDigitChars 10 ds 0))

/-- Digits with an optional point, before or behind which digits must stand. The digits before the
point and those behind it come with the text. -/
inductive IsSignificand : List Char → List Char → List Char → Prop where
  | whole {ds : List Char} (hds : IsDigits ds) : IsSignificand ds ds []
  | point {ds fs : List Char} (hds : IsDigits ds) (hfs : ∀ c ∈ fs, isDigit c = true) :
    IsSignificand (ds ++ '.' :: fs) ds fs
  | bare {fs : List Char} (hfs : IsDigits fs) : IsSignificand ('.' :: fs) [] fs

inductive IsPower : List Char → ℤ → Prop where
  | none : IsPower [] 0
  | mark {c : Char} {cs : List Char} {e : ℤ} (hc : c = 'e' ∨ c = 'E') (he : SpellsInt cs e) :
    IsPower (c :: cs) e

/-- The texts in decimal notation, with the sign and the absolute value of what they spell. -/
inductive SpellsDecimal : List Char → Bool → ℚ → Prop where
  | parts {sign significand whole fraction power : List Char} {negative : Bool} {e : ℤ}
    (hsign : IsSign sign negative) (hsignificand : IsSignificand significand whole fraction)
    (hpower : IsPower power e) :
    SpellsDecimal (sign ++ (significand ++ power)) negative
      (Nat.ofDigitChars 10 (whole ++ fraction) 0 * 10 ^ (e - fraction.length))

section Integers

variable {text cs sign ds : List Char} {negative : Bool} {n e : ℤ}

theorem exists_isSign (text : List Char) :
    ∃ sign, IsSign sign (splitSign text).1 ∧ text = sign ++ (splitSign text).2 := by
  unfold splitSign
  split
  · exact ⟨['-'], .minus, rfl⟩
  · exact ⟨['+'], .plus, rfl⟩
  · exact ⟨[], .none, rfl⟩

theorem splitSign_append (hsign : IsSign sign negative) (hminus : cs.head? ≠ some '-')
    (hplus : cs.head? ≠ some '+') : splitSign (sign ++ cs) = (negative, cs) := by
  cases hsign with
  | plus => rfl
  | minus => rfl
  | none =>
    rw [List.nil_append, splitSign]
    · rintro tail rfl
      exact hminus rfl
    · rintro tail rfl
      exact hplus rfl

theorem readInt?_eq_some_iff : readInt? text = some n ↔ SpellsInt text n := by
  constructor
  · intro h
    obtain ⟨sign, hsign, htext⟩ := exists_isSign text
    simp only [readInt?] at h
    split_ifs at h with hds
    obtain rfl := Option.some.inj h
    have hspells := SpellsInt.digits hsign ⟨hds.1, List.all_eq_true.mp hds.2⟩
    rwa [← htext, ← digitsValue_eq] at hspells
  · rintro ⟨hsign, hds⟩
    rename_i sign ds negative
    have hsplit : splitSign (sign ++ ds) = (negative, ds) := by
      rw [← List.append_nil ds]
      exact splitSign_append hsign (sign_ne_digit hds (by decide)) (sign_ne_digit hds (by decide))
    rw [readInt?_of_isDigits hsplit hds, digitsValue_eq]

theorem readExponent?_eq_some_iff : readExponent? text = some e ↔ IsPower text e := by
  constructor
  · intro h
    cases text with
    | nil =>
      obtain rfl := Option.some.inj h
      exact .none
    | cons c cs =>
      rw [readExponent?] at h
      split_ifs at h with hc
      exact .mark hc (readInt?_eq_some_iff.mp h)
  · intro h
    cases h with
    | none => rfl
    | mark hc he => rw [readExponent?, if_pos hc, readInt?_eq_some_iff.mpr he]

end Integers

section Decimals

variable {text sign significand whole fraction power : List Char} {negative : Bool} {e : ℤ} {q : ℚ}
  {d : DecimalNotation}

private theorem IsPower.stopsAt {p : Char → Bool} (h : IsPower power e) (hlower : p 'e' = false)
    (hupper : p 'E' = false) : StopsAt p power := by
  cases h with
  | none => simp [StopsAt]
  | mark hc _ =>
    rcases hc with rfl | rfl
    · exact .cons hlower
    · exact .cons hupper

private theorem IsSignificand.head?_ne (h : IsSignificand significand whole fraction) {c : Char}
    (hdigit : isDigit c = false) (hpoint : c ≠ '.') : (significand ++ power).head? ≠ some c := by
  cases h with
  | whole hds => exact sign_ne_digit hds hdigit
  | point hds _ =>
    rw [List.append_assoc]
    exact sign_ne_digit hds hdigit
  | bare _ => simpa using hpoint.symm

theorem DecimalNotation.read?_parts (hsign : IsSign sign negative)
    (hsignificand : IsSignificand significand whole fraction) (hpower : IsPower power e) :
    DecimalNotation.read? (sign ++ (significand ++ power)) = some ⟨negative, whole, fraction, e⟩ := by
  have hsplit : splitSign (sign ++ (significand ++ power)) = (negative, significand ++ power) :=
    splitSign_append hsign (hsignificand.head?_ne (by decide) (by decide))
      (hsignificand.head?_ne (by decide) (by decide))
  have hread : readExponent? power = some e := readExponent?_eq_some_iff.mpr hpower
  have hdigit : StopsAt isDigit power := hpower.stopsAt (by decide) (by decide)
  have hdot : ∀ fs : List Char, StopsAt isDigit ('.' :: fs) := fun fs => .cons (by decide)
  simp only [DecimalNotation.read?, hsplit]
  cases hsignificand with
  | whole hds =>
    rw [takeWhile_digits hds.2 hdigit, dropWhile_digits hds.2 hdigit]
    split
    · rename_i r
      have hpoint : StopsAt (· == '.') ('.' :: r) := hpower.stopsAt (by decide) (by decide)
      simpa using hpoint '.' rfl
    · simp [hds.1, hread]
  | @point ds fs hds hfs =>
    rw [List.append_assoc, List.cons_append, takeWhile_digits hds.2 (hdot _),
      dropWhile_digits hds.2 (hdot _)]
    simp [hds.1, hread, takeWhile_digits hfs hdigit, dropWhile_digits hfs hdigit]
  | @bare fs hfs =>
    have hpoint : isDigit '.' = false := by decide
    simp [hpoint, hfs.1, hread, takeWhile_digits hfs.2 hdigit, dropWhile_digits hfs.2 hdigit]

theorem DecimalNotation.exists_parts (h : DecimalNotation.read? text = some d) :
    ∃ sign significand power, text = sign ++ (significand ++ power) ∧ IsSign sign d.negative ∧
      IsSignificand significand d.whole d.fraction ∧ IsPower power d.exponent := by
  obtain ⟨sign, hsign, htext⟩ := exists_isSign text
  simp only [DecimalNotation.read?] at h
  generalize splitSign text = split at hsign htext h
  obtain ⟨negative, cs⟩ := split
  simp only at hsign htext h
  have hcs : cs.takeWhile isDigit ++ cs.dropWhile isDigit = cs := List.takeWhile_append_dropWhile
  have hwhole : ∀ c ∈ cs.takeWhile isDigit, isDigit c = true := fun c => List.mem_takeWhile_imp
  generalize cs.takeWhile isDigit = whole at hcs hwhole h
  generalize cs.dropWhile isDigit = after at hcs h
  split at h
  · rename_i r
    split_ifs at h with hnone
    obtain ⟨e, he, rfl⟩ := Option.map_eq_some_iff.mp h
    have hfraction : ∀ c ∈ r.takeWhile isDigit, isDigit c = true := fun c => List.mem_takeWhile_imp
    have hr : r.takeWhile isDigit ++ r.dropWhile isDigit = r := List.takeWhile_append_dropWhile
    refine ⟨sign, whole ++ '.' :: r.takeWhile isDigit, r.dropWhile isDigit, ?_, hsign, ?_,
      readExponent?_eq_some_iff.mp he⟩
    · rw [htext, ← hcs, List.append_assoc, List.cons_append, hr]
    · by_cases hempty : whole = []
      · rw [hempty]
        exact .bare ⟨fun hnil => hnone ⟨hempty, hnil⟩, hfraction⟩
      · exact .point ⟨hempty, hwhole⟩ hfraction
  · split_ifs at h with hnone
    obtain ⟨e, he, rfl⟩ := Option.map_eq_some_iff.mp h
    refine ⟨sign, whole, after, ?_, hsign, .whole ⟨fun hnil => hnone ⟨hnil, rfl⟩, hwhole⟩,
      readExponent?_eq_some_iff.mp he⟩
    rw [htext, hcs]

def DecimalNotation.absValue (d : DecimalNotation) : ℚ :=
  digitsValue (d.whole ++ d.fraction) * 10 ^ (d.exponent - d.fraction.length)

theorem spellsDecimal_iff : SpellsDecimal text negative q ↔
    ∃ d, DecimalNotation.read? text = some d ∧ d.negative = negative ∧ d.absValue = q := by
  constructor
  · rintro ⟨hsign, hsignificand, hpower⟩
    refine ⟨_, DecimalNotation.read?_parts hsign hsignificand hpower, rfl, ?_⟩
    rw [DecimalNotation.absValue, digitsValue_eq]
  · rintro ⟨d, hread, rfl, rfl⟩
    obtain ⟨sign, significand, power, rfl, hsign, hsignificand, hpower⟩ :=
      DecimalNotation.exists_parts hread
    rw [DecimalNotation.absValue, digitsValue_eq]
    exact .parts hsign hsignificand hpower

end Decimals

namespace Number

variable {text : List Char} {x : Double} {n : ℤ}

def SpellsFitting (text : List Char) : Prop := ∃ n, SpellsInt text n ∧ Fits64 n

private theorem read?_of_spellsInt (hspells : SpellsInt text n) (h : Fits64 n) :
    read? text = some (.int n h) := by
  simp [read?, readInt?_eq_some_iff.mpr hspells, ofInt?, h]

private theorem read?_of_not_spellsFitting (h : ¬ SpellsFitting text) :
    read? text = ((DecimalNotation.read? text).bind DecimalNotation.toDouble?).map .float := by
  have hnone : (readInt? text).bind ofInt? = none := by
    rw [Option.bind_eq_none_iff]
    intro n hread
    exact dif_neg fun hfits => h ⟨n, readInt?_eq_some_iff.mp hread, hfits⟩
  rw [read?, hnone, Option.orElse_none]

private theorem bind_toDouble?_eq_some_iff :
    (DecimalNotation.read? text).bind DecimalNotation.toDouble? = some x ↔
      ∃ q, SpellsDecimal text x.negative q ∧ q < 2 ^ (1024 : ℤ) - 2 ^ (970 : ℤ) ∧
        x.IsNearest (Double.withSign x.negative q) := by
  rw [Option.bind_eq_some_iff]
  simp only [DecimalNotation.toDouble?, Double.ofDecimal?_eq_some_iff_isNearest, spellsDecimal_iff]
  constructor
  · rintro ⟨d, hread, hlt, hnegative, hnearest⟩
    exact ⟨d.absValue, ⟨d, hread, hnegative.symm, rfl⟩, hlt, hnegative ▸ hnearest⟩
  · rintro ⟨q, ⟨d, hread, hnegative, rfl⟩, hlt, hnearest⟩
    exact ⟨d, hread, hlt, hnegative.symm, hnegative ▸ hnearest⟩

theorem read?_eq_int_iff : (∃ h, read? text = some (.int n h)) ↔ SpellsInt text n ∧ Fits64 n := by
  constructor
  · rintro ⟨hn, hread⟩
    by_cases hfitting : SpellsFitting text
    · obtain ⟨m, hspells, hm⟩ := hfitting
      rw [read?_of_spellsInt hspells hm] at hread
      obtain rfl : m = n := (Number.int.inj (Option.some.inj hread))
      exact ⟨hspells, hn⟩
    · rw [read?_of_not_spellsFitting hfitting, Option.map_eq_some_iff] at hread
      obtain ⟨x, -, hx⟩ := hread
      simp at hx
  · rintro ⟨hspells, hfits⟩
    exact ⟨hfits, read?_of_spellsInt hspells hfits⟩

theorem read?_eq_float_iff : read? text = some (.float x) ↔
    ¬ SpellsFitting text ∧ ∃ q, SpellsDecimal text x.negative q ∧
      q < 2 ^ (1024 : ℤ) - 2 ^ (970 : ℤ) ∧ x.IsNearest (Double.withSign x.negative q) := by
  by_cases hfitting : SpellsFitting text
  · obtain ⟨n, hspells, hn⟩ := hfitting
    rw [read?_of_spellsInt hspells hn]
    simpa using fun hnot => absurd ⟨n, hspells, hn⟩ hnot
  · rw [read?_of_not_spellsFitting hfitting, ← bind_toDouble?_eq_some_iff, Option.map_eq_some_iff]
    simp only [Number.float.injEq, exists_eq_right, hfitting, not_false_eq_true, true_and]

/-- The doubles end half a unit beyond the largest one. -/
theorem exists_read?_eq_float_iff : (∃ x, read? text = some (.float x)) ↔
    ¬ SpellsFitting text ∧
      ∃ negative q, SpellsDecimal text negative q ∧ q < 2 ^ (1024 : ℤ) - 2 ^ (970 : ℤ) := by
  constructor
  · rintro ⟨x, hx⟩
    obtain ⟨hfitting, q, hspells, hlt, -⟩ := read?_eq_float_iff.mp hx
    exact ⟨hfitting, x.negative, q, hspells, hlt⟩
  · rintro ⟨hfitting, negative, q, hspells, hlt⟩
    obtain ⟨d, hread, -, rfl⟩ := spellsDecimal_iff.mp hspells
    obtain ⟨x, hx⟩ : ∃ x, d.toDouble? = some x := Double.exists_ofDecimal?_iff.mpr hlt
    refine ⟨x, ?_⟩
    rw [read?_of_not_spellsFitting hfitting, hread, Option.bind_some, hx, Option.map_some]

theorem read?_eq_none_iff : read? text = none ↔
    ¬ SpellsFitting text ∧
      ∀ negative q, SpellsDecimal text negative q → 2 ^ (1024 : ℤ) - 2 ^ (970 : ℤ) ≤ q := by
  have hfloat : (∃ x, read? text = some (.float x)) ↔ _ := exists_read?_eq_float_iff
  constructor
  · intro hnone
    have hfitting : ¬ SpellsFitting text := by
      rintro ⟨n, hspells, hn⟩
      rw [read?_of_spellsInt hspells hn] at hnone
      simp at hnone
    refine ⟨hfitting, fun negative q hspells => not_lt.mp fun hlt => ?_⟩
    obtain ⟨x, hx⟩ := hfloat.mpr ⟨hfitting, negative, q, hspells, hlt⟩
    rw [hnone] at hx
    simp at hx
  · rintro ⟨hfitting, hbeyond⟩
    rw [Option.eq_none_iff_forall_ne_some]
    intro m hm
    cases m with
    | int n hn =>
      obtain ⟨hspells, -⟩ := read?_eq_int_iff.mp ⟨hn, hm⟩
      exact hfitting ⟨n, hspells, hn⟩
    | float x =>
      obtain ⟨-, negative, q, hspells, hlt⟩ := hfloat.mp ⟨x, hm⟩
      exact absurd hlt (not_lt.mpr (hbeyond negative q hspells))

end Number

section Tokens

variable {text : List Char} {n : Number}

private theorem Token.ofText_eq_number_iff :
    Token.ofText text = .number n ↔ Number.read? text = some n := by
  unfold Token.ofText
  split <;> simp_all

private theorem Token.ofText_eq_text_iff {s : String} :
    Token.ofText text = .text s ↔ Number.read? text = none ∧ String.ofList text = s := by
  unfold Token.ofText
  split <;> simp_all

/-- A value is an integer exactly where it spells one that fits in 64 bits. Otherwise it is a double
exactly where it is decimal notation of what is less than half a unit beyond the largest double, and
then the nearest one; all else stays the text that it is. -/
theorem Token.ofText_toList (v : String) :
    (∀ n, (∃ h, Token.ofText v.toList = .number (.int n h)) ↔
      SpellsInt v.toList n ∧ -2 ^ 63 ≤ n ∧ n ≤ 2 ^ 64 - 1) ∧
    (∀ x, Token.ofText v.toList = .number (.float x) ↔
      ¬ Number.SpellsFitting v.toList ∧ ∃ q, SpellsDecimal v.toList x.negative q ∧
        q < 2 ^ (1024 : ℤ) - 2 ^ (970 : ℤ) ∧ x.IsNearest (Double.withSign x.negative q)) ∧
    ((∃ x, Token.ofText v.toList = .number (.float x)) ↔
      ¬ Number.SpellsFitting v.toList ∧ ∃ negative q, SpellsDecimal v.toList negative q ∧
        q < 2 ^ (1024 : ℤ) - 2 ^ (970 : ℤ)) ∧
    (∀ s, Token.ofText v.toList = .text s ↔
      s = v ∧ ¬ Number.SpellsFitting v.toList ∧ ∀ negative q, SpellsDecimal v.toList negative q →
        2 ^ (1024 : ℤ) - 2 ^ (970 : ℤ) ≤ q) := by
  refine ⟨fun n => ?_, fun x => ?_, ?_, fun s => ?_⟩
  · have hfits : -2 ^ 63 ≤ n ∧ n ≤ 2 ^ 64 - 1 ↔ Fits64 n := by
      simp only [Fits64]
      omega
    simp only [Token.ofText_eq_number_iff, hfits]
    exact Number.read?_eq_int_iff
  · rw [Token.ofText_eq_number_iff]
    exact Number.read?_eq_float_iff
  · simp only [Token.ofText_eq_number_iff]
    exact Number.exists_read?_eq_float_iff
  · rw [Token.ofText_eq_text_iff, Number.read?_eq_none_iff, String.ofList_toList, eq_comm, and_comm]

example : Token.ofText "-9223372036854775809".toList =
    .number (.float ⟨true, 0x10000000000000, 11, by decide⟩) := by decide

example : Token.ofText "+.5e".toList = .text "+.5e" := by decide

end Tokens

end PairGrep
