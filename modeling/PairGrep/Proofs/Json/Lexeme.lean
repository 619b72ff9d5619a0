import Mathlib
import PairGrep.Proofs.Json.Layout

/-!
# Strings and numbers of documents

The grammar of raw strings and of numbers. What is read as one of them is what the grammar gives, and
it is read whole in every text that goes on behind it: a string behind its closing quote, a number
where no character of numbers follows.
-/

namespace PairGrep.Json

/-- The raw strings of the JSON grammar, without their quotes. -/
inductive IsRaw : List Char → Prop where
  | nil : IsRaw []
  | unicode {a b c d : Char} {raw : List Char} (hex : [a, b, c, d].all isHex = true)
    (more : IsRaw raw) : IsRaw ('\\' :: 'u' :: a :: b :: c :: d :: raw)
  | escape {c : Char} {raw : List Char} (hc : isSimpleEscape c = true) (more : IsRaw raw) :
    IsRaw ('\\' :: c :: raw)
  | plain {c : Char} {raw : List Char} (hquote : c ≠ '"') (hbackslash : c ≠ '\\')
    (hcontrol : ¬ c < ' ') (more : IsRaw raw) : IsRaw (c :: raw)

section Strings

variable {cs raw rest : List Char}

theorem stringBody?_append (h : IsRaw raw) (rest : List Char) :
    stringBody? (raw ++ '"' :: rest) = some (raw, rest) := by
  induction h with
  | nil => rfl
  | unicode hex _ ih =>
    simp only [List.cons_append]
    rw [stringBody?, if_pos hex, ih]
    rfl
  | @escape c raw hc _ ih =>
    simp only [List.cons_append]
    rw [stringBody?, if_pos hc, ih]
    · rfl
    · rintro a b c' d tail rfl
      simp [isSimpleEscape] at hc
  | @plain c raw hquote hbackslash hcontrol _ ih =>
    simp only [List.cons_append]
    rw [stringBody?, if_neg hcontrol, ih]
    · rfl
    · exact hquote
    · intro a b c' d tail hc
      exact absurd hc hbackslash
    · intro c' tail hc
      exact absurd hc hbackslash

theorem isRaw_of_stringBody? (h : stringBody? cs = some (raw, rest)) : IsRaw raw := by
  fun_induction stringBody? cs generalizing raw rest with
  | case1 => simp at h
  | case2 =>
    obtain ⟨rfl, -⟩ := Prod.mk.inj (Option.some.inj h)
    exact .nil
  | case3 a b c d cs hex ih =>
    obtain ⟨back, hback, rfl⟩ := exists_of_consRaw h
    exact .unicode hex (ih hback)
  | case4 => simp at h
  | case5 c cs _ hc ih =>
    obtain ⟨back, hback, rfl⟩ := exists_of_consRaw h
    exact .escape hc (ih hback)
  | case6 => simp at h
  | case7 => simp at h
  | case8 c cs hquote _ hbackslash hcontrol ih =>
    obtain ⟨back, hback, rfl⟩ := exists_of_consRaw h
    have hslash : c ≠ '\\' := by
      rintro rfl
      cases cs with
      | nil => simp [stringBody?] at hback
      | cons c cs => exact hbackslash c cs rfl rfl
    exact .plain hquote hslash hcontrol (ih hback)

theorem Raw.stringBody?_append (r : Raw) (rest : List Char) :
    stringBody? (r.text ++ '"' :: rest) = some (r.text, rest) := by
  obtain ⟨tail, htail⟩ := r.read
  exact Json.stringBody?_append (isRaw_of_stringBody? htail) rest

theorem IsRaw.exists_raw (h : IsRaw raw) : ∃ r : Raw, r.text = raw :=
  ⟨⟨raw, [], Json.stringBody?_append h []⟩, rfl⟩

end Strings

def IsDigits (ds : List Char) : Prop := ds ≠ [] ∧ ∀ c ∈ ds, isDigit c = true

inductive IsWhole : List Char → Prop where
  | zero : IsWhole ['0']
  | digits {c : Char} {ds : List Char} (hzero : c ≠ '0') (hc : isDigit c = true)
    (hds : ∀ d ∈ ds, isDigit d = true) : IsWhole (c :: ds)

inductive IsFraction : List Char → Prop where
  | none : IsFraction []
  | point {ds : List Char} (hds : IsDigits ds) : IsFraction ('.' :: ds)

inductive IsExponent : List Char → Prop where
  | none : IsExponent []
  | plain {c : Char} {ds : List Char} (hc : c = 'e' ∨ c = 'E') (hds : IsDigits ds) :
    IsExponent (c :: ds)
  | signed {c s : Char} {ds : List Char} (hc : c = 'e' ∨ c = 'E') (hs : s = '+' ∨ s = '-')
    (hds : IsDigits ds) : IsExponent (c :: s :: ds)

inductive IsUnsigned : List Char → Prop where
  | parts {whole fraction exponent : List Char} (hwhole : IsWhole whole)
    (hfraction : IsFraction fraction) (hexponent : IsExponent exponent) :
    IsUnsigned (whole ++ fraction ++ exponent)

/-- The numbers of the JSON grammar. -/
inductive IsNumeral : List Char → Prop where
  | unsigned {raw : List Char} (h : IsUnsigned raw) : IsNumeral raw
  | negative {raw : List Char} (h : IsUnsigned raw) : IsNumeral ('-' :: raw)

section Numbers

variable {cs raw rest ds : List Char}

/-- The text does not go on with a character of the class. -/
def StopsAt (p : Char → Bool) (rest : List Char) : Prop := ∀ c ∈ rest.head?, p c = false

theorem StopsAt.cons {p : Char → Bool} {c : Char} (h : p c = false) : StopsAt p (c :: rest) := by
  intro d hd
  simp only [List.head?_cons, Option.mem_def, Option.some.injEq] at hd
  exact hd ▸ h

theorem StopsAt.imp {p q : Char → Bool} (h : StopsAt p rest) (hqp : ∀ c, q c = true → p c = true) :
    StopsAt q rest := by
  intro c hc
  have hp : p c = false := h c hc
  by_contra hq
  rw [hqp c (by simpa using hq)] at hp
  simp at hp

private theorem isNumberChar_of_isDigit {c : Char} (h : isDigit c = true) :
    isNumberChar c = true := by
  simp [isNumberChar, h]

private theorem takeWhile_of_stopsAt {p : Char → Bool} (h : StopsAt p rest) :
    rest.takeWhile p = [] := by
  cases rest with
  | nil => rfl
  | cons c rest => simp [h c rfl]

private theorem dropWhile_of_stopsAt {p : Char → Bool} (h : StopsAt p rest) :
    rest.dropWhile p = rest := by
  cases rest with
  | nil => rfl
  | cons c rest => simp [h c rfl]

theorem takeWhile_digits (hds : ∀ d ∈ ds, isDigit d = true) (hrest : StopsAt isDigit rest) :
    (ds ++ rest).takeWhile isDigit = ds := by
  rw [List.takeWhile_append_of_pos hds, takeWhile_of_stopsAt hrest, List.append_nil]

theorem dropWhile_digits (hds : ∀ d ∈ ds, isDigit d = true) (hrest : StopsAt isDigit rest) :
    (ds ++ rest).dropWhile isDigit = rest := by
  rw [List.dropWhile_append_of_pos hds, dropWhile_of_stopsAt hrest]

theorem digits?_append (hds : IsDigits ds) (hrest : StopsAt isDigit rest) :
    digits? (ds ++ rest) = some (ds, rest) := by
  rw [digits?, takeWhile_digits hds.2 hrest, dropWhile_digits hds.2 hrest, if_neg hds.1]

theorem wholePart?_append (h : IsWhole raw) (hrest : StopsAt isDigit rest) :
    wholePart? (raw ++ rest) = some (raw, rest) := by
  cases h with
  | zero => rfl
  | @digits c ds hzero hc hds =>
    rw [List.cons_append, wholePart?, if_pos hc, takeWhile_digits hds hrest,
      dropWhile_digits hds hrest]
    intro hc'
    exact hzero hc'

theorem fractionPart?_append (h : IsFraction raw) (hrest : StopsAt isDigit rest)
    (hpoint : rest.head? ≠ some '.') : fractionPart? (raw ++ rest) = some (raw, rest) := by
  cases h with
  | none =>
    rw [List.nil_append, fractionPart?]
    intro rest' hrest'
    exact hpoint (by rw [hrest']; rfl)
  | point hds =>
    rw [List.cons_append, fractionPart?, digits?_append hds hrest]
    rfl

private theorem head?_ne_of_stopsAt {c : Char} (hrest : StopsAt isNumberChar rest)
    (hc : isNumberChar c = true) : rest.head? ≠ some c := by
  intro h
  have hstop : isNumberChar c = false := hrest c h
  rw [hc] at hstop
  simp at hstop

theorem sign_ne_digit {ds : List Char} (hds : IsDigits ds) {s : Char}
    (hs : isDigit s = false) : (ds ++ rest).head? ≠ some s := by
  cases ds with
  | nil => exact absurd rfl hds.1
  | cons d ds =>
    intro h
    have hd : d = s := by simpa using h
    rw [← hd, hds.2 d List.mem_cons_self] at hs
    simp at hs

theorem exponentPart?_append (h : IsExponent raw) (hrest : StopsAt isNumberChar rest) :
    exponentPart? (raw ++ rest) = some (raw, rest) := by
  have hdigit : StopsAt isDigit rest := hrest.imp fun _ => isNumberChar_of_isDigit
  cases h with
  | none =>
    cases rest with
    | nil => rfl
    | cons c rest =>
      have hmark : ¬ (c = 'e' ∨ c = 'E') := by
        rintro (rfl | rfl) <;> exact head?_ne_of_stopsAt hrest (by decide) rfl
      unfold exponentPart?
      exact if_neg hmark
  | @plain c ds hc hds =>
    rw [List.cons_append, exponentPart?, if_pos hc, digits?_append hds hdigit]
    · rfl
    · intro tail htail
      exact sign_ne_digit (s := '+') hds (by decide) (by rw [htail]; rfl)
    · intro tail htail
      exact sign_ne_digit (s := '-') hds (by decide) (by rw [htail]; rfl)
  | @signed c s ds hc hs hds =>
    rcases hs with rfl | rfl
    · rw [List.cons_append, List.cons_append, exponentPart?, if_pos hc, digits?_append hds hdigit]
      rfl
    · rw [List.cons_append, List.cons_append, exponentPart?, if_pos hc, digits?_append hds hdigit]
      rfl

theorem stopsAt_exponent {exponent : List Char} (h : IsExponent exponent)
    (hrest : StopsAt isNumberChar rest) :
    StopsAt isDigit (exponent ++ rest) ∧ (exponent ++ rest).head? ≠ some '.' := by
  have hmark : ∀ {c : Char} {tail : List Char}, c = 'e' ∨ c = 'E' →
      StopsAt isDigit (c :: tail) ∧ (c :: tail).head? ≠ some '.' := by
    rintro c tail (rfl | rfl) <;> exact ⟨.cons (by decide), by simp⟩
  cases h with
  | none =>
    exact ⟨hrest.imp fun _ => isNumberChar_of_isDigit, head?_ne_of_stopsAt hrest (by decide)⟩
  | plain hc _ => exact hmark hc
  | signed hc _ _ => exact hmark hc

theorem unsigned?_append (h : IsUnsigned raw) (hrest : StopsAt isNumberChar rest) :
    unsigned? (raw ++ rest) = some (raw, rest) := by
  obtain ⟨hwhole, hfraction, hexponent⟩ := h
  rename_i whole fraction exponent
  obtain ⟨hdigit, hpoint⟩ := stopsAt_exponent hexponent hrest
  have hafter : StopsAt isDigit (fraction ++ (exponent ++ rest)) := by
    cases hfraction with
    | none => exact hdigit
    | point _ => exact .cons (by decide)
  rw [List.append_assoc, List.append_assoc, unsigned?, wholePart?_append hwhole hafter]
  simp [fractionPart?_append hfraction hdigit hpoint, exponentPart?_append hexponent hrest]

private theorem unsigned_head {raw : List Char} (h : IsUnsigned raw) (rest : List Char) :
    (raw ++ rest).head? ≠ some '-' := by
  obtain ⟨hwhole, -, -⟩ := h
  cases hwhole with
  | zero => simp
  | @digits c ds _ hc _ =>
    simp only [List.cons_append, List.head?_cons, ne_eq, Option.some.injEq]
    rintro rfl
    simp [isDigit] at hc

/-- A numeral is read whole where no character of numbers follows. -/
theorem number?_append (h : IsNumeral raw) (hrest : StopsAt isNumberChar rest) :
    number? (raw ++ rest) = some (raw, rest) := by
  cases h with
  | unsigned h =>
    rw [number?, unsigned?_append h hrest]
    intro tail htail
    exact unsigned_head h rest (by rw [htail]; rfl)
  | negative h =>
    rw [List.cons_append, number?, unsigned?_append h hrest]
    rfl

private theorem isDigits_of_digits? (h : digits? cs = some (raw, rest)) : IsDigits raw := by
  unfold digits? at h
  split at h
  · simp at h
  · rename_i hne
    obtain ⟨rfl, -⟩ := Prod.mk.inj (Option.some.inj h)
    exact ⟨hne, fun c hc => List.mem_takeWhile_imp hc⟩

private theorem isWhole_of_wholePart? (h : wholePart? cs = some (raw, rest)) : IsWhole raw := by
  unfold wholePart? at h
  split at h
  · obtain ⟨rfl, -⟩ := Prod.mk.inj (Option.some.inj h)
    exact .zero
  · rename_i c tail hzero
    split at h
    · rename_i hc
      obtain ⟨rfl, -⟩ := Prod.mk.inj (Option.some.inj h)
      exact .digits hzero hc fun d hd => List.mem_takeWhile_imp hd
    · simp at h
  · simp at h

private theorem digits_of_consRaw {front : List Char}
    (h : (digits? cs).map (consRaw front) = some (raw, rest)) :
    ∃ ds, IsDigits ds ∧ raw = front ++ ds := by
  obtain ⟨ds, hds, hraw⟩ := exists_of_consRaw h
  exact ⟨ds, isDigits_of_digits? hds, hraw⟩

private theorem isFraction_of_fractionPart? (h : fractionPart? cs = some (raw, rest)) :
    IsFraction raw := by
  unfold fractionPart? at h
  split at h
  · obtain ⟨ds, hds, rfl⟩ := digits_of_consRaw h
    exact .point hds
  · obtain ⟨rfl, -⟩ := Prod.mk.inj (Option.some.inj h)
    exact .none

private theorem isExponent_of_exponentPart? (h : exponentPart? cs = some (raw, rest)) :
    IsExponent raw := by
  unfold exponentPart? at h
  split at h
  · obtain ⟨rfl, -⟩ := Prod.mk.inj (Option.some.inj h)
    exact .none
  · split at h
    · rename_i hc
      split at h <;> obtain ⟨ds, hds, rfl⟩ := digits_of_consRaw h
      · exact .signed hc (.inl rfl) hds
      · exact .signed hc (.inr rfl) hds
      · exact .plain hc hds
    · obtain ⟨rfl, -⟩ := Prod.mk.inj (Option.some.inj h)
      exact .none

private theorem isUnsigned_of_unsigned? (h : unsigned? cs = some (raw, rest)) : IsUnsigned raw := by
  simp only [unsigned?, bind, Option.bind_eq_some_iff, pure, Option.some.injEq, Prod.mk.injEq] at h
  obtain ⟨⟨whole, _⟩, hwhole, ⟨fraction, _⟩, hfraction, ⟨exponent, _⟩, hexponent, rfl, -⟩ := h
  exact .parts (isWhole_of_wholePart? hwhole) (isFraction_of_fractionPart? hfraction)
    (isExponent_of_exponentPart? hexponent)

/-- What is read as a number is a numeral. -/
theorem isNumeral_of_number? (h : number? cs = some (raw, rest)) : IsNumeral raw := by
  unfold number? at h
  split at h
  · obtain ⟨back, hback, rfl⟩ := exists_of_consRaw h
    exact .negative (isUnsigned_of_unsigned? hback)
  · exact .unsigned (isUnsigned_of_unsigned? h)

theorem Numeral.number?_append (n : Numeral) (hrest : StopsAt isNumberChar rest) :
    number? (n.text ++ rest) = some (n.text, rest) := by
  obtain ⟨tail, htail⟩ := n.read
  exact Json.number?_append (isNumeral_of_number? htail) hrest

theorem IsNumeral.exists_numeral (h : IsNumeral raw) : ∃ n : Numeral, n.text = raw :=
  ⟨⟨raw, [], Json.number?_append h fun _ hc => by simp at hc⟩, rfl⟩

theorem isNumberChar_of_isNumeral (h : IsNumeral raw) : ∀ c ∈ raw, isNumberChar c = true := by
  obtain ⟨⟨text, rest, hread⟩, rfl⟩ := h.exists_numeral
  exact (number?_part hread).1.2

end Numbers

end PairGrep.Json
