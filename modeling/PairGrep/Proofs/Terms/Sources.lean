import PairGrep.Proofs.Pair.Expression
import PairGrep.Proofs.Reading.Refused

/-!
# The sources of terms

A literal or a number is read alone as the row of its characters, and leaves the flags as it has
found them. So where patterns have to be read alone, nothing has to be said of the other terms.
-/

namespace PairGrep

open Pattern Pattern.Reader

section Text

variable (text : List Char)

theorem reads_escapeMeta : Reads (escapeMeta text) (.ofText text) 0 [] := by
  have hread : readAlternatives (4 * (textsSource [text]).length + 4)
      ⟨textsSource [text] ++ [], false, 0, []⟩ = .ok (.ofTexts [text], ⟨[], false, 0, []⟩) :=
    readAlternatives_texts (.inl rfl) _ _ (by omega)
  rwa [List.append_nil] at hread

theorem readable_escapeMeta : Readable (escapeMeta text) :=
  ⟨_, _, _, _, _, reads_escapeMeta text, branches_ofText text⟩

theorem keepsFlags_escapeMeta : keepsFlags (escapeMeta text) = true := by
  rw [keepsFlags, reads_escapeMeta]
  simp [branches_ofText]

theorem head_escapeMeta_ne : (escapeMeta text).head? ≠ some '?' := by
  intro hhead
  have h := (head_escapeMeta_append text [] (by rwa [List.append_nil])).2
  simp at h

end Text

namespace Term

variable {t : Term} {terms : List Term}

theorem source_of_isPattern (ht : t.isPattern = false) : t.source = escapeMeta t.text := by
  cases t with
  | literal | number => rfl
  | pattern => simp [isPattern] at ht

theorem keepsFlags_source (h : t.isPattern = true → keepsFlags t.source = true) :
    keepsFlags t.source = true := by
  cases ht : t.isPattern with
  | true => exact h ht
  | false =>
    rw [source_of_isPattern ht]
    exact keepsFlags_escapeMeta t.text

/-- A term is read alone if it is no pattern, or one that compiles and leaves verbose mode off. -/
theorem readable_source [Sizing]
    (hcompile : t.isPattern = true → ∃ p, Program.compile t.source = .ok p)
    (hverbose : t.isPattern = true → leavesVerboseOff t.source = true) :
    Readable t.source := by
  cases ht : t.isPattern with
  | true =>
    obtain ⟨p, hp⟩ := hcompile ht
    obtain ⟨tree, captures, names, bs, g, hread, hbs, -⟩ := reads_of_compile hp (hverbose ht)
    exact ⟨tree, captures, names, bs, g, hread, hbs⟩
  | false =>
    rw [source_of_isPattern ht]
    exact readable_escapeMeta t.text

theorem head_source_ne [Sizing]
    (hcompile : t.isPattern = true → ∃ p, Program.compile t.source = .ok p) :
    t.source.head? ≠ some '?' := by
  cases ht : t.isPattern with
  | true =>
    obtain ⟨p, hp⟩ := hcompile ht
    exact head_of_compile hp
  | false =>
    rw [source_of_isPattern ht]
    exact head_escapeMeta_ne t.text

theorem alternatives_cons (t : Term) (h : terms ≠ []) :
    alternatives (t :: terms) = t.source ++ '|' :: alternatives terms := by
  cases terms with
  | nil => exact absurd rfl h
  | cons next more => simp [alternatives]

theorem alternatives_singleton (t : Term) : alternatives [t] = t.source := by
  simp [alternatives]

end Term

/-- A search reports what the pattern of pairs matches, and fails as that does not compile. -/
theorem Matcher.search_eq [Sizing] (m : Matcher) (text : String) (terms : List Term) (side : Side) :
    m.search text terms side =
      (Program.compile (pairSource (m.sides side terms).1 (m.sides side terms).2)).map fun p =>
        ((p.allMatches text.toList.toArray).map (·.text text.toList.toArray)).map
          (Token.ofMatch side) := by
  rw [search]
  simp only [scanPairs]
  cases Program.compile (pairSource (m.sides side terms).1 (m.sides side terms).2) <;> rfl

end PairGrep
