import PairGrep.Proofs.Pair.Elements

/-!
# The size of a search

What is relied on of the bytes that the engine counts for a search: a text takes at least 32 of them
for each of its bytes, and the search not much more than that for all its texts together.
-/

namespace PairGrep

open Pattern

def utf8Length (text : List Char) : ℕ := (text.map Char.utf8Size).sum

/-- Bounds on the bytes of a search. The engine gives each byte of a text a state of 32 bytes and what
leads to it. Texts may share their states, but not if one of them is empty. -/
class LawfulSizing [Sizing] : Prop where
  text_le (side : Side) (texts : List (List Char)) :
    ∀ t ∈ texts, 32 * utf8Length t ≤ Sizing.bytes (searchExpr side texts)
  sum_le (side : Side) (texts : List (List Char)) :
    [] ∈ texts → 32 * (texts.map utf8Length).sum ≤ Sizing.bytes (searchExpr side texts)
  le_sum (side : Side) (texts : List (List Char)) :
    Sizing.bytes (searchExpr side texts) ≤
      96 * (texts.map fun t => max 1 (utf8Length t)).sum + 65536

section Bounds

variable [Sizing] [LawfulSizing] {texts : List (List Char)}

/-- Texts of up to 100000 bytes in all are within the limit, an empty one counted as one byte. -/
theorem bytes_le_sizeLimit (side : Side)
    (h : (texts.map fun t => max 1 (utf8Length t)).sum ≤ 100000) :
    Sizing.bytes (searchExpr side texts) ≤ sizeLimit := by
  have hle := LawfulSizing.le_sum side texts
  rw [sizeLimit]
  omega

theorem sizeLimit_lt_bytes (side : Side) {text : List Char} (htext : text ∈ texts)
    (h : 400000 ≤ utf8Length text) : sizeLimit < Sizing.bytes (searchExpr side texts) := by
  have hle := LawfulSizing.text_le side texts text htext
  rw [sizeLimit]
  omega

end Bounds

theorem utf8Length_of_ascii {text : List Char} (h : ∀ c ∈ text, c.toNat < 0x80) :
    utf8Length text = text.length := by
  have hsize : ∀ c ∈ text, c.utf8Size = 1 := fun c hc =>
    Char.utf8Size_eq_one_iff.mpr (Nat.le_of_lt_succ (h c hc))
  rw [utf8Length, List.map_congr_left hsize, List.map_const', List.sum_replicate, smul_eq_mul,
    mul_one]

theorem utf8Length_replicate (n : ℕ) (c : Char) :
    utf8Length (List.replicate n c) = n * c.utf8Size := by
  rw [utf8Length, List.map_replicate, List.sum_replicate, smul_eq_mul]

end PairGrep
