import Mathlib
import PairGrep.Grep
import PairGrep.Proofs.Json.Texts
import PairGrep.Proofs.Number.Reading
import PairGrep.Proofs.Number.SearchText
import PairGrep.Proofs.Pair.Exactness
import PairGrep.Proofs.Pair.States

/-!
# Numbers in documents

A document of one number is searched from both sides. Under its key the number is found as it was put
in, of the same kind and with the same value. A search for the number finds its key, unless the number
is negative zero, which is searched for without its sign.
-/

namespace PairGrep

open Pattern Json

section Keys

variable {c : Char}

theorem toNat_of_isKeyChar (h : isKeyChar c = true) : 45 ≤ c.toNat ∧ c.toNat ≤ 122 := by
  rw [← contains_keyChars] at h
  simp only [CharSet.contains, CharSet.containsCode, keyChars, CharSet.inRanges] at h
  simp at h
  omega

theorem escapeChar_of_isKeyChar (h : isKeyChar c = true) : escapeChar c = [c] := by
  refine escapeChar_eq_self (ne_of_class h rfl) (ne_of_class h rfl) fun hcontrol => ?_
  have hcode : c.toNat < 32 := hcontrol
  have hbounds := toNat_of_isKeyChar h
  omega

theorem utf8Length_of_isKeyChar {key : List Char} (h : ∀ c ∈ key, isKeyChar c = true) :
    utf8Length key = key.length :=
  utf8Length_of_ascii fun c hc => (toNat_of_isKeyChar (h c hc)).2.trans_lt (by decide)

end Keys

section Search

variable {k : String} {n : Number}

private theorem toNat_of_isNumberChar {c : Char} (h : isNumberChar c = true) : c.toNat < 0x80 := by
  simp only [isNumberChar, isDigit, Bool.or_eq_true, beq_iff_eq, Bool.and_eq_true,
    decide_eq_true_eq] at h
  rcases h with ((((h | rfl) | rfl) | rfl) | rfl) | rfl
  · have hle : c.toNat ≤ 57 := h.2
    omega
  all_goals decide

private theorem exists_layout (hk : ∀ c ∈ k.toList, isKeyChar c = true) (n : Number) :
    ∃ (key : Key) (numeral : Numeral), key.raw.text = k.toList ∧ key.before.text = [] ∧
      numeral.text = n.text ∧ (Value.object [(k, .number n)]).render = String.ofList
        (DocumentLayout.text
          ⟨.empty, .object .empty (.last key (.scalar (.number numeral)) .empty), .empty⟩) := by
  obtain ⟨numeral, hnumeral⟩ := n.isNumeral_text.exists_numeral
  refine ⟨⟨.escaped k.toList, .empty, .empty⟩, numeral, ?_, rfl, hnumeral, ?_⟩
  · exact Raw.text_escaped fun c hc => escapeChar_of_isKeyChar (hk c hc)
  · rw [Value.render]
    simp [DocumentLayout.text, Layout.text, Members.text, Key.text, Gap.empty, Raw.quoted_escaped,
      Value.text, Value.membersText, Scalar.text, hnumeral]

private theorem memberToken_number {numeral : Numeral} (h : numeral.text = n.text) (key : List Char) :
    memberToken .values key (.scalar (.number numeral)) = .number n := by
  have hplain : Plain n.text := h ▸ (Scalar.number numeral).plain.1
  have hvalue : ∀ c ∈ n.text, isValueChar c = true := by
    intro c hc
    have hchar := hplain c hc
    simp [isPlain] at hchar
    simp [isValueChar, hchar]
  have hstrip : strip n.text = n.text := by
    rw [strip, List.filter_eq_self]
    intro c hc
    have hchar := hplain c hc
    simp [isPlain] at hchar
    simp [isStripped, hchar]
  have hopening : (Layout.scalar (.number numeral)).opening = n.text := by
    rw [Layout.opening, Layout.content, Layout.text, Scalar.text, h]
    · exact List.takeWhile_eq_self_iff.mpr hvalue
    · simp
  rw [memberToken, hopening, hstrip, Token.ofText, Number.read?_text]

theorem Grep.search_number [Sizing] (files : Files) (side : Side) (terms : List Term)
    (h : ∀ t ∈ terms, t.isPattern = false) (hplain : ∀ t ∈ Term.texts terms, Plain t)
    (hk : ∀ c ∈ k.toList, isKeyChar c = true) (n : Number) :
    ∃ numeral : Numeral, numeral.text = n.text ∧
      (Grep.new files (.structured (.object [(k, .number n)]))).search terms side =
        if sizeLimit < Sizing.bytes (searchExpr side (Term.texts terms)) then
          .error (.pattern .tooLarge)
        else .ok (if selects side (Term.texts terms) k.toList (.scalar (.number numeral)) then
          [memberToken side k.toList (.scalar (.number numeral))] else []) := by
  obtain ⟨key, numeral, hraw, hbefore, hnumeral, htext⟩ := exists_layout hk n
  have htidy : Tidy [] [(key, Layout.scalar (.number numeral))] := by
    refine ⟨by simp, List.forall_mem_singleton.mpr ⟨?_, hbefore⟩⟩
    rw [hraw]
    exact fun hcolon => absurd (hk _ hcolon) (by decide)
  obtain ⟨tokens, htokens, hsearch⟩ := Matcher.search_document true side h hplain
    ⟨.empty, .object .empty (.last key (.scalar (.number numeral)) .empty), .empty⟩ fun _ => htidy
  have hmember : tokens = if selects side (Term.texts terms) k.toList (.scalar (.number numeral)) then
      [memberToken side k.toList (.scalar (.number numeral))] else [] := by
    simp only [Layout.pairs, Members.pairs] at htokens
    rw [memberTokens_of_tidy htidy, List.filter_singleton, hraw] at htokens
    rw [← show _ = tokens from htokens]
    split_ifs with hselects
    · simp [hselects, hraw]
    · simp [hselects]
  refine ⟨numeral, hnumeral, ?_⟩
  simp only [Grep.search, Grep.new, Input.resolve, htext, hsearch, hmember]
  rw [apply_ite (Except.mapError GrepError.pattern)]
  rfl

/-- A number is found under its key as the number that it is, unless the key makes the expression too
large, and its text alone is read as it. -/
theorem Grep.values_number [Sizing] (files : Files) (n : Number) {k : String}
    (hk : ∀ c ∈ k.toList, isKeyChar c = true) :
    (Grep.new files (.structured (.object [(k, .number n)]))).values [.literal k] =
      (if sizeLimit < Sizing.bytes (searchExpr .values [k.toList]) then .error (.pattern .tooLarge)
      else .ok [.number n]) ∧
    (∀ [LawfulSizing], k.length ≤ 100000 →
      Sizing.bytes (searchExpr .values [k.toList]) ≤ sizeLimit) ∧
    Token.ofText n.text = .number n := by
  have hplain : ∀ t ∈ Term.texts [.literal k], Plain t :=
    List.forall_mem_singleton.mpr fun c hc => isPlain_of_isKeyChar (hk c hc)
  refine ⟨?_, fun hlength => ?_, by rw [Token.ofText, Number.read?_text]⟩
  · obtain ⟨numeral, hnumeral, hsearch⟩ := Grep.search_number files .values [.literal k]
      (by simp [Term.isPattern]) hplain hk n
    have hselects : selects .values (Term.texts [.literal k]) k.toList
        (.scalar (.number numeral)) := ⟨k.toList, List.mem_singleton_self _, List.suffix_rfl⟩
    rw [Grep.values, hsearch, if_pos hselects, memberToken_number hnumeral]
    rfl
  · apply bytes_le_sizeLimit
    simp only [List.map_cons, List.map_nil, List.sum_cons, List.sum_nil,
      utf8Length_of_isKeyChar hk, String.length_toList]
    omega

theorem Grep.values_number_least :
    (∀ c ∈ "k-1".toList, isKeyChar c = true) ∧
    (Grep.new ⟨fun _ => none⟩ (.structured
      (.object [("k-1", .number (.float ⟨true, 1, -1074, by decide +kernel⟩))]))).values [.literal "k-1"] =
        .ok [.number (.float ⟨true, 1, -1074, by decide +kernel⟩)] := by
  have hk : ∀ c ∈ "k-1".toList, isKeyChar c = true := by simp [isKeyChar]
  obtain ⟨hvalues, hsize, -⟩ :=
    Grep.values_number ⟨fun _ => none⟩ (.float ⟨true, 1, -1074, by decide +kernel⟩) hk
  rw [if_neg (not_lt.mpr (hsize (by decide)))] at hvalues
  exact ⟨hk, hvalues⟩

def wideKey (n : ℕ) : String := String.ofList (List.replicate n 'a')

theorem plain_wideKey (n : ℕ) :
    (∀ c ∈ (wideKey n).toList, isKeyChar c = true) ∧ (wideKey n).toList.length = n := by
  rw [wideKey, String.toList_ofList]
  refine ⟨fun c hc => ?_, List.length_replicate⟩
  rw [List.eq_of_mem_replicate hc]
  decide

theorem Grep.values_wideKey :
    (∀ c ∈ (wideKey 600000).toList, isKeyChar c = true) ∧ wideKey 600000 ≠ "" ∧
    ∀ [Sizing] [LawfulSizing],
      (Grep.new ⟨fun _ => none⟩ (.structured
        (.object [(wideKey 600000, .number (.int 1 (by decide)))]))).values
          [.literal (wideKey 600000)] = .error (.pattern .tooLarge) := by
  obtain ⟨hk, hlength⟩ := plain_wideKey 600000
  generalize wideKey 600000 = k at hk hlength ⊢
  have hne : k ≠ "" := by
    rintro rfl
    simp at hlength
  have hplain : ∀ t ∈ Term.texts [.literal k], Plain t :=
    List.forall_mem_singleton.mpr fun c hc => isPlain_of_isKeyChar (hk c hc)
  refine ⟨hk, hne, ?_⟩
  intro _ _
  have hsize : sizeLimit < Sizing.bytes (searchExpr .values (Term.texts [.literal k])) := by
    apply sizeLimit_lt_bytes .values (List.mem_singleton_self k.toList)
    rw [utf8Length_of_isKeyChar hk, hlength]
    decide
  obtain ⟨numeral, -, hsearch⟩ := Grep.search_number ⟨fun _ => none⟩ .values
    [.literal k] (by simp [Term.isPattern]) hplain hk (.int 1 (by decide))
  rw [if_pos hsize] at hsearch
  exact hsearch

/-- A search for a number finds its key, unless the number is negative zero. -/
theorem Grep.keys_number [Sizing] [LawfulSizing] (files : Files) (n : Number) {k : String}
    (hk : ∀ c ∈ k.toList, isKeyChar c = true) :
    (Grep.new files (.structured (.object [(k, .number n)]))).keys [.number n] =
      .ok (if n = .float (.zero true) then [] else [.text k]) := by
  have hchars := isNumberChar_of_isNumeral n.isNumeral_searchText
  have hplain : ∀ t ∈ Term.texts [.number n], Plain t :=
    List.forall_mem_singleton.mpr fun c hc => isPlain_of_isNumberChar (hchars c hc)
  have hsize : ¬ sizeLimit < Sizing.bytes (searchExpr .keys (Term.texts [.number n])) := by
    have hlength := n.length_searchText_le
    have htext : utf8Length n.searchText = n.searchText.length :=
      utf8Length_of_ascii fun c hc => toNat_of_isNumberChar (hchars c hc)
    apply not_lt.mpr
    apply bytes_le_sizeLimit
    simp only [Term.texts, Term.text, List.map_cons, List.map_nil, List.sum_cons, List.sum_nil,
      htext]
    omega
  obtain ⟨numeral, hnumeral, hsearch⟩ := Grep.search_number files .keys [.number n]
    (by simp [Term.isPattern]) hplain hk n
  have hselects : selects .keys (Term.texts [.number n]) k.toList (.scalar (.number numeral)) ↔
      n ≠ .float (.zero true) := by
    rw [← n.searchText_prefix_iff, ← hnumeral]
    simp [selects, Term.texts, Term.text, Layout.content, Layout.text, Scalar.text]
  have htoken : memberToken .keys k.toList (.scalar (.number numeral)) = .text k := by
    rw [memberToken, List.rtakeWhile_eq_self_iff.mpr hk, String.ofList_toList]
  rw [Grep.keys, hsearch, if_neg hsize, htoken]
  by_cases hn : n = .float (.zero true)
  · rw [if_neg fun h => hselects.mp h hn, if_pos hn]
  · rw [if_pos (hselects.mpr hn), if_neg hn]

theorem Grep.keys_number_whole :
    (∀ c ∈ "k-1".toList, isKeyChar c = true) ∧
    (Grep.new ⟨fun _ => none⟩ (.structured
      (.object [("k-1", .number (.float ⟨true, 0x10000000000000, -50, by decide +kernel⟩))]))).keys
        [.number (.float ⟨true, 0x10000000000000, -50, by decide +kernel⟩)] = .ok [.text "k-1"] := by
  have hk : ∀ c ∈ "k-1".toList, isKeyChar c = true := by simp [isKeyChar]
  have hkeys := Grep.keys_number ⟨fun _ => none⟩
    (.float ⟨true, 0x10000000000000, -50, by decide +kernel⟩) hk
  rw [if_neg (by decide)] at hkeys
  exact ⟨hk, hkeys⟩

theorem Grep.keys_negative_zero :
    (Grep.new ⟨fun _ => none⟩ (.structured (.object [("k", .number (.float (.zero true)))]))).keys
      [.number (.float (.zero true))] = .ok [] := by
  decide +kernel

end Search

end PairGrep
