import PairGrep.Proofs.Pair.Document
import PairGrep.Proofs.Pair.Size

/-!
# What searches find in documents

Searches of JSON documents for plain texts: in every document no eligible member is lost, and if no
string has a colon the tokens are those of the selected members and no others. A document is taken
as a layout here, and every JSON text is the text of one. The one other answer of a search is that
the expression of its terms is too large.
-/

namespace PairGrep

open Pattern Json

/-- The characters of a string in front of its first comma, and those of any other value in front of
its first double quote or comma. -/
def Json.Layout.head : Layout → List Char
  | .string raw => raw.text.takeWhile (· != ',')
  | v => v.text.takeWhile isValueChar

mutual

theorem Json.Layout.mem_strings {key : Key} {raw : Raw} (v : Layout)
    (h : (key, .string raw) ∈ v.pairs) : raw ∈ v.strings := by
  cases v with
  | scalar | string | emptyArray | emptyObject => simp [Layout.pairs] at h
  | array gap items => exact items.mem_strings h
  | object gap members => exact members.mem_strings h

theorem Json.Items.mem_strings {key : Key} {raw : Raw} (items : Items)
    (h : (key, .string raw) ∈ items.pairs) : raw ∈ items.strings := by
  cases items with
  | last item gap => exact item.mem_strings h
  | more item before after rest =>
    rw [Items.strings, List.mem_append]
    exact (List.mem_append.mp h).imp item.mem_strings rest.mem_strings

theorem Json.Members.mem_strings {key : Key} {raw : Raw} (members : Members)
    (h : (key, .string raw) ∈ members.pairs) : raw ∈ members.strings := by
  have hvalue : ∀ {k : Key} {v : Layout}, (key, .string raw) = (k, v) → raw ∈ v.strings := by
    intro k v heq
    obtain ⟨rfl, rfl⟩ := Prod.mk.inj heq
    exact List.mem_cons_self
  cases members with
  | last k value gap => exact (List.mem_cons.mp h).elim hvalue value.mem_strings
  | more k value before after rest =>
    rw [Members.strings, List.mem_append]
    rcases List.mem_cons.mp h with heq | h
    · exact .inl (hvalue heq)
    · exact (List.mem_append.mp h).imp value.mem_strings rest.mem_strings

end

theorem opening_eq_head {v : Layout} (h : ∀ raw, v = .string raw → '"' ∉ raw.text) :
    v.opening = v.head := by
  have htake : ∀ w : List Char, '"' ∉ w → w.takeWhile isValueChar = w.takeWhile (· != ',') := by
    intro w hw
    induction w with
    | nil => rfl
    | cons a w ih =>
      obtain ⟨ha, hw⟩ := List.ne_and_not_mem_of_not_mem_cons hw
      have hchar : isValueChar a = (a != ',') := by simp [isValueChar, ha.symm]
      rw [List.takeWhile_cons, List.takeWhile_cons, hchar, ih hw]
  cases v with
  | string raw => exact htake raw.text (h raw rfl)
  | scalar | emptyArray | array | emptyObject | object => rfl

section Size

def wideTerms (n : Nat) : List Term :=
  [.literal "", .literal (String.ofList ('𝒳' :: '𝒳' :: List.replicate n '𝒳'))]

theorem texts_wideTerms (n : Nat) :
    Term.texts (wideTerms n) = [[], List.replicate (n + 2) '𝒳'] := by
  simp [Term.texts, wideTerms, Term.text, List.replicate_succ]

theorem wideTerms_plain (n : Nat) :
    (∀ t ∈ wideTerms n, t.isPattern = false) ∧ ∀ t ∈ Term.texts (wideTerms n), Plain t := by
  have hchar : isPlain '𝒳' = true := by decide
  refine ⟨by simp [wideTerms, Term.isPattern], ?_⟩
  rw [texts_wideTerms]
  simp [Plain, hchar]

theorem Matcher.search_wideTerms [Sizing] [LawfulSizing] (side : Side) (text : String) {n : Nat}
    (hn : 100000 ≤ n) : Matcher.default.search text (wideTerms n) side = .error .tooLarge := by
  have htext : List.replicate (n + 2) '𝒳' ∈ Term.texts (wideTerms n) := by
    simp [texts_wideTerms]
  have hlength : 400000 ≤ utf8Length (List.replicate (n + 2) '𝒳') := by
    have hchar : '𝒳'.utf8Size = 4 := by decide
    rw [utf8Length_replicate, hchar]
    omega
  rw [Matcher.search_plain side (wideTerms_plain n).1 (wideTerms_plain n).2,
    if_pos (sizeLimit_lt_bytes side htext hlength)]

end Size

theorem Matcher.search_document [Sizing] (exact : Bool) (side : Side) {terms : List Term}
    (h : ∀ t ∈ terms, t.isPattern = false) (hplain : ∀ t ∈ Term.texts terms, Plain t)
    (d : DocumentLayout) (hd : exact = true → Tidy d.value.strings d.value.pairs) :
    ∃ tokens, Agrees exact (memberTokens side (Term.texts terms) d.value.pairs) tokens ∧
      Matcher.default.search (String.ofList d.text) terms side =
        if sizeLimit < Sizing.bytes (searchExpr side (Term.texts terms)) then .error .tooLarge
        else .ok tokens := by
  have hsearch := Matcher.search_plain side h hplain (String.ofList d.text)
  rw [String.toList_ofList] at hsearch
  exact ⟨_, scan_document hplain d hd, hsearch⟩

/-- The document with the text "{"id": 7,"sub":{"id":"x"}}". -/
def sampleDocument : DocumentLayout :=
  let space : Gap := ⟨[' '], by simp [isSpace]⟩
  let id : Raw := ⟨['i', 'd'], [], rfl⟩
  let inner : Members := .last ⟨id, .empty, .empty⟩ (.string ⟨['x'], [], rfl⟩) .empty
  let sub : Members :=
    .last ⟨⟨['s', 'u', 'b'], [], rfl⟩, .empty, .empty⟩ (.object .empty inner) .empty
  ⟨.empty, .object .empty
    (.more ⟨id, .empty, space⟩ (.scalar (.number ⟨['7'], [], rfl⟩)) .empty .empty sub), .empty⟩

/-- A search for values reports the values of exactly those members whose key ends with a text that
is searched for. -/
theorem Matcher.values_document [Sizing] {terms : List Term} (h : ∀ t ∈ terms, t.isPattern = false)
    (hplain : ∀ t ∈ Term.texts terms, Plain t) (d : DocumentLayout)
    (hd : Tidy d.value.strings d.value.pairs) (hquote : ∀ raw ∈ d.value.strings, '"' ∉ raw.text) :
    Matcher.default.values (String.ofList d.text) terms =
      if sizeLimit < Sizing.bytes (searchExpr .values (Term.texts terms)) then .error .tooLarge
      else .ok ((d.value.pairs.filter fun p => ∃ t ∈ Term.texts terms, t <:+ p.1.raw.text).map
        fun p => .ofText (strip p.2.head)) := by
  obtain ⟨tokens, htokens, hsearch⟩ := Matcher.search_document true .values h hplain d fun _ => hd
  rw [Matcher.values, hsearch, ← htokens, memberTokens_of_tidy hd]
  congr 2
  refine List.map_congr_left fun p hp => ?_
  rw [memberToken, opening_eq_head]
  intro raw hraw
  have hpair : (p.1, Layout.string raw) ∈ d.value.pairs := hraw ▸ (List.mem_filter.mp hp).1
  exact hquote raw (d.value.mem_strings hpair)

theorem Matcher.values_sampleDocument :
    Matcher.default.values (String.ofList sampleDocument.text) [.literal "id"] =
      .ok [.number (.int 7 (by decide)), .text "x"] :=
  (Matcher.values_document (by simp [Term.isPattern]) (by decide +kernel) sampleDocument
    (by decide +kernel) (by decide +kernel)).trans (by decide +kernel)

theorem Matcher.values_wideTerms :
    ((∀ t ∈ wideTerms 199998, t.isPattern = false) ∧
      ∀ t ∈ Term.texts (wideTerms 199998), Plain t) ∧
    Tidy sampleDocument.value.strings sampleDocument.value.pairs ∧
    ∀ [Sizing] [LawfulSizing],
      Matcher.default.values (String.ofList sampleDocument.text) (wideTerms 199998) =
        .error .tooLarge :=
  ⟨wideTerms_plain _, by decide +kernel, Matcher.search_wideTerms .values _ (by omega)⟩

/-- A search for keys reports the ends of the keys of exactly those members whose value starts with a
text that is searched for. -/
theorem Matcher.keys_document [Sizing] {terms : List Term} (h : ∀ t ∈ terms, t.isPattern = false)
    (hplain : ∀ t ∈ Term.texts terms, Plain t) (d : DocumentLayout)
    (hd : Tidy d.value.strings d.value.pairs) :
    Matcher.default.keys (String.ofList d.text) terms =
      (if sizeLimit < Sizing.bytes (searchExpr .keys (Term.texts terms)) then .error .tooLarge
      else .ok ((d.value.pairs.filter fun p => ∃ t ∈ Term.texts terms, t <+: p.2.content).map
        fun p => .text (String.ofList (p.1.raw.text.rtakeWhile isKeyChar)))) ∧
    ∀ p ∈ d.value.pairs, (∀ c ∈ p.1.raw.text, isKeyChar c = true) →
      p.1.raw.text.rtakeWhile isKeyChar = p.1.raw.text := by
  refine ⟨?_, fun p _ hp => List.rtakeWhile_eq_self_iff.mpr hp⟩
  obtain ⟨tokens, htokens, hsearch⟩ := Matcher.search_document true .keys h hplain d fun _ => hd
  rw [Matcher.keys, hsearch, ← htokens, memberTokens_of_tidy hd]
  rfl

theorem Matcher.keys_sampleDocument :
    Matcher.default.keys (String.ofList sampleDocument.text) [.literal "x", .literal "7"] =
      .ok [.text "id", .text "id"] :=
  (Matcher.keys_document (by simp [Term.isPattern]) (by decide +kernel) sampleDocument
    (by decide +kernel)).1.trans (by decide +kernel)

theorem Matcher.keys_wideTerms :
    ((∀ t ∈ wideTerms 199998, t.isPattern = false) ∧
      ∀ t ∈ Term.texts (wideTerms 199998), Plain t) ∧
    Tidy sampleDocument.value.strings sampleDocument.value.pairs ∧
    ∀ [Sizing] [LawfulSizing],
      Matcher.default.keys (String.ofList sampleDocument.text) (wideTerms 199998) =
        .error .tooLarge :=
  ⟨wideTerms_plain _, by decide +kernel, Matcher.search_wideTerms .keys _ (by omega)⟩

/-- No eligible member of a JSON text is lost, whatever its strings hold. -/
theorem Matcher.search_members [Sizing] (side : Side) {terms : List Term}
    (h : ∀ t ∈ terms, t.isPattern = false) (hplain : ∀ t ∈ Term.texts terms, Plain t)
    {text : String} (hjson : isJson text = true) :
    (∃ d : DocumentLayout, d.text = text.toList) ∧ ∀ d : DocumentLayout, d.text = text.toList →
      if sizeLimit < Sizing.bytes (searchExpr side (Term.texts terms)) then
        Matcher.default.search text terms side = .error .tooLarge
      else ∃ tokens, Matcher.default.search text terms side = .ok tokens ∧
        (memberTokens side (Term.texts terms) d.value.pairs).Sublist tokens := by
  refine ⟨exists_layout_of_isJson hjson, fun d hd => ?_⟩
  obtain ⟨tokens, htokens, hsearch⟩ :=
    Matcher.search_document false side h hplain d fun hexact => absurd hexact (by decide)
  rw [hd, String.ofList_toList] at hsearch
  split <;> rename_i hsize
  · rw [hsearch, if_pos hsize]
  · exact ⟨tokens, by rw [hsearch, if_neg hsize], htokens⟩

def colonDocument : DocumentLayout :=
  ⟨.empty, .object .empty (.last ⟨⟨['i', 'd'], [], rfl⟩, .empty, .empty⟩
    (.string ⟨['a', ':', 'b'], [], rfl⟩) .empty), .empty⟩

theorem Matcher.search_colonDocument :
    ∃ tokens, Matcher.default.search (String.ofList colonDocument.text) [.literal "id"] .values =
      .ok tokens ∧ [Token.text "a:b"].Sublist tokens := by
  have hplain : ∀ t ∈ Term.texts [.literal "id"], Plain t := by decide +kernel
  have hjson : isJson (String.ofList colonDocument.text) = true := by decide +kernel
  have hsize : ¬sizeLimit < Sizing.bytes (searchExpr .values (Term.texts [.literal "id"])) := by
    decide +kernel
  have hmembers : memberTokens .values (Term.texts [.literal "id"]) colonDocument.value.pairs =
      [.text "a:b"] := by decide +kernel
  have hsearch := (Matcher.search_members .values (by simp [Term.isPattern]) hplain hjson).2
    colonDocument String.toList_ofList.symm
  rw [if_neg hsize, hmembers] at hsearch
  exact hsearch

theorem Matcher.search_members_wideTerms :
    ((∀ t ∈ wideTerms 199998, t.isPattern = false) ∧
      ∀ t ∈ Term.texts (wideTerms 199998), Plain t) ∧
    isJson (String.ofList colonDocument.text) = true ∧
    (∃ p ∈ colonDocument.value.pairs, p.1.IsEligible ∧
      selects .values (Term.texts (wideTerms 199998)) p.1.raw.text p.2) ∧
    ∀ [Sizing] [LawfulSizing] (tokens : List Token),
      Matcher.default.search (String.ofList colonDocument.text) (wideTerms 199998) .values ≠
        .ok tokens := by
  refine ⟨wideTerms_plain _, by decide +kernel, ?_, fun tokens => ?_⟩
  · refine ⟨_, List.mem_cons_self, by decide +kernel, [], ?_, List.nil_suffix⟩
    rw [texts_wideTerms]
    exact List.mem_cons_self
  · rw [Matcher.search_wideTerms .values _ (by omega)]
    simp

end PairGrep
