import Mathlib
import PairGrep.CommandLine.Run
import PairGrep.Proofs.Json.Texts
import PairGrep.Proofs.Terms.Sources

/-!
# Printed tokens

What a command prints of the tokens of a search can be taken apart again. Main statement: on lines,
cutting at the newlines gives the tokens back, and as an array, reading it gives their texts and their
numerals back.
-/

namespace PairGrep

open Json

section Escapes

private theorem unescape?_escapeChar (c : Char) (rest : List Char) :
    Value.unescape? (escapeChar c ++ rest) = (Value.unescape? rest).map (c :: ·) := by
  have hcode : ∀ n < 32, Value.codeUnit '0' '0' (hexDigit (n / 16)) (hexDigit (n % 16)) = n := by
    decide
  rcases escapeChar_cases c with ⟨sign, hsign, hc, heq⟩ | ⟨hcontrol, heq⟩ | ⟨-, hback, -, heq⟩
  · have hu : sign ≠ 'u' := by
      rintro rfl
      exact absurd hsign (by decide)
    rw [heq, List.cons_append, List.singleton_append, Value.unescape?, hc]
    simp [hu]
  · -- The code of a control character is no surrogate, which would need another one behind it.
    have hunit := hcode c.toNat hcontrol
    have hhigh : ¬ (0xD800 ≤ c.toNat ∧ c.toNat ≤ 0xDBFF) := by omega
    have hlow : ¬ (0xDC00 ≤ c.toNat ∧ c.toNat ≤ 0xDFFF) := by omega
    simp only [heq, List.cons_append, List.nil_append]
    conv_lhs => unfold Value.unescape?
    simp only [hunit]
    rw [if_neg hhigh, if_neg hlow, Char.ofNat_toNat]
  · rw [heq, List.singleton_append, Value.unescape?]
    · simp [hback]
    · simp [hback]

theorem unescape?_escape (text : List Char) :
    Value.unescape? (text.flatMap escapeChar) = some text := by
  induction text with
  | nil => rfl
  | cons c text ih => rw [List.flatMap_cons, unescape?_escapeChar, ih, Option.map_some]

private theorem newline_not_mem_escapeChar (c : Char) : '\n' ∉ escapeChar c := by
  have hhex : ∀ n < 16, hexDigit n ≠ '\n' := by decide
  rcases escapeChar_cases c with ⟨sign, hsign, -, heq⟩ | ⟨hcontrol, heq⟩ | ⟨-, -, hcontrol, heq⟩
  · rw [heq]
    have hne : '\n' ≠ sign := by
      rintro rfl
      exact absurd hsign (by decide)
    simp [hne]
  · have hhigh := hhex (c.toNat / 16) (by omega)
    have hlow := hhex (c.toNat % 16) (by omega)
    rw [heq]
    simp [hhigh.symm, hlow.symm]
  · rw [heq, List.mem_singleton]
    rintro rfl
    exact hcontrol (by decide)

end Escapes

section Values

/-- The document that a token is read back as: a string of its text, or its numeral. -/
def Token.IsRead (t : Token) (d : Document) : Prop :=
  match t with
  | .text s => ∃ raw, d = .string raw ∧ Value.decodeString? raw = some s
  | .number _ => d = .number t.display.toList

private theorem Token.exists_layout (t : Token) :
    ∃ v : Layout, v.text = t.toValue.text ∧ t.IsRead v.document := by
  cases t with
  | text s =>
    refine ⟨.string (.escaped s.toList), rfl, _, rfl, ?_⟩
    rw [Value.decodeString?, Raw.escaped, unescape?_escape, Option.map_some, String.ofList_toList]
  | number n =>
    obtain ⟨numeral, hnumeral⟩ := n.isNumeral_text.exists_numeral
    refine ⟨.scalar (.number numeral), hnumeral, ?_⟩
    rw [Token.IsRead, Layout.document, hnumeral, Token.display, String.toList_ofList]

private theorem Token.exists_items (t : Token) (more : List Token) :
    ∃ items : Items, items.text = Value.itemsText ((t :: more).map Token.toValue) ∧
      List.Forall₂ Token.IsRead (t :: more) items.documents := by
  induction more generalizing t with
  | nil =>
    obtain ⟨v, htext, hread⟩ := t.exists_layout
    exact ⟨.last v .empty, by simp [Items.text, Gap.empty, htext, Value.itemsText],
      .cons hread .nil⟩
  | cons next more ih =>
    obtain ⟨v, htext, hread⟩ := t.exists_layout
    obtain ⟨items, hitems, hmore⟩ := ih next
    exact ⟨.more v .empty .empty items,
      by simp [Items.text, Gap.empty, htext, hitems, Value.itemsText], .cons hread hmore⟩

private theorem exists_array (tokens : List Token) :
    ∃ (v : Layout) (documents : List Document),
      v.text = (Value.array (tokens.map Token.toValue)).text ∧ v.document = .array documents ∧
      List.Forall₂ Token.IsRead tokens documents := by
  cases tokens with
  | nil => exact ⟨.emptyArray .empty, [], rfl, rfl, .nil⟩
  | cons t more =>
    obtain ⟨items, htext, hread⟩ := t.exists_items more
    refine ⟨.array .empty items, items.documents, ?_, rfl, hread⟩
    rw [Layout.text, htext]
    rfl

private theorem newline_not_mem_value (t : Token) : '\n' ∉ t.toValue.text := by
  cases t with
  | text s => simp [Token.toValue, Value.text, quote, newline_not_mem_escapeChar]
  | number n =>
    intro hmem
    exact absurd (isNumberChar_of_isNumeral n.isNumeral_text _ hmem) (by decide)

private theorem newline_not_mem_items (tokens : List Token) :
    '\n' ∉ Value.itemsText (tokens.map Token.toValue) := by
  induction tokens with
  | nil => simp [Value.itemsText]
  | cons t more ih =>
    cases more with
    | nil => simpa [Value.itemsText] using newline_not_mem_value t
    | cons next more =>
      rw [List.map_cons] at ih
      simp [Value.itemsText, newline_not_mem_value, ih]

end Values

section Tokens

variable {m : Matcher} {text : String} {terms : List Term} {side : Side} {tokens : List Token}

theorem Matcher.exists_of_mem_search [Pattern.Sizing]
    (h : m.search text terms side = .ok tokens) {t : Token}
    (ht : t ∈ tokens) : ∃ matched, t = .ofMatch side matched := by
  rw [Matcher.search_eq] at h
  cases hcompile : Pattern.Program.compile
      (pairSource (m.sides side terms).1 (m.sides side terms).2) with
  | error e =>
    rw [hcompile] at h
    cases h
  | ok program =>
    rw [hcompile] at h
    obtain rfl := Except.ok.inj h
    obtain ⟨matched, -, rfl⟩ := List.mem_map.mp ht
    exact ⟨matched, rfl⟩

private theorem isStripped_of_mem_strip {c : Char} {matched : List Char} (h : c ∈ strip matched) :
    isStripped c = false := by
  simpa using (List.mem_filter.mp h).2

theorem isStripped_of_ofMatch {matched : List Char} {s : String}
    (h : Token.ofMatch side matched = .text s) : ∀ c ∈ s.toList, isStripped c = false := by
  have hstrip : s.toList ⊆ strip matched := by
    cases side with
    | keys =>
      obtain rfl := Token.text.inj h
      rw [String.toList_ofList]
      exact (List.takeWhile_prefix _).subset
    | values =>
      simp only [Token.ofMatch, Token.ofText] at h
      split at h
      · simp at h
      · obtain rfl := Token.text.inj h
        rw [String.toList_ofList]
        exact ((List.drop_suffix _ _).trans (List.dropWhile_suffix _)).subset
  exact fun c hc => isStripped_of_mem_strip (hstrip hc)

private theorem newline_not_mem_display {t : Token} {matched : List Char}
    (h : t = .ofMatch side matched) : '\n' ∉ t.display.toList := by
  cases t with
  | text s => exact fun hmem => absurd (isStripped_of_ofMatch h.symm _ hmem) (by decide)
  | number n =>
    rw [Token.display, String.toList_ofList]
    exact newline_not_mem_value (.number n)

/-- Tokens without a newline are what stands in front of the newlines of their lines. -/
theorem splitOn_lines (h : ∀ t ∈ tokens, '\n' ∉ t.display.toList) :
    (CommandLine.render .lines tokens).toList.splitOn '\n' =
      tokens.map (·.display.toList) ++ [[]] := by
  rw [CommandLine.render, String.toList_join, List.flatMap_map]
  induction tokens with
  | nil => rfl
  | cons t more ih =>
    obtain ⟨ht, hmore⟩ := List.forall_mem_cons.mp h
    have hline : (t.display ++ "\n").toList = t.display.toList ++ ['\n'] := String.toList_append
    rw [List.flatMap_cons, hline, List.append_assoc, List.singleton_append,
      List.splitOn_append_cons_self_of_not_mem ht, ih hmore]
    rfl

end Tokens

namespace CommandLine

/-- The tokens of a search can be read off what is printed of them. On lines there is one token on
each, whose text has nothing that is dropped from a match, and no colon if it is a key. As an array
they are one line of JSON, with one element for each of them. -/
theorem render_search [Pattern.Sizing] {m : Matcher} {text : String} {terms : List Term} {side : Side}
    {tokens : List Token} (h : m.search text terms side = .ok tokens) :
    ((render .lines tokens).toList.splitOn '\n' = tokens.map (·.display.toList) ++ [[]] ∧
      (∀ s, .text s ∈ tokens → ∀ c ∈ s.toList,
        isBlank c = false ∧ c ≠ '"' ∧ c ≠ ',' ∧ c ≠ ']' ∧ c ≠ '}') ∧
      (side = .keys → ∀ t ∈ tokens, ∃ s, t = .text s ∧ ':' ∉ s.toList)) ∧
    ∃ (line : String) (documents : List Document), render .json tokens = line ++ "\n" ∧
      '\n' ∉ line.toList ∧ isJson line = true ∧ isJson (line ++ "\n") = true ∧
      Document.ofText? line.toList = some (.array documents) ∧
      List.Forall₂ Token.IsRead tokens documents := by
  have hcut : ∀ t ∈ tokens, ∃ matched, t = .ofMatch side matched := fun t ht =>
    Matcher.exists_of_mem_search h ht
  refine ⟨⟨?_, fun s hs c hc => ?_, fun hside t ht => ?_⟩, ?_⟩
  · apply splitOn_lines
    intro t ht
    obtain ⟨matched, hmatched⟩ := hcut t ht
    exact newline_not_mem_display hmatched
  · obtain ⟨matched, hmatched⟩ := hcut _ hs
    have hkept := isStripped_of_ofMatch hmatched.symm c hc
    simp only [isStripped, Bool.or_eq_false_iff, beq_eq_false_iff_ne] at hkept
    obtain ⟨⟨⟨⟨hquote, hcomma⟩, hbrace⟩, hbracket⟩, hblank⟩ := hkept
    exact ⟨hblank, hquote, hcomma, hbracket, hbrace⟩
  · subst hside
    obtain ⟨matched, rfl⟩ := hcut t ht
    refine ⟨_, rfl, fun hcolon => ?_⟩
    rw [String.toList_ofList] at hcolon
    exact absurd (List.mem_takeWhile_imp hcolon) (by decide)
  · obtain ⟨v, documents, htext, hdocument, hread⟩ := exists_array tokens
    let newline : Gap := ⟨['\n'], by simp [isSpace]⟩
    have hline : (Value.array (tokens.map Token.toValue)).render.toList = v.text := by
      rw [Value.render, htext, String.toList_ofList]
    have hbare := ofText?_text ⟨.empty, v, .empty⟩
    have hback : isJson ((Value.array (tokens.map Token.toValue)).render ++ "\n") = true :=
      isJson_iff_exists_layout.mpr ⟨⟨.empty, v, newline⟩, by
        simp [DocumentLayout.text, Gap.empty, newline, hline]⟩
    simp only [DocumentLayout.text, Gap.empty, List.nil_append, List.append_nil, ← hline, hdocument]
      at hbare
    refine ⟨_, documents, rfl, ?_, Value.isJson_render _, hback, hbare, hread⟩
    rw [hline, htext]
    simp [Value.text, newline_not_mem_items]

theorem render_search_backslash :
    let tokens : List Token := [.number (.int 7 (by decide)), .text "x\\y"]
    Matcher.default.search "\x7b\"id\":7,\"b\":\"x\\y\"\x7d" [.literal "id", .pattern "b"] .values =
      .ok tokens ∧
    (render .lines tokens).toList.splitOn '\n' = [['7'], ['x', '\\', 'y'], []] ∧
    ∃ (line : String) (documents : List Document), render .json tokens = line ++ "\n" ∧
      '\n' ∉ line.toList ∧ Document.ofText? line.toList = some (.array documents) ∧
      List.Forall₂ Token.IsRead tokens documents := by
  intro tokens
  have hsearch : Matcher.default.search "\x7b\"id\":7,\"b\":\"x\\y\"\x7d"
      [.literal "id", .pattern "b"] .values = .ok tokens := by decide +kernel
  obtain ⟨⟨hlines, -, -⟩, line, documents, hrender, hline, -, -, hread, htokens⟩ :=
    render_search hsearch
  exact ⟨hsearch, hlines, line, documents, hrender, hline, hread, htokens⟩

end CommandLine

end PairGrep
