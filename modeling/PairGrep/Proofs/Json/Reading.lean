import Mathlib
import PairGrep.Proofs.Json.Lexeme

/-!
# Layouts are read

The text of every layout is cut into the lexemes of the layout, and these are read as its document,
at any depth of nesting. So the texts of layouts are exactly the valid JSON texts.
-/

namespace PairGrep.Json

def Scalar.lexeme : Scalar → Lexeme
  | null => .null
  | bool value => .bool value
  | number numeral => .number numeral.text

mutual

def Layout.lexemes : Layout → List Lexeme
  | .scalar value => [value.lexeme]
  | .string raw => [.string raw.text]
  | .emptyArray _ => [.openBracket, .closeBracket]
  | .array _ items => .openBracket :: (items.lexemes ++ [.closeBracket])
  | .emptyObject _ => [.openBrace, .closeBrace]
  | .object _ members => .openBrace :: (members.lexemes ++ [.closeBrace])

def Items.lexemes : Items → List Lexeme
  | .last item _ => item.lexemes
  | .more item _ _ rest => item.lexemes ++ .comma :: rest.lexemes

def Members.lexemes : Members → List Lexeme
  | .last key value _ => .string key.raw.text :: .colon :: value.lexemes
  | .more key value _ _ rest =>
    .string key.raw.text :: .colon :: (value.lexemes ++ .comma :: rest.lexemes)

end

section Cutting

variable {text rest : List Char} {ls : List Lexeme}

/-- The text is cut into the lexemes, however much more fuel there is than characters. -/
def Cuts (text : List Char) (ls : List Lexeme) : Prop :=
  ∀ fuel, text.length ≤ fuel → lexemesWithin fuel text = some ls

theorem Cuts.nil : Cuts [] [] := by
  intro fuel _
  cases fuel <;> rfl

theorem Cuts.cons {c : Char} {l : Lexeme} (hc : isSpace c = false)
    (hfirst : Lexeme.first? (c :: text) = some (l, rest)) (hlength : rest.length ≤ text.length)
    (h : Cuts rest ls) : Cuts (c :: text) (l :: ls) := by
  intro fuel hfuel
  cases fuel with
  | zero => simp at hfuel
  | succ fuel =>
    have hmore : lexemesWithin fuel rest = some ls := h fuel (by simp at hfuel; omega)
    have hdrop : (c :: text).dropWhile isSpace = c :: text := by simp [hc]
    unfold lexemesWithin
    rw [hdrop]
    simp [hfirst, hmore]

private theorem lexemesWithin_congr {fuel : Nat} {text' : List Char}
    (h : text.dropWhile isSpace = text'.dropWhile isSpace) :
    lexemesWithin fuel text = lexemesWithin fuel text' := by
  unfold lexemesWithin
  rw [h]

theorem Cuts.gap (gap : Gap) (h : Cuts rest ls) : Cuts (gap.text ++ rest) ls := by
  intro fuel hfuel
  rw [List.length_append] at hfuel
  have hdrop : (gap.text ++ rest).dropWhile isSpace = rest.dropWhile isSpace :=
    List.dropWhile_append_of_pos gap.space
  rw [lexemesWithin_congr hdrop]
  exact h fuel (by omega)

private theorem isNumberChar_of_isSpace {c : Char} (h : isSpace c = true) :
    isNumberChar c = false := by
  simp only [isSpace, Bool.or_eq_true, beq_iff_eq] at h
  rcases h with ((rfl | rfl) | rfl) | rfl <;> decide

theorem StopsAt.gap (gap : Gap) (h : StopsAt isNumberChar rest) :
    StopsAt isNumberChar (gap.text ++ rest) := by
  cases hgap : gap.text with
  | nil => exact h
  | cons c cs =>
    have hspace : isSpace c = true := gap.space c (by simp [hgap])
    exact .cons (isNumberChar_of_isSpace hspace)

theorem Cuts.string (raw : Raw) (h : Cuts rest ls) :
    Cuts (raw.quoted ++ rest) (.string raw.text :: ls) := by
  have hfirst : Lexeme.first? ('"' :: (raw.text ++ '"' :: rest)) = some (.string raw.text, rest) := by
    simp only [Lexeme.first?, raw.stringBody?_append, Option.map_some]
  simpa [Raw.quoted] using h.cons (by decide) hfirst (by simp; omega)

private theorem head_of_number? {cs raw : List Char} (h : number? cs = some (raw, rest)) :
    ∃ c tail, raw = c :: tail ∧ isNumberChar c = true := by
  obtain ⟨hpart, hne⟩ := number?_part h
  obtain ⟨c, tail, rfl⟩ := List.exists_cons_of_ne_nil hne
  exact ⟨c, tail, rfl, hpart.2 c List.mem_cons_self⟩

private theorem first?_number {cs raw : List Char} (h : number? cs = some (raw, rest)) :
    Lexeme.first? cs = some (.number raw, rest) := by
  have hhead : ∀ c ∈ cs.head?, isNumberChar c = true := by
    obtain ⟨c, tail, rfl, hc⟩ := head_of_number? h
    simp [(number?_part h).1.1, hc]
  -- Every other lexeme starts with a character that no number starts with.
  unfold Lexeme.first?
  split
  all_goals first
    | exact absurd (hhead _ rfl) (by decide)
    | rw [h]
      rfl

theorem Cuts.number (n : Numeral) (hrest : StopsAt isNumberChar rest) (h : Cuts rest ls) :
    Cuts (n.text ++ rest) (.number n.text :: ls) := by
  have hread : number? (n.text ++ rest) = some (n.text, rest) := n.number?_append hrest
  have hfirst := first?_number hread
  obtain ⟨c, cs, hn, hc⟩ := head_of_number? hread
  have hspace : isSpace c = false := by
    by_contra hspace
    rw [isNumberChar_of_isSpace (by simpa using hspace)] at hc
    simp at hc
  rw [hn] at hfirst ⊢
  exact h.cons hspace hfirst (by simp)

theorem Cuts.scalar (value : Scalar) (hrest : StopsAt isNumberChar rest) (h : Cuts rest ls) :
    Cuts (value.text ++ rest) (value.lexeme :: ls) := by
  cases value with
  | null => exact h.cons (by decide) rfl (by simp; omega)
  | bool value =>
    cases value with
    | true => exact h.cons (by decide) rfl (by simp; omega)
    | false => exact h.cons (by decide) rfl (by simp; omega)
  | number numeral => exact h.number numeral hrest

private theorem stopsAt_comma : StopsAt isNumberChar (',' :: rest) := .cons (by decide)

private theorem Cuts.key (key : Key) (h : Cuts rest ls) :
    Cuts (key.text ++ rest) (.string key.raw.text :: .colon :: ls) := by
  have hcolon : Cuts (':' :: (key.after.text ++ rest)) (.colon :: ls) :=
    (h.gap key.after).cons (by decide) rfl le_rfl
  simpa [Key.text] using (hcolon.gap key.before).string key.raw

mutual

/-- The text of a value is cut into its lexemes, in front of everything that is no character of a
number. -/
theorem cuts_layout (v : Layout) {rest : List Char} {ls : List Lexeme}
    (hrest : StopsAt isNumberChar rest) (h : Cuts rest ls) :
    Cuts (v.text ++ rest) (v.lexemes ++ ls) := by
  cases v with
  | scalar value => exact h.scalar value hrest
  | string raw => exact h.string raw
  | emptyArray gap =>
    have hclose : Cuts (']' :: rest) (.closeBracket :: ls) := h.cons (by decide) rfl le_rfl
    have hopen : Cuts ('[' :: (gap.text ++ ']' :: rest)) (.openBracket :: .closeBracket :: ls) :=
      (hclose.gap gap).cons (by decide) rfl le_rfl
    simpa [Layout.text, Layout.lexemes] using hopen
  | array gap items =>
    have hclose : Cuts (']' :: rest) (.closeBracket :: ls) := h.cons (by decide) rfl le_rfl
    have hitems : Cuts (items.text ++ ']' :: rest) (items.lexemes ++ .closeBracket :: ls) :=
      cuts_items items (.cons (by decide)) hclose
    have hopen := (hitems.gap gap).cons (c := '[') (l := .openBracket) (by decide) rfl le_rfl
    simpa [Layout.text, Layout.lexemes] using hopen
  | emptyObject gap =>
    have hclose : Cuts ('}' :: rest) (.closeBrace :: ls) := h.cons (by decide) rfl le_rfl
    have hopen : Cuts ('{' :: (gap.text ++ '}' :: rest)) (.openBrace :: .closeBrace :: ls) :=
      (hclose.gap gap).cons (by decide) rfl le_rfl
    simpa [Layout.text, Layout.lexemes] using hopen
  | object gap members =>
    have hclose : Cuts ('}' :: rest) (.closeBrace :: ls) := h.cons (by decide) rfl le_rfl
    have hmembers : Cuts (members.text ++ '}' :: rest) (members.lexemes ++ .closeBrace :: ls) :=
      cuts_members members (.cons (by decide)) hclose
    have hopen := (hmembers.gap gap).cons (c := '{') (l := .openBrace) (by decide) rfl le_rfl
    simpa [Layout.text, Layout.lexemes] using hopen

theorem cuts_items (items : Items) {rest : List Char} {ls : List Lexeme}
    (hrest : StopsAt isNumberChar rest) (h : Cuts rest ls) :
    Cuts (items.text ++ rest) (items.lexemes ++ ls) := by
  cases items with
  | last item gap =>
    simpa [Items.text, Items.lexemes] using cuts_layout item (hrest.gap gap) (h.gap gap)
  | more item before after more =>
    have hmore := (cuts_items more hrest h).gap after
    have hcomma := hmore.cons (c := ',') (l := .comma) (by decide) rfl le_rfl
    simpa [Items.text, Items.lexemes] using
      cuts_layout item (stopsAt_comma.gap before) (hcomma.gap before)

theorem cuts_members (members : Members) {rest : List Char} {ls : List Lexeme}
    (hrest : StopsAt isNumberChar rest) (h : Cuts rest ls) :
    Cuts (members.text ++ rest) (members.lexemes ++ ls) := by
  cases members with
  | last key value gap =>
    simpa [Members.text, Members.lexemes] using
      (cuts_layout value (hrest.gap gap) (h.gap gap)).key key
  | more key value before after more =>
    have hmore := (cuts_members more hrest h).gap after
    have hcomma := hmore.cons (c := ',') (l := .comma) (by decide) rfl le_rfl
    simpa [Members.text, Members.lexemes] using
      (cuts_layout value (stopsAt_comma.gap before) (hcomma.gap before)).key key

end

theorem lexemes?_text (d : DocumentLayout) : lexemes? d.text = some d.value.lexemes := by
  have hnil : StopsAt isNumberChar [] := fun _ hc => by simp at hc
  have hback := cuts_layout d.value (hnil.gap d.back) (Cuts.nil.gap d.back)
  have htext : Cuts d.text d.value.lexemes := by
    simpa [DocumentLayout.text] using hback.gap d.front
  exact htext _ le_rfl

end Cutting

section Documents

private theorem exists_lexemes_cons (v : Layout) :
    ∃ l tail, v.lexemes = l :: tail ∧ l ≠ .closeBracket ∧ l ≠ .closeBrace := by
  cases v with
  | scalar value =>
    cases value <;> exact ⟨_, _, rfl, by simp [Scalar.lexeme], by simp [Scalar.lexeme]⟩
  | string _ => exact ⟨_, _, rfl, by simp, by simp⟩
  | emptyArray _ => exact ⟨_, _, rfl, by simp, by simp⟩
  | array _ _ => exact ⟨_, _, rfl, by simp, by simp⟩
  | emptyObject _ => exact ⟨_, _, rfl, by simp, by simp⟩
  | object _ _ => exact ⟨_, _, rfl, by simp, by simp⟩

private theorem items_head (items : Items) (tail : List Lexeme) (ls : List Lexeme) :
    items.lexemes ++ ls ≠ .closeBracket :: tail := by
  obtain ⟨item, more, hitems⟩ : ∃ item more, items.lexemes = Layout.lexemes item ++ more := by
    cases items with
    | last item gap => exact ⟨item, [], by simp [Items.lexemes]⟩
    | more item before after rest => exact ⟨item, .comma :: rest.lexemes, by simp [Items.lexemes]⟩
  obtain ⟨l, rest, hl, hne⟩ := exists_lexemes_cons item
  simp [hitems, hl, hne]

private theorem members_head (members : Members) (tail : List Lexeme) (ls : List Lexeme) :
    members.lexemes ++ ls ≠ .closeBrace :: tail := by
  cases members <;> simp [Members.lexemes]

mutual

/-- The lexemes of a value are read as its document, and what follows is left. -/
theorem read?_layout (v : Layout) {n : Nat} (hn : 2 * v.lexemes.length ≤ n)
    (ls : List Lexeme) : Document.read? n (v.lexemes ++ ls) = some (v.document, ls) := by
  obtain ⟨l, tail, hl, -⟩ := exists_lexemes_cons v
  have hpos : 0 < v.lexemes.length := by simp [hl]
  obtain ⟨n, rfl⟩ : ∃ k, n = k + 1 := Nat.exists_eq_succ_of_ne_zero (by omega)
  cases v with
  | scalar value => cases value <;> rfl
  | string raw => rfl
  | emptyArray gap => rfl
  | array gap items =>
    simp only [Layout.lexemes, List.length_cons, List.length_append, List.length_nil] at hn
    have hitems := readItems?_items items (n := n) (by omega) ls
    simp only [Layout.lexemes, List.cons_append, List.append_assoc, List.nil_append]
    rw [Document.read?, hitems]
    · rfl
    · exact fun tail => items_head items tail _
  | emptyObject gap => rfl
  | object gap members =>
    simp only [Layout.lexemes, List.length_cons, List.length_append, List.length_nil] at hn
    have hmembers := readMembers?_members members (n := n) (by omega) ls
    simp only [Layout.lexemes, List.cons_append, List.append_assoc, List.nil_append]
    rw [Document.read?, hmembers]
    · rfl
    · exact fun tail => members_head members tail _

theorem readItems?_items (items : Items) {n : Nat} (hn : 2 * items.lexemes.length + 1 ≤ n)
    (ls : List Lexeme) :
    Document.readItems? n (items.lexemes ++ .closeBracket :: ls) = some (items.documents, ls) := by
  obtain ⟨n, rfl⟩ : ∃ k, n = k + 1 := Nat.exists_eq_succ_of_ne_zero (by omega)
  cases items with
  | last item gap =>
    have hitem := read?_layout item (n := n) (Nat.le_of_succ_le_succ hn) (.closeBracket :: ls)
    simp only [Items.lexemes, Document.readItems?, hitem]
    rfl
  | more item before after more =>
    simp only [Items.lexemes, List.length_append, List.length_cons] at hn
    have hmore := readItems?_items more (n := n) (by omega) ls
    have hitem := read?_layout item (n := n) (by omega)
      (.comma :: (more.lexemes ++ .closeBracket :: ls))
    simp only [Items.lexemes, List.append_assoc, List.cons_append, Document.readItems?, hitem, hmore]
    rfl

theorem readMembers?_members (members : Members) {n : Nat}
    (hn : 2 * members.lexemes.length + 1 ≤ n) (ls : List Lexeme) :
    Document.readMembers? n (members.lexemes ++ .closeBrace :: ls) =
      some (members.documents, ls) := by
  obtain ⟨n, rfl⟩ : ∃ k, n = k + 1 := Nat.exists_eq_succ_of_ne_zero (by omega)
  cases members with
  | last key value gap =>
    simp only [Members.lexemes, List.length_cons] at hn
    have hvalue := read?_layout value (n := n) (by omega) (.closeBrace :: ls)
    simp only [Members.lexemes, List.cons_append, Document.readMembers?, hvalue]
    rfl
  | more key value before after more =>
    simp only [Members.lexemes, List.length_append, List.length_cons] at hn
    have hmore := readMembers?_members more (n := n) (by omega) ls
    have hvalue := read?_layout value (n := n) (by omega)
      (.comma :: (more.lexemes ++ .closeBrace :: ls))
    simp only [Members.lexemes, List.append_assoc, List.cons_append, Document.readMembers?, hvalue,
      hmore]
    rfl

end

theorem ofText?_text (d : DocumentLayout) : Document.ofText? d.text = some d.value.document := by
  have hread := read?_layout d.value (Nat.le_succ (2 * d.value.lexemes.length)) []
  rw [List.append_nil] at hread
  simp [Document.ofText?, lexemes?_text, hread]

/-- The texts of layouts are the valid JSON texts. -/
theorem isJson_iff_exists_layout {text : String} :
    isJson text = true ↔ ∃ d : DocumentLayout, d.text = text.toList := by
  constructor
  · exact exists_layout_of_isJson
  · rintro ⟨d, hd⟩
    simp [isJson, ← hd, ofText?_text]

end Documents

end PairGrep.Json
