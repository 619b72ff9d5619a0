import Mathlib
import PairGrep.Json.Encoding
import PairGrep.Proofs.Json.Reading
import PairGrep.Proofs.Number.Text

/-!
# Texts of values and of data

The compact text of a value is a layout without a gap, and so is that of all data that can be encoded.
Main statement: both are valid JSON, at any depth of nesting and with any strings and numbers.
-/

namespace PairGrep.Json

section Strings

private theorem isHex_hexDigit {n : Nat} (h : n < 16) : isHex (hexDigit n) = true := by
  have hall : ∀ n < 16, isHex (hexDigit n) = true := by decide
  exact hall n h

/-- A character of a string stands for itself, or behind a backslash as a sign or as its code. -/
theorem escapeChar_cases (c : Char) :
    (∃ sign, isSimpleEscape sign = true ∧ Value.simpleEscape sign = c ∧
      escapeChar c = ['\\', sign]) ∨
    (c.toNat < 32 ∧ escapeChar c =
      ['\\', 'u', '0', '0', hexDigit (c.toNat / 16), hexDigit (c.toNat % 16)]) ∨
    (c ≠ '"' ∧ c ≠ '\\' ∧ ¬ c < ' ' ∧ escapeChar c = [c]) := by
  unfold escapeChar
  split
  case h_8 =>
    rename_i hquote hbackslash _ _ _ _ _
    split
    · rename_i hcontrol
      exact .inr (.inl ⟨hcontrol, rfl⟩)
    · rename_i hcontrol
      exact .inr (.inr ⟨hquote, hbackslash, hcontrol, rfl⟩)
  all_goals exact .inl ⟨_, by decide, by decide, rfl⟩

private theorem isRaw_escapeChar {c : Char} {raw : List Char} (h : IsRaw raw) :
    IsRaw (escapeChar c ++ raw) := by
  rcases escapeChar_cases c with ⟨sign, hsign, -, heq⟩ | ⟨hcode, heq⟩ | ⟨hquote, hback, hcontrol, heq⟩
  · rw [heq]
    exact .escape hsign h
  · rw [heq]
    refine .unicode ?_ h
    simp only [List.all_cons, List.all_nil, Bool.and_true]
    rw [isHex_hexDigit (by omega), isHex_hexDigit (by omega)]
    decide
  · rw [heq]
    exact .plain hquote hback hcontrol h

theorem isRaw_escape (text : List Char) : IsRaw (text.flatMap escapeChar) := by
  induction text with
  | nil => exact .nil
  | cons c text ih => exact isRaw_escapeChar ih

theorem escapeChar_eq_self {c : Char} (hquote : c ≠ '"') (hbackslash : c ≠ '\\')
    (hcontrol : ¬ c < ' ') : escapeChar c = [c] := by
  unfold escapeChar
  split
  case h_8 => rw [if_neg hcontrol]
  all_goals contradiction

theorem flatMap_escapeChar {text : List Char} (h : ∀ c ∈ text, escapeChar c = [c]) :
    text.flatMap escapeChar = text := by
  induction text with
  | nil => rfl
  | cons c text ih =>
    obtain ⟨hc, htext⟩ := List.forall_mem_cons.mp h
    rw [List.flatMap_cons, hc, ih htext, List.singleton_append]

def Raw.escaped (text : List Char) : Raw :=
  ⟨text.flatMap escapeChar, [], Json.stringBody?_append (isRaw_escape text) []⟩

theorem Raw.quoted_escaped (text : List Char) : (Raw.escaped text).quoted = quote text := rfl

theorem Raw.text_escaped {text : List Char} (h : ∀ c ∈ text, escapeChar c = [c]) :
    (Raw.escaped text).text = text :=
  flatMap_escapeChar h

end Strings

section Values

def IsText (text : List Char) : Prop := ∃ v : Layout, v.text = text

def IsItemsText (text : List Char) : Prop := ∃ items : Items, items.text = text

def IsMembersText (text : List Char) : Prop := ∃ members : Members, members.text = text

theorem IsNumeral.isText {raw : List Char} (h : IsNumeral raw) : IsText raw := by
  obtain ⟨n, hn⟩ := h.exists_numeral
  exact ⟨.scalar (.number n), hn⟩

theorem isText_quote (text : List Char) : IsText (quote text) := ⟨.string (.escaped text), rfl⟩

theorem isText_emptyArray : IsText ['[', ']'] := ⟨.emptyArray .empty, rfl⟩

theorem isText_emptyObject : IsText ['{', '}'] := ⟨.emptyObject .empty, rfl⟩

variable {text more : List Char}

theorem IsItemsText.array (h : IsItemsText text) : IsText ('[' :: (text ++ [']'])) := by
  obtain ⟨items, rfl⟩ := h
  exact ⟨.array .empty items, rfl⟩

theorem IsMembersText.object (h : IsMembersText text) : IsText ('{' :: (text ++ ['}'])) := by
  obtain ⟨members, rfl⟩ := h
  exact ⟨.object .empty members, rfl⟩

theorem IsText.lastItem (h : IsText text) : IsItemsText text := by
  obtain ⟨v, rfl⟩ := h
  exact ⟨.last v .empty, by simp [Items.text, Gap.empty]⟩

theorem IsText.moreItems (h : IsText text) (hmore : IsItemsText more) :
    IsItemsText (text ++ ',' :: more) := by
  obtain ⟨v, rfl⟩ := h
  obtain ⟨items, rfl⟩ := hmore
  exact ⟨.more v .empty .empty items, by simp [Items.text, Gap.empty]⟩

theorem IsText.lastMember (h : IsText text) (key : List Char) :
    IsMembersText (quote key ++ ':' :: text) := by
  obtain ⟨v, rfl⟩ := h
  exact ⟨.last ⟨.escaped key, .empty, .empty⟩ v .empty,
    by simp [Members.text, Key.text, Gap.empty, Raw.quoted_escaped]⟩

theorem IsText.moreMembers (h : IsText text) (key : List Char) (hmore : IsMembersText more) :
    IsMembersText (quote key ++ ':' :: text ++ ',' :: more) := by
  obtain ⟨v, rfl⟩ := h
  obtain ⟨members, rfl⟩ := hmore
  exact ⟨.more ⟨.escaped key, .empty, .empty⟩ v .empty .empty members,
    by simp [Members.text, Key.text, Gap.empty, Raw.quoted_escaped]⟩

theorem IsText.isJson (h : IsText text) : isJson (String.ofList text) = true := by
  obtain ⟨v, rfl⟩ := h
  rw [isJson_iff_exists_layout]
  exact ⟨⟨.empty, v, .empty⟩, by simp [DocumentLayout.text, Gap.empty]⟩

namespace Value

mutual

theorem isText (v : Value) : IsText v.text := by
  cases v with
  | null => exact ⟨.scalar .null, rfl⟩
  | bool value =>
    cases value with
    | true => exact ⟨.scalar (.bool true), rfl⟩
    | false => exact ⟨.scalar (.bool false), rfl⟩
  | number n => exact n.isNumeral_text.isText
  | string s => exact isText_quote s.toList
  | array items =>
    by_cases hnil : items = []
    · subst hnil
      exact isText_emptyArray
    · exact (isItemsText items hnil).array
  | object members =>
    by_cases hnil : members = []
    · subst hnil
      exact isText_emptyObject
    · exact (isMembersText members hnil).object

theorem isItemsText (items : List Value) (hne : items ≠ []) : IsItemsText (itemsText items) := by
  cases items with
  | nil => exact absurd rfl hne
  | cons v rest =>
    cases rest with
    | nil => exact (isText v).lastItem
    | cons w rest => exact (isText v).moreItems (isItemsText (w :: rest) (List.cons_ne_nil _ _))

theorem isMembersText (members : List (String × Value)) (hne : members ≠ []) :
    IsMembersText (membersText members) := by
  cases members with
  | nil => exact absurd rfl hne
  | cons m rest =>
    obtain ⟨k, v⟩ := m
    cases rest with
    | nil => exact (isText v).lastMember k.toList
    | cons w rest =>
      exact (isText v).moreMembers k.toList (isMembersText (w :: rest) (List.cons_ne_nil _ _))

end

/-- The compact text of a value is valid JSON. -/
theorem isJson_render (v : Value) : isJson v.render = true := v.isText.isJson

end Value

namespace Data

private theorem exists_of_bind {α β : Type} {x : Except String α} {f : α → Except String β} {b : β}
    (h : x >>= f = .ok b) : ∃ a, x = .ok a ∧ f a = .ok b := by
  cases x with
  | ok a => exact ⟨a, rfl, h⟩
  | error e => cases h

mutual

theorem isText_of_text? (d : Data) {t : List Char} (h : d.text? = .ok t) : IsText t := by
  cases d with
  | value v =>
    cases h
    exact v.isText
  | int n =>
    cases h
    exact (isNumeral_intText n).isText
  | double x =>
    cases x with
    | none =>
      cases h
      exact ⟨.scalar .null, rfl⟩
    | some x =>
      cases h
      exact x.isNumeral_text.isText
  | single raw hraw =>
    cases h
    exact (isNumeral_of_number? hraw).isText
  | sequence items =>
    obtain ⟨text, htext, h⟩ := exists_of_bind h
    obtain rfl := Except.ok.inj h
    by_cases hnil : items = []
    · subst hnil
      cases htext
      exact isText_emptyArray
    · exact (isItemsText_of_text? items hnil htext).array
  | map entries =>
    obtain ⟨text, htext, h⟩ := exists_of_bind h
    obtain rfl := Except.ok.inj h
    by_cases hnil : entries = []
    · subst hnil
      cases htext
      exact isText_emptyObject
    · exact (isMembersText_of_text? entries hnil htext).object
  | failing message => cases h

theorem isItemsText_of_text? (items : List Data) (hne : items ≠ []) {t : List Char}
    (h : itemsText? items = .ok t) : IsItemsText t := by
  cases items with
  | nil => exact absurd rfl hne
  | cons d rest =>
    cases rest with
    | nil => exact (isText_of_text? d h).lastItem
    | cons e rest =>
      obtain ⟨text, htext, h⟩ := exists_of_bind h
      obtain ⟨more, hmore, h⟩ := exists_of_bind h
      obtain rfl := Except.ok.inj h
      have hitems := isItemsText_of_text? (e :: rest) (List.cons_ne_nil _ _) hmore
      exact (isText_of_text? d htext).moreItems hitems

theorem isMembersText_of_text? (entries : List (DataKey × Data)) (hne : entries ≠ [])
    {t : List Char} (h : entriesText? entries = .ok t) : IsMembersText t := by
  cases entries with
  | nil => exact absurd rfl hne
  | cons entry rest =>
    obtain ⟨k, d⟩ := entry
    cases rest with
    | nil =>
      obtain ⟨key, -, h⟩ := exists_of_bind h
      obtain ⟨text, htext, h⟩ := exists_of_bind h
      obtain rfl := Except.ok.inj h
      exact (isText_of_text? d htext).lastMember key
    | cons e rest =>
      obtain ⟨key, -, h⟩ := exists_of_bind h
      obtain ⟨text, htext, h⟩ := exists_of_bind h
      obtain ⟨more, hmore, h⟩ := exists_of_bind h
      obtain rfl := Except.ok.inj h
      have hmembers := isMembersText_of_text? (e :: rest) (List.cons_ne_nil _ _) hmore
      exact (isText_of_text? d htext).moreMembers key hmembers

end

/-- Whatever data can be encoded, its compact text is valid JSON. -/
theorem isJson_of_encode {d : Data} {text : String} (h : d.encode = .ok text) :
    isJson text = true := by
  unfold encode at h
  cases ht : d.text? with
  | error e =>
    rw [ht] at h
    cases h
  | ok t =>
    rw [ht] at h
    obtain rfl := Except.ok.inj h
    exact (isText_of_text? d ht).isJson

end Data

end Values

end PairGrep.Json
