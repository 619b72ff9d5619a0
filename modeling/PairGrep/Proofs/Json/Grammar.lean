import Mathlib
import PairGrep.Proofs.Json.Reading

/-!
# The grammar of documents

The texts of the JSON grammar: values of any depth, with whitespace around each value and each key.
Main statement: a text is valid exactly if the grammar gives it as one document.
-/

namespace PairGrep.Json

def IsGap (text : List Char) : Prop := ∀ c ∈ text, isSpace c = true

mutual

/-- The values of the grammar, without whitespace around them. -/
inductive IsValue : List Char → Prop where
  | null : IsValue ['n', 'u', 'l', 'l']
  | true : IsValue ['t', 'r', 'u', 'e']
  | false : IsValue ['f', 'a', 'l', 's', 'e']
  | number {raw : List Char} (h : IsNumeral raw) : IsValue raw
  | string {raw : List Char} (h : IsRaw raw) : IsValue ('"' :: (raw ++ ['"']))
  | emptyArray {gap : List Char} (hgap : IsGap gap) : IsValue ('[' :: (gap ++ [']']))
  | array {items : List Char} (h : IsElements items) : IsValue ('[' :: (items ++ [']']))
  | emptyObject {gap : List Char} (hgap : IsGap gap) : IsValue ('{' :: (gap ++ ['}']))
  | object {members : List Char} (h : IsMembers members) : IsValue ('{' :: (members ++ ['}']))

inductive IsElement : List Char → Prop where
  | mk {before value after : List Char} (hbefore : IsGap before) (h : IsValue value)
    (hafter : IsGap after) : IsElement (before ++ value ++ after)

inductive IsElements : List Char → Prop where
  | last {element : List Char} (h : IsElement element) : IsElements element
  | more {element rest : List Char} (h : IsElement element) (more : IsElements rest) :
    IsElements (element ++ ',' :: rest)

inductive IsMember : List Char → Prop where
  | mk {before key after element : List Char} (hbefore : IsGap before) (hkey : IsRaw key)
    (hafter : IsGap after) (h : IsElement element) :
    IsMember (before ++ '"' :: (key ++ '"' :: (after ++ ':' :: element)))

inductive IsMembers : List Char → Prop where
  | last {member : List Char} (h : IsMember member) : IsMembers member
  | more {member rest : List Char} (h : IsMember member) (more : IsMembers rest) :
    IsMembers (member ++ ',' :: rest)

end

section Layouts

theorem Scalar.isValue_text (s : Scalar) : IsValue s.text := by
  cases s with
  | null => exact .null
  | bool value =>
    cases value with
    | true => exact .true
    | false => exact .false
  | number numeral =>
    obtain ⟨rest, hread⟩ := numeral.read
    exact .number (isNumeral_of_number? hread)

theorem Raw.isRaw_text (raw : Raw) : IsRaw raw.text := by
  obtain ⟨rest, hread⟩ := raw.read
  exact isRaw_of_stringBody? hread

private theorem isElement_gaps (before after : Gap) {value : List Char} (h : IsValue value) :
    IsElement (before.text ++ (value ++ after.text)) := by
  rw [← List.append_assoc]
  exact .mk before.space h after.space

private theorem isMember_key (before : Gap) (key : Key) {value : List Char} (h : IsValue value)
    (after : Gap) : IsMember (before.text ++ (key.text ++ (value ++ after.text))) := by
  have helement := isElement_gaps key.after after h
  have hmember := IsMember.mk before.space key.raw.isRaw_text key.before.space helement
  simpa [Key.text, Raw.quoted] using hmember

mutual

theorem isValue_layout (v : Layout) : IsValue v.text := by
  cases v with
  | scalar value => exact value.isValue_text
  | string raw => exact .string raw.isRaw_text
  | emptyArray gap => exact .emptyArray gap.space
  | array gap items => exact .array (isElements_items gap items)
  | emptyObject gap => exact .emptyObject gap.space
  | object gap members => exact .object (isMembers_members gap members)

theorem isElements_items (gap : Gap) (items : Items) : IsElements (gap.text ++ items.text) := by
  cases items with
  | last item after => exact .last (isElement_gaps gap after (isValue_layout item))
  | more item before after rest =>
    have hitem := isElement_gaps gap before (isValue_layout item)
    simpa [Items.text] using IsElements.more hitem (isElements_items after rest)

theorem isMembers_members (gap : Gap) (members : Members) :
    IsMembers (gap.text ++ members.text) := by
  cases members with
  | last key value after =>
    have hmember := isMember_key gap key (isValue_layout value) after
    simpa [Members.text] using IsMembers.last hmember
  | more key value before after rest =>
    have hmember := isMember_key gap key (isValue_layout value) before
    simpa [Members.text] using IsMembers.more hmember (isMembers_members after rest)

end

end Layouts

section Derivations

-- The parts of a derivation derive shorter texts, or the same text by a rule further down.
mutual

/-- Every value of the grammar is the text of a layout. -/
theorem exists_layout_of_isValue {text : List Char} (h : IsValue text) :
    ∃ v : Layout, v.text = text := by
  cases h with
  | null => exact ⟨.scalar .null, rfl⟩
  | true => exact ⟨.scalar (.bool true), rfl⟩
  | false => exact ⟨.scalar (.bool false), rfl⟩
  | number h =>
    obtain ⟨numeral, hnumeral⟩ := h.exists_numeral
    exact ⟨.scalar (.number numeral), hnumeral⟩
  | string h =>
    obtain ⟨raw, rfl⟩ := h.exists_raw
    exact ⟨.string raw, rfl⟩
  | emptyArray hgap => exact ⟨.emptyArray ⟨_, hgap⟩, rfl⟩
  | array h =>
    obtain ⟨gap, items, rfl⟩ := exists_items_of_isElements h
    exact ⟨.array gap items, rfl⟩
  | emptyObject hgap => exact ⟨.emptyObject ⟨_, hgap⟩, rfl⟩
  | object h =>
    obtain ⟨gap, members, rfl⟩ := exists_members_of_isMembers h
    exact ⟨.object gap members, rfl⟩
termination_by 3 * text.length

theorem exists_layout_of_isElement {text : List Char} (h : IsElement text) :
    ∃ (before : Gap) (v : Layout) (after : Gap), before.text ++ v.text ++ after.text = text := by
  cases h with
  | mk hbefore h hafter =>
    obtain ⟨v, rfl⟩ := exists_layout_of_isValue h
    exact ⟨⟨_, hbefore⟩, v, ⟨_, hafter⟩, rfl⟩
termination_by 3 * text.length + 1

theorem exists_items_of_isElements {text : List Char} (h : IsElements text) :
    ∃ (gap : Gap) (items : Items), gap.text ++ items.text = text := by
  cases h with
  | last h =>
    obtain ⟨gap, v, after, rfl⟩ := exists_layout_of_isElement h
    exact ⟨gap, .last v after, by simp [Items.text]⟩
  | more h more =>
    obtain ⟨gap, v, before, rfl⟩ := exists_layout_of_isElement h
    obtain ⟨after, rest, rfl⟩ := exists_items_of_isElements more
    exact ⟨gap, .more v before after rest, by simp [Items.text]⟩
termination_by 3 * text.length + 2

theorem exists_member_of_isMember {text : List Char} (h : IsMember text) :
    ∃ (gap : Gap) (key : Key) (v : Layout) (after : Gap),
      gap.text ++ (key.text ++ v.text ++ after.text) = text := by
  cases h with
  | mk hbefore hkey hafter h =>
    obtain ⟨raw, rfl⟩ := hkey.exists_raw
    obtain ⟨gap, v, after, rfl⟩ := exists_layout_of_isElement h
    exact ⟨⟨_, hbefore⟩, ⟨raw, ⟨_, hafter⟩, gap⟩, v, after, by simp [Key.text, Raw.quoted]⟩
termination_by 3 * text.length + 1

theorem exists_members_of_isMembers {text : List Char} (h : IsMembers text) :
    ∃ (gap : Gap) (members : Members), gap.text ++ members.text = text := by
  cases h with
  | last h =>
    obtain ⟨gap, key, v, after, rfl⟩ := exists_member_of_isMember h
    exact ⟨gap, .last key v after, rfl⟩
  | more h more =>
    obtain ⟨gap, key, v, before, rfl⟩ := exists_member_of_isMember h
    obtain ⟨after, rest, rfl⟩ := exists_members_of_isMembers more
    exact ⟨gap, .more key v before after rest, by simp [Members.text]⟩
termination_by 3 * text.length + 2

end

end Derivations

/-- A text is valid exactly if it is one document of the grammar: a value, nested to any depth, with
whitespace around it and nothing else. -/
theorem isJson_iff_isElement {text : String} : isJson text = true ↔ IsElement text.toList := by
  rw [isJson_iff_exists_layout]
  constructor
  · intro h
    obtain ⟨d, hd⟩ := h
    rw [← hd, DocumentLayout.text]
    exact .mk d.front.space (isValue_layout d.value) d.back.space
  · intro h
    obtain ⟨front, v, back, htext⟩ := exists_layout_of_isElement h
    exact ⟨⟨front, v, back⟩, htext⟩

end PairGrep.Json
