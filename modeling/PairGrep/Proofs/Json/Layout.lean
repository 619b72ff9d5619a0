import Mathlib
import PairGrep.Json.Document

/-!
# Layouts of JSON documents

A layout is a document with the spaces between its lexemes. Every text that is one JSON document is
the text of a layout, whose members are the members of the document in their order.
-/

namespace PairGrep.Json

structure Gap where
  text : List Char
  space : ∀ c ∈ text, isSpace c = true

def Gap.empty : Gap := ⟨[], by simp⟩

/-- The raw characters of a string, as they are read between its quotes. -/
structure Raw where
  text : List Char
  read : ∃ rest, stringBody? (text ++ '"' :: rest) = some (text, rest)

structure Numeral where
  text : List Char
  read : ∃ rest, number? (text ++ rest) = some (text, rest)

inductive Scalar where
  | null
  | bool (value : Bool)
  | number (numeral : Numeral)

structure Key where
  raw : Raw
  before : Gap
  after : Gap

mutual

/-- A value with the gaps between its lexemes. -/
inductive Layout where
  | scalar (value : Scalar)
  | string (raw : Raw)
  | emptyArray (gap : Gap)
  | array (gap : Gap) (items : Items)
  | emptyObject (gap : Gap)
  | object (gap : Gap) (members : Members)

/-- The items of an array, each with the gap after it, and after its comma. -/
inductive Items where
  | last (item : Layout) (gap : Gap)
  | more (item : Layout) (before after : Gap) (rest : Items)

inductive Members where
  | last (key : Key) (value : Layout) (gap : Gap)
  | more (key : Key) (value : Layout) (before after : Gap) (rest : Members)

end

def Raw.quoted (raw : Raw) : List Char := '"' :: (raw.text ++ ['"'])

def Scalar.text : Scalar → List Char
  | null => ['n', 'u', 'l', 'l']
  | bool true => ['t', 'r', 'u', 'e']
  | bool false => ['f', 'a', 'l', 's', 'e']
  | number numeral => numeral.text

def Key.text (key : Key) : List Char :=
  key.raw.quoted ++ key.before.text ++ ':' :: key.after.text

mutual

def Layout.text : Layout → List Char
  | .scalar value => value.text
  | .string raw => raw.quoted
  | .emptyArray gap => '[' :: (gap.text ++ [']'])
  | .array gap items => '[' :: (gap.text ++ items.text ++ [']'])
  | .emptyObject gap => '{' :: (gap.text ++ ['}'])
  | .object gap members => '{' :: (gap.text ++ members.text ++ ['}'])

def Items.text : Items → List Char
  | .last item gap => item.text ++ gap.text
  | .more item before after rest => item.text ++ before.text ++ ',' :: (after.text ++ rest.text)

def Members.text : Members → List Char
  | .last key value gap => key.text ++ value.text ++ gap.text
  | .more key value before after rest =>
    key.text ++ value.text ++ before.text ++ ',' :: (after.text ++ rest.text)

end

mutual

/-- The members of all objects in a value, in the order in which their keys stand in its text. -/
def Layout.pairs : Layout → List (Key × Layout)
  | .scalar _ | .string _ | .emptyArray _ | .emptyObject _ => []
  | .array _ items => items.pairs
  | .object _ members => members.pairs

def Items.pairs : Items → List (Key × Layout)
  | .last item _ => item.pairs
  | .more item _ _ rest => item.pairs ++ rest.pairs

def Members.pairs : Members → List (Key × Layout)
  | .last key value _ => (key, value) :: value.pairs
  | .more key value _ _ rest => (key, value) :: (value.pairs ++ rest.pairs)

end

mutual

/-- The strings in a value, keys apart. -/
def Layout.strings : Layout → List Raw
  | .scalar _ | .emptyArray _ | .emptyObject _ => []
  | .string raw => [raw]
  | .array _ items => items.strings
  | .object _ members => members.strings

def Items.strings : Items → List Raw
  | .last item _ => item.strings
  | .more item _ _ rest => item.strings ++ rest.strings

def Members.strings : Members → List Raw
  | .last _ value _ => value.strings
  | .more _ value _ _ rest => value.strings ++ rest.strings

end

mutual

def Layout.document : Layout → Document
  | .scalar .null => .null
  | .scalar (.bool value) => .bool value
  | .scalar (.number numeral) => .number numeral.text
  | .string raw => .string raw.text
  | .emptyArray _ => .array []
  | .array _ items => .array items.documents
  | .emptyObject _ => .object []
  | .object _ members => .object members.documents

def Items.documents : Items → List Document
  | .last item _ => [item.document]
  | .more item _ _ rest => item.document :: rest.documents

def Members.documents : Members → List (List Char × Document)
  | .last key value _ => [(key.raw.text, value.document)]
  | .more key value _ _ rest => (key.raw.text, value.document) :: rest.documents

end

/-- A document with the gaps around it. -/
structure DocumentLayout where
  front : Gap
  value : Layout
  back : Gap

def DocumentLayout.text (d : DocumentLayout) : List Char :=
  d.front.text ++ d.value.text ++ d.back.text

section Lexemes

theorem exists_of_consRaw {front raw rest : List Char} {read : Option (List Char × List Char)}
    (h : read.map (consRaw front) = some (raw, rest)) :
    ∃ back, read = some (back, rest) ∧ raw = front ++ back := by
  obtain ⟨⟨back, rest'⟩, hread, hcons⟩ := Option.map_eq_some_iff.mp h
  obtain ⟨rfl, rfl⟩ := Prod.mk.inj hcons
  exact ⟨back, hread, rfl⟩

theorem stringBody?_split {cs raw rest : List Char} (h : stringBody? cs = some (raw, rest)) :
    cs = raw ++ '"' :: rest := by
  fun_induction stringBody? cs generalizing raw rest with
  | case1 => simp at h
  | case2 cs =>
    obtain ⟨rfl, rfl⟩ := Prod.mk.inj (Option.some.inj h)
    rfl
  | case3 a b c d cs _ ih =>
    obtain ⟨back, hback, rfl⟩ := exists_of_consRaw h
    rw [ih hback]
    rfl
  | case4 => simp at h
  | case5 c cs _ _ ih =>
    obtain ⟨back, hback, rfl⟩ := exists_of_consRaw h
    rw [ih hback]
    rfl
  | case6 => simp at h
  | case7 => simp at h
  | case8 c cs _ _ _ _ ih =>
    obtain ⟨back, hback, rfl⟩ := exists_of_consRaw h
    rw [ih hback]
    rfl

def isNumberChar (c : Char) : Bool :=
  isDigit c || c == '-' || c == '+' || c == '.' || c == 'e' || c == 'E'

/-- A part of a number is read from the front of a text. -/
def NumberPart (cs part rest : List Char) : Prop :=
  cs = part ++ rest ∧ ∀ c ∈ part, isNumberChar c = true

theorem NumberPart.append {cs mid rest v w : List Char} (hv : NumberPart cs v mid)
    (hw : NumberPart mid w rest) : NumberPart cs (v ++ w) rest := by
  obtain ⟨rfl, hv⟩ := hv
  obtain ⟨rfl, hw⟩ := hw
  exact ⟨(List.append_assoc ..).symm, List.forall_mem_append.mpr ⟨hv, hw⟩⟩

theorem NumberPart.cons {c : Char} {cs w rest : List Char} (hc : isNumberChar c = true)
    (h : NumberPart cs w rest) : NumberPart (c :: cs) (c :: w) rest :=
  ⟨congrArg (c :: ·) h.1, List.forall_mem_cons.mpr ⟨hc, h.2⟩⟩

theorem NumberPart.nil (cs : List Char) : NumberPart cs [] cs := ⟨rfl, by simp⟩

private theorem numberPart_digits (cs : List Char) :
    NumberPart cs (cs.takeWhile isDigit) (cs.dropWhile isDigit) := by
  refine ⟨List.takeWhile_append_dropWhile.symm, fun c hc => ?_⟩
  simp [isNumberChar, List.mem_takeWhile_imp hc]

theorem digits?_part {cs ds rest : List Char} (h : digits? cs = some (ds, rest)) :
    NumberPart cs ds rest := by
  unfold digits? at h
  split at h
  · simp at h
  · obtain ⟨rfl, rfl⟩ := Prod.mk.inj (Option.some.inj h)
    exact numberPart_digits cs

theorem wholePart?_part {cs whole rest : List Char} (h : wholePart? cs = some (whole, rest)) :
    NumberPart cs whole rest ∧ whole ≠ [] := by
  unfold wholePart? at h
  split at h
  · obtain ⟨rfl, rfl⟩ := Prod.mk.inj (Option.some.inj h)
    exact ⟨(NumberPart.nil _).cons (by decide), by simp⟩
  · rename_i c cs _
    split at h
    · rename_i hc
      obtain ⟨rfl, rfl⟩ := Prod.mk.inj (Option.some.inj h)
      exact ⟨(numberPart_digits cs).cons (by simp [isNumberChar, hc]), by simp⟩
    · simp at h
  · simp at h

theorem fractionPart?_part {cs fraction rest : List Char}
    (h : fractionPart? cs = some (fraction, rest)) : NumberPart cs fraction rest := by
  unfold fractionPart? at h
  split at h
  · obtain ⟨back, hback, rfl⟩ := exists_of_consRaw h
    exact (digits?_part hback).cons (by decide)
  · obtain ⟨rfl, rfl⟩ := Prod.mk.inj (Option.some.inj h)
    exact .nil _

theorem exponentPart?_part {cs exponent rest : List Char}
    (h : exponentPart? cs = some (exponent, rest)) : NumberPart cs exponent rest := by
  unfold exponentPart? at h
  split at h
  · obtain ⟨rfl, rfl⟩ := Prod.mk.inj (Option.some.inj h)
    exact .nil _
  · split at h
    · rename_i c cs hc
      have hmark : isNumberChar c = true := by
        rcases hc with rfl | rfl <;> decide
      split at h <;> obtain ⟨back, hback, rfl⟩ := exists_of_consRaw h
      · exact ((digits?_part hback).cons (by decide)).cons hmark
      · exact ((digits?_part hback).cons (by decide)).cons hmark
      · exact (digits?_part hback).cons hmark
    · obtain ⟨rfl, rfl⟩ := Prod.mk.inj (Option.some.inj h)
      exact .nil _

theorem unsigned?_part {cs raw rest : List Char} (h : unsigned? cs = some (raw, rest)) :
    NumberPart cs raw rest ∧ raw ≠ [] := by
  simp only [unsigned?, bind, Option.bind_eq_some_iff, pure, Option.some.injEq, Prod.mk.injEq] at h
  obtain ⟨⟨whole, cs₁⟩, hwhole, ⟨fraction, cs₂⟩, hfraction, ⟨exponent, cs₃⟩, hexponent, rfl, rfl⟩ := h
  obtain ⟨hpart, hne⟩ := wholePart?_part hwhole
  exact ⟨(hpart.append (fractionPart?_part hfraction)).append (exponentPart?_part hexponent),
    by simp [hne]⟩

theorem number?_part {cs raw rest : List Char} (h : number? cs = some (raw, rest)) :
    NumberPart cs raw rest ∧ raw ≠ [] := by
  unfold number? at h
  split at h
  · obtain ⟨back, hback, rfl⟩ := exists_of_consRaw h
    exact ⟨(unsigned?_part hback).1.cons (by decide), by simp⟩
  · exact unsigned?_part h

def Lexeme.Spells (l : Lexeme) (w : List Char) : Prop :=
  match l with
  | .openBrace => w = ['{']
  | .closeBrace => w = ['}']
  | .openBracket => w = ['[']
  | .closeBracket => w = [']']
  | .comma => w = [',']
  | .colon => w = [':']
  | .null => w = Scalar.null.text
  | .bool value => w = (Scalar.bool value).text
  | .number raw => ∃ numeral : Numeral, raw = numeral.text ∧ w = numeral.text
  | .string raw => ∃ r : Raw, raw = r.text ∧ w = r.quoted

theorem Lexeme.first?_spells {cs rest : List Char} {l : Lexeme} (h : first? cs = some (l, rest)) :
    ∃ w, cs = w ++ rest ∧ l.Spells w := by
  unfold first? at h
  split at h
  all_goals try
    obtain ⟨rfl, rfl⟩ := Prod.mk.inj (Option.some.inj h)
    exact ⟨_, rfl, rfl⟩
  · obtain ⟨⟨raw, rest'⟩, hbody, hlexeme⟩ := Option.map_eq_some_iff.mp h
    obtain ⟨rfl, rfl⟩ := Prod.mk.inj hlexeme
    have hsplit := stringBody?_split hbody
    refine ⟨'"' :: (raw ++ ['"']), by simp [hsplit], ⟨raw, rest', ?_⟩, rfl, rfl⟩
    rw [← hsplit]
    exact hbody
  · obtain ⟨⟨raw, rest'⟩, hnumber, hlexeme⟩ := Option.map_eq_some_iff.mp h
    obtain ⟨rfl, rfl⟩ := Prod.mk.inj hlexeme
    have hsplit := (number?_part hnumber).1.1
    refine ⟨raw, hsplit, ⟨raw, rest', ?_⟩, rfl, rfl⟩
    rw [← hsplit]
    exact hnumber

/-- The lexemes are spelled by the text, with gaps before each of them and at the end. -/
def Spelled : List Lexeme → List Char → Prop
  | [], text => ∃ gap : Gap, text = gap.text
  | l :: ls, text => ∃ (gap : Gap) (w rest : List Char),
    text = gap.text ++ (w ++ rest) ∧ l.Spells w ∧ Spelled ls rest

theorem spelled_of_lexemesWithin {fuel : Nat} {cs : List Char} {ls : List Lexeme}
    (h : lexemesWithin fuel cs = some ls) : Spelled ls cs := by
  have hend : cs.dropWhile isSpace = [] → Spelled [] cs :=
    fun hdrop => ⟨⟨cs, List.dropWhile_eq_nil_iff.mp hdrop⟩, rfl⟩
  induction fuel generalizing cs ls with
  | zero =>
    cases hdrop : cs.dropWhile isSpace with
    | nil =>
      unfold lexemesWithin at h
      rw [hdrop] at h
      exact Option.some.inj h ▸ hend hdrop
    | cons c rest =>
      unfold lexemesWithin at h
      rw [hdrop] at h
      simp at h
  | succ fuel ih =>
    cases hdrop : cs.dropWhile isSpace with
    | nil =>
      unfold lexemesWithin at h
      rw [hdrop] at h
      exact Option.some.inj h ▸ hend hdrop
    | cons c rest =>
      unfold lexemesWithin at h
      rw [hdrop] at h
      simp only [bind, Option.bind_eq_some_iff, pure, Option.some.injEq] at h
      obtain ⟨⟨l, tail⟩, hfirst, more, hmore, rfl⟩ := h
      obtain ⟨w, hw, hspells⟩ := Lexeme.first?_spells hfirst
      have hgap : ∀ c ∈ cs.takeWhile isSpace, isSpace c = true :=
        fun c hc => List.mem_takeWhile_imp hc
      refine ⟨⟨_, hgap⟩, w, tail, ?_, hspells, ih hmore fun hnil => ?_⟩
      · rw [← hw, ← hdrop, List.takeWhile_append_dropWhile]
      · exact ⟨⟨tail, List.dropWhile_eq_nil_iff.mp hnil⟩, rfl⟩

end Lexemes

section Reading

/-- What the reader of values finds: a layout of the document, in front of what spells the lexemes
that are left. -/
private def ReadsLayout (fuel : Nat) : Prop :=
  ∀ {lexemes rest : List Lexeme} {document : Document} {text : List Char},
    Document.read? fuel lexemes = some (document, rest) → Spelled lexemes text →
      ∃ (gap : Gap) (v : Layout) (more : List Char),
        text = gap.text ++ (v.text ++ more) ∧ v.document = document ∧ Spelled rest more

private def ReadsItems (fuel : Nat) : Prop :=
  ∀ {lexemes rest : List Lexeme} {documents : List Document} {text : List Char},
    Document.readItems? fuel lexemes = some (documents, rest) → Spelled lexemes text →
      ∃ (gap : Gap) (items : Items) (more : List Char),
        text = gap.text ++ (items.text ++ ']' :: more) ∧ items.documents = documents ∧
          Spelled rest more

private def ReadsMembers (fuel : Nat) : Prop :=
  ∀ {lexemes rest : List Lexeme} {members : List (List Char × Document)} {text : List Char},
    Document.readMembers? fuel lexemes = some (members, rest) → Spelled lexemes text →
      ∃ (gap : Gap) (ms : Members) (more : List Char),
        text = gap.text ++ (ms.text ++ '}' :: more) ∧ ms.documents = members ∧ Spelled rest more

private theorem readsLayout_succ {fuel : Nat} (hitems : ReadsItems fuel)
    (hmembers : ReadsMembers fuel) : ReadsLayout (fuel + 1) := by
  intro lexemes rest document text h hspelled
  unfold Document.read? at h
  split at h
  · obtain ⟨rfl, rfl⟩ := Prod.mk.inj (Option.some.inj h)
    obtain ⟨gap, w, more, rfl, rfl, hmore⟩ := hspelled
    exact ⟨gap, .scalar .null, more, rfl, rfl, hmore⟩
  · rename_i value tail
    obtain ⟨rfl, rfl⟩ := Prod.mk.inj (Option.some.inj h)
    obtain ⟨gap, w, more, rfl, rfl, hmore⟩ := hspelled
    exact ⟨gap, .scalar (.bool value), more, rfl, rfl, hmore⟩
  · obtain ⟨rfl, rfl⟩ := Prod.mk.inj (Option.some.inj h)
    obtain ⟨gap, w, more, rfl, ⟨numeral, rfl, rfl⟩, hmore⟩ := hspelled
    exact ⟨gap, .scalar (.number numeral), more, rfl, rfl, hmore⟩
  · obtain ⟨rfl, rfl⟩ := Prod.mk.inj (Option.some.inj h)
    obtain ⟨gap, w, more, rfl, ⟨raw, rfl, rfl⟩, hmore⟩ := hspelled
    exact ⟨gap, .string raw, more, rfl, rfl, hmore⟩
  · obtain ⟨rfl, rfl⟩ := Prod.mk.inj (Option.some.inj h)
    obtain ⟨gap, w, more, rfl, rfl, inner, w', more', rfl, rfl, hmore⟩ := hspelled
    exact ⟨gap, .emptyArray inner, more', by simp [Layout.text], rfl, hmore⟩
  · obtain ⟨⟨documents, tail⟩, hread, hdocument⟩ := Option.map_eq_some_iff.mp h
    obtain ⟨rfl, rfl⟩ := Prod.mk.inj hdocument
    obtain ⟨gap, w, more, rfl, rfl, hmore⟩ := hspelled
    obtain ⟨inner, items, more', rfl, rfl, hrest⟩ := hitems hread hmore
    exact ⟨gap, .array inner items, more', by simp [Layout.text], rfl, hrest⟩
  · obtain ⟨rfl, rfl⟩ := Prod.mk.inj (Option.some.inj h)
    obtain ⟨gap, w, more, rfl, rfl, inner, w', more', rfl, rfl, hmore⟩ := hspelled
    exact ⟨gap, .emptyObject inner, more', by simp [Layout.text], rfl, hmore⟩
  · obtain ⟨⟨members, tail⟩, hread, hdocument⟩ := Option.map_eq_some_iff.mp h
    obtain ⟨rfl, rfl⟩ := Prod.mk.inj hdocument
    obtain ⟨gap, w, more, rfl, rfl, hmore⟩ := hspelled
    obtain ⟨inner, ms, more', rfl, rfl, hrest⟩ := hmembers hread hmore
    exact ⟨gap, .object inner ms, more', by simp [Layout.text], rfl, hrest⟩
  · simp at h

private theorem readsItems_succ {fuel : Nat} (hvalue : ReadsLayout fuel) (hitems : ReadsItems fuel) :
    ReadsItems (fuel + 1) := by
  intro lexemes rest documents text h hspelled
  unfold Document.readItems? at h
  split at h
  · rename_i item tail hread
    obtain ⟨⟨documents, tail'⟩, hmore, hcons⟩ := Option.map_eq_some_iff.mp h
    obtain ⟨rfl, rfl⟩ := Prod.mk.inj hcons
    obtain ⟨gap, v, more, rfl, rfl, before, w, more', rfl, rfl, hcomma⟩ := hvalue hread hspelled
    obtain ⟨after, items, last, rfl, rfl, hrest⟩ := hitems hmore hcomma
    exact ⟨gap, .more v before after items, last, by simp [Items.text], rfl, hrest⟩
  · obtain ⟨rfl, rfl⟩ := Prod.mk.inj (Option.some.inj h)
    rename_i item hread
    obtain ⟨gap, v, more, rfl, rfl, before, w, last, rfl, rfl, hrest⟩ := hvalue hread hspelled
    exact ⟨gap, .last v before, last, by simp [Items.text], rfl, hrest⟩
  · simp at h

private theorem readsMembers_succ {fuel : Nat} (hvalue : ReadsLayout fuel)
    (hmembers : ReadsMembers fuel) : ReadsMembers (fuel + 1) := by
  intro lexemes rest members text h hspelled
  unfold Document.readMembers? at h
  split at h
  · obtain ⟨gap, w, more, rfl, ⟨raw, rfl, rfl⟩, before, w', more', rfl, rfl, hcolon⟩ := hspelled
    split at h
    · rename_i value tail hread
      obtain ⟨⟨members, tail'⟩, hmore, hcons⟩ := Option.map_eq_some_iff.mp h
      obtain ⟨rfl, rfl⟩ := Prod.mk.inj hcons
      obtain ⟨after, v, more, rfl, rfl, back, w, more', rfl, rfl, hcomma⟩ := hvalue hread hcolon
      obtain ⟨next, ms, last, rfl, rfl, hrest⟩ := hmembers hmore hcomma
      exact ⟨gap, .more ⟨raw, before, after⟩ v back next ms, last,
        by simp [Members.text, Key.text], rfl, hrest⟩
    · obtain ⟨rfl, rfl⟩ := Prod.mk.inj (Option.some.inj h)
      rename_i value hread
      obtain ⟨after, v, more, rfl, rfl, back, w, last, rfl, rfl, hrest⟩ := hvalue hread hcolon
      exact ⟨gap, .last ⟨raw, before, after⟩ v back, last, by simp [Members.text, Key.text], rfl,
        hrest⟩
    · simp at h
  · simp at h

private theorem reads (fuel : Nat) : ReadsLayout fuel ∧ ReadsItems fuel ∧ ReadsMembers fuel := by
  induction fuel with
  | zero =>
    refine ⟨?_, ?_, ?_⟩
    · intro lexemes rest document text h
      simp [Document.read?] at h
    · intro lexemes rest documents text h
      simp [Document.readItems?] at h
    · intro lexemes rest members text h
      simp [Document.readMembers?] at h
  | succ fuel ih =>
    obtain ⟨hvalue, hitems, hmembers⟩ := ih
    exact ⟨readsLayout_succ hitems hmembers, readsItems_succ hvalue hitems,
      readsMembers_succ hvalue hmembers⟩

theorem exists_layout_of_ofText? {text : List Char} {document : Document}
    (h : Document.ofText? text = some document) :
    ∃ d : DocumentLayout, d.text = text ∧ d.value.document = document := by
  simp only [Document.ofText?, bind, Option.bind_eq_some_iff] at h
  obtain ⟨lexemes, hlexemes, h⟩ := h
  split at h
  · rename_i found hread
    obtain rfl := Option.some.inj h
    obtain ⟨front, v, more, htext, hdocument, back, rfl⟩ :=
      (reads _).1 hread (spelled_of_lexemesWithin hlexemes)
    exact ⟨⟨front, v, back⟩, by simp [DocumentLayout.text, htext], hdocument⟩
  · simp at h

/-- Every valid JSON text is the text of a layout. -/
theorem exists_layout_of_isJson {text : String} (h : isJson text = true) :
    ∃ d : DocumentLayout, d.text = text.toList := by
  obtain ⟨document, hdocument⟩ := Option.isSome_iff_exists.mp h
  obtain ⟨d, htext, -⟩ := exists_layout_of_ofText? hdocument
  exact ⟨d, htext⟩

end Reading

end PairGrep.Json
