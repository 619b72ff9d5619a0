import PairGrep.Proofs.Json.Reading
import PairGrep.Proofs.Pair.Exactness
import PairGrep.Proofs.Pair.States

/-!
# Spaces between lexemes

A flat object can be spaced in many ways. Of all the gaps in its text a search sees only those between
a key and its colon: behind such a gap the key counts as empty. Main statement: two layouts of a flat
object are searched alike for all literals exactly if they have such a gap at the same members.
-/

namespace PairGrep

open Pattern Json

namespace Json

def Document.IsSimple : Document → Prop
  | .null | .bool _ | .number _ => True
  | .string raw => ∀ c ∈ raw, isKeyChar c = true
  | .array _ | .object _ => False

def Document.simpleText : Document → List Char
  | .null => ['n', 'u', 'l', 'l']
  | .bool true => ['t', 'r', 'u', 'e']
  | .bool false => ['f', 'a', 'l', 's', 'e']
  | .number raw | .string raw => raw
  | .array _ | .object _ => []

/-- The members of a flat object: each has a key of some letters, digits, underscores and hyphens, and
a value without parts. -/
def IsFlat (members : List (List Char × Document)) : Prop :=
  ∀ m ∈ members, m.1 ≠ [] ∧ (∀ c ∈ m.1, isKeyChar c = true) ∧ m.2.IsSimple

/-- Tells of each member whether a gap stands between its key and the colon. -/
def DocumentLayout.keyGaps (d : DocumentLayout) : List Bool :=
  d.value.pairs.map fun p => decide (p.1.before.text ≠ [])

section Flat

variable {v : Layout} {members : List (List Char × Document)}

theorem Layout.content_of_simple (hv : v.document.IsSimple) :
    v.content = v.document.simpleText := by
  cases v with
  | scalar s =>
    cases s with
    | null => rfl
    | bool value => cases value <;> rfl
    | number numeral => rfl
  | string raw => rfl
  | emptyArray | array | emptyObject | object => exact hv.elim

private theorem parts_of_simple (hv : v.document.IsSimple) :
    v.pairs = [] ∧ ∀ raw ∈ v.strings, ':' ∉ raw.text := by
  cases v with
  | scalar s => exact ⟨rfl, by simp [Layout.strings]⟩
  | string raw =>
    refine ⟨rfl, List.forall_mem_singleton.mpr fun hcolon => ?_⟩
    exact absurd (hv ':' hcolon) (by decide)
  | emptyArray | array | emptyObject | object => exact hv.elim

private theorem parts_of_members (ms : Members) (h : IsFlat ms.documents) :
    ms.pairs.map (fun p => (p.1.raw.text, p.2.document)) = ms.documents ∧
      ∀ raw ∈ ms.strings, ':' ∉ raw.text := by
  cases ms with
  | last key value gap =>
    obtain ⟨⟨-, -, hvalue⟩, -⟩ := List.forall_mem_cons.mp h
    obtain ⟨hpairs, hstrings⟩ := parts_of_simple hvalue
    refine ⟨?_, hstrings⟩
    rw [Members.pairs, hpairs]
    rfl
  | more key value before after rest =>
    obtain ⟨⟨-, -, hvalue⟩, hrest⟩ := List.forall_mem_cons.mp h
    obtain ⟨hpairs, hstrings⟩ := parts_of_simple hvalue
    obtain ⟨hmore, hothers⟩ := parts_of_members rest hrest
    refine ⟨?_, List.forall_mem_append.mpr ⟨hstrings, hothers⟩⟩
    rw [Members.pairs, hpairs, List.nil_append, List.map_cons, hmore]
    rfl

theorem Layout.parts_of_flat (h : v.document = .object members) (hflat : IsFlat members) :
    v.pairs.map (fun p => (p.1.raw.text, p.2.document)) = members ∧
      ∀ raw ∈ v.strings, ':' ∉ raw.text := by
  cases v with
  | object gap ms =>
    obtain rfl : ms.documents = members := by simpa [Layout.document] using h
    exact parts_of_members ms hflat
  | emptyObject gap =>
    obtain rfl : [] = members := by simpa [Layout.document] using h
    exact ⟨rfl, by simp [Layout.strings]⟩
  | scalar s => cases s <;> simp [Layout.document] at h
  | string | emptyArray | array => simp [Layout.document] at h

end Flat

end Json

section Search

variable {side : Side} {texts : List (List Char)} {members : List (List Char × Document)}
  {d d' : DocumentLayout}

private theorem seenTokens_singleton_congr {p p' : Key × Layout} (hseen : p.1.seen = p'.1.seen)
    (hcontent : p.2.content = p'.2.content) :
    seenTokens side texts [p] = seenTokens side texts [p'] := by
  have hselects : selects side texts p.1.seen p.2 ↔ selects side texts p'.1.seen p'.2 := by
    cases side <;> simp only [selects, hseen, hcontent]
  have htoken : memberToken side p.1.seen p.2 = memberToken side p'.1.seen p'.2 := by
    cases side <;> simp only [memberToken, Layout.opening, hseen, hcontent]
  by_cases hsel : selects side texts p.1.seen p.2
  · simp [seenTokens, hsel, hselects.mp hsel, htoken]
  · simp [seenTokens, hsel, mt hselects.mpr hsel]

theorem seenTokens_congr {pairs pairs' : List (Key × Layout)}
    (hsimple : ∀ p ∈ pairs, p.2.document.IsSimple)
    (hdocuments : pairs.map (fun p => (p.1.raw.text, p.2.document)) =
      pairs'.map fun p => (p.1.raw.text, p.2.document))
    (hgaps : pairs.map (fun p => decide (p.1.before.text ≠ [])) =
      pairs'.map fun p => decide (p.1.before.text ≠ [])) :
    seenTokens side texts pairs = seenTokens side texts pairs' := by
  induction pairs generalizing pairs' with
  | nil =>
    obtain rfl : pairs' = [] := List.map_eq_nil_iff.mp hdocuments.symm
    rfl
  | cons p pairs ih =>
    cases pairs' with
    | nil => simp at hdocuments
    | cons p' pairs' =>
      rw [List.map_cons, List.map_cons, List.cons.injEq] at hdocuments hgaps
      obtain ⟨hone, hmore⟩ := hdocuments
      obtain ⟨hgap, hothers⟩ := hgaps
      obtain ⟨hraw, hdocument⟩ := Prod.mk.inj hone
      obtain ⟨hvalue, hvalues⟩ := List.forall_mem_cons.mp hsimple
      have hseen : p.1.seen = p'.1.seen := by
        have hiff : p.1.before.text = [] ↔ p'.1.before.text = [] := by simpa using hgap
        simp only [Key.seen, hraw, hiff]
      have hcontent : p.2.content = p'.2.content := by
        rw [Layout.content_of_simple hvalue, Layout.content_of_simple (hdocument ▸ hvalue), hdocument]
      rw [← List.singleton_append, ← List.singleton_append (l := pairs'), seenTokens_append,
        seenTokens_append, seenTokens_singleton_congr hseen hcontent, ih hvalues hmore hothers]

private theorem mem_members {v : Layout} (hv : v.document = .object members)
    (hflat : IsFlat members) {p : Key × Layout} (hp : p ∈ v.pairs) :
    p.1.raw.text ≠ [] ∧ (∀ c ∈ p.1.raw.text, isKeyChar c = true) ∧ p.2.document.IsSimple := by
  have hmem : (p.1.raw.text, p.2.document) ∈ members := by
    rw [← (v.parts_of_flat hv hflat).1]
    exact List.mem_map_of_mem hp
  exact hflat _ hmem

/-- A search for literals reports the members of a flat object as their keys are seen. -/
theorem Matcher.search_literals [Sizing] (side : Side) {literals : List String}
    (hliterals : ∀ s ∈ literals, ∀ c ∈ s.toList, isKeyChar c = true) (hflat : IsFlat members)
    (hd : d.value.document = .object members) :
    Matcher.default.search (String.ofList d.text) (literals.map .literal) side =
      if sizeLimit < Sizing.bytes (searchExpr side (Term.texts (literals.map .literal))) then
        .error .tooLarge
      else .ok (seenTokens side (Term.texts (literals.map .literal)) d.value.pairs) := by
  have hplain : ∀ t ∈ Term.texts (literals.map .literal), Plain t := by
    cases literals with
    | nil => simp [Term.texts, Plain]
    | cons s literals =>
      intro t ht
      obtain ⟨term, hterm, rfl⟩ := List.mem_map.mp ht
      obtain ⟨s', hs', rfl⟩ := List.mem_map.mp hterm
      exact fun c hc => isPlain_of_isKeyChar (hliterals s' hs' c hc)
  have hkeys : ∀ p ∈ d.value.pairs, ':' ∉ p.1.raw.text := fun p hp hcolon =>
    absurd ((mem_members hd hflat hp).2.1 ':' hcolon) (by decide)
  have hscan : scanTokens side (Term.texts (literals.map .literal)) d.text =
      seenTokens side (Term.texts (literals.map .literal)) d.value.pairs :=
    scan_seen hplain d (d.value.parts_of_flat hd hflat).2 hkeys
  rw [Matcher.search_plain side (by simp [Term.isPattern]) hplain, String.toList_ofList, hscan]

private theorem keyGaps_eq (hflat : IsFlat members) (hd : d.value.document = .object members) :
    d.keyGaps = (seenTokens .keys [[]] d.value.pairs).map fun t => decide (t = .text "") := by
  have hall : (d.value.pairs.filter fun p => decide (selects .keys [[]] p.1.seen p.2)) =
      d.value.pairs := by
    rw [List.filter_eq_self]
    intro p _
    simp [selects]
  rw [DocumentLayout.keyGaps, seenTokens, hall, List.map_map]
  refine List.map_congr_left fun p hp => ?_
  obtain ⟨hne, hchars, -⟩ := mem_members hd hflat hp
  rw [Function.comp_apply, memberToken, Key.seen]
  by_cases hbefore : p.1.before.text = []
  · simp [hbefore, List.rtakeWhile_eq_self_iff.mpr hchars, hne]
  · simp [hbefore]

/-- Two layouts of a flat object are searched alike if they have gaps in front of the same colons, and
only then. -/
theorem Matcher.search_layouts_iff [Sizing] [LawfulSizing] (hflat : IsFlat members)
    (hd : d.value.document = .object members) (hd' : d'.value.document = .object members) :
    (∀ (side : Side) (literals : List String),
      (∀ s ∈ literals, ∀ c ∈ s.toList, isKeyChar c = true) →
        Matcher.default.search (String.ofList d.text) (literals.map .literal) side =
          Matcher.default.search (String.ofList d'.text) (literals.map .literal) side) ↔
      d.keyGaps = d'.keyGaps := by
  constructor
  · intro h
    have hkeys := h .keys [] (by simp)
    have hsize : ¬ sizeLimit < Sizing.bytes (searchExpr .keys (Term.texts ([].map .literal))) :=
      not_lt.mpr (bytes_le_sizeLimit .keys (by decide))
    rw [Matcher.search_literals .keys (by simp) hflat hd,
      Matcher.search_literals .keys (by simp) hflat hd', if_neg hsize, if_neg hsize] at hkeys
    rw [keyGaps_eq hflat hd, keyGaps_eq hflat hd']
    exact congrArg _ (Except.ok.inj hkeys)
  · intro hgaps side literals hliterals
    have hdocuments := (d.value.parts_of_flat hd hflat).1.trans
      (d'.value.parts_of_flat hd' hflat).1.symm
    rw [Matcher.search_literals side hliterals hflat hd,
      Matcher.search_literals side hliterals hflat hd',
      seenTokens_congr (fun p hp => (mem_members hd hflat hp).2.2) hdocuments hgaps]

def memberLayout (outer before after : Gap) : DocumentLayout :=
  ⟨outer, .object outer (.last ⟨⟨['a'], [], rfl⟩, before, after⟩
    (.scalar (.number ⟨['1'], [], rfl⟩)) outer), outer⟩

def sampleGap : Gap := ⟨['\t', ' '], by simp [isSpace]⟩

theorem Matcher.search_layouts_member :
    IsFlat [(['a'], .number ['1'])] ∧
    ∀ (side : Side) (literals : List String),
      (∀ s ∈ literals, ∀ c ∈ s.toList, isKeyChar c = true) →
        Matcher.default.search (String.ofList (memberLayout .empty .empty .empty).text)
          (literals.map .literal) side =
        Matcher.default.search (String.ofList (memberLayout sampleGap .empty sampleGap).text)
          (literals.map .literal) side := by
  have hflat : IsFlat [(['a'], .number ['1'])] := by
    simp [IsFlat, isKeyChar, Document.IsSimple]
  have hdense : (memberLayout .empty .empty .empty).value.document =
      .object [(['a'], .number ['1'])] := rfl
  have hspaced : (memberLayout sampleGap .empty sampleGap).value.document =
      .object [(['a'], .number ['1'])] := rfl
  exact ⟨hflat, (Matcher.search_layouts_iff hflat hdense hspaced).mpr rfl⟩

theorem Matcher.values_gap_member :
    (memberLayout .empty .empty .empty).value.document = .object [(['a'], .number ['1'])] ∧
    (memberLayout .empty sampleGap .empty).value.document = .object [(['a'], .number ['1'])] ∧
    Matcher.default.values (String.ofList (memberLayout .empty .empty .empty).text)
      [.literal "a"] = .ok [.number (.int 1 (by decide))] ∧
    Matcher.default.values (String.ofList (memberLayout .empty sampleGap .empty).text)
      [.literal "a"] = .ok [] :=
  ⟨rfl, rfl, by decide +kernel, by decide +kernel⟩

end Search

end PairGrep
