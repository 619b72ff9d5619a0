import PairGrep.Proofs.Pair.Elements
import PairGrep.Proofs.Reading.Refused
import PairGrep.Proofs.Search.Progress

/-!
# The parts of a match

The sources of key and value stand in the source of pairs as one capture each. Main statement: a
match is cut into what the key spans and what the value spans, with a colon, blanks and quotes around
them.
-/

namespace PairGrep

open Pattern Pattern.Reader

/-- The parts of a match, in the order in which they stand in the text. -/
structure PairParts where
  openKey : List Char
  key : List Char
  closeKey : List Char
  blanks : List Char
  openValue : List Char
  value : List Char
  closeValue : List Char

namespace PairParts

def front (p : PairParts) : List Char :=
  p.openKey ++ p.key ++ p.closeKey ++ ':' :: (p.blanks ++ p.openValue)

def text (p : PairParts) : List Char := p.front ++ p.value ++ p.closeValue

/-- There is a double quote at most on each side of key and value, and there are only blanks behind
the colon. -/
structure Punctuated (p : PairParts) : Prop where
  openKey : p.openKey = [] ∨ p.openKey = ['"']
  closeKey : p.closeKey = [] ∨ p.closeKey = ['"']
  blanks : ∀ c ∈ p.blanks, isBlank c = true
  openValue : p.openValue = [] ∨ p.openValue = ['"']
  closeValue : p.closeValue = [] ∨ p.closeValue = ['"']

theorem colon_mem_strip (p : PairParts) : ':' ∈ strip p.text := by
  have hcolon : isStripped ':' = false := by decide
  simp [strip, text, front, hcolon]

end PairParts

section Places

variable {text : List Char} {i j : Nat}

theorem take_append_extract (h : i ≤ j) : text.take i ++ text.extract i j = text.take j := by
  rw [List.extract_eq_take_drop, ← List.take_add, Nat.add_sub_cancel' h]

theorem getElem?_of_mem_extract {c : Char} (h : c ∈ text.extract i j) :
    ∃ k, i ≤ k ∧ k < j ∧ text[k]? = some c := by
  rw [List.extract_eq_take_drop, List.mem_iff_getElem?] at h
  obtain ⟨k, hk⟩ := h
  rw [List.getElem?_take] at hk
  split at hk
  · rw [List.getElem?_drop] at hk
    exact ⟨i + k, by omega, by omega, hk⟩
  · simp at hk

theorem extract_succ {c : Char} (h : text[i]? = some c) : text.extract i (i + 1) = [c] := by
  rw [List.extract_eq_take_drop, Nat.add_sub_cancel_left]
  obtain ⟨hi, rfl⟩ := List.getElem?_eq_some_iff.1 h
  rw [List.drop_eq_getElem_cons hi]
  rfl

theorem Pattern.Expr.le_of_spans {text : Array Char} {e : Expr} (h : e.Spans text i j)
    (hi : i ≤ text.size) : i ≤ j ∧ j ≤ text.size :=
  (Program.spans_ofExpr.2 h).le hi

theorem extract_of_quote (h : Expr.quote.Spans text.toArray i j) :
    text.extract i j = [] ∨ text.extract i j = ['"'] := by
  obtain ⟨n, hn, hrounds⟩ := h
  have hle : n ≤ 1 := hn 1 rfl
  interval_cases n
  · obtain rfl : i = j := hrounds
    left
    simp [List.extract_eq_take_drop]
  · obtain ⟨k, ⟨rfl, c, hc, hquote⟩, rfl⟩ := hrounds
    obtain rfl : c = '"' := (CharSet.contains_single _ _).1 hquote
    right
    exact extract_succ (by simpa using hc)

theorem isBlank_of_rounds {n : Nat}
    (h : Rounds ((Expr.set Unicode.space).Spans text.toArray) n i j) {k : Nat} (hik : i ≤ k)
    (hkj : k < j) {c : Char} (hc : text[k]? = some c) : isBlank c = true := by
  induction n generalizing i with
  | zero =>
    obtain rfl : i = j := h
    omega
  | succ n ih =>
    obtain ⟨l, ⟨rfl, d, hd, hspace⟩, h⟩ := h
    by_cases hk : k = i
    · subst hk
      obtain rfl : d = c := by simpa [hc] using hd.symm
      rwa [contains_space] at hspace
    · exact ih h (by omega)

/-- What the expression of pairs spans is cut where its parts meet. -/
theorem exists_parts_of_spans {index : Nat} {k v : Expr} (hi : i ≤ text.length)
    (h : (Expr.pairAt index k v).Spans text.toArray i j) :
    ∃ (before after : List Char) (parts : PairParts), text = before ++ parts.text ++ after ∧
      before.length = i ∧ text.extract i j = parts.text ∧ parts.Punctuated ∧
      k.Spans text.toArray (before ++ parts.openKey).length
        (before ++ parts.openKey ++ parts.key).length ∧
      v.Spans text.toArray (before ++ parts.front).length
        (before ++ parts.front ++ parts.value).length := by
  obtain ⟨i₁, hopenKey, i₂, hkey, i₃, hcloseKey, i₄, hcolon, i₅, hblanks, i₆, hopenValue, i₇, hvalue,
    hcloseValue⟩ := h
  have hsize : text.toArray.size = text.length := rfl
  obtain ⟨h₁, h₁'⟩ := Expr.le_of_spans hopenKey (by omega)
  obtain ⟨h₂, h₂'⟩ := Expr.le_of_spans (e := k) hkey h₁'
  obtain ⟨h₃, h₃'⟩ := Expr.le_of_spans hcloseKey h₂'
  obtain ⟨h₄, h₄'⟩ := Expr.le_of_spans hcolon h₃'
  obtain ⟨h₅, h₅'⟩ := Expr.le_of_spans hblanks h₄'
  obtain ⟨h₆, h₆'⟩ := Expr.le_of_spans hopenValue h₅'
  obtain ⟨h₇, h₇'⟩ := Expr.le_of_spans (e := v) hvalue h₆'
  obtain ⟨h₈, h₈'⟩ := Expr.le_of_spans hcloseValue h₇'
  obtain ⟨rfl, c, hc, hcolon⟩ := hcolon
  obtain ⟨n, -, hblanks⟩ := hblanks
  obtain rfl : c = ':' := (CharSet.contains_single _ _).1 hcolon
  let parts : PairParts := ⟨text.extract i i₁, text.extract i₁ i₂, text.extract i₂ i₃,
    text.extract (i₃ + 1) i₅, text.extract i₅ i₆, text.extract i₆ i₇, text.extract i₇ j⟩
  have hlength : ∀ k, k ≤ text.toArray.size → (text.take k).length = k := by
    intro k hk
    rw [List.length_take]
    omega
  have hkeyStart : text.take i ++ parts.openKey = text.take i₁ := take_append_extract h₁
  have hkeyStop : text.take i ++ parts.openKey ++ parts.key = text.take i₂ := by
    rw [hkeyStart]
    exact take_append_extract h₂
  have hcolonText : ':' :: (parts.blanks ++ parts.openValue) =
      text.extract i₃ (i₃ + 1) ++ parts.blanks ++ parts.openValue := by
    rw [extract_succ (by simpa using hc)]
    rfl
  have hfront : text.take i ++ parts.front = text.take i₆ := by
    rw [PairParts.front, hcolonText]
    simp only [← List.append_assoc, hkeyStop, parts, take_append_extract h₃,
      take_append_extract h₄, take_append_extract h₅, take_append_extract h₆]
  have hvalueStop : text.take i ++ parts.front ++ parts.value = text.take i₇ := by
    rw [hfront]
    exact take_append_extract h₇
  have htext : text.take i ++ parts.text = text.take j := by
    rw [PairParts.text, ← List.append_assoc, ← List.append_assoc, hvalueStop]
    exact take_append_extract h₈
  refine ⟨text.take i, text.drop j, parts, ?_, hlength i hi, ?_, ?_, ?_, ?_⟩
  · rw [htext, List.take_append_drop]
  · have hle : i ≤ j := by omega
    rw [← take_append_extract hle] at htext
    exact (List.append_cancel_left htext).symm
  · refine ⟨extract_of_quote hopenKey, extract_of_quote hcloseKey, ?_,
      extract_of_quote hopenValue, extract_of_quote hcloseValue⟩
    intro c hc
    obtain ⟨k, hik, hkj, hk⟩ := getElem?_of_mem_extract hc
    exact isBlank_of_rounds hblanks (by omega) hkj hk
  · rw [hkeyStop, hkeyStart, hlength i₁ h₁', hlength i₂ h₂']
    exact hkey
  · rw [hvalueStop, hfront, hlength i₆ h₆', hlength i₇ h₇']
    exact hvalue

end Places

theorem compile_pairSource [Sizing] {key value : List Char} {k v : Tree}
    {keyCaptures valueCaptures : Nat} {keyNames valueNames : List (List Char)} {ks vs : List Expr}
    {f g : Flags} {program : Program}
    (hkq : key.head? ≠ some '?') (hvq : value.head? ≠ some '?')
    (hk : Reads key k keyCaptures keyNames) (hv : Reads value v valueCaptures valueNames)
    (hks : Elaborate.branches .initial k = .ok (ks, f))
    (hvs : Elaborate.branches .initial v = .ok (vs, g))
    (hpair : Program.compile (pairSource key value) = .ok program) :
    ∃ index k' v', program = .ofExpr (.pairAt index k' v') ∧
      (∀ text i j, k'.Spans text i j ↔ Spans key text i j) ∧
      ∀ text i j, v'.Spans text i j ↔ Spans value text i j := by
  let fuel := 4 * (key.length + value.length) + 55
  obtain ⟨tree, s, e, hread, -, -, he, rfl⟩ := exists_of_compile hpair
  rw [fuel_pairSource] at hread
  rcases hk.in_group (show 4 * key.length + 4 ≤ fuel + 8 by omega) 1 [] (afterKey value) with
    ⟨-, name, -, hname⟩ | hkRead
  · simp at hname
  rcases hv.in_group (show 4 * value.length + 4 ≤ fuel + 3 by omega) (keyCaptures + 1 + 1)
    (keyNames ++ []) ['"', '?'] with ⟨⟨e', he'⟩, -⟩ | hvRead
  · have hdoomed := Doomed.pairSource_value hkq hvq hkRead (he' ▸ .of_error e')
    rw [← fuel_pairSource] at hdoomed
    exact absurd hpair (not_compile_of_doomed hdoomed)
  have hpairRead := readAlternatives_pairSource hkq hvq hkRead hvRead
  cases hread.symm.trans hpairRead
  obtain ⟨ks', hks', hkSpans⟩ := Tree.branches_shift_ok 1 hk.valid hks
  obtain ⟨vs', hvs', hvSpans⟩ := Tree.branches_shift_ok (keyCaptures + 1 + 1) hv.valid hvs
  rw [elaborate_pairTreeAt _ hks' hvs'] at he
  cases he
  refine ⟨_, _, _, rfl, fun text i j => ?_, fun text i j => ?_⟩
  · rw [Expr.spans_choice (Elaborate.tidy_of_branches ((Tree.valid_shift 1 k).2 hk.valid) hks'),
      ← hkSpans, spans_of_reads hk, Tree.spans_iff hks]
  · rw [Expr.spans_choice (Elaborate.tidy_of_branches ((Tree.valid_shift _ v).2 hv.valid) hvs'),
      ← hvSpans, spans_of_reads hv, Tree.spans_iff hvs]

/-- Every match of a pattern of pairs is cut into what the key matches and what the value matches,
each at its place in the text, where the two sources compile alone and turn verbose mode on by no
flag. Between them stands a colon, so that a match has one when it is stripped. -/
theorem exists_parts_of_mem_allMatches [Sizing] {key value : List Char}
    {keyProgram valueProgram program : Program} (hkey : Program.compile key = .ok keyProgram)
    (hvalue : Program.compile value = .ok valueProgram) (hkeyVerbose : turnsVerboseOn key = false)
    (hvalueVerbose : turnsVerboseOn value = false)
    (hpair : Program.compile (pairSource key value) = .ok program) (text : List Char)
    {m : Match} (hm : m ∈ program.allMatches text.toArray) :
    ∃ (before after : List Char) (parts : PairParts), text = before ++ parts.text ++ after ∧
      before.length = m.start ∧ m.text text.toArray = parts.text ∧ parts.Punctuated ∧
      keyProgram.Spans text.toArray (before ++ parts.openKey).length
        (before ++ parts.openKey ++ parts.key).length ∧
      valueProgram.Spans text.toArray (before ++ parts.front).length
        (before ++ parts.front ++ parts.value).length ∧
      ':' ∈ strip (m.text text.toArray) := by
  obtain ⟨k, keyCaptures, keyNames, ks, f, hk, hks, -, hkeySpans⟩ :=
    reads_of_compile hkey (leavesVerboseOff_of_compile hkey hkeyVerbose)
  obtain ⟨v, valueCaptures, valueNames, vs, g, hv, hvs, -, hvalueSpans⟩ :=
    reads_of_compile hvalue (leavesVerboseOff_of_compile hvalue hvalueVerbose)
  obtain ⟨index, k', v', rfl, hk', hv'⟩ := compile_pairSource (head_of_compile hkey)
    (head_of_compile hvalue) hk hv hks hvs hpair
  obtain ⟨hstart, hspans⟩ := Program.spans_of_mem_allMatches hm
  obtain ⟨before, after, parts, htext, hbefore, hmatch, hparts, hkeyPart, hvaluePart⟩ :=
    exists_parts_of_spans hstart (Program.spans_ofExpr.1 hspans)
  have hmtext : m.text text.toArray = parts.text := by
    rw [Match.text, ← hmatch]
    simp
  refine ⟨before, after, parts, htext, hbefore, hmtext, hparts, ?_, ?_, ?_⟩
  · rw [hkeySpans, ← hk']
    exact hkeyPart
  · rw [hvalueSpans, ← hv']
    exact hvaluePart
  · rw [hmtext]
    exact parts.colon_mem_strip

theorem exists_parts_bc : ∃ keyProgram valueProgram program m,
    Program.compile "a|bc".toList = .ok keyProgram ∧
    Program.compile "^x|[0-9]+".toList = .ok valueProgram ∧
    Program.compile (pairSource "a|bc".toList "^x|[0-9]+".toList) = .ok program ∧
    m ∈ program.allMatches "\x7b\"bc\": 42\x7d".toList.toArray ∧
    ∃ (before after : List Char) (parts : PairParts),
      "\x7b\"bc\": 42\x7d".toList = before ++ parts.text ++ after ∧ before.length = m.start ∧
      m.text "\x7b\"bc\": 42\x7d".toList.toArray = parts.text ∧ parts.Punctuated ∧
      keyProgram.Spans "\x7b\"bc\": 42\x7d".toList.toArray (before ++ parts.openKey).length
        (before ++ parts.openKey ++ parts.key).length ∧
      valueProgram.Spans "\x7b\"bc\": 42\x7d".toList.toArray (before ++ parts.front).length
        (before ++ parts.front ++ parts.value).length ∧
      ':' ∈ strip (m.text "\x7b\"bc\": 42\x7d".toList.toArray) := by
  let key : Expr := .alt (.set (.single 'a')) (.cat (.set (.single 'b')) (.set (.single 'c')))
  let value : Expr := .alt (.cat (.look .textStart) (.set (.single 'x')))
    (.repeated 1 none true (.set ⟨[(48, 57)]⟩))
  have hkey : Program.compile "a|bc".toList = .ok (.ofExpr key) := by decide +kernel
  have hvalue : Program.compile "^x|[0-9]+".toList = .ok (.ofExpr value) := by decide +kernel
  have hpair : Program.compile (pairSource "a|bc".toList "^x|[0-9]+".toList) =
      .ok (.ofExpr (.pairAt 2 key value)) := by decide +kernel
  have hm : (⟨1, 9, [(5, 9), (4, 7), (3, 4), (2, 2)]⟩ : Match) ∈
      (Program.ofExpr (.pairAt 2 key value)).allMatches "\x7b\"bc\": 42\x7d".toList.toArray := by
    decide +kernel
  exact ⟨_, _, _, _, hkey, hvalue, hpair, hm, exists_parts_of_mem_allMatches hkey hvalue
    (by decide +kernel) (by decide +kernel) hpair _ hm⟩

end PairGrep
