import PairGrep.Proofs.Pair.FirstPath
import PairGrep.Proofs.Pair.Groups
import PairGrep.Proofs.Pair.Shape
import PairGrep.Proofs.Terms.Sources

/-!
# Progress of a search for pairs

A scan for pairs advances whatever the patterns of key and value are. In a search for literals and
numbers every match has a colon, so none is empty, nothing is matched between one match and the next,
and there are no more tokens than the text has colons.
-/

namespace PairGrep

open Pattern

section Colons

variable {side : Side} {texts : List (List Char)} {text : List Char} {m : Match} {i j : Nat}

theorem colon_mem_of_spans (hi : i ≤ text.length)
    (h : (Program.ofExpr (searchExpr side texts)).Spans text.toArray i j) :
    ':' ∈ text.extract i j := by
  have hparts : ∀ key value : Expr, (Expr.pairAt 2 key value).Spans text.toArray i j →
      ':' ∈ text.extract i j := by
    intro key value hspans
    obtain ⟨-, -, parts, -, -, hextract, -⟩ := exists_parts_of_spans hi hspans
    rw [hextract]
    simp [PairParts.text, PairParts.front]
  cases side with
  | keys => exact hparts _ _ (Program.spans_ofExpr.1 h)
  | values => exact hparts _ _ (Program.spans_ofExpr.1 h)

theorem colon_mem_of_mem_allMatches
    (hm : m ∈ (Program.ofExpr (searchExpr side texts)).allMatches text.toArray) :
    ':' ∈ m.text text.toArray := by
  obtain ⟨hstart, hspans⟩ := Program.spans_of_mem_allMatches hm
  simpa [Match.text] using colon_mem_of_spans hstart hspans

theorem not_spans_of_follows {last : Nat} (hlast : last ≤ text.length)
    (h : (Program.ofExpr (searchExpr side texts)).Follows text.toArray (some last) m)
    (hi : last ≤ i) (hlt : i < m.start) :
    ¬(Program.ofExpr (searchExpr side texts)).Spans text.toArray i j := by
  intro hspans
  obtain ⟨hhere, hempty⟩ := h.gap i j hi hlt hspans
  obtain rfl := Option.some.inj hhere
  simpa [List.extract_eq_take_drop] using colon_mem_of_spans hlast hempty

theorem ofMatch_of_mem_allMatches
    (hm : m ∈ (Program.ofExpr (searchExpr .keys texts)).allMatches text.toArray) :
    ∃ s, Token.ofMatch .keys (m.text text.toArray) = .text s ∧
      ∀ c ∈ s.toList, isKeyChar c = true := by
  have htakes := takesChar_searchExpr .keys texts
  rw [Program.allMatches_ofExpr (productive_searchExpr .keys texts) htakes, List.mem_map] at hm
  obtain ⟨⟨c, d⟩, hx, rfl⟩ := hm
  obtain ⟨hwhole, hmarks, hpath⟩ :=
    Moves.mem_scan (Expr.paths_forward _) (Expr.paths_advances htakes) hx
  have hwhole : c.whole = text := hwhole
  obtain ⟨w, hover⟩ := Expr.paths_forward _ _ _ hpath
  obtain ⟨key, value, hkey, -, -, -, hstrip⟩ := groups_of_mem (Expr.takes_run keyChars)
    (Expr.takes_choice texts) (show c.whole = text.toArray.toList from hwhole) hmarks hpath
  have hchars : ∀ a ∈ key, isKeyChar a = true := fun a ha => contains_keyChars a ▸ hkey a ha
  refine ⟨String.ofList (strip key), ?_, fun a ha => ?_⟩
  · rw [Match.text_between hover hwhole]
    exact ofMatch_eq_ofGroup hstrip fun hcolon => absurd (hchars ':' hcolon) (by decide)
  · rw [String.toList_ofList] at ha
    exact hchars a (List.mem_of_mem_filter ha)

end Colons

/-- The matches of every pattern of pairs that compiles advance. In a search for literals and numbers
each of them has a colon, nothing is matched from a place between two that follow each other, there are
no more tokens than colons in the text, and keys are reported as texts of the characters of default
keys. -/
theorem scanPairs_advances [Sizing] (text : String) :
    (∀ (key value : List Char) (program : Program),
      Program.compile (pairSource key value) = .ok program →
        scanPairs key value text.toList = .ok ((program.allMatches text.toList.toArray).map
          (·.text text.toList.toArray)) ∧
        program.Advances text.toList) ∧
    ∀ (side : Side) (terms : List Term) (program : Program), (∀ t ∈ terms, t.isPattern = false) →
      Program.compile (pairSource (Matcher.default.sides side terms).1
          (Matcher.default.sides side terms).2) = .ok program →
        (∀ m ∈ program.allMatches text.toList.toArray, ':' ∈ m.text text.toList.toArray) ∧
        (∀ (i : Nat) (m n : Match), (program.allMatches text.toList.toArray)[i]? = some m →
          (program.allMatches text.toList.toArray)[i + 1]? = some n →
            ∀ s stop, m.stop ≤ s → s < n.start → ¬program.Spans text.toList.toArray s stop) ∧
        ∃ tokens, Matcher.default.search text terms side = .ok tokens ∧
          tokens.length = (program.allMatches text.toList.toArray).length ∧
          tokens.length ≤ text.toList.count ':' ∧
          (side = .keys → ∀ token ∈ tokens, ∃ s, token = .text s ∧
            ∀ c ∈ s.toList, isKeyChar c = true) := by
  refine ⟨fun key value program hcompile => ⟨?_, program.advances _⟩,
    fun side terms program hterms hcompile => ?_⟩
  · rw [scanPairs, hcompile]
    rfl
  · have hsearch := Matcher.search_eq .default text terms side
    rw [hcompile, Except.map] at hsearch
    rw [compile_sides side hterms] at hcompile
    split at hcompile
    · simp at hcompile
    · obtain rfl := Except.ok.inj hcompile
      have hscans : (Program.ofExpr (searchExpr side (Term.texts terms))).Scans text.toList.toArray
          none _ := Program.scans_iff.mpr rfl
      have hzero : (none : Option Nat).getD 0 ≤ text.toList.toArray.size := Nat.zero_le _
      have hcolon : ∀ m ∈ (Program.ofExpr (searchExpr side (Term.texts terms))).allMatches
          text.toList.toArray, ':' ∈ m.text text.toList.toArray :=
        fun m => colon_mem_of_mem_allMatches
      have hcount := hscans.length_le_count hzero hcolon
      refine ⟨hcolon, fun i m n hm hn s stop hs hs' => ?_, _, hsearch, by simp, by simpa using hcount,
        ?_⟩
      · have hstop := (hscans.behind hzero m (List.mem_of_getElem? hm)).stop_le
        exact not_spans_of_follows hstop (hscans.follows hzero hm hn) hs hs'
      · rintro rfl token htoken
        rw [List.map_map, List.mem_map] at htoken
        obtain ⟨m, hm, rfl⟩ := htoken
        exact ofMatch_of_mem_allMatches hm

/-- A bar that splits the expression lets nothing match, in as many places as there is room for. -/
theorem scanPairs_advances_bar :
    (∃ program, Program.compile (pairSource ")|(".toList defaultValuePattern.toList) = .ok program ∧
      (program.allMatches "\"é\":1".toList.toArray).map (fun m => (m.start, m.stop)) =
        [(0, 1), (2, 3), (4, 4), (5, 5)] ∧
      program.Advances "\"é\":1".toList) ∧
    (∀ t ∈ [Term.literal "1", .literal ":"], t.isPattern = false) ∧
    ∃ program tokens, Program.compile
        (pairSource (Matcher.default.sides .keys [.literal "1", .literal ":"]).1
          (Matcher.default.sides .keys [.literal "1", .literal ":"]).2) = .ok program ∧
      Matcher.default.search "\"é\":1" [.literal "1", .literal ":"] .keys = .ok tokens ∧
      tokens.length ≤ "\"é\":1".toList.count ':' ∧
      ∀ token ∈ tokens, ∃ s, token = .text s ∧ ∀ c ∈ s.toList, isKeyChar c = true := by
  have hterms : ∀ t ∈ [Term.literal "1", .literal ":"], t.isPattern = false := by
    simp [Term.isPattern]
  obtain ⟨hpairs, hsearch⟩ := scanPairs_advances "\"é\":1"
  obtain ⟨program, hprogram⟩ : ∃ program,
      Program.compile (pairSource ")|(".toList defaultValuePattern.toList) = .ok program :=
    exists_of_isOk (by decide +kernel)
  obtain ⟨keysProgram, hkeysProgram⟩ : ∃ program, Program.compile
      (pairSource (Matcher.default.sides .keys [.literal "1", .literal ":"]).1
        (Matcher.default.sides .keys [.literal "1", .literal ":"]).2) = .ok program :=
    exists_of_isOk (by decide +kernel)
  have hplaces : (Program.compile (pairSource ")|(".toList defaultValuePattern.toList)).map
      (fun program => (program.allMatches "\"é\":1".toList.toArray).map
        fun m => (m.start, m.stop)) = .ok [(0, 1), (2, 3), (4, 4), (5, 5)] := by decide +kernel
  rw [hprogram] at hplaces
  obtain ⟨-, -, tokens, htokens, -, hcount, hkeys⟩ :=
    hsearch .keys _ keysProgram hterms hkeysProgram
  exact ⟨⟨program, hprogram, Except.ok.inj hplaces, (hpairs _ _ program hprogram).2⟩, hterms,
    keysProgram, tokens, hkeysProgram, htokens, hcount, hkeys rfl⟩

end PairGrep
