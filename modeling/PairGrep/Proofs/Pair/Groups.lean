import PairGrep.Proofs.Number.Reading
import PairGrep.Proofs.Pair.Tokens

/-!
# Tokens and groups

A match of the expression of pairs is cut twice: by its two groups, and again when its token is made,
which strips the whole match and cuts it at its first colon. The two cuts agree where the matched key
has no colon, and only there if a value is asked for.
-/

namespace PairGrep

open Pattern

/-- What a search would report of a match if it took the groups as they are. -/
def Token.ofGroup (side : Side) (key value : List Char) : Token :=
  match side with
  | .keys => .text (String.ofList (strip key))
  | .values => .ofText (strip value)

theorem strip_append (v w : List Char) : strip (v ++ w) = strip v ++ strip w := List.filter_append ..

theorem mem_strip {c : Char} {w : List Char} (hc : isStripped c = false) : c ∈ strip w ↔ c ∈ w := by
  simp [strip, hc]

theorem strip_of_stripped {w : List Char} (h : ∀ c ∈ w, isStripped c = true) : strip w = [] := by
  simpa [strip] using h

section Cut

variable {side : Side} {matched key value : List Char}

private theorem isStripped_colon : isStripped ':' = false := by decide

theorem ofMatch_eq_ofGroup (hmatch : strip matched = strip key ++ ':' :: strip value)
    (hkey : ':' ∉ key) : Token.ofMatch side matched = .ofGroup side key value := by
  have hnot : ∀ c ∈ strip key, (c != ':') = true := by
    intro c hc
    rw [bne_iff_ne]
    rintro rfl
    exact hkey ((mem_strip isStripped_colon).mp hc)
  cases side with
  | keys =>
    simp only [Token.ofMatch, Token.ofGroup, hmatch]
    rw [List.takeWhile_append_of_pos hnot, List.takeWhile_cons_of_neg (by simp), List.append_nil]
  | values =>
    simp only [Token.ofMatch, Token.ofGroup, hmatch]
    rw [List.dropWhile_append_of_pos hnot, List.dropWhile_cons_of_neg (by simp), List.drop_one,
      List.tail_cons]

/-- Where the key has a colon, the part of the key after it is taken for a part of the value. -/
theorem ofMatch_ne_ofGroup (hmatch : strip matched = strip key ++ ':' :: strip value)
    (hkey : ':' ∈ key) : Token.ofMatch .values matched ≠ .ofGroup .values key value := by
  have hcolon := (mem_strip isStripped_colon).mpr hkey
  cases hdrop : (strip key).dropWhile (· != ':') with
  | nil => exact absurd (List.dropWhile_eq_nil_iff.mp hdrop ':' hcolon) (by simp)
  | cons a back =>
    have hread : Number.read? (back ++ ':' :: strip value) = none :=
      Number.read?_of_colon (by simp)
    simp only [Token.ofMatch, Token.ofGroup, hmatch]
    rw [List.dropWhile_append, hdrop]
    simp only [List.isEmpty_cons, Bool.false_eq_true, if_false, List.cons_append, List.drop_one,
      List.tail_cons]
    simp only [Token.ofText, hread]
    cases Number.read? (strip value) with
    | some n => simp
    | none =>
      rw [ne_eq, Token.text.injEq, String.ofList_inj]
      intro heq
      have hlen := congrArg List.length heq
      simp at hlen
      omega

end Cut

namespace Pattern

/-- A path of the expression of pairs goes over a key, a colon and a value, with nothing around them
but quotes and blanks, and marks where key and value start and end. -/
theorem mem_paths_pair {key value : Expr} {P Q : List Char → Prop} (hkey : key.Takes P)
    (hvalue : value.Takes Q) {c d : Cursor} (hd : d ∈ (Expr.pair key value).paths c) :
    ∃ k v opening middle closing : List Char, P k ∧ Q v ∧
      c.Over (opening ++ k ++ middle ++ v ++ closing) d ∧
      strip opening = [] ∧ strip middle = [':'] ∧ strip closing = [] ∧
      d.marks = (5, c.before.length + (opening ++ k ++ middle ++ v).length) ::
        (4, c.before.length + (opening ++ k ++ middle).length) ::
        (3, c.before.length + (opening ++ k).length) ::
        (2, c.before.length + opening.length) :: c.marks := by
  obtain ⟨c₁, h₁, hd⟩ := Moves.mem_seq.mp hd
  obtain ⟨c₂, h₂, hd⟩ := Moves.mem_seq.mp hd
  obtain ⟨c₃, h₃, hd⟩ := Moves.mem_seq.mp hd
  obtain ⟨c₄, h₄, hd⟩ := Moves.mem_seq.mp hd
  obtain ⟨c₅, h₅, hd⟩ := Moves.mem_seq.mp hd
  obtain ⟨c₆, h₆, hd⟩ := Moves.mem_seq.mp hd
  obtain ⟨c₇, h₇, h₈⟩ := Moves.mem_seq.mp hd
  obtain ⟨q₁, hq₁, rfl, hquote₁⟩ := Expr.takes_quote _ _ h₁
  obtain ⟨e₂, he₂, rfl⟩ := List.mem_map.mp h₂
  obtain ⟨k, hk, rfl, hP⟩ := hkey _ _ he₂
  obtain ⟨q₂, hq₂, rfl, hquote₂⟩ := Expr.takes_quote _ _ h₃
  obtain ⟨colon, hcolon, rfl, a, rfl, ha⟩ := Expr.takes_set _ _ _ h₄
  obtain ⟨blanks, hblanks, rfl, hblank⟩ := Expr.takes_run _ _ _ h₅
  obtain ⟨q₃, hq₃, rfl, hquote₃⟩ := Expr.takes_quote _ _ h₆
  obtain ⟨e₇, he₇, rfl⟩ := List.mem_map.mp h₇
  obtain ⟨v, hv, rfl, hQ⟩ := hvalue _ _ he₇
  obtain ⟨q₄, hq₄, rfl, hquote₄⟩ := Expr.takes_quote _ _ h₈
  obtain rfl := (CharSet.contains_single _ _).mp ha
  have hquote : ∀ {q : List Char}, q = [] ∨ q = ['"'] → strip q = [] := by
    rintro q (rfl | rfl) <;> decide
  have hover := (Cursor.over_past hq₁).trans <| (Cursor.over_past hk).trans <|
    (Cursor.over_past hq₂).trans <| (Cursor.over_past hcolon).trans <|
    (Cursor.over_past hblanks).trans <| (Cursor.over_past hq₃).trans <|
    (Cursor.over_past hv).trans (Cursor.over_past hq₄)
  refine ⟨k, v, q₁, q₂ ++ [':'] ++ blanks ++ q₃, q₄, hP, hQ, ?_, hquote hquote₁, ?_,
    hquote hquote₄, ?_⟩
  · simpa [Cursor.Over, Cursor.mark, Cursor.past] using hover
  · have hblanks : strip blanks = [] := by
      apply strip_of_stripped
      intro b hb
      simp [isStripped, ← contains_space, hblank b hb]
    rw [strip_append, strip_append, strip_append, hquote hquote₂, hquote hquote₃, hblanks]
    rfl
  · simp [Cursor.mark, Cursor.past]
    omega

theorem groups_of_mem {key value : Expr} {P Q : List Char → Prop} (hkey : key.Takes P)
    (hvalue : value.Takes Q) {text : Array Char} {c d : Cursor} (hc : c.whole = text.toList)
    (hmarks : c.marks = []) (hd : d ∈ (Expr.pair key value).paths c) :
    ∃ k v : List Char, P k ∧ Q v ∧ (Match.between c d).group? text 1 = some k ∧
      (Match.between c d).group? text 2 = some v ∧
      strip (c.taken d) = strip k ++ ':' :: strip v := by
  obtain ⟨k, v, opening, middle, closing, hP, hQ, hover, hopening, hmiddle, hclosing, hmark⟩ :=
    mem_paths_pair hkey hvalue hd
  have htext : text.toList =
      c.before.reverse ++ (opening ++ k ++ middle ++ v ++ closing ++ d.after) := by
    rw [← hc, Cursor.whole, hover.1]
  have hextract : ∀ front word back : List Char, text.toList = front ++ (word ++ back) →
      (text.extract front.length (front.length + word.length)).toList = word := by
    intro front word back h
    simp [h]
  have hk := hextract (c.before.reverse ++ opening) k (middle ++ v ++ closing ++ d.after)
    (by simp [htext])
  have hv := hextract (c.before.reverse ++ opening ++ k ++ middle) v (closing ++ d.after)
    (by simp [htext])
  refine ⟨k, v, hP, hQ, ?_, ?_, ?_⟩
  · rw [← hk]
    simp [Match.group?, Match.between, hmark, hmarks, List.lookup, Nat.add_assoc]
  · rw [← hv]
    simp [Match.group?, Match.between, hmark, hmarks, List.lookup, Nat.add_assoc]
  · rw [Cursor.taken_of_over hover]
    simp only [strip_append, hopening, hmiddle, hclosing]
    simp

theorem takes_keyExpr : keyExpr.Takes fun w => ':' ∉ w := by
  intro c d hd
  obtain ⟨w, hw, hd, hchars⟩ := Expr.takes_run keyChars c d hd
  exact ⟨w, hw, hd, fun hcolon => absurd (hchars ':' hcolon) (by decide)⟩

theorem takes_valueExpr : valueExpr.Takes fun _ => True := by
  intro c d hd
  have htakes := Expr.takes_quote.cat ((Expr.takes_run valueEnds.complement).cat
    ((Expr.takes_set valueEnds).alt (Expr.takes_look .textEnd)))
  obtain ⟨w, hw, hd, -⟩ := htakes c d hd
  exact ⟨w, hw, hd, trivial⟩

/-- The groups of a match of a search for texts are its key and its value. A key that the search does
not ask for has no colon. -/
theorem groups_of_mem_search {side : Side} {texts : List (List Char)} {text : Array Char}
    {c d : Cursor} (hc : c.whole = text.toList) (hmarks : c.marks = [])
    (hd : d ∈ (searchExpr side texts).paths c) :
    ∃ k v : List Char, (side = .keys → ':' ∉ k) ∧ (Match.between c d).group? text 1 = some k ∧
      (Match.between c d).group? text 2 = some v ∧
      strip (c.taken d) = strip k ++ ':' :: strip v := by
  cases side with
  | keys =>
    obtain ⟨k, v, hk, -, hgroups⟩ :=
      groups_of_mem takes_keyExpr (Expr.takes_choice texts) hc hmarks hd
    exact ⟨k, v, fun _ => hk, hgroups⟩
  | values =>
    obtain ⟨k, v, -, -, hgroups⟩ :=
      groups_of_mem (Expr.takes_choice texts) takes_valueExpr hc hmarks hd
    exact ⟨k, v, fun h => (by simp at h), hgroups⟩

end Pattern

/-- The tokens of a search for literals and numbers are one for each match of its expression. A token
is what the groups of the match captured if keys are asked for, or if the captured key has no colon;
in every other case it is not. -/
theorem Matcher.search_eq_groups_iff [Sizing] (side : Side) {terms : List Term}
    (h : ∀ t ∈ terms, t.isPattern = false) (text : String) :
    (∀ e, Program.compile (pairSource (Matcher.default.sides side terms).1
        (Matcher.default.sides side terms).2) = .error e →
      Matcher.default.search text terms side = .error e) ∧
    ∀ program, Program.compile (pairSource (Matcher.default.sides side terms).1
        (Matcher.default.sides side terms).2) = .ok program →
      ∃ tokens, Matcher.default.search text terms side = .ok tokens ∧
        tokens.length = (program.allMatches text.toList.toArray).length ∧
        ∀ (i : Nat) (m : Match), (program.allMatches text.toList.toArray)[i]? = some m → ∃ key value,
          m.group? text.toList.toArray 1 = some key ∧ m.group? text.toList.toArray 2 = some value ∧
          (tokens[i]? = some (Token.ofGroup side key value) ↔ side = .keys ∨ ':' ∉ key) := by
  have hproductive := productive_searchExpr side (Term.texts terms)
  have htakes := takesChar_searchExpr side (Term.texts terms)
  rw [compile_sides side h, Matcher.search_default side h]
  by_cases hsize : sizeLimit < Sizing.bytes (searchExpr side (Term.texts terms))
  · rw [if_pos hsize]
    refine ⟨fun e he => ?_, fun program hprogram => absurd hprogram (by simp)⟩
    rw [← Except.error.inj he, if_pos hsize]
  · rw [if_neg hsize]
    refine ⟨fun e he => absurd he (by simp), fun program hprogram => ?_⟩
    obtain rfl := Except.ok.inj hprogram
    rw [Program.allMatches_ofExpr hproductive htakes]
    refine ⟨_, if_neg hsize, by simp [pathTokens], fun i m hm => ?_⟩
    rw [List.getElem?_map, Option.map_eq_some_iff] at hm
    obtain ⟨x, hx, rfl⟩ := hm
    obtain ⟨hwhole, hmarks, hpath⟩ := Moves.mem_scan (Expr.paths_forward _)
      (Expr.paths_advances htakes) (List.mem_of_getElem? hx)
    obtain ⟨key, value, hkeys, h₁, h₂, hstrip⟩ := groups_of_mem_search (hwhole.trans rfl) hmarks hpath
    refine ⟨key, value, h₁, h₂, ?_⟩
    rw [pathTokens, List.getElem?_map, hx, Option.map_some, Option.some.injEq]
    constructor
    · intro heq
      by_contra hnot
      obtain ⟨hside, hcolon⟩ := not_or.mp hnot
      cases side with
      | keys => exact hside rfl
      | values => exact ofMatch_ne_ofGroup hstrip (by simpa using hcolon) heq
    · rintro (hside | hcolon)
      · exact ofMatch_eq_ofGroup hstrip (hkeys hside)
      · exact ofMatch_eq_ofGroup hstrip hcolon

theorem Matcher.search_groups_id :
    ∃ program tokens, Program.compile (pairSource
        (Matcher.default.sides .values [.literal "id"]).1
        (Matcher.default.sides .values [.literal "id"]).2) = .ok program ∧
      Matcher.default.search "\x7b\"id\":7\x7d" [.literal "id"] .values = .ok tokens ∧
      tokens.length = (program.allMatches "\x7b\"id\":7\x7d".toList.toArray).length := by
  have hterms : ∀ t ∈ [Term.literal "id"], t.isPattern = false := by simp [Term.isPattern]
  have hsize : ¬sizeLimit < Sizing.bytes (searchExpr .values (Term.texts [.literal "id"])) := by
    decide +kernel
  have hprogram := compile_sides .values hterms
  rw [if_neg hsize] at hprogram
  obtain ⟨tokens, hsearch, hlength, -⟩ :=
    (Matcher.search_eq_groups_iff .values hterms "\x7b\"id\":7\x7d").2 _ hprogram
  exact ⟨_, tokens, hprogram, hsearch, hlength⟩

theorem Matcher.values_colon_key :
    Matcher.default.values "\x7b\"a:b\":1\x7d" [.literal "a:b"] = .ok [.text "b:1"] ∧
    (Program.compile (pairSource (Matcher.default.sides .values [.literal "a:b"]).1
        (Matcher.default.sides .values [.literal "a:b"]).2)).map
      (fun program => (program.allMatches "\x7b\"a:b\":1\x7d".toList.toArray).map fun m =>
        (m.group? "\x7b\"a:b\":1\x7d".toList.toArray 1,
          m.group? "\x7b\"a:b\":1\x7d".toList.toArray 2)) =
      .ok [(some "a:b".toList, some "1\x7d".toList)] ∧
    Token.ofGroup .values "a:b".toList "1\x7d".toList = .number (.int 1 (by decide)) := by
  exact ⟨by decide +kernel, by decide +kernel, by decide +kernel⟩

end PairGrep
