import PairGrep.Proofs.Pair.Rests

/-!
# Scanning documents

A scan of a JSON document reports the members that the search selects, in their order. The
induction is on the document, from its end to its front.
-/

namespace PairGrep

open Pattern Json

section Gaps

variable {exact : Bool} {side : Side} {texts : List (List Char)} {expected : List Token}
  {rest : List Char}

theorem Fair.gap_or (h : Fair exact side texts expected rest) (hplain : ∀ t ∈ texts, Plain t)
    (gap : Gap) : gap.text = [] ∨ Good exact side texts expected (gap.text ++ rest) := by
  have hinert := gap.inert
  have hnot := gap.not_plain
  cases htext : gap.text with
  | nil => exact .inl rfl
  | cons a w =>
    rw [htext] at hinert hnot
    exact .inr (h.good_cons hplain hinert (hnot a List.mem_cons_self))

theorem Good.gap (h : Good exact side texts expected rest) (hplain : ∀ t ∈ texts, Plain t)
    (gap : Gap) : Good exact side texts expected (gap.text ++ rest) := by
  rcases h.toFair.gap_or hplain gap with hnil | hgood
  · rwa [hnil]
  · exact hgood

theorem Fair.gap (h : Fair exact side texts expected rest) (hplain : ∀ t ∈ texts, Plain t)
    (gap : Gap) : Fair exact side texts expected (gap.text ++ rest) := by
  rcases h.gap_or hplain gap with hnil | hgood
  · rwa [hnil]
  · exact hgood.toFair

theorem Fair.bracket (h : Fair exact side texts expected rest) (hplain : ∀ t ∈ texts, Plain t)
    {a : Char} (ha : a ∈ ['[', ']', '{', '}']) (gap : Gap) :
    Good exact side texts expected (a :: (gap.text ++ rest)) := by
  have hbracket : isPlain a = false ∧ isValueChar a = true ∧ a ≠ ':' := by
    fin_cases ha <;> decide
  exact h.good_cons hplain (List.forall_mem_cons.mpr ⟨hbracket.2, gap.inert⟩) hbracket.1

theorem Fair.closing (h : Fair exact side texts expected rest) (hplain : ∀ t ∈ texts, Plain t)
    {a : Char} (ha : a = ']' ∨ a = '}') : Good exact side texts expected (a :: rest) := by
  refine h.bracket hplain (a := a) ?_ .empty
  rcases ha with rfl | rfl <;> simp

theorem Sealed.gap (h : Sealed rest) (gap : Gap) : Sealed (gap.text ++ rest) := by
  have hvalue : ∀ c ∈ gap.text, isValueChar c = true := fun c hc => (gap.inert c hc).1
  refine ⟨fun a ha => ?_, ?_⟩
  · cases htext : gap.text with
    | nil =>
      rw [htext] at ha
      exact h.stops a ha
    | cons b w =>
      rw [htext] at ha
      obtain rfl : b = a := by simpa using ha
      have hb : b ∈ gap.text := htext ▸ List.mem_cons_self
      exact ⟨gap.not_plain b hb, ne_of_class (gap.space b hb) rfl⟩
  · rw [List.takeWhile_append_of_pos hvalue, strip_append, gap.strip_text, h.bare]
    rfl

theorem Sealed.closing (h : Sealed rest) {a : Char} (ha : a = ']' ∨ a = '}') :
    Sealed (a :: rest) := by
  have hstrip : strip [a] = [] := by
    rcases ha with rfl | rfl <;> decide
  have hvalue : isValueChar a = true := by
    rcases ha with rfl | rfl <;> decide
  refine ⟨fun b hb => ?_, ?_⟩
  · obtain rfl : a = b := by simpa using hb
    rcases ha with rfl | rfl <;> decide
  · rw [List.takeWhile_cons_of_pos hvalue, ← List.singleton_append, strip_append, hstrip, h.bare]
    rfl

theorem sealed_comma (rest : List Char) : Sealed (',' :: rest) :=
  ⟨fun a ha => by
    obtain rfl : ',' = a := by simpa using ha
    decide, rfl⟩

theorem sealed_nil : Sealed [] := ⟨by simp, rfl⟩

end Gaps

/-- No string has a colon, and all members are eligible. -/
def Tidy (strings : List Raw) (pairs : List (Key × Layout)) : Prop :=
  (∀ raw ∈ strings, ':' ∉ raw.text) ∧ ∀ p ∈ pairs, p.1.IsEligible

instance (strings : List Raw) (pairs : List (Key × Layout)) : Decidable (Tidy strings pairs) :=
  inferInstanceAs (Decidable ((∀ raw ∈ strings, ':' ∉ raw.text) ∧ ∀ p ∈ pairs, p.1.IsEligible))

theorem memberTokens_of_tidy {side : Side} {texts : List (List Char)} {strings : List Raw}
    {pairs : List (Key × Layout)} (h : Tidy strings pairs) :
    memberTokens side texts pairs =
      (pairs.filter fun p => decide (selects side texts p.1.raw.text p.2)).map
        fun p => memberToken side p.1.raw.text p.2 := by
  rw [memberTokens]
  congr 1
  exact List.filter_congr fun p hp => by simp [h.2 p hp]

section Documents

variable {exact : Bool} {side : Side} {texts : List (List Char)} {expected : List Token}
  {rest : List Char}

/-- What is found of members: in front of what a value and the rest are known to give, a member with
an admitted key gives what is expected of it. -/
structure Finds (exact : Bool) (side : Side) (texts : List (List Char)) (admitted : Key → Prop)
    (found : List (Key × Layout) → List Token) : Prop where
  nil : found [] = []
  append : ∀ pairs more, found (pairs ++ more) = found pairs ++ found more
  member : ∀ {key : Key} {v : Layout} {expected : List Token} {rest : List Char}, admitted key →
    Sealed rest → Good exact side texts expected (v.text ++ rest) →
      Fair exact side texts (found [(key, v)] ++ expected) (key.text ++ (v.text ++ rest))

theorem finds_memberTokens (hplain : ∀ t ∈ texts, Plain t) :
    Finds exact side texts (fun key => exact = true → key.IsEligible)
      (memberTokens side texts) := by
  refine ⟨rfl, memberTokens_append, fun {key v expected rest} hkey hrest h => ?_⟩
  by_cases helig : key.IsEligible
  · rw [← seenTokens_of_eligible (List.forall_mem_singleton.mpr helig)]
    exact h.member hplain hrest helig.1
  · obtain rfl : exact = false := by
      rw [← Bool.not_eq_true]
      exact fun hexact => helig (hkey hexact)
    have htokens : memberTokens side texts [(key, v)] = [] := by simp [memberTokens, helig]
    have hcolon := (h.colon hplain key.after).gap hplain key.before
    have htext : key.text ++ (v.text ++ rest) = '"' :: (key.raw.text ++
        '"' :: (key.before.text ++ ':' :: (key.after.text ++ (v.text ++ rest)))) := by
      simp [Key.text, Raw.quoted]
    have hhead :
        (key.before.text ++ ':' :: (key.after.text ++ (v.text ++ rest))).head? ≠ some '"' := by
      cases hbefore : key.before.text with
      | nil => simp
      | cons a w =>
        have ha : a ≠ '"' := ne_of_class (key.before.space a (by simp [hbefore])) rfl
        simpa using ha
    rw [htext, htokens]
    exact (hcolon.quoted hplain hhead fun hexact => absurd hexact (by decide)).toFair

theorem finds_seenTokens (hplain : ∀ t ∈ texts, Plain t) :
    Finds exact side texts (fun key => ':' ∉ key.raw.text) (seenTokens side texts) :=
  ⟨rfl, seenTokens_append, fun hkey hrest h => h.member hplain hrest hkey⟩

variable {admitted : Key → Prop} {found : List (Key × Layout) → List Token}

mutual

/-- A value is scanned for its members, and so is what follows it. -/
theorem good_layout (hplain : ∀ t ∈ texts, Plain t) (hfinds : Finds exact side texts admitted found)
    (v : Layout) (hstrings : exact = true → ∀ raw ∈ v.strings, ':' ∉ raw.text)
    (hkeys : ∀ p ∈ v.pairs, admitted p.1) {expected : List Token} {rest : List Char}
    (hrest : Sealed rest) (h : Good exact side texts expected rest) :
    Good exact side texts (found v.pairs ++ expected) (v.text ++ rest) := by
  cases v with
  | scalar s =>
    rw [Layout.pairs, hfinds.nil]
    exact h.scalar hplain hrest s.plain.1 s.plain.2
  | string raw =>
    have hquoted :=
      h.quoted hplain hrest.head?_ne fun hexact => hstrings hexact raw List.mem_cons_self
    simpa [Layout.text, Layout.pairs, Raw.quoted, hfinds.nil] using hquoted
  | emptyArray gap =>
    have hclose := (h.toFair.closing hplain (.inl rfl)).toFair
    simpa [Layout.text, Layout.pairs, hfinds.nil] using hclose.bracket hplain (a := '[') (by simp) gap
  | array gap items =>
    have hitems := (good_items hplain hfinds items hstrings hkeys hrest h).toFair
    simpa [Layout.text, Layout.pairs] using hitems.bracket hplain (a := '[') (by simp) gap
  | emptyObject gap =>
    have hclose := (h.toFair.closing hplain (.inr rfl)).toFair
    simpa [Layout.text, Layout.pairs, hfinds.nil] using hclose.bracket hplain (a := '{') (by simp) gap
  | object gap members =>
    have hmembers := fair_members hplain hfinds members hstrings hkeys hrest h
    simpa [Layout.text, Layout.pairs] using hmembers.bracket hplain (a := '{') (by simp) gap

theorem good_items (hplain : ∀ t ∈ texts, Plain t) (hfinds : Finds exact side texts admitted found)
    (items : Items) (hstrings : exact = true → ∀ raw ∈ items.strings, ':' ∉ raw.text)
    (hkeys : ∀ p ∈ items.pairs, admitted p.1) {expected : List Token} {rest : List Char}
    (hrest : Sealed rest) (h : Good exact side texts expected rest) :
    Good exact side texts (found items.pairs ++ expected) (items.text ++ ']' :: rest) := by
  cases items with
  | last item gap =>
    have hclose := h.toFair.closing hplain (.inl rfl)
    simpa [Items.text, Items.pairs] using good_layout hplain hfinds item hstrings hkeys
      ((hrest.closing (.inl rfl)).gap gap) (hclose.gap hplain gap)
  | more item before after more =>
    have hstrings := fun hexact => List.forall_mem_append.mp (hstrings hexact)
    have hkeys := List.forall_mem_append.mp hkeys
    have hmore := good_items hplain hfinds more (fun hexact => (hstrings hexact).2) hkeys.2 hrest h
    have hcomma := (hmore.gap hplain after).toFair.comma hplain
    simpa [Items.text, Items.pairs, hfinds.append] using
      good_layout hplain hfinds item (fun hexact => (hstrings hexact).1) hkeys.1
        ((sealed_comma _).gap before) (hcomma.gap hplain before)

theorem fair_members (hplain : ∀ t ∈ texts, Plain t)
    (hfinds : Finds exact side texts admitted found) (members : Members)
    (hstrings : exact = true → ∀ raw ∈ members.strings, ':' ∉ raw.text)
    (hkeys : ∀ p ∈ members.pairs, admitted p.1) {expected : List Token} {rest : List Char}
    (hrest : Sealed rest) (h : Good exact side texts expected rest) :
    Fair exact side texts (found members.pairs ++ expected) (members.text ++ '}' :: rest) := by
  cases members with
  | last key value gap =>
    obtain ⟨hkey, hkeys⟩ := List.forall_mem_cons.mp hkeys
    have hclose := h.toFair.closing hplain (.inr rfl)
    have hend := (hrest.closing (.inr rfl)).gap gap
    have hvalue := good_layout hplain hfinds value hstrings hkeys hend (hclose.gap hplain gap)
    have hmember := hfinds.member hkey hend hvalue
    rw [← List.append_assoc, ← hfinds.append] at hmember
    simpa [Members.text, Members.pairs] using hmember
  | more key value before after more =>
    have hstrings := fun hexact => List.forall_mem_append.mp (hstrings hexact)
    obtain ⟨hkey, hkeys⟩ := List.forall_mem_cons.mp hkeys
    have hkeys := List.forall_mem_append.mp hkeys
    have hmore := fair_members hplain hfinds more (fun hexact => (hstrings hexact).2) hkeys.2 hrest h
    have hcomma := (hmore.gap hplain after).comma hplain
    have hend := (sealed_comma (after.text ++ (more.text ++ '}' :: rest))).gap before
    have hvalue := good_layout hplain hfinds value (fun hexact => (hstrings hexact).1) hkeys.1 hend
      (hcomma.gap hplain before)
    have hmember := hfinds.member hkey hend hvalue
    rw [← List.append_assoc, ← List.append_assoc, ← hfinds.append, ← hfinds.append] at hmember
    simpa [Members.text, Members.pairs] using hmember

end

theorem agrees_scan (hplain : ∀ t ∈ texts, Plain t) (hfinds : Finds exact side texts admitted found)
    (d : DocumentLayout) (hstrings : exact = true → ∀ raw ∈ d.value.strings, ':' ∉ raw.text)
    (hkeys : ∀ p ∈ d.value.pairs, admitted p.1) :
    Agrees exact (found d.value.pairs) (scanTokens side texts d.text) := by
  have hback : ':' ∉ d.back.text := fun hmem => (d.back.inert _ hmem).2 rfl
  have hseal := sealed_nil.gap d.back
  rw [List.append_nil] at hseal
  have hgood := good_layout hplain hfinds d.value hstrings hkeys hseal
    (good_of_not_mem exact side texts hback)
  have hscan := (hgood.gap hplain d.front).here
  rwa [List.append_nil, ← List.append_assoc] at hscan

/-- The members that a search selects are found in the text of a document, and no others if no string
has a colon and all members are eligible. -/
theorem scan_document (hplain : ∀ t ∈ texts, Plain t) (d : DocumentLayout)
    (hd : exact = true → Tidy d.value.strings d.value.pairs) :
    Agrees exact (memberTokens side texts d.value.pairs) (scanTokens side texts d.text) :=
  agrees_scan hplain (finds_memberTokens hplain) d (fun hexact => (hd hexact).1)
    fun p hp hexact => (hd hexact).2 p hp

/-- Where neither a string nor a key has a colon, the members are found as their keys are seen. -/
theorem scan_seen (hplain : ∀ t ∈ texts, Plain t) (d : DocumentLayout)
    (hstrings : ∀ raw ∈ d.value.strings, ':' ∉ raw.text)
    (hkeys : ∀ p ∈ d.value.pairs, ':' ∉ p.1.raw.text) :
    scanTokens side texts d.text = seenTokens side texts d.value.pairs := by
  have hagrees : Agrees true (seenTokens side texts d.value.pairs) (scanTokens side texts d.text) :=
    agrees_scan hplain (finds_seenTokens hplain) d (fun _ => hstrings) hkeys
  exact Eq.symm hagrees

end Documents

end PairGrep
