import PairGrep.Proofs.Pair.Members

/-!
# Scanning documents

A scan of a JSON document reports its members in their order. What carries the proof is the answer of
the scan on the rest of the text: it is the same wherever in front of the rest a search goes on, be it
at a place between two lexemes, behind a quote that a value took, or behind a whole value.
-/

namespace PairGrep

open Pattern Json

/-- The tokens that are found are those that are expected, or hold them in their order. -/
def Agrees (exact : Bool) (expected found : List Token) : Prop :=
  match exact with
  | true => expected = found
  | false => expected.Sublist found

theorem Agrees.nil (exact : Bool) : Agrees exact [] [] := by
  cases exact
  · exact List.Sublist.refl []
  · rfl

theorem Agrees.cons {exact : Bool} {expected found : List Token} (h : Agrees exact expected found)
    (token : Token) : Agrees exact (token :: expected) (token :: found) := by
  cases exact
  · exact List.Sublist.cons_cons token h
  · exact congrArg (token :: ·) h

theorem Agrees.skip {expected found : List Token} (h : Agrees false expected found) (token : Token) :
    Agrees false expected (token :: found) := List.Sublist.cons token h

section Rests

variable {exact : Bool} {side : Side} {texts : List (List Char)} {expected : List Token}
  {rest : List Char}

/-- The expected tokens are found wherever in front of the rest the search goes on, and if a value
that started before took a quote of the rest or ran into it. -/
structure Fair (exact : Bool) (side : Side) (texts : List (List Char)) (expected : List Token)
    (rest : List Char) : Prop where
  scan : ∀ x, ':' ∉ x → Agrees exact expected (scanTokens side texts (x ++ rest))
  unquoted : side = .values → Agrees exact expected (scanTokens side texts (unquote rest))
  passed : side = .values → Agrees exact expected (scanTokens side texts (pastValue rest))

/-- The expected tokens are also found if a value starts with the rest. -/
structure Good (exact : Bool) (side : Side) (texts : List (List Char)) (expected : List Token)
    (rest : List Char) : Prop extends Fair exact side texts expected rest where
  past : ∀ more, pastStart? side texts rest = some more →
    Agrees exact expected (scanTokens side texts more)

theorem Fair.here (h : Fair exact side texts expected rest) :
    Agrees exact expected (scanTokens side texts rest) := h.scan [] (by simp)

theorem good_of_not_mem (exact : Bool) (side : Side) (texts : List (List Char))
    (h : ':' ∉ rest) : Good exact side texts [] rest := by
  have hsuffix : ∀ {more : List Char}, more <:+ rest →
      Agrees exact [] (scanTokens side texts more) := by
    intro more hmore
    rw [scanTokens_of_not_mem fun hmem => h (hmore.subset hmem)]
    exact .nil exact
  refine ⟨⟨fun x hx => ?_, fun _ => hsuffix (unquote_suffix _),
    fun _ => hsuffix (pastValue_suffix _)⟩, fun more hmore => hsuffix ?_⟩
  · rw [scanTokens_of_not_mem (by simp [hx, h])]
    exact .nil exact
  · cases side with
    | keys => exact (pastText?_suffix hmore).trans (unquote_suffix _)
    | values =>
      obtain rfl := Option.some.inj hmore
      exact (pastValue_suffix _).trans ((unquote_suffix _).trans (unquote_suffix _))

/-- Characters that end no value, open no string and separate no pair. -/
def Inert (w : List Char) : Prop := ∀ c ∈ w, isValueChar c = true ∧ c ≠ ':'

theorem pastValue_append {w : List Char} (hw : ∀ c ∈ w, isValueChar c = true) (rest : List Char) :
    pastValue (w ++ rest) = pastValue rest := by
  rw [pastValue, pastValue, List.dropWhile_append_of_pos hw]

theorem unquote_inert {w : List Char} (hw : Inert w) (hne : w ≠ []) (rest : List Char) :
    unquote (w ++ rest) = w ++ rest := by
  cases w with
  | nil => exact absurd rfl hne
  | cons a w =>
    have ha : a ≠ '"' := ne_of_class (hw a List.mem_cons_self).1 rfl
    exact unquote_of_ne (by simpa using ha)

theorem eq_unquote_of_pastText? (hplain : ∀ t ∈ texts, Plain t) {a : Char} (ha : isPlain a = false)
    {more : List Char} (h : pastText? texts (a :: rest) = some more) :
    more = unquote (a :: rest) := by
  obtain ⟨t, ht, hstart, rfl⟩ := exists_of_pastText? h
  cases t with
  | nil => rfl
  | cons b t =>
    obtain ⟨rfl, -⟩ := List.cons_prefix_cons.mp hstart
    have hb := hplain _ ht b List.mem_cons_self
    rw [ha] at hb
    exact absurd hb (by decide)

theorem Fair.good_append (h : Fair exact side texts expected rest) {w : List Char} (hw : Inert w)
    (hne : w ≠ []) (hkeys : side = .keys → ∀ more, pastText? texts (w ++ rest) = some more →
      ∃ x, ':' ∉ x ∧ more = x ++ rest) :
    Good exact side texts expected (w ++ rest) := by
  have hcolon : ':' ∉ w := fun hmem => (hw _ hmem).2 rfl
  have hunquote := unquote_inert hw hne rest
  have hpast := pastValue_append (fun c hc => (hw c hc).1) rest
  refine ⟨⟨fun x hx => ?_, fun hside => ?_, fun hside => ?_⟩, fun more hmore => ?_⟩
  · rw [← List.append_assoc]
    exact h.scan _ (by simp [hx, hcolon])
  · rw [hunquote]
    exact h.scan w hcolon
  · rw [hpast]
    exact h.passed hside
  · cases side with
    | keys =>
      rw [pastStart?, hunquote] at hmore
      obtain ⟨x, hx, rfl⟩ := hkeys rfl more hmore
      exact h.scan x hx
    | values =>
      rw [pastStart?, hunquote, hunquote, hpast] at hmore
      obtain rfl := Option.some.inj hmore
      exact h.passed rfl

theorem Fair.good_cons (h : Fair exact side texts expected rest) (hplain : ∀ t ∈ texts, Plain t)
    {a : Char} {w : List Char} (hw : Inert (a :: w)) (ha : isPlain a = false) :
    Good exact side texts expected (a :: w ++ rest) := by
  refine h.good_append hw (by simp) fun _ more hmore => ⟨a :: w, fun hmem => (hw _ hmem).2 rfl, ?_⟩
  rw [eq_unquote_of_pastText? hplain ha hmore]
  exact unquote_inert hw (by simp) rest

theorem Good.scalar (h : Good exact side texts expected rest) (hplain : ∀ t ∈ texts, Plain t)
    (hrest : Sealed rest) {w : List Char} (hw : Plain w) (hne : w ≠ []) :
    Good exact side texts expected (w ++ rest) := by
  have hinert : Inert w := by
    intro c hc
    have hquote : c ≠ '"' := ne_of_class (hw c hc) rfl
    have hcomma : c ≠ ',' := ne_of_class (hw c hc) rfl
    exact ⟨by simp [isValueChar, hquote, hcomma], ne_of_class (hw c hc) rfl⟩
  refine h.toFair.good_append hinert hne fun _ more hmore => ?_
  obtain ⟨t, ht, hstart, rfl⟩ := exists_of_pastText? hmore
  have hle := (prefix_append_iff (hplain t ht) fun a ha => (hrest.stops a ha).1).mp hstart
  have hdrop : ∀ c ∈ w.drop t.length, c ∈ w := fun c hc => List.mem_of_mem_drop hc
  refine ⟨w.drop t.length, fun hmem => (hinert _ (hdrop _ hmem)).2 rfl, ?_⟩
  rw [List.drop_append_of_le_length hle.length_le]
  by_cases hnil : w.drop t.length = []
  · rw [hnil]
    exact unquote_of_ne hrest.head?_ne
  · exact unquote_inert (fun c hc => hinert c (hdrop c hc)) hnil rest

/-- A comma, which may end a value and take a quote behind it. -/
theorem Fair.comma (h : Fair exact side texts expected rest) (hplain : ∀ t ∈ texts, Plain t) :
    Good exact side texts expected (',' :: rest) := by
  have hcomma := h.scan [','] (by simp)
  have hpast : pastValue (',' :: rest) = unquote rest := rfl
  refine ⟨⟨fun x hx => ?_, fun _ => hcomma, fun hside => ?_⟩, fun more hmore => ?_⟩
  · have := h.scan (x ++ [',']) (by simp [hx])
    rwa [List.append_assoc] at this
  · rw [hpast]
    exact h.unquoted hside
  · cases side with
    | keys =>
      rw [eq_unquote_of_pastText? hplain (a := ',') rfl hmore]
      exact hcomma
    | values =>
      obtain rfl : unquote rest = more := Option.some.inj hmore
      exact h.unquoted rfl

/-- Where a search goes on that went on in a string: in the string, or behind its last quote. -/
inductive InString (s rest : List Char) : List Char → Prop where
  | inside {w : List Char} (h : w <:+ s) : InString s rest (w ++ '"' :: rest)
  | behind : InString s rest rest

theorem InString.unquote {s m : List Char} (hrest : rest.head? ≠ some '"')
    (h : InString s rest m) : InString s rest (unquote m) := by
  cases h with
  | inside hw =>
    rename_i w
    cases w with
    | nil => exact .behind
    | cons a w =>
      rw [unquote_append (by simp)]
      exact .inside ((unquote_suffix _).trans hw)
  | behind =>
    rw [unquote_of_ne hrest]
    exact .behind

theorem inString_dropWhile {p : Char → Bool} (hp : p '"' = false) {s b : List Char} (hb : b <:+ s) :
    InString s rest ((b ++ '"' :: rest).dropWhile p) := by
  rw [List.dropWhile_append]
  split
  · rw [List.dropWhile_cons_of_neg (by simp [hp])]
    exact .inside List.nil_suffix
  · exact .inside ((List.dropWhile_suffix p).trans hb)

theorem InString.pastText? {s m more : List Char} (hplain : ∀ t ∈ texts, Plain t)
    (hrest : rest.head? ≠ some '"') (h : InString s rest m) (hmore : pastText? texts m = some more) :
    InString s rest more ∨ pastText? texts rest = some more := by
  cases h with
  | inside hw =>
    rename_i w
    obtain ⟨t, ht, hstart, rfl⟩ := exists_of_pastText? hmore
    have hle := (prefix_append_iff (hplain t ht) (by simp [isPlain])).mp hstart
    rw [List.drop_append_of_le_length hle.length_le]
    exact .inl ((InString.inside ((List.drop_suffix _ _).trans hw)).unquote hrest)
  | behind => exact .inr hmore

theorem InString.pastValue {s m : List Char} (hrest : rest.head? ≠ some '"')
    (h : InString s rest m) :
    InString s rest (pastValue m) ∨ Pattern.pastValue m = Pattern.pastValue rest := by
  cases h with
  | inside hw =>
    rename_i w
    refine .inl ?_
    rw [Pattern.pastValue, List.dropWhile_append]
    split
    · rename_i hnil
      exact InString.behind.unquote hrest
    · cases hdrop : w.dropWhile isValueChar with
      | nil => simp_all
      | cons a v =>
        have hv : v <:+ w := (List.suffix_cons a v).trans (hdrop ▸ List.dropWhile_suffix _)
        exact (InString.inside (hv.trans hw)).unquote hrest
  | behind => exact .inr rfl

theorem Good.past_inString (h : Good exact side texts expected rest) (hplain : ∀ t ∈ texts, Plain t)
    (hrest : rest.head? ≠ some '"') {s m more : List Char}
    (hs : ∀ m, InString s rest m → Agrees exact expected (scanTokens side texts m))
    (hm : InString s rest m) (hmore : pastStart? side texts m = some more) :
    Agrees exact expected (scanTokens side texts more) := by
  cases side with
  | keys =>
    rcases (hm.unquote hrest).pastText? hplain hrest hmore with hin | hpast
    · exact hs more hin
    · exact h.past more (by rw [pastStart?, unquote_of_ne hrest, hpast])
  | values =>
    obtain rfl := Option.some.inj hmore
    rcases ((hm.unquote hrest).unquote hrest).pastValue hrest with hin | hpast
    · exact hs _ hin
    · rw [hpast]
      exact h.passed rfl

/-- Whatever a search reports that starts in a string, it goes on in it or behind its last quote. -/
theorem Good.scan_string (h : Good exact side texts expected rest) (hplain : ∀ t ∈ texts, Plain t)
    (hrest : rest.head? ≠ some '"') {s : List Char} (hs : exact = true → ':' ∉ s) :
    ∀ x, ':' ∉ x → Agrees exact expected (scanTokens side texts (x ++ (s ++ '"' :: rest))) := by
  induction hn : s.length using Nat.strong_induction_on generalizing s with
  | h n ih =>
    intro x hx
    by_cases hcolon : ':' ∈ s
    · obtain rfl : exact = false := by
        rw [← Bool.not_eq_true]
        exact fun hexact => hs hexact hcolon
      obtain ⟨a, b, rfl, ha⟩ := List.eq_append_cons_of_mem hcolon
      have hin : ∀ m, InString b rest m → Agrees false expected (scanTokens side texts m) := by
        intro m hm
        cases hm with
        | inside hw =>
          have hlen := hw.length_le
          exact ih _ (by simp [← hn]; omega) (by simp) rfl [] (by simp)
        | behind => exact h.here
      have hsplit : x ++ ((a ++ ':' :: b) ++ '"' :: rest) =
          (x ++ a) ++ ':' :: (b ++ '"' :: rest) := by simp
      rw [hsplit, scanTokens_append (by simp [hx, ha]), colonTokens, pastSide?_eq]
      split
      · rename_i more _ hmore
        exact (h.past_inString hplain hrest hin (inString_dropWhile (by decide) List.suffix_rfl)
          hmore).skip _
      · exact hin _ (.inside List.suffix_rfl)
    · have hscan := h.scan (x ++ (s ++ ['"'])) (by simp [hx, hcolon])
      simpa using hscan

theorem Good.quoted (h : Good exact side texts expected rest) (hplain : ∀ t ∈ texts, Plain t)
    (hrest : rest.head? ≠ some '"') {s : List Char} (hs : exact = true → ':' ∉ s) :
    Good exact side texts expected ('"' :: (s ++ '"' :: rest)) := by
  have hscan := h.scan_string hplain hrest hs
  have hin : ∀ m, InString s rest m → Agrees exact expected (scanTokens side texts m) := by
    intro m hm
    cases hm with
    | inside hw =>
      exact h.scan_string hplain hrest (fun hexact hmem => hs hexact (hw.subset hmem)) [] (by simp)
    | behind => exact h.here
  have hfirst : InString s rest (s ++ '"' :: rest) := .inside List.suffix_rfl
  refine ⟨⟨fun x hx => ?_, fun _ => hscan [] (by simp), fun _ => hin _ (hfirst.unquote hrest)⟩,
    fun more hmore => ?_⟩
  · have hquote := hscan (x ++ ['"']) (by simp [hx])
    rwa [List.append_assoc] at hquote
  · cases side with
    | keys =>
      rcases hfirst.pastText? hplain hrest hmore with hin' | hpast
      · exact hin more hin'
      · exact h.past more (by rw [pastStart?, unquote_of_ne hrest, hpast])
    | values =>
      obtain rfl := Option.some.inj hmore
      rcases (hfirst.unquote hrest).pastValue hrest with hin' | hpast
      · exact hin _ hin'
      · exact hpast.symm ▸ h.passed rfl

theorem Json.Gap.inert (gap : Gap) : Inert gap.text := by
  intro c hc
  have hspace := gap.space c hc
  have hquote : c ≠ '"' := ne_of_class hspace rfl
  have hcomma : c ≠ ',' := ne_of_class hspace rfl
  exact ⟨by simp [isValueChar, hquote, hcomma], ne_of_class hspace rfl⟩

theorem Json.Gap.not_plain (gap : Gap) : ∀ c ∈ gap.text, isPlain c = false := by
  intro c hc
  simp [isPlain, isBlank_of_isSpace (gap.space c hc)]

theorem Good.colon {v : Layout} (h : Good false side texts expected (v.text ++ rest))
    (hplain : ∀ t ∈ texts, Plain t) (gap : Gap) :
    Good false side texts expected (':' :: (gap.text ++ (v.text ++ rest))) := by
  have hcolon : ':' ∉ gap.text := fun hmem => (gap.inert _ hmem).2 rfl
  have hscan : ∀ x, ':' ∉ x →
      Agrees false expected (scanTokens side texts (x ++ ':' :: (gap.text ++ (v.text ++ rest)))) := by
    intro x hx
    rw [scanTokens_append hx, colonTokens, pastSide?_gap]
    split
    · rename_i more _ hmore
      exact (h.past more hmore).skip _
    · exact h.scan gap.text hcolon
  have hpast : pastValue (':' :: (gap.text ++ (v.text ++ rest))) = pastValue (v.text ++ rest) :=
    pastValue_append (w := ':' :: gap.text)
      (List.forall_mem_cons.mpr ⟨rfl, fun c hc => (gap.inert c hc).1⟩) _
  refine ⟨⟨hscan, fun _ => hscan [] (by simp), fun hside => ?_⟩, fun more hmore => ?_⟩
  · rw [hpast]
    exact h.passed hside
  · cases side with
    | keys =>
      rw [eq_unquote_of_pastText? hplain (a := ':') rfl hmore]
      exact hscan [] (by simp)
    | values =>
      obtain rfl := Option.some.inj hmore
      exact hpast.symm ▸ h.passed rfl

/-- In front of a colon, what is left of a key is enough for its member to be reported as it is seen. -/
theorem Good.keyFront {v : Layout} (h : Good exact side texts expected (v.text ++ rest))
    (hplain : ∀ t ∈ texts, Plain t) (hrest : Sealed rest) {key : Key} (hkey : ':' ∉ key.raw.text)
    {front : List Char} (hfront : KeyFront key.raw.text front) :
    Agrees exact (seenTokens side texts [(key, v)] ++ expected)
      (scanTokens side texts
        (front ++ key.before.text ++ ':' :: (key.after.text ++ (v.text ++ rest)))) := by
  obtain ⟨hsome, hnone⟩ :=
    scanTokens_member hplain (hfront.sees_key hplain hkey) key.after v hrest
  by_cases hsel : selects side texts key.seen v
  · obtain ⟨more, hmore, hscan⟩ := hsome hsel
    have htokens : seenTokens side texts [(key, v)] = [memberToken side key.seen v] := by
      simp [seenTokens, hsel]
    rw [hscan, htokens]
    exact (h.past more hmore).cons _
  · have htokens : seenTokens side texts [(key, v)] = [] := by
      simp [seenTokens, hsel]
    rw [hnone hsel, htokens]
    exact h.scan _ fun hmem => (key.after.inert _ hmem).2 rfl

theorem Good.member {v : Layout} (h : Good exact side texts expected (v.text ++ rest))
    (hplain : ∀ t ∈ texts, Plain t) (hrest : Sealed rest) {key : Key} (hkey : ':' ∉ key.raw.text) :
    Fair exact side texts (seenTokens side texts [(key, v)] ++ expected)
      (key.text ++ (v.text ++ rest)) := by
  have htext : ∀ x, x ++ (key.text ++ (v.text ++ rest)) =
      x ++ '"' :: (key.raw.text ++ ['"']) ++ key.before.text ++
        ':' :: (key.after.text ++ (v.text ++ rest)) := by
    intro x
    simp [Key.text, Raw.quoted]
  have hbare := htext []
  rw [List.nil_append, List.nil_append] at hbare
  have hopened := h.keyFront hplain hrest hkey .opened
  refine ⟨fun x hx => ?_, fun _ => ?_, fun _ => ?_⟩
  · rw [htext]
    exact h.keyFront hplain hrest hkey (.whole hx)
  · rw [hbare]
    exact hopened
  · -- A value that started before takes the opening quote, and both quotes of an empty key.
    have hpast : pastValue ('"' :: (key.raw.text ++ ['"']) ++ key.before.text ++
        ':' :: (key.after.text ++ (v.text ++ rest))) =
        unquote (key.raw.text ++ ['"'] ++ key.before.text ++
          ':' :: (key.after.text ++ (v.text ++ rest))) := rfl
    rw [hbare, hpast]
    by_cases hnil : key.raw.text = []
    · rw [hnil]
      exact h.keyFront hplain hrest hkey (.passed hnil)
    · rw [unquote_of_ne]
      · exact hopened
      · rw [List.append_assoc, List.append_assoc, List.head?_append_of_ne_nil _ hnil]
        exact key.raw.head?_ne

end Rests

end PairGrep
