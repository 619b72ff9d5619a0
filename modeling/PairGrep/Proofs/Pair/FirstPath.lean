import PairGrep.Proofs.Pair.Tokens

/-!
# The first path of a search for plain texts

Where the first path of the expression of pairs ends, told by functions on the text that is left: an
element with a continuation is tried by way of the function that the element makes of it. Texts are
such here that no quote or colon in front of a value is taken for a part of them, and behind a colon
no blank either.
-/

namespace PairGrep

def isPlain (c : Char) : Bool :=
  !(c == '"' || c == '\\' || c == ':' || c == ',' || c == '[' || c == ']' || c == '{' || c == '}' ||
    isBlank c)

/-- A text without double quotes, backslashes, colons, commas, brackets, braces and blanks. -/
def Plain (text : List Char) : Prop := ∀ c ∈ text, isPlain c = true

-- The instance for all characters would go through each of them.
instance : DecidablePred Plain := fun text => List.decidableBAll (isPlain · = true) text

def isKeyChar (c : Char) : Bool := c.isAlphanum || c == '_' || c == '-'

def isValueChar (c : Char) : Bool := c != '"' && c != ','

def unquote : List Char → List Char
  | '"' :: rest => rest
  | text => text

theorem unquote_of_ne {text : List Char} (h : text.head? ≠ some '"') : unquote text = text := by
  unfold unquote
  split
  · exact absurd rfl h
  · rfl

theorem unquote_append {v w : List Char} (h : v = [] → w.head? ≠ some '"') :
    unquote (v ++ w) = unquote v ++ w := by
  cases v with
  | nil => exact unquote_of_ne (h rfl)
  | cons a v =>
    by_cases ha : a = '"'
    · subst ha
      rfl
    · rw [List.cons_append, unquote_of_ne (by simpa using ha), unquote_of_ne (by simpa using ha),
        List.cons_append]

theorem unquote_suffix (text : List Char) : unquote text <:+ text := by
  unfold unquote
  split
  · exact List.suffix_cons _ _
  · exact List.suffix_refl _

theorem prefix_append_iff_of_not_mem {t w rest : List Char} (hrest : ∀ a ∈ rest.head?, a ∉ t) :
    t <+: w ++ rest ↔ t <+: w := by
  refine ⟨fun h => ?_, fun h => h.trans (List.prefix_append w rest)⟩
  rcases List.prefix_or_prefix_of_prefix h (List.prefix_append w rest) with h' | ⟨v, rfl⟩
  · exact h'
  · cases v with
    | nil => simp
    | cons a v =>
      obtain ⟨more, rfl⟩ := (List.prefix_append_right_inj w).mp h
      exact absurd (by simp) (hrest a rfl)

theorem prefix_append_iff {t w rest : List Char} (ht : Plain t)
    (hrest : ∀ a ∈ rest.head?, isPlain a = false) : t <+: w ++ rest ↔ t <+: w :=
  prefix_append_iff_of_not_mem fun a ha hmem => absurd (ht a hmem) (by simp [hrest a ha])

/-- Texts of which no quote or colon of a pair is taken for a part: plain ones where they are searched
for as values, and ones without quotes and colons where they are searched for as keys. -/
def Delimited (side : Side) (texts : List (List Char)) : Prop :=
  match side with
  | .keys => ∀ t ∈ texts, Plain t
  | .values => ∀ t ∈ texts, '"' ∉ t ∧ ':' ∉ t

theorem delimited_of_plain (side : Side) {texts : List (List Char)} (h : ∀ t ∈ texts, Plain t) :
    Delimited side texts := by
  cases side with
  | keys => exact h
  | values =>
    have hnot : ∀ {a : Char}, isPlain a = false → ∀ t ∈ texts, a ∉ t := by
      intro a ha t ht hmem
      rw [h t ht a hmem] at ha
      exact absurd ha (by decide)
    exact fun t ht => ⟨hnot rfl t ht, hnot rfl t ht⟩

namespace Pattern

/-- Tried with a continuation, the expression gives what a function of the text that is left gives. -/
def Expr.Tries {α : Type} (e : Expr) (g h : List Char → Option α) : Prop :=
  ∀ c : Cursor, (e.paths c).findSome? (fun d => g d.after) = h c.after

namespace Expr

variable {α : Type} {e f : Expr} {g h i : List Char → Option α}

theorem Tries.congr (he : e.Tries g h) (hi : ∀ text, h text = i text) : e.Tries g i :=
  fun c => (he c).trans (hi _)

theorem Tries.cat (hf : f.Tries g h) (he : e.Tries h i) : (e.cat f).Tries g i := by
  intro c
  rw [paths, Moves.findSome?_seq, ← he c]
  congr 1
  funext d
  exact hf d

theorem Tries.alt (he : e.Tries g h) (hf : f.Tries g i) :
    (e.alt f).Tries g fun text => (h text).or (i text) := by
  intro c
  rw [paths, List.findSome?_append, he c, hf c]

theorem Tries.capture (he : e.Tries g h) (index : Nat) : (Expr.capture index e).Tries g h := by
  intro c
  rw [paths, List.findSome?_map]
  exact he (c.mark (2 * index))

theorem tries_textEnd (g : List Char → Option α) :
    (look .textEnd).Tries g fun text => if text = [] then g [] else none := by
  rintro ⟨before, after, marks⟩
  cases after with
  | nil => simp [paths, Look.holds]
  | cons a after => simp [paths, Look.holds]

theorem tries_set (s : CharSet) (g : List Char → Option α) :
    (set s).Tries g fun text =>
      match text with
      | a :: rest => if s.contains a then g rest else none
      | [] => none := by
  rintro ⟨before, after, marks⟩
  cases after with
  | nil => rfl
  | cons a after =>
    simp only [paths]
    split <;> simp

/-- A quote that stands at the place is taken, where the continuation fails on it anyway if it fails
behind it. -/
theorem tries_quote (hg : ∀ rest, g rest = none → g ('"' :: rest) = none) :
    quote.Tries g fun text => g (unquote text) := by
  rintro ⟨before, after, marks⟩
  rw [paths_quote]
  by_cases hq : after.head? = some '"'
  · obtain ⟨rest, rfl⟩ := List.head?_eq_some_iff.mp hq
    have hrest := hg rest
    simp only [List.head?_cons, if_true, List.findSome?_cons, List.findSome?_nil, Cursor.past_after,
      List.length_singleton, List.drop_one, List.tail_cons, unquote]
    cases hcase : g rest with
    | some x => rfl
    | none => rw [hrest hcase]
  · simp only [hq, if_false, List.findSome?_cons, List.findSome?_nil, unquote_of_ne hq]
    cases g after <;> rfl

/-- A run takes all characters of the set that follow, where the continuation fails before them if it
fails behind them. -/
theorem tries_run (s : CharSet)
    (hg : ∀ text, g (text.dropWhile s.contains) = none → g text = none) :
    (repeated 0 none true (set s)).Tries g fun text => g (text.dropWhile s.contains) := by
  intro c
  obtain ⟨more, hpaths, hmore⟩ := paths_run s c
  have hdrop : (c.past (c.after.takeWhile s.contains)).after = c.after.dropWhile s.contains := by
    calc c.after.drop (c.after.takeWhile s.contains).length
        = (c.after.takeWhile s.contains ++ c.after.dropWhile s.contains).drop
            (c.after.takeWhile s.contains).length := by rw [List.takeWhile_append_dropWhile]
      _ = c.after.dropWhile s.contains := List.drop_left
  change _ = g (c.after.dropWhile s.contains)
  rw [hpaths, List.findSome?_cons, hdrop]
  cases hcase : g (c.after.dropWhile s.contains) with
  | some x => rfl
  | none =>
    change List.findSome? _ more = none
    rw [List.findSome?_eq_none_iff]
    intro d hd
    obtain ⟨w, a, rest, rfl, hafter, ha, hw⟩ := hmore d hd
    rw [hafter, List.dropWhile_append_of_pos hw] at hcase
    rw [Cursor.past_after, hafter, List.drop_left]
    exact hg _ hcase

theorem tries_choice (texts : List (List Char)) (g : List Char → Option α) :
    (choice (texts.map ofText)).Tries g fun text =>
      texts.findSome? fun t => if t <+: text then g (text.drop t.length) else none :=
  fun c => findSome?_choice texts c _

theorem Tries.head? {h : List Char → Option (List Char)} (he : e.Tries some h) (c : Cursor) :
    (e.paths c).head?.map Cursor.after = h c.after := by
  rw [← he c]
  cases e.paths c <;> rfl

end Expr

section Sets

private theorem char_eq_iff {c : Char} (a : Char) : c = a ↔ c.toNat = a.toNat :=
  ⟨congrArg _, fun h => Char.ext (UInt32.ext h)⟩

theorem contains_valueEnds (c : Char) : valueEnds.contains c = !isValueChar c := by
  have hquote := char_eq_iff (c := c) '"'
  have hcomma := char_eq_iff (c := c) ','
  rw [Bool.eq_iff_iff]
  simp only [CharSet.contains, CharSet.containsCode, valueEnds, CharSet.inRanges, isValueChar]
  simp at hquote hcomma ⊢
  rw [hquote, hcomma]
  omega

theorem contains_valueChars (c : Char) : valueEnds.complement.contains c = isValueChar c := by
  have hquote := char_eq_iff (c := c) '"'
  have hcomma := char_eq_iff (c := c) ','
  have hranges : valueEnds.complement.ranges = [(0, 33), (35, 43), (45, 0x10FFFF)] := by decide
  have hmax : c.toNat ≤ 0x10FFFF := by
    rcases c.valid with h | h
    · exact Nat.le_trans (Nat.le_of_lt h) (by decide)
    · exact Nat.le_of_lt_succ h.2
  rw [Bool.eq_iff_iff]
  simp only [CharSet.contains, CharSet.containsCode, hranges, CharSet.inRanges, isValueChar]
  simp at hquote hcomma ⊢
  rw [hquote, hcomma]
  omega

theorem contains_keyChars (c : Char) : keyChars.contains c = isKeyChar c := by
  have hbar := char_eq_iff (c := c) '_'
  have hhyphen := char_eq_iff (c := c) '-'
  rw [Bool.eq_iff_iff]
  simp only [CharSet.contains, CharSet.containsCode, keyChars, CharSet.inRanges, isKeyChar]
  simp [Char.isAlphanum, Char.isAlpha, Char.isDigit, Char.isUpper, Char.isLower,
    UInt32.le_iff_toNat_le] at hbar hhyphen ⊢
  rw [hbar, hhyphen]
  omega

end Sets

/-- What is left behind a value that starts at the place, quotes before it apart. -/
def pastValue (text : List Char) : List Char := unquote ((text.dropWhile isValueChar).drop 1)

def pastText? (texts : List (List Char)) (text : List Char) : Option (List Char) :=
  (texts.find? fun t => decide (t <+: text)).map fun t => unquote (text.drop t.length)

/-- What is left behind the value of a pair, if one can be matched behind its colon. -/
def pastSide? (side : Side) (texts : List (List Char)) (text : List Char) : Option (List Char) :=
  match side with
  | .keys => pastText? texts (unquote (text.dropWhile isBlank))
  | .values => some (pastValue (unquote (unquote (text.dropWhile isBlank))))

/-- Can the text be matched as the key of a pair, quotes before it apart? -/
def keyFits (side : Side) (texts : List (List Char)) (text : List Char) : Prop :=
  match side with
  | .keys => unquote (text.dropWhile isKeyChar) = []
  | .values => ∃ t ∈ texts, t <+: text ∧ unquote (text.drop t.length) = []

instance (side : Side) (texts : List (List Char)) : DecidablePred (keyFits side texts) :=
  fun text =>
    match side with
    | .keys => inferInstanceAs (Decidable (unquote (text.dropWhile isKeyChar) = []))
    | .values =>
      inferInstanceAs (Decidable (∃ t ∈ texts, t <+: text ∧ unquote (text.drop t.length) = []))

section Pair

def pastEnd? : List Char → Option (List Char)
  | a :: rest => if isValueChar a then none else some (unquote rest)
  | [] => some []

theorem pastEnd?_dropWhile (text : List Char) :
    pastEnd? (text.dropWhile isValueChar) = some (pastValue text) := by
  have hhead := List.head?_dropWhile_not isValueChar text
  rw [pastValue]
  cases hdrop : text.dropWhile isValueChar with
  | nil => rfl
  | cons a rest =>
    rw [hdrop] at hhead
    have ha : isValueChar a = false := by simpa using hhead
    simp [pastEnd?, ha]

private theorem tries_lastQuote : Expr.quote.Tries some fun text => some (unquote text) :=
  Expr.tries_quote (g := some) fun _ h => (by simp at h)

theorem tries_end :
    ((Expr.set valueEnds).alt (.look .textEnd)).Tries (fun text => some (unquote text))
      pastEnd? := by
  apply ((Expr.tries_set valueEnds _).alt (Expr.tries_textEnd _)).congr
  intro text
  cases text with
  | nil => rfl
  | cons a rest =>
    simp only [contains_valueEnds, pastEnd?]
    cases isValueChar a <;> rfl

theorem tries_value : (Expr.quote.cat ((Expr.capture 2 valueExpr).cat .quote)).Tries some
    fun text => some (pastValue (unquote (unquote text))) := by
  have hchars : valueEnds.complement.contains = isValueChar := funext contains_valueChars
  have hrun := Expr.tries_run valueEnds.complement (g := pastEnd?)
  rw [hchars] at hrun
  have hbody := (hrun fun text h => by simp [pastEnd?_dropWhile] at h).congr pastEnd?_dropWhile
  have hquote := Expr.tries_quote (g := fun text => some (pastValue text)) fun _ h => (by simp at h)
  have hvalue : valueExpr.Tries (fun text => some (unquote text))
      fun text => some (pastValue (unquote text)) := (tries_end.cat hbody).cat hquote
  exact (tries_lastQuote.cat (hvalue.capture 2)).cat
    (Expr.tries_quote (g := fun text => some (pastValue (unquote text))) fun _ h => (by simp at h))

theorem pastText?_of_none {texts : List (List Char)} (hplain : ∀ t ∈ texts, Plain t) {a : Char}
    (ha : isPlain a = false) {text : List Char} (h : pastText? texts text = none) (rest : List Char) :
    pastText? texts (a :: rest) = none := by
  rw [pastText?, Option.map_eq_none_iff, List.find?_eq_none] at h ⊢
  intro t ht hstart
  apply h t ht
  cases t with
  | nil => simp
  | cons b t =>
    obtain ⟨rfl, -⟩ := List.cons_prefix_cons.mp (by simpa using hstart)
    rw [hplain _ ht b List.mem_cons_self] at ha
    exact absurd ha (by simp)

theorem tries_text {texts : List (List Char)} (hplain : ∀ t ∈ texts, Plain t) :
    (Expr.quote.cat ((Expr.capture 2 (.choice (texts.map .ofText))).cat .quote)).Tries some
      fun text => pastText? texts (unquote text) := by
  have hfind : ∀ (texts : List (List Char)) (text : List Char),
      (texts.findSome? fun t => if t <+: text then some (unquote (text.drop t.length)) else none) =
        pastText? texts text := by
    intro texts text
    induction texts with
    | nil => rfl
    | cons t texts ih =>
      rw [List.findSome?_cons, ih, pastText?, pastText?, List.find?_cons]
      by_cases ht : t <+: text <;> simp [ht]
  have hchoice := (Expr.tries_choice texts fun text => some (unquote text)).congr (hfind texts)
  exact (tries_lastQuote.cat (hchoice.capture 2)).cat
    (Expr.tries_quote fun text h => pastText?_of_none hplain (a := '"') rfl h text)

def pastColon? (g : List Char → Option (List Char)) : List Char → Option (List Char)
  | ':' :: rest => g rest
  | _ => none

theorem pastColon?_append {v : List Char} (hv : ':' ∉ v) (g : List Char → Option (List Char))
    (rest : List Char) : pastColon? g (v ++ ':' :: rest) = if v = [] then g rest else none := by
  cases v with
  | nil => rfl
  | cons a v =>
    have ha : a ≠ ':' := fun h => hv (h ▸ List.mem_cons_self)
    simp [pastColon?, ha]

theorem tries_colon {e : Expr} {g : List Char → Option (List Char)} (he : e.Tries some g)
    (hg : ∀ text, g (text.dropWhile isBlank) = none → g text = none) :
    ((Expr.set (.single ':')).cat ((Expr.repeated 0 none true (.set Unicode.space)).cat e)).Tries some
      (pastColon? fun text => g (text.dropWhile isBlank)) := by
  have hspace : Unicode.space.contains = isBlank := funext contains_space
  have hrun := Expr.tries_run Unicode.space (g := g)
  rw [hspace] at hrun
  apply ((he.cat (hrun hg)).cat (Expr.tries_set _ _)).congr
  intro text
  cases text with
  | nil => rfl
  | cons a rest =>
    by_cases ha : a = ':'
    · subst ha
      rfl
    · have hnot : (CharSet.single ':').contains a = false := by
        rw [← Bool.not_eq_true, CharSet.contains_single]
        exact ha
      simp [pastColon?, hnot, ha]

/-- The text behind a key and the quote after it is left to a continuation behind a colon. -/
def pastKey? (side : Side) (texts : List (List Char)) (g : List Char → Option (List Char))
    (text : List Char) : Option (List Char) :=
  match side with
  | .keys => pastColon? g (unquote (text.dropWhile isKeyChar))
  | .values => texts.findSome? fun t =>
    if t <+: text then pastColon? g (unquote (text.drop t.length)) else none

private theorem pastColon?_cons {g : List Char → Option (List Char)} {text : List Char} {a : Char}
    (ha : a ≠ ':') : pastColon? g (a :: text) = none := by
  simp [pastColon?, ha]

/-- A quote in front of a key only matters where it is taken for the one behind the empty key, and
there it is not missed. -/
theorem pastKey?_quote (side : Side) {texts : List (List Char)} (htexts : Delimited side texts)
    {g : List Char → Option (List Char)} {text : List Char}
    (h : pastKey? side texts g text = none) : pastKey? side texts g ('"' :: text) = none := by
  have hcolon : ∀ {rest : List Char}, pastColon? g (unquote rest) = none →
      pastColon? g rest = none := by
    intro rest hrest
    cases rest with
    | nil => rfl
    | cons a rest =>
      by_cases ha : a = '"'
      · subst ha
        exact pastColon?_cons (by decide)
      · rwa [unquote_of_ne (by simpa using ha)] at hrest
  cases side with
  | keys =>
    have hrest : pastColon? g text = none := by
      cases text with
      | nil => rfl
      | cons a text =>
        by_cases ha : a = ':'
        · subst ha
          exact h
        · exact pastColon?_cons ha
    exact hrest
  | values =>
    rw [pastKey?, List.findSome?_eq_none_iff] at h ⊢
    intro t ht
    split
    · rename_i hstart
      cases t with
      | nil =>
        have hnil : pastColon? g (unquote text) = none := by simpa using h [] ht
        exact hcolon hnil
      | cons b t =>
        obtain ⟨rfl, -⟩ := List.cons_prefix_cons.mp hstart
        exact absurd List.mem_cons_self (htexts _ ht).1
    · rfl

private theorem pastColon?_unquote {v : List Char} (hv : ':' ∉ v)
    (g : List Char → Option (List Char)) (rest : List Char) :
    pastColon? g (unquote (v ++ ':' :: rest)) = if unquote v = [] then g rest else none := by
  rw [unquote_append (fun _ => by simp), pastColon?_append]
  exact fun hmem => hv ((unquote_suffix v).subset hmem)

private theorem pastKey?_values {texts : List (List Char)} (htexts : ∀ t ∈ texts, ':' ∉ t)
    {u : List Char} (hu : ':' ∉ u) (g : List Char → Option (List Char)) (rest : List Char) :
    pastKey? .values texts g (u ++ ':' :: rest) =
      if keyFits .values texts u then g rest else none := by
  induction texts with
  | nil => simp [pastKey?, keyFits]
  | cons t texts ih =>
    have hone : (if t <+: u ++ ':' :: rest then
        pastColon? g (unquote ((u ++ ':' :: rest).drop t.length)) else none) =
          if t <+: u ∧ unquote (u.drop t.length) = [] then g rest else none := by
      have hiff : t <+: u ++ ':' :: rest ↔ t <+: u :=
        prefix_append_iff_of_not_mem (by simpa using htexts t List.mem_cons_self)
      by_cases hstart : t <+: u
      · rw [if_pos (hiff.mpr hstart), List.drop_append_of_le_length hstart.length_le,
          pastColon?_unquote fun hmem => hu (List.mem_of_mem_drop hmem)]
        simp [hstart]
      · rw [if_neg fun h => hstart (hiff.mp h), if_neg fun h => hstart h.1]
    have hmore := ih fun s hs => htexts s (List.mem_cons_of_mem t hs)
    rw [pastKey?] at hmore
    have hfits : keyFits .values (t :: texts) u ↔
        (t <+: u ∧ unquote (u.drop t.length) = []) ∨ keyFits .values texts u := by
      simp [keyFits]
    rw [pastKey?, List.findSome?_cons, hone, hmore]
    by_cases ht : t <+: u ∧ unquote (u.drop t.length) = []
    · rw [if_pos ht, if_pos (hfits.mpr (.inl ht))]
      cases g rest with
      | some x => rfl
      | none => exact ite_self _
    · rw [if_neg ht]
      by_cases hothers : keyFits .values texts u
      · rw [if_pos hothers, if_pos (hfits.mpr (.inr hothers))]
      · rw [if_neg hothers, if_neg fun h => (hfits.mp h).elim ht hothers]

theorem pastKey?_append {side : Side} {texts : List (List Char)} (htexts : Delimited side texts)
    {u : List Char} (hu : ':' ∉ u) (g : List Char → Option (List Char)) (rest : List Char) :
    pastKey? side texts g (u ++ ':' :: rest) = if keyFits side texts u then g rest else none := by
  cases side with
  | keys =>
    have hdrop : (u ++ ':' :: rest).dropWhile isKeyChar = u.dropWhile isKeyChar ++ ':' :: rest := by
      rw [List.dropWhile_append]
      cases hcase : u.dropWhile isKeyChar with
      | nil => rfl
      | cons a v => rfl
    rw [pastKey?, hdrop, pastColon?_unquote fun hmem => hu ((List.dropWhile_suffix _).subset hmem)]
    rfl
  | values => exact pastKey?_values (fun t ht => (htexts t ht).2) hu g rest

/-- The whole expression of a search, told by the text that is left. -/
theorem tries_searchExpr (side : Side) {texts : List (List Char)} (htexts : Delimited side texts) :
    (searchExpr side texts).Tries some
      fun text => pastKey? side texts (pastSide? side texts) (unquote text) := by
  have hquote : ∀ g : List Char → Option (List Char),
      Expr.quote.Tries (pastColon? g) fun text => pastColon? g (unquote text) :=
    fun g => Expr.tries_quote fun _ _ => pastColon?_cons (by decide)
  cases side with
  | keys =>
    have hblank : ∀ text : List Char, pastText? texts (unquote (text.dropWhile isBlank)) = none →
        pastText? texts (unquote text) = none := by
      intro text h
      cases text with
      | nil => exact h
      | cons a rest =>
        by_cases ha : isBlank a = true
        · have hne : a ≠ '"' := fun hq => absurd (hq ▸ ha) (by decide)
          have hnot : isPlain a = false := by simp [isPlain, ha]
          rw [unquote_of_ne (by simpa using hne)]
          exact pastText?_of_none htexts hnot h rest
        · rwa [List.dropWhile_cons_of_neg ha] at h
    have hchars : keyChars.contains = isKeyChar := funext contains_keyChars
    have hrun := Expr.tries_run keyChars
      (g := fun text => pastColon? (pastSide? .keys texts) (unquote text))
    rw [hchars] at hrun
    have hkey := hrun fun text h => by
      cases text with
      | nil => exact h
      | cons a rest =>
        by_cases ha : isKeyChar a = true
        · have hne : a ≠ '"' := fun hq => absurd (hq ▸ ha) (by decide)
          have hcolon : a ≠ ':' := fun hq => absurd (hq ▸ ha) (by decide)
          rw [unquote_of_ne (by simpa using hne)]
          exact pastColon?_cons hcolon
        · rwa [List.dropWhile_cons_of_neg ha] at h
    exact ((((tries_colon (tries_text htexts) hblank).cat (hquote _)).cat (hkey.capture 1)).cat
      (Expr.tries_quote fun _ => pastKey?_quote .keys htexts))
  | values =>
    have hkey := Expr.tries_choice texts
      fun text => pastColon? (pastSide? .values texts) (unquote text)
    exact ((((tries_colon tries_value fun _ h => by simp at h).cat (hquote _)).cat
      (hkey.capture 1)).cat (Expr.tries_quote fun _ => pastKey?_quote .values htexts))

/-- Where the first path ends that starts at some characters in front of a colon. -/
theorem head?_paths_of_colon (side : Side) {texts : List (List Char)}
    (htexts : Delimited side texts) {c : Cursor} {u rest : List Char} (hu : ':' ∉ u)
    (hc : c.after = u ++ ':' :: rest) :
    ((searchExpr side texts).paths c).head?.map Cursor.after =
      if keyFits side texts (unquote u) then pastSide? side texts rest else none := by
  rw [(tries_searchExpr side htexts).head?, hc, unquote_append (fun _ => by simp),
    pastKey?_append htexts fun hmem => hu ((unquote_suffix u).subset hmem)]

theorem head?_paths_of_not_mem {side : Side} {texts : List (List Char)}
    (htexts : Delimited side texts) {c : Cursor} (hc : ':' ∉ c.after) :
    ((searchExpr side texts).paths c).head? = none := by
  have hcolon : ∀ {g : List Char → Option (List Char)} {text : List Char}, text <:+ c.after →
      pastColon? g text = none := by
    intro g text hsuffix
    cases text with
    | nil => rfl
    | cons a text => exact pastColon?_cons fun ha => hc (hsuffix.subset (by simp [ha]))
  have hunquote := unquote_suffix c.after
  rw [← Option.map_eq_none_iff, (tries_searchExpr side htexts).head?]
  cases side with
  | keys =>
    exact hcolon ((unquote_suffix _).trans ((List.dropWhile_suffix _).trans hunquote))
  | values =>
    rw [pastKey?, List.findSome?_eq_none_iff]
    intro t _
    split
    · exact hcolon ((unquote_suffix _).trans ((List.drop_suffix _ _).trans hunquote))
    · rfl

end Pair

end Pattern

end PairGrep
