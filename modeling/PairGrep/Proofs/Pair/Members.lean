import PairGrep.Proofs.Json.Layout
import PairGrep.Proofs.Pair.Scan

/-!
# Members as pairs

What a scan sees of a member of an object: its key, as far as it is left in front of the colon, and
its value behind the colon, with what follows the value.
-/

namespace PairGrep

open Pattern

section Keys

variable {side : Side} {texts : List (List Char)}

/-- The key that is matched is the longest end of the text that fits. -/
theorem longestKey?_spec {front u : List Char} (h : longestKey? side texts front = some u) :
    u <:+ front ∧ keyFits side texts (unquote u) ∧
      ∀ z, z <:+ front → keyFits side texts (unquote z) → z.length ≤ u.length := by
  induction front with
  | nil =>
    have hu : u ∈ ([] : List Char).tails := List.mem_of_find?_eq_some h
    obtain rfl : u = [] := by simpa using hu
    refine ⟨List.suffix_refl _, by simpa using List.find?_some h, fun z hz _ => ?_⟩
    rw [List.suffix_nil.mp hz]
  | cons a front ih =>
    rw [longestKey?_cons] at h
    split at h
    · rename_i hfits
      obtain rfl := Option.some.inj h
      exact ⟨List.suffix_refl _, hfits, fun z hz _ => hz.length_le⟩
    · rename_i hfits
      obtain ⟨hsuffix, hu, hmax⟩ := ih h
      refine ⟨hsuffix.trans (List.suffix_cons _ _), hu, fun z hz hzfits => ?_⟩
      rcases List.suffix_cons_iff.mp hz with rfl | hz
      · exact absurd hzfits hfits
      · exact hmax z hz hzfits

theorem longestKey?_isSome {front : List Char} :
    (longestKey? side texts front).isSome ↔
      ∃ u, u <:+ front ∧ keyFits side texts (unquote u) := by
  rw [longestKey?, List.find?_isSome]
  simp [List.mem_tails]

/-- What is left of a key in front of its colon: the quoted key behind other characters, the key
behind its opening quote, or nothing of an empty key. -/
inductive KeyFront (key : List Char) : List Char → Prop where
  | whole {x : List Char} (hx : ':' ∉ x) : KeyFront key (x ++ '"' :: (key ++ ['"']))
  | opened : KeyFront key (key ++ ['"'])
  | passed (h : key = []) : KeyFront key []

theorem eq_nil_of_suffix_quote {w y : List Char} (hw : '"' ∉ w) (h : w <:+ y ++ ['"']) : w = [] := by
  rcases List.eq_nil_or_concat w with rfl | ⟨v, a, rfl⟩
  · rfl
  · rw [List.concat_eq_append] at h hw
    obtain ⟨z, hz⟩ := h
    rw [← List.append_assoc] at hz
    obtain rfl : a = '"' := by simpa using (List.append_inj' hz rfl).2
    simp at hw

theorem KeyFront.suffix {key front w : List Char} (h : KeyFront key front) (hw : '"' ∉ w)
    (hsuffix : w <:+ front ∨ w ++ ['"'] <:+ front) : w <:+ key := by
  have hquoted : ∀ {y : List Char}, w <:+ y ++ ['"'] ∨ w ++ ['"'] <:+ y ++ ['"'] → w <:+ y := by
    rintro y (h | ⟨z, hz⟩)
    · rw [eq_nil_of_suffix_quote hw h]
      exact List.nil_suffix
    · rw [← List.append_assoc] at hz
      exact ⟨z, List.append_cancel_right hz⟩
  cases h with
  | whole hx =>
    rename_i x
    have hend : w <:+ x ++ '"' :: key := hquoted (by simpa using hsuffix)
    rcases List.suffix_or_suffix_of_suffix hend (List.suffix_append x ('"' :: key)) with h | h
    · rcases List.suffix_cons_iff.mp h with rfl | h
      · simp at hw
      · exact h
    · exact absurd (h.subset List.mem_cons_self) hw
  | opened => exact hquoted hsuffix
  | passed hkey =>
    rcases hsuffix with h | h
    · rw [List.suffix_nil.mp h]
      exact List.nil_suffix
    · simp at h

theorem KeyFront.quoted_suffix {key front w : List Char} (h : KeyFront key front) (hw : w <:+ key) :
    w ++ ['"'] <:+ front ∨ w = [] ∧ front = [] := by
  obtain ⟨z, rfl⟩ := hw
  cases h with
  | whole hx =>
    rename_i x
    exact .inl ⟨x ++ '"' :: z, by simp⟩
  | opened => exact .inl ⟨z, by simp⟩
  | passed hkey => exact .inr ⟨(List.append_eq_nil_iff.mp hkey).2, rfl⟩

theorem unquote_eq_nil {text : List Char} (h : unquote text = []) : text = [] ∨ text = ['"'] := by
  unfold unquote at h
  split at h
  · exact .inr (by rw [h])
  · exact .inl h

theorem exists_append_unquote (text : List Char) :
    ∃ q, (q = [] ∨ q = ['"']) ∧ text = q ++ unquote text := by
  unfold unquote
  split
  · exact ⟨['"'], .inr rfl, rfl⟩
  · exact ⟨[], .inl rfl, rfl⟩

theorem strip_of_quote {q : List Char} (h : q = [] ∨ q = ['"']) : strip q = [] := by
  rcases h with rfl | rfl <;> decide

theorem quote_not_mem {t : List Char} (h : Plain t) : '"' ∉ t :=
  fun hmem => absurd (h _ hmem) (by decide)

theorem longestKey?_values {key front : List Char} (hplain : ∀ t ∈ texts, Plain t)
    (hfront : KeyFront key front) :
    (longestKey? .values texts front).isSome ↔ ∃ t ∈ texts, t <:+ key := by
  rw [longestKey?_isSome]
  constructor
  · rintro ⟨u, hu, t, ht, ⟨q, hq⟩, hrest⟩
    rw [← hq, List.drop_left] at hrest
    have hsuffix := (unquote_suffix u).trans hu
    rw [← hq] at hsuffix
    refine ⟨t, ht, hfront.suffix (quote_not_mem (hplain t ht)) ?_⟩
    rcases unquote_eq_nil hrest with rfl | rfl
    · exact .inl (by simpa using hsuffix)
    · exact .inr hsuffix
  · rintro ⟨t, ht, htkey⟩
    rcases hfront.quoted_suffix htkey with hsuffix | ⟨rfl, rfl⟩
    · refine ⟨t ++ ['"'], hsuffix, t, ht, ?_⟩
      cases t with
      | nil => exact ⟨List.nil_prefix, rfl⟩
      | cons a t =>
        have ha : a ≠ '"' := fun h => quote_not_mem (hplain _ ht) (h ▸ List.mem_cons_self)
        rw [unquote_of_ne (by simpa using ha)]
        exact ⟨List.prefix_append _ _, by rw [List.drop_left]; rfl⟩
    · exact ⟨[], List.suffix_refl _, [], ht, List.nil_prefix, rfl⟩

theorem ne_of_class {p : Char → Bool} {a c : Char} (hc : p c = true) (ha : p a = false) : c ≠ a := by
  rintro rfl
  rw [hc] at ha
  exact absurd ha (by decide)

theorem isBlank_of_isKeyChar {c : Char} (h : isKeyChar c = true) : isBlank c = false := by
  rw [← contains_keyChars] at h
  simp only [CharSet.contains, CharSet.containsCode, keyChars, CharSet.inRanges] at h
  simp [isBlank] at h ⊢
  omega

theorem strip_of_isKeyChar {w : List Char} (h : ∀ c ∈ w, isKeyChar c = true) : strip w = w := by
  rw [strip, List.filter_eq_self]
  intro c hc
  have hchar := h c hc
  have hne : ∀ a : Char, isKeyChar a = false → c ≠ a := fun a ha => ne_of_class hchar ha
  simp [isStripped, isBlank_of_isKeyChar hchar, hne '"' rfl, hne ',' rfl, hne '}' rfl, hne ']' rfl]

theorem isPlain_of_isKeyChar {c : Char} (h : isKeyChar c = true) : isPlain c = true := by
  have hne : ∀ a : Char, isKeyChar a = false → c ≠ a := fun a ha => ne_of_class h ha
  simp [isPlain, isBlank_of_isKeyChar h, hne '"' rfl, hne '\\' rfl, hne ':' rfl, hne ',' rfl,
    hne '[' rfl, hne ']' rfl, hne '{' rfl, hne '}' rfl]

theorem suffix_rtakeWhile {α : Type} {p : α → Bool} {w l : List α} (h : w <:+ l)
    (hw : ∀ a ∈ w, p a = true) : w <:+ l.rtakeWhile p := by
  obtain ⟨z, hz⟩ := List.reverse_prefix.mpr h
  rw [← List.reverse_prefix, List.rtakeWhile, List.reverse_reverse, ← hz,
    List.takeWhile_append_of_pos (by simpa using hw)]
  exact List.prefix_append _ _

private theorem keyFits_keys {w : List Char} (hw : ∀ c ∈ w, isKeyChar c = true) :
    keyFits .keys texts (unquote (w ++ ['"'])) := by
  cases w with
  | nil => rfl
  | cons a w =>
    have ha : a ≠ '"' := ne_of_class (hw a List.mem_cons_self) rfl
    rw [unquote_of_ne (by simpa using ha), keyFits, List.dropWhile_append_of_pos hw]
    rfl

private theorem exists_word_of_keyFits {u : List Char} (h : keyFits .keys texts (unquote u)) :
    ∃ q word last, (q = [] ∨ q = ['"']) ∧ (last = [] ∨ last = ['"']) ∧
      (∀ c ∈ word, isKeyChar c = true) ∧ unquote u = word ++ last ∧ u = q ++ (word ++ last) := by
  obtain ⟨q, hq, hsplit⟩ := exists_append_unquote u
  have hwhole := List.takeWhile_append_dropWhile (p := isKeyChar) (l := unquote u)
  exact ⟨q, _, _, hq, unquote_eq_nil h, fun c hc => List.mem_takeWhile_imp hc, hwhole.symm,
    by rw [hwhole, ← hsplit]⟩

private theorem length_le_of_quoted_suffix {q word last w : List Char} (hq : q = [] ∨ q = ['"'])
    (hlast : last = [] ∨ last = ['"']) (hw : '"' ∉ w) (h : w ++ ['"'] <:+ q ++ (word ++ last)) :
    w.length ≤ word.length := by
  have hlen := h.length_le
  rcases hq with rfl | rfl
  · rcases hlast with rfl | rfl <;> simp at hlen <;> omega
  · rcases hlast with rfl | rfl
    · simp at hlen
      omega
    · -- The quote in front of the word would stand in the longer end.
      rcases List.suffix_cons_iff.mp h with heq | h
      · obtain rfl : w = '"' :: word := List.append_cancel_right heq
        exact absurd List.mem_cons_self hw
      · have hlen := h.length_le
        simp at hlen
        omega

/-- The keys that are found are the longest ends of the keys in the text. -/
theorem longestKey?_keys {key front : List Char} (hfront : KeyFront key front) :
    ∃ u, longestKey? .keys texts front = some u ∧ strip u = key.rtakeWhile isKeyChar := by
  have hend : ∀ c ∈ key.rtakeWhile isKeyChar, isKeyChar c = true :=
    fun c hc => List.mem_rtakeWhile_imp hc
  have hquoted := hfront.quoted_suffix (List.rtakeWhile_suffix isKeyChar key)
  have hsome : (longestKey? .keys texts front).isSome := by
    rw [longestKey?_isSome]
    rcases hquoted with h | ⟨-, rfl⟩
    · exact ⟨_, h, keyFits_keys hend⟩
    · exact ⟨[], List.suffix_refl _, rfl⟩
  obtain ⟨u, hu⟩ := Option.isSome_iff_exists.mp hsome
  obtain ⟨hsuffix, hfits, hmax⟩ := longestKey?_spec hu
  obtain ⟨q, word, last, hq, hlast, hword, hunquote, rfl⟩ := exists_word_of_keyFits hfits
  have hle : word <:+ key.rtakeWhile isKeyChar := by
    refine suffix_rtakeWhile (hfront.suffix (fun h => ne_of_class (hword _ h) rfl rfl) ?_) hword
    have hback := (unquote_suffix _).trans hsuffix
    rw [hunquote] at hback
    rcases hlast with rfl | rfl
    · exact .inl (by simpa using hback)
    · exact .inr hback
  have hge : (key.rtakeWhile isKeyChar).length ≤ word.length := by
    rcases hquoted with hquoted | ⟨hnil, -⟩
    · refine length_le_of_quoted_suffix hq hlast (fun h => ne_of_class (hend _ h) rfl rfl) ?_
      exact List.suffix_of_suffix_length_le hquoted hsuffix (hmax _ hquoted (keyFits_keys hend))
    · rw [hnil]
      exact Nat.zero_le _
  refine ⟨_, hu, ?_⟩
  rw [← hle.eq_of_length_le hge, strip_append, strip_append, strip_of_isKeyChar hword,
    strip_of_quote hq, strip_of_quote hlast]
  simp

/-- What a search sees of a key in front of its colon: the keys that are reported, and the texts that
find it. -/
structure Sees (texts : List (List Char)) (key front : List Char) : Prop where
  not_mem : ':' ∉ front
  keys : ∃ u, longestKey? .keys texts front = some u ∧ strip u = key.rtakeWhile isKeyChar
  values : (longestKey? .values texts front).isSome ↔ ∃ t ∈ texts, t <:+ key

theorem KeyFront.sees {key front : List Char} (hplain : ∀ t ∈ texts, Plain t)
    (hfront : KeyFront key front) (hkey : ':' ∉ key) : Sees texts key front := by
  refine ⟨?_, longestKey?_keys hfront, longestKey?_values hplain hfront⟩
  cases hfront with
  | whole hx => simp [hx, hkey]
  | opened => simp [hkey]
  | passed => simp

theorem sees_blank {front : List Char} (hplain : ∀ t ∈ texts, Plain t) {b : Char}
    (hb : isBlank b = true) (hfront : ':' ∉ front) : Sees texts [] (front ++ [b]) := by
  have hquote : b ≠ '"' := ne_of_class hb rfl
  have hcolon : b ≠ ':' := ne_of_class hb rfl
  have hunquote : ∀ y : List Char, unquote (y ++ [b]) = unquote y ++ [b] :=
    fun y => unquote_append fun _ => by simpa using hquote
  have hunfit : ∀ side, ∀ y : List Char, ¬ keyFits side texts (unquote (y ++ [b])) := by
    intro side y hfits
    rw [hunquote] at hfits
    cases side with
    | keys =>
      have hkey : isKeyChar b = false := by
        by_contra hkey
        rw [isBlank_of_isKeyChar (by simpa using hkey)] at hb
        simp at hb
      rw [keyFits, List.dropWhile_append, List.dropWhile_cons_of_neg (by simp [hkey])] at hfits
      split at hfits
      · rw [← List.nil_append [b], hunquote] at hfits
        simp at hfits
      · rw [hunquote] at hfits
        simp at hfits
    | values =>
      obtain ⟨t, ht, hstart, hrest⟩ := hfits
      have hlast : ∀ a ∈ [b].head?, isPlain a = false := by simp [isPlain, hb]
      have hle := (prefix_append_iff (hplain t ht) hlast).mp hstart
      rw [List.drop_append_of_le_length hle.length_le, hunquote] at hrest
      simp at hrest
  have hnil : ∀ side, ∀ u, u <:+ front ++ [b] → keyFits side texts (unquote u) → u = [] := by
    intro side u hu hfits
    rcases List.eq_nil_or_concat u with rfl | ⟨y, a, rfl⟩
    · rfl
    · rw [List.concat_eq_append] at hu hfits
      obtain ⟨z, hz⟩ := hu
      rw [← List.append_assoc] at hz
      obtain rfl : a = b := by simpa using (List.append_inj' hz rfl).2
      exact absurd hfits (hunfit side y)
  refine ⟨by simp [hfront, hcolon.symm], ⟨[], ?_, rfl⟩, ?_⟩
  · have hsome : (longestKey? .keys texts (front ++ [b])).isSome :=
      longestKey?_isSome.mpr ⟨[], List.nil_suffix, rfl⟩
    obtain ⟨u, hu⟩ := Option.isSome_iff_exists.mp hsome
    obtain ⟨hsuffix, hfits, -⟩ := longestKey?_spec hu
    rw [hu, hnil .keys u hsuffix hfits]
  · rw [longestKey?_isSome]
    constructor
    · rintro ⟨u, hu, hfits⟩
      obtain rfl := hnil .values u hu hfits
      obtain ⟨t, ht, htnil, -⟩ := hfits
      exact ⟨t, ht, by rw [List.prefix_nil.mp htnil]⟩
    · rintro ⟨t, ht, htnil⟩
      obtain rfl := List.suffix_nil.mp htnil
      exact ⟨[], List.nil_suffix, [], ht, List.nil_prefix, rfl⟩

end Keys

namespace Json

def Layout.content : Layout → List Char
  | .string raw => raw.text
  | v => v.text

/-- The characters of a value in front of its first double quote or comma. -/
def Layout.opening (v : Layout) : List Char := v.content.takeWhile isValueChar

theorem Raw.head?_ne (raw : Raw) : raw.text.head? ≠ some '"' := by
  obtain ⟨text, rest, hread⟩ := raw
  intro h
  obtain ⟨more, rfl⟩ := List.head?_eq_some_iff.mp h
  have hempty : stringBody? ('"' :: more ++ '"' :: rest) = some ([], more ++ '"' :: rest) := rfl
  rw [hempty] at hread
  simp at hread

theorem isBlank_of_isSpace {c : Char} (h : isSpace c = true) : isBlank c = true := by
  simp only [isSpace, Bool.or_eq_true, beq_iff_eq] at h
  rcases h with ((rfl | rfl) | rfl) | rfl <;> decide

theorem Gap.strip_text (gap : Gap) : strip gap.text = [] := by
  apply strip_of_stripped
  intro c hc
  simp [isStripped, isBlank_of_isSpace (gap.space c hc)]

theorem isPlain_of_isNumberChar {c : Char} (h : isNumberChar c = true) : isPlain c = true := by
  simp only [isNumberChar, Bool.or_eq_true, beq_iff_eq] at h
  rcases h with ((((h | rfl) | rfl) | rfl) | rfl) | rfl
  · have hne : ∀ a : Char, isDigit a = false → c ≠ a := fun a ha => ne_of_class h ha
    have hblank : isBlank c = false := by
      simp only [isDigit, Bool.and_eq_true, decide_eq_true_eq, Char.le_def,
        UInt32.le_iff_toNat_le] at h
      have hlo : 48 ≤ c.toNat := h.1
      have hhi : c.toNat ≤ 57 := h.2
      simp [isBlank]
      omega
    simp [isPlain, hblank, hne '"' rfl, hne '\\' rfl, hne ':' rfl, hne ',' rfl, hne '[' rfl,
      hne ']' rfl, hne '{' rfl, hne '}' rfl]
  all_goals decide

theorem Scalar.plain (s : Scalar) : Plain s.text ∧ s.text ≠ [] := by
  cases s with
  | null => exact ⟨List.all_eq_true.mp rfl, by simp [text]⟩
  | bool value => cases value <;> exact ⟨List.all_eq_true.mp rfl, by simp [text]⟩
  | number numeral =>
    obtain ⟨text, rest, hread⟩ := numeral
    obtain ⟨⟨-, hchars⟩, hne⟩ := number?_part hread
    exact ⟨fun c hc => isPlain_of_isNumberChar (hchars c hc), hne⟩

theorem Layout.string_or (v : Layout) :
    (∃ raw, v = .string raw) ∨
      v.content = v.text ∧ ∃ a rest, v.text = a :: rest ∧ a ≠ '"' ∧ isBlank a = false := by
  cases v with
  | scalar s =>
    obtain ⟨hplain, hne⟩ := s.plain
    obtain ⟨a, rest, htext⟩ := List.exists_cons_of_ne_nil hne
    have ha := hplain a (by simp [htext])
    refine .inr ⟨rfl, a, rest, htext, ?_, ?_⟩
    · rintro rfl
      exact absurd ha (by decide)
    · simp [isPlain] at ha
      exact ha.2
  | string raw => exact .inl ⟨raw, rfl⟩
  | emptyArray | array => exact .inr ⟨rfl, '[', _, rfl, by decide, by decide⟩
  | emptyObject | object => exact .inr ⟨rfl, '{', _, rfl, by decide, by decide⟩

end Json

open Json

/-- What follows a value: no quote and no plain character, and up to the next value nothing but
characters that are stripped. -/
structure Sealed (text : List Char) : Prop where
  stops : ∀ a ∈ text.head?, isPlain a = false ∧ a ≠ '"'
  bare : strip (text.takeWhile isValueChar) = []

theorem Sealed.head?_ne {text : List Char} (h : Sealed text) : text.head? ≠ some '"' :=
  fun hquote => (h.stops '"' hquote).2 rfl

section Values

variable {side : Side} {texts : List (List Char)}

theorem pastText?_isSome {text : List Char} :
    (pastText? texts text).isSome ↔ ∃ t ∈ texts, t <+: text := by
  simp [pastText?, List.find?_isSome]

theorem unquote_string (raw : Raw) (rest : List Char) :
    unquote ((Layout.string raw).text ++ rest) = raw.text ++ '"' :: rest := by
  simp [Layout.text, Raw.quoted, unquote]

/-- A value is found by the texts that it starts with. -/
theorem pastText?_value (hplain : ∀ t ∈ texts, Plain t) {rest : List Char}
    (hrest : ∀ a ∈ rest.head?, isPlain a = false) (v : Layout) :
    (pastText? texts (unquote (v.text ++ rest))).isSome ↔ ∃ t ∈ texts, t <+: v.content := by
  rw [pastText?_isSome]
  rcases v.string_or with ⟨raw, rfl⟩ | ⟨hcontent, a, more, htext, ha, -⟩
  · rw [unquote_string]
    refine exists_congr fun t => and_congr_right fun ht => ?_
    rw [prefix_append_iff (hplain t ht) (by simp [isPlain])]
    rfl
  · rw [hcontent, unquote_of_ne (by simp [htext, ha])]
    exact exists_congr fun t => and_congr_right fun ht => prefix_append_iff (hplain t ht) hrest

theorem exists_append_pastValue (text : List Char) :
    ∃ w, text = w ++ pastValue text ∧ strip w = strip (text.takeWhile isValueChar) := by
  obtain ⟨q, hq, hquote⟩ := exists_append_unquote ((text.dropWhile isValueChar).drop 1)
  have hhead := List.head?_dropWhile_not isValueChar text
  have hsplit := List.takeWhile_append_dropWhile (p := isValueChar) (l := text)
  cases hdrop : text.dropWhile isValueChar with
  | nil =>
    rw [hdrop, List.append_nil] at hsplit
    exact ⟨text, by simp [pastValue, hdrop, unquote], by rw [hsplit]⟩
  | cons a rest =>
    rw [hdrop] at hhead hquote hsplit
    have ha : isStripped a = true := by
      have hend : isValueChar a = false := by simpa using hhead
      simp only [isValueChar, Bool.and_eq_false_iff, bne_eq_false_iff_eq] at hend
      rcases hend with rfl | rfl <;> decide
    refine ⟨text.takeWhile isValueChar ++ a :: q, ?_, ?_⟩
    · rw [pastValue, hdrop, List.append_assoc, List.cons_append, ← hquote]
      exact hsplit.symm
    · have hcons : strip (a :: q) = [] := by
        rw [← List.singleton_append, strip_append, strip_of_quote hq]
        simp [strip, ha]
      rw [strip_append, hcons, List.append_nil]

theorem strip_takeWhile_value {rest : List Char} (hrest : Sealed rest) (v : Layout) :
    strip ((unquote (unquote (v.text ++ rest))).takeWhile isValueChar) = strip v.opening := by
  have happend : ∀ w tail : List Char, strip (tail.takeWhile isValueChar) = [] →
      strip ((w ++ tail).takeWhile isValueChar) = strip (w.takeWhile isValueChar) := by
    intro w tail htail
    rw [List.takeWhile_append]
    split
    · rename_i hlen
      rw [strip_append, htail, List.append_nil,
        List.IsPrefix.eq_of_length (List.takeWhile_prefix _) hlen]
    · rfl
  rcases v.string_or with ⟨raw, rfl⟩ | ⟨hcontent, a, more, htext, ha, -⟩
  · rw [unquote_string]
    by_cases hnil : raw.text = []
    · rw [hnil, Layout.opening, Layout.content, hnil]
      exact hrest.bare
    · have hne : (raw.text ++ '"' :: rest).head? ≠ some '"' := by
        rw [List.head?_append_of_ne_nil _ hnil]
        exact raw.head?_ne
      rw [unquote_of_ne hne, happend _ _ rfl]
      rfl
  · have hne : (v.text ++ rest).head? ≠ some '"' := by simp [htext, ha]
    rw [unquote_of_ne hne, unquote_of_ne hne, happend _ _ hrest.bare, Layout.opening, hcontent]

def pastStart? (side : Side) (texts : List (List Char)) (text : List Char) : Option (List Char) :=
  match side with
  | .keys => pastText? texts (unquote text)
  | .values => some (pastValue (unquote (unquote text)))

theorem pastSide?_eq (text : List Char) :
    pastSide? side texts text = pastStart? side texts (text.dropWhile isBlank) := by
  cases side <;> rfl

theorem pastSide?_gap (gap : Gap) (v : Layout) (rest : List Char) :
    pastSide? side texts (gap.text ++ (v.text ++ rest)) = pastStart? side texts (v.text ++ rest) := by
  have hgap : ∀ a ∈ gap.text, isBlank a = true := fun a ha => isBlank_of_isSpace (gap.space a ha)
  have hhead : (v.text ++ rest).dropWhile isBlank = v.text ++ rest := by
    rcases v.string_or with ⟨raw, rfl⟩ | ⟨-, a, more, htext, -, hblank⟩
    · rfl
    · rw [htext, List.cons_append, List.dropWhile_cons_of_neg (by simp [hblank])]
  rw [pastSide?_eq, List.dropWhile_append_of_pos hgap, hhead]

/-- Does the search select a member with the key and the value? -/
def selects (side : Side) (texts : List (List Char)) (key : List Char) (v : Layout) : Prop :=
  match side with
  | .keys => ∃ t ∈ texts, t <+: v.content
  | .values => ∃ t ∈ texts, t <:+ key

instance (side : Side) (texts : List (List Char)) (key : List Char) (v : Layout) :
    Decidable (selects side texts key v) :=
  match side with
  | .keys => inferInstanceAs (Decidable (∃ t ∈ texts, t <+: v.content))
  | .values => inferInstanceAs (Decidable (∃ t ∈ texts, t <:+ key))

/-- What a search reports of a member with the key and the value. -/
def memberToken (side : Side) (key : List Char) (v : Layout) : Token :=
  match side with
  | .keys => .text (String.ofList (key.rtakeWhile isKeyChar))
  | .values => .ofText (strip v.opening)

/-- Has the key no colon, and is its colon right behind it? -/
def Json.Key.IsEligible (key : Key) : Prop := ':' ∉ key.raw.text ∧ key.before.text = []

instance (key : Key) : Decidable key.IsEligible :=
  inferInstanceAs (Decidable (':' ∉ key.raw.text ∧ key.before.text = []))

/-- What a search reports of the eligible ones of some members. -/
def memberTokens (side : Side) (texts : List (List Char)) (pairs : List (Key × Layout)) :
    List Token :=
  (pairs.filter fun p => decide (p.1.IsEligible ∧ selects side texts p.1.raw.text p.2)).map
    fun p => memberToken side p.1.raw.text p.2

@[simp]
theorem memberTokens_nil : memberTokens side texts [] = [] := rfl

theorem memberTokens_append (pairs more : List (Key × Layout)) :
    memberTokens side texts (pairs ++ more) =
      memberTokens side texts pairs ++ memberTokens side texts more := by
  rw [memberTokens, List.filter_append, List.map_append]
  rfl

/-- What a search sees of a key, which is nothing if a gap stands in front of the colon. -/
def Json.Key.seen (key : Key) : List Char := if key.before.text = [] then key.raw.text else []

def seenTokens (side : Side) (texts : List (List Char)) (pairs : List (Key × Layout)) :
    List Token :=
  (pairs.filter fun p => decide (selects side texts p.1.seen p.2)).map
    fun p => memberToken side p.1.seen p.2

@[simp]
theorem seenTokens_nil : seenTokens side texts [] = [] := rfl

theorem seenTokens_append (pairs more : List (Key × Layout)) :
    seenTokens side texts (pairs ++ more) =
      seenTokens side texts pairs ++ seenTokens side texts more := by
  rw [seenTokens, List.filter_append, List.map_append]
  rfl

theorem seenTokens_of_eligible {pairs : List (Key × Layout)} (h : ∀ p ∈ pairs, p.1.IsEligible) :
    seenTokens side texts pairs = memberTokens side texts pairs := by
  have hseen : ∀ p ∈ pairs, p.1.seen = p.1.raw.text := fun p hp => if_pos (h p hp).2
  have hfilter : (pairs.filter fun p => decide (selects side texts p.1.seen p.2)) =
      pairs.filter fun p => decide (p.1.IsEligible ∧ selects side texts p.1.raw.text p.2) :=
    List.filter_congr fun p hp => by simp [h p hp, hseen p hp]
  rw [seenTokens, memberTokens, hfilter]
  exact List.map_congr_left fun p hp => by rw [hseen p (List.mem_filter.mp hp).1]

theorem KeyFront.sees_key (hplain : ∀ t ∈ texts, Plain t) {key : Key} {front : List Char}
    (hfront : KeyFront key.raw.text front) (hkey : ':' ∉ key.raw.text) :
    Sees texts key.seen (front ++ key.before.text) := by
  have hsees := hfront.sees hplain hkey
  rcases List.eq_nil_or_concat key.before.text with hnil | ⟨w, b, hbefore⟩
  · rwa [Key.seen, if_pos hnil, hnil, List.append_nil]
  · rw [List.concat_eq_append] at hbefore
    have hblank : ∀ c ∈ w ++ [b], isBlank c = true :=
      fun c hc => isBlank_of_isSpace (key.before.space c (hbefore ▸ hc))
    have hw : ':' ∉ w := fun hmem => absurd (hblank _ (List.mem_append_left _ hmem)) (by decide)
    rw [Key.seen, if_neg (by simp [hbefore]), hbefore, ← List.append_assoc]
    exact sees_blank hplain (hblank b (by simp)) (by simp [hsees.not_mem, hw])

/-- What a search for values takes behind the colon of a member is stripped to its value. -/
private theorem strip_taken (gap : Gap) (v : Layout) {rest more : List Char} (hrest : Sealed rest)
    (hmore : more = pastValue (unquote (unquote (v.text ++ rest)))) :
    strip ((gap.text ++ (v.text ++ rest)).take
      ((gap.text ++ (v.text ++ rest)).length - more.length)) = strip v.opening := by
  obtain ⟨q₁, hq₁, hsplit₁⟩ := exists_append_unquote (v.text ++ rest)
  obtain ⟨q₂, hq₂, hsplit₂⟩ := exists_append_unquote (unquote (v.text ++ rest))
  obtain ⟨w, hsplit, hw⟩ := exists_append_pastValue (unquote (unquote (v.text ++ rest)))
  rw [← hmore] at hsplit
  have hwhole : gap.text ++ (v.text ++ rest) = (gap.text ++ q₁ ++ q₂ ++ w) ++ more := by
    rw [hsplit₁, hsplit₂, hsplit]
    simp
  rw [hwhole]
  simp only [List.length_append, Nat.add_sub_cancel]
  rw [← strip_takeWhile_value hrest, ← hw, ← List.length_append, ← List.length_append,
    ← List.length_append, List.take_left]
  simp only [strip_append, gap.strip_text, strip_of_quote hq₁, strip_of_quote hq₂, List.nil_append]

/-- A search reports the members that it selects, and goes on behind their values; at all others it
goes on behind the colon. -/
theorem scanTokens_member (hplain : ∀ t ∈ texts, Plain t) {key front : List Char}
    (hfront : Sees texts key front) (gap : Gap) (v : Layout) {rest : List Char}
    (hrest : Sealed rest) :
    (selects side texts key v → ∃ more, pastStart? side texts (v.text ++ rest) = some more ∧
      scanTokens side texts (front ++ ':' :: (gap.text ++ (v.text ++ rest))) =
        memberToken side key v :: scanTokens side texts more) ∧
    (¬selects side texts key v →
      scanTokens side texts (front ++ ':' :: (gap.text ++ (v.text ++ rest))) =
        scanTokens side texts (gap.text ++ (v.text ++ rest))) := by
  rw [scanTokens_append hfront.not_mem, colonTokens, pastSide?_gap]
  cases side with
  | keys =>
    obtain ⟨u, hu, hstrip⟩ := hfront.keys
    have hvalue := pastText?_value hplain (fun a ha => (hrest.stops a ha).1) v
    rw [hu]
    simp only [pastStart?]
    cases hpast : pastText? texts (unquote (v.text ++ rest)) with
    | none =>
      rw [hpast] at hvalue
      exact ⟨fun hsel => absurd (hvalue.mpr hsel) (by simp), fun _ => rfl⟩
    | some more =>
      rw [hpast] at hvalue
      refine ⟨fun _ => ⟨more, rfl, ?_⟩, fun hsel => absurd (hvalue.mp rfl) hsel⟩
      simp only [Token.ofGroup, memberToken, hstrip]
  | values =>
    have hkeys := hfront.values
    simp only [pastStart?]
    cases hlongest : longestKey? .values texts front with
    | none =>
      rw [hlongest] at hkeys
      exact ⟨fun hsel => absurd (hkeys.mpr hsel) (by simp), fun _ => rfl⟩
    | some u =>
      rw [hlongest] at hkeys
      refine ⟨fun _ => ⟨_, rfl, ?_⟩, fun hsel => absurd (hkeys.mp rfl) hsel⟩
      simp only [Token.ofGroup, memberToken, strip_taken gap v hrest rfl]

end Values

end PairGrep
