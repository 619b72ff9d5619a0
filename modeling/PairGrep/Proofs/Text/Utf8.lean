import Mathlib
import PairGrep.Text.Utf8

/-!
# What decoding finds

The bytes of a text fall into whole characters and maximal broken parts, in one way only. Decoding
gives that division, so that the strict reading is the inverse of encoding.
-/

namespace PairGrep.Utf8

/-- Do the bytes finish the character `c`, which is under way? -/
def Partial.Finishes : Partial → List UInt8 → Char → Prop
  | _, [], _ => False
  | p, b :: bs, c =>
    (p.low ≤ b.toNat ∧ b.toNat ≤ p.high) ∧
      if p.owed = 1 then bs = [] ∧ Char.ofNat (p.value * 64 + (b.toNat - 0x80)) = c
      else Finishes ⟨p.owed - 1, 0x80, 0xBF, p.value * 64 + (b.toNat - 0x80)⟩ bs c

structure Partial.Open (p : Partial) : Prop where
  owes : 1 ≤ p.owed ∧ p.owed ≤ 3
  range : p.low ≤ p.high ∧ p.high ≤ 0xBF

/-- Once the first byte of a character is read, do the bytes after it finish the character `c`? -/
def Continues (read : List (Option Char) × Option Partial) (bs : List UInt8) (c : Char) : Prop :=
  match read.2 with
  | some p => p.Finishes bs c
  | none => bs = [] ∧ read.1 = [some c]

/-- The first bytes of a text that are no character and of which no more start one. A single byte
is such a part even where it starts none. -/
structure Broken (part rest : List UInt8) : Prop where
  ne_nil : part ≠ []
  starts : part.length = 1 ∨ ∃ c, part <+: String.utf8EncodeChar c
  unfinished : ∀ c, ¬ String.utf8EncodeChar c <+: part ++ rest
  longest : ∀ longer c, part.length < longer.length → longer <+: part ++ rest →
    ¬ longer <+: String.utf8EncodeChar c

/-- The division of a text into its characters and its broken parts. -/
inductive Decodes : List UInt8 → List (Option Char) → Prop where
  | nil : Decodes [] []
  | char (c : Char) {bs : List UInt8} {cs : List (Option Char)} (more : Decodes bs cs) :
    Decodes (String.utf8EncodeChar c ++ bs) (some c :: cs)
  | broken {part bs : List UInt8} {cs : List (Option Char)} (first : Broken part bs)
    (more : Decodes bs cs) : Decodes (part ++ bs) (none :: cs)

section Characters

variable {a b d e : UInt8} {bs : List UInt8} {c : Char}

private theorem charOfNat_eq_iff {n : Nat} (h : n < 0xD800 ∨ 0xDFFF < n ∧ n < 0x110000) :
    Char.ofNat n = c ↔ c.toNat = n := by
  have hto : (Char.ofNat n).toNat = n := by rw [Char.toNat_ofNat, if_pos h]
  constructor
  · intro hc
    rw [← hc, hto]
  · intro hc
    rw [← hc, Char.ofNat_toNat]

private def codes (n : Nat) : List Nat :=
  if n ≤ 0x7F then [n]
  else if n ≤ 0x7FF then [n / 64 + 0xC0, n % 64 + 0x80]
  else if n ≤ 0xFFFF then [n / 4096 + 0xE0, n / 64 % 64 + 0x80, n % 64 + 0x80]
  else [n / 262144 + 0xF0, n / 4096 % 64 + 0x80, n / 64 % 64 + 0x80, n % 64 + 0x80]

private theorem eq_encodeChar_iff :
    bs = String.utf8EncodeChar c ↔ bs.map UInt8.toNat = codes c.toNat := by
  have hcodes : (String.utf8EncodeChar c).map UInt8.toNat = codes c.toNat := by
    have hc : c.toNat < 0xD800 ∨ 0xDFFF < c.toNat ∧ c.toNat < 0x110000 := c.valid
    simp only [String.utf8EncodeChar, codes, Char.toNat_val]
    split_ifs <;> simp <;> omega
  rw [← hcodes, (List.map_injective_iff.mpr fun _ _ => UInt8.toNat_inj.mp).eq_iff]

private theorem one_eq_encodeChar_iff :
    [a] = String.utf8EncodeChar c ↔ a.toNat ≤ 0x7F ∧ Char.ofNat a.toNat = c := by
  rw [eq_encodeChar_iff, and_congr_right fun h => charOfNat_eq_iff (by omega)]
  unfold codes
  split_ifs <;> simp <;> omega

private theorem two_eq_encodeChar_iff :
    [a, b] = String.utf8EncodeChar c ↔
      ((0xC2 ≤ a.toNat ∧ a.toNat ≤ 0xDF) ∧ (0x80 ≤ b.toNat ∧ b.toNat ≤ 0xBF)) ∧
        Char.ofNat ((a.toNat - 0xC0) * 64 + (b.toNat - 0x80)) = c := by
  rw [eq_encodeChar_iff, and_congr_right fun h => charOfNat_eq_iff (by omega)]
  unfold codes
  split_ifs <;> simp <;> omega

private theorem three_eq_encodeChar_iff :
    [a, b, d] = String.utf8EncodeChar c ↔
      ((0xE0 ≤ a.toNat ∧ a.toNat ≤ 0xEF) ∧ (0x80 ≤ b.toNat ∧ b.toNat ≤ 0xBF) ∧
        (0x80 ≤ d.toNat ∧ d.toNat ≤ 0xBF) ∧
        (a.toNat = 0xE0 → 0xA0 ≤ b.toNat) ∧ (a.toNat = 0xED → b.toNat ≤ 0x9F)) ∧
        Char.ofNat (((a.toNat - 0xE0) * 64 + (b.toNat - 0x80)) * 64 + (d.toNat - 0x80)) = c := by
  have hc : c.toNat < 0xD800 ∨ 0xDFFF < c.toNat ∧ c.toNat < 0x110000 := c.valid
  rw [eq_encodeChar_iff, and_congr_right fun h => charOfNat_eq_iff (by omega)]
  unfold codes
  split_ifs <;> simp <;> omega

private theorem four_eq_encodeChar_iff :
    [a, b, d, e] = String.utf8EncodeChar c ↔
      ((0xF0 ≤ a.toNat ∧ a.toNat ≤ 0xF4) ∧ (0x80 ≤ b.toNat ∧ b.toNat ≤ 0xBF) ∧
        (0x80 ≤ d.toNat ∧ d.toNat ≤ 0xBF) ∧ (0x80 ≤ e.toNat ∧ e.toNat ≤ 0xBF) ∧
        (a.toNat = 0xF0 → 0x90 ≤ b.toNat) ∧ (a.toNat = 0xF4 → b.toNat ≤ 0x8F)) ∧
        Char.ofNat ((((a.toNat - 0xF0) * 64 + (b.toNat - 0x80)) * 64 + (d.toNat - 0x80)) * 64 +
          (e.toNat - 0x80)) = c := by
  have hc : c.toNat < 0xD800 ∨ 0xDFFF < c.toNat ∧ c.toNat < 0x110000 := c.valid
  rw [eq_encodeChar_iff, and_congr_right fun h => charOfNat_eq_iff (by omega)]
  unfold codes
  split_ifs <;> simp <;> omega

private theorem encodeChar_ne_nil (c : Char) : String.utf8EncodeChar c ≠ [] := by
  intro h
  have hcodes : [] = codes c.toNat := eq_encodeChar_iff.mp h.symm
  unfold codes at hcodes
  split_ifs at hcodes

private theorem lead_cases (b : Nat) :
    (∃ c, lead b = ([some c], none)) ∨ lead b = ([none], none) ∨
      ∃ p : Partial, lead b = ([], some p) ∧ p.Open := by
  unfold lead
  split_ifs with h
  · exact .inl ⟨_, rfl⟩
  all_goals first
    | exact .inr (.inr ⟨_, rfl, by simp, by simp⟩)
    | exact .inr (.inl rfl)

private theorem Partial.Open.next {p : Partial} (hp : p.Open) (h : p.owed ≠ 1) (n : Nat) :
    Partial.Open ⟨p.owed - 1, 0x80, 0xBF, n⟩ := by
  have howes := hp.owes
  exact ⟨by simp only; omega, by simp⟩

private theorem Partial.Open.length_eq {p : Partial} (hp : p.Open) (h : p.Finishes bs c) :
    bs.length = p.owed := by
  induction bs generalizing p with
  | nil => exact h.elim
  | cons b bs ih =>
    have howes := hp.owes
    obtain ⟨-, h⟩ := h
    split_ifs at h with hone
    · simp [h.1, hone]
    · have hlength : bs.length = p.owed - 1 := ih (hp.next hone _) h
      simp only [List.length_cons, hlength]
      omega

private theorem Partial.Open.exists_finishes {p : Partial} (hp : p.Open) :
    ∃ bs c, p.Finishes bs c := by
  obtain ⟨owed, low, high, value⟩ := p
  induction owed generalizing low high value with
  | zero => exact absurd hp.owes (by simp)
  | succ owed ih =>
    have hrange := hp.range
    simp only at hrange
    have hbyte : low < UInt8.size := by
      simp only [UInt8.size]
      omega
    have hlow : (UInt8.ofNat low).toNat = low := UInt8.toNat_ofNat_of_lt' hbyte
    have hin : low ≤ (UInt8.ofNat low).toNat ∧ (UInt8.ofNat low).toNat ≤ high := by omega
    by_cases hone : owed + 1 = 1
    · exact ⟨[UInt8.ofNat low], _, hin, by rw [if_pos hone]; exact ⟨rfl, rfl⟩⟩
    · obtain ⟨bs, c, h⟩ := ih _ _ _ (hp.next hone (value * 64 + ((UInt8.ofNat low).toNat - 0x80)))
      exact ⟨UInt8.ofNat low :: bs, c, hin, by rw [if_neg hone]; exact h⟩

private theorem Partial.Finishes.unique {p : Partial} {c' : Char} (h : p.Finishes bs c)
    (h' : p.Finishes bs c') : c = c' := by
  induction bs generalizing p with
  | nil => exact h.elim
  | cons b bs ih =>
    obtain ⟨-, h⟩ := h
    obtain ⟨-, h'⟩ := h'
    split_ifs at h h'
    · rw [← h.2, ← h'.2]
    · exact ih h h'

theorem cons_eq_encodeChar_iff :
    a :: bs = String.utf8EncodeChar c ↔ Continues (lead a.toNat) bs c := by
  have ha := a.toNat_lt
  -- For each length, the branches of `lead` that owe so many bytes cover the range of the lemma.
  match bs with
  | [] =>
    rw [one_eq_encodeChar_iff]
    unfold lead
    split_ifs <;> simp [Continues, Partial.Finishes] <;> omega
  | [b] =>
    rw [two_eq_encodeChar_iff]
    unfold lead
    split_ifs <;> simp [Continues, Partial.Finishes] <;> omega
  | [b, d] =>
    rw [three_eq_encodeChar_iff]
    unfold lead
    split_ifs <;> simp [Continues, Partial.Finishes] <;> grind
  | [b, d, e] =>
    rw [four_eq_encodeChar_iff]
    unfold lead
    split_ifs <;> simp [Continues, Partial.Finishes] <;> grind
  | b :: d :: e :: f :: bs =>
    have hlong : (a :: b :: d :: e :: f :: bs).map UInt8.toNat ≠ codes c.toNat := by
      unfold codes
      split_ifs <;> simp
    rw [eq_encodeChar_iff, iff_false_left hlong]
    obtain ⟨c', h⟩ | h | ⟨p, h, hp⟩ := lead_cases a.toNat
    · simp [Continues, h]
    · simp [Continues, h]
    · simp only [Continues, h]
      intro hfinishes
      have hlength := hp.length_eq hfinishes
      have howes := hp.owes
      simp only [List.length_cons] at hlength
      omega

/-- No character starts another one. -/
theorem encodeChar_append_eq {c' : Char}
    (h : String.utf8EncodeChar c ++ bs = String.utf8EncodeChar c') : bs = [] ∧ c = c' := by
  cases hc : String.utf8EncodeChar c with
  | nil => exact absurd hc (encodeChar_ne_nil c)
  | cons a tail =>
    have hshort : Continues (lead a.toNat) tail c := cons_eq_encodeChar_iff.mp hc.symm
    have hlong : Continues (lead a.toNat) (tail ++ bs) c' := by
      rw [← cons_eq_encodeChar_iff, ← h, hc]
      rfl
    obtain ⟨d, hlead⟩ | hlead | ⟨p, hlead, hp⟩ := lead_cases a.toNat
    · simp only [Continues, hlead, List.cons.injEq, Option.some.injEq, and_true] at hshort hlong
      exact ⟨(List.append_eq_nil_iff.mp hlong.1).2, hshort.2.symm.trans hlong.2⟩
    · simp [Continues, hlead] at hshort
    · simp only [Continues, hlead] at hshort hlong
      have hlength : (tail ++ bs).length = tail.length := by
        rw [hp.length_eq hshort, hp.length_eq hlong]
      have hnil : bs = [] := by simpa using hlength
      subst hnil
      rw [List.append_nil] at hlong
      exact ⟨rfl, hshort.unique hlong⟩

theorem encodeChar_append_inj {c' : Char} {bs' : List UInt8}
    (h : String.utf8EncodeChar c ++ bs = String.utf8EncodeChar c' ++ bs') : c = c' ∧ bs = bs' := by
  obtain ⟨mid, hc', hbs⟩ | ⟨mid, hc, hbs'⟩ := List.append_eq_append_iff.mp h
  · obtain ⟨rfl, rfl⟩ := encodeChar_append_eq hc'.symm
    exact ⟨rfl, hbs⟩
  · obtain ⟨rfl, rfl⟩ := encodeChar_append_eq hc.symm
    exact ⟨rfl, hbs'.symm⟩

end Characters

section Decoding

variable {w bs rest : List UInt8} {p : Partial} {c : Char}

/-- The bytes read so far start the characters that the partial one can be finished to. -/
structure Pending (w : List UInt8) (p : Partial) : Prop where
  ne_nil : w ≠ []
  isOpen : p.Open
  finishes_iff : ∀ bs c, w ++ bs = String.utf8EncodeChar c ↔ p.Finishes bs c

private theorem pending_of_lead {b : UInt8} (hlead : lead b.toNat = ([], some p)) (hp : p.Open) :
    Pending [b] p where
  ne_nil := by simp
  isOpen := hp
  finishes_iff bs c := by
    rw [List.singleton_append, cons_eq_encodeChar_iff]
    simp only [Continues, hlead]

private theorem Pending.next {b : UInt8} (h : Pending w p) (hb : p.low ≤ b.toNat ∧ b.toNat ≤ p.high)
    (hone : p.owed ≠ 1) :
    Pending (w ++ [b]) ⟨p.owed - 1, 0x80, 0xBF, p.value * 64 + (b.toNat - 0x80)⟩ where
  ne_nil := by simp
  isOpen := h.isOpen.next hone _
  finishes_iff bs c := by
    rw [List.append_assoc, h.finishes_iff, List.singleton_append, Partial.Finishes, if_neg hone]
    exact and_iff_right hb

private theorem Pending.last {b : UInt8} (h : Pending w p) (hb : p.low ≤ b.toNat ∧ b.toNat ≤ p.high)
    (hone : p.owed = 1) :
    w ++ [b] = String.utf8EncodeChar (Char.ofNat (p.value * 64 + (b.toNat - 0x80))) := by
  rw [h.finishes_iff, Partial.Finishes, if_pos hone]
  exact ⟨hb, rfl, rfl⟩

/-- A character under way is broken off by the end of the text, and by a byte out of range. -/
private theorem Pending.broken (h : Pending w p)
    (hrest : ∀ b ∈ rest.head?, ¬ (p.low ≤ b.toNat ∧ b.toNat ≤ p.high)) : Broken w rest where
  ne_nil := h.ne_nil
  starts := by
    obtain ⟨bs, c, hfinishes⟩ := h.isOpen.exists_finishes
    exact .inr ⟨c, bs, (h.finishes_iff bs c).mpr hfinishes⟩
  unfinished := by
    intro c hc
    obtain hshort | hlong := List.prefix_or_prefix_of_prefix hc (List.prefix_append w rest)
    · -- The bytes so far start a character of their own, which would start with `c`.
      obtain ⟨tail, htail⟩ := hshort
      obtain ⟨bs, c', hfinishes⟩ := h.isOpen.exists_finishes
      have hstart : String.utf8EncodeChar c ++ (tail ++ bs) = String.utf8EncodeChar c' := by
        rw [← List.append_assoc, htail, (h.finishes_iff bs c').mpr hfinishes]
      have hnil : bs = [] := (List.append_eq_nil_iff.mp (encodeChar_append_eq hstart).1).2
      rw [hnil] at hfinishes
      exact hfinishes
    · obtain ⟨bs, hbs⟩ := hlong
      have hfinishes : p.Finishes bs c := (h.finishes_iff bs c).mp hbs
      have hprefix : bs <+: rest := by
        rw [← hbs] at hc
        exact (List.prefix_append_right_inj w).mp hc
      cases bs with
      | nil => exact hfinishes
      | cons b bs =>
        obtain ⟨tail, rfl⟩ := hprefix
        exact hrest b rfl hfinishes.1
  longest := by
    intro longer c hlength hlonger hc
    obtain ⟨bs, rfl⟩ := List.prefix_of_prefix_length_le (List.prefix_append w rest) hlonger hlength.le
    obtain ⟨tail, htail⟩ := hc
    rw [List.append_assoc] at htail
    have hfinishes : p.Finishes (bs ++ tail) c := (h.finishes_iff _ c).mp htail
    cases bs with
    | nil => simp at hlength
    | cons b bs =>
      obtain ⟨tail', rfl⟩ := (List.prefix_append_right_inj w).mp hlonger
      exact hrest b rfl hfinishes.1

private theorem broken_of_lead {b : UInt8} (hlead : lead b.toNat = ([none], none)) :
    Broken [b] rest := by
  have hnone : ∀ bs c, b :: bs ≠ String.utf8EncodeChar c := by
    intro bs c h
    have hcontinues : Continues (lead b.toNat) bs c := cons_eq_encodeChar_iff.mp h
    simp [Continues, hlead] at hcontinues
  refine ⟨by simp, .inl rfl, ?_, ?_⟩
  · intro c hc
    cases henc : String.utf8EncodeChar c with
    | nil => exact encodeChar_ne_nil c henc
    | cons a tail =>
      rw [henc] at hc
      obtain rfl := (List.cons_prefix_cons.mp hc).1
      exact hnone tail c henc.symm
  · intro longer c hlength hlonger hc
    cases longer with
    | nil => simp at hlength
    | cons a tail =>
      obtain rfl := (List.cons_prefix_cons.mp hlonger).1
      obtain ⟨more, hmore⟩ := hc
      exact hnone (tail ++ more) c hmore

/-- What decoding gives from each state in which it can stand before the bytes. -/
private def DecodesFrom (bs : List UInt8) : Prop :=
  Decodes bs (decodeFrom none bs) ∧
    ∀ w p, Pending w p → Decodes (w ++ bs) (decodeFrom (some p) bs)

private theorem decodes_lead (b : UInt8) (h : DecodesFrom bs) :
    Decodes (b :: bs) ((lead b.toNat).1 ++ decodeFrom (lead b.toNat).2 bs) := by
  obtain ⟨c, hlead⟩ | hlead | ⟨p, hlead, hp⟩ := lead_cases b.toNat
  · have hc : [b] = String.utf8EncodeChar c := by
      rw [cons_eq_encodeChar_iff]
      simp [Continues, hlead]
    rw [hlead, ← List.singleton_append, hc]
    exact .char c h.1
  · rw [hlead, ← List.singleton_append]
    exact .broken (broken_of_lead hlead) h.1
  · rw [hlead]
    exact h.2 [b] p (pending_of_lead hlead hp)

private theorem decodesFrom (bs : List UInt8) : DecodesFrom bs := by
  induction bs with
  | nil =>
    refine ⟨.nil, fun w p h => ?_⟩
    exact .broken (h.broken (by simp)) .nil
  | cons b bs ih =>
    refine ⟨decodes_lead b ih, fun w p h => ?_⟩
    rw [decodeFrom, step]
    split_ifs with hb hone
    · have hlast := h.last hb hone
      rw [← List.singleton_append, ← List.append_assoc, hlast]
      exact .char _ ih.1
    · rw [← List.singleton_append, ← List.append_assoc]
      exact ih.2 _ _ (h.next hb hone)
    · exact .broken (h.broken (by simpa using hb)) (decodes_lead b ih)

/-- Decoding finds the characters and the broken parts of a text. -/
theorem decodes_decode (bs : List UInt8) : Decodes bs (decode bs) := (decodesFrom bs).1

private theorem Broken.length_le {part part' : List UInt8} {rest' : List UInt8}
    (h : Broken part rest) (h' : Broken part' rest') (heq : part ++ rest = part' ++ rest') :
    part'.length ≤ part.length := by
  by_contra hlt
  have hprefix : part' <+: part ++ rest := heq ▸ List.prefix_append part' rest'
  cases h'.starts with
  | inl hone =>
    have hpos := List.length_pos_of_ne_nil h.ne_nil
    omega
  | inr hstarts =>
    obtain ⟨c, hc⟩ := hstarts
    exact h.longest part' c (by omega) hprefix hc

/-- There is one division only. -/
theorem Decodes.unique {cs cs' : List (Option Char)} (h : Decodes bs cs) (h' : Decodes bs cs') :
    cs = cs' := by
  induction h generalizing cs' with
  | nil =>
    generalize hbs : [] = bs at h'
    cases h' with
    | nil => rfl
    | char c _ => exact absurd (List.append_eq_nil_iff.mp hbs.symm).1 (encodeChar_ne_nil c)
    | broken first _ => exact absurd (List.append_eq_nil_iff.mp hbs.symm).1 first.ne_nil
  | @char c bs cs _ ih =>
    generalize hbs : String.utf8EncodeChar c ++ bs = bs' at h'
    cases h' with
    | nil => exact absurd (List.append_eq_nil_iff.mp hbs).1 (encodeChar_ne_nil c)
    | char c' more' =>
      obtain ⟨rfl, rfl⟩ := encodeChar_append_inj hbs
      rw [ih more']
    | broken first _ => exact (first.unfinished c ⟨bs, hbs⟩).elim
  | @broken part bs cs first _ ih =>
    generalize hbs : part ++ bs = bs' at h'
    cases h' with
    | nil => exact absurd (List.append_eq_nil_iff.mp hbs).1 first.ne_nil
    | char c _ => exact (first.unfinished c ⟨_, hbs.symm⟩).elim
    | broken first' more' =>
      have hlength := Nat.le_antisymm (first'.length_le first hbs.symm) (first.length_le first' hbs)
      obtain ⟨rfl, rfl⟩ := List.append_inj hbs hlength
      rw [ih more']

private theorem decodes_flatMap (cs : List Char) :
    Decodes (cs.flatMap String.utf8EncodeChar) (cs.map some) := by
  induction cs with
  | nil => exact .nil
  | cons c cs ih => exact .char c ih

private theorem Decodes.eq_flatMap {cs : List Char} (h : Decodes bs (cs.map some)) :
    cs.flatMap String.utf8EncodeChar = bs := by
  induction cs generalizing bs with
  | nil =>
    cases h
    rfl
  | cons c cs ih =>
    cases h with
    | char c more => rw [List.flatMap_cons, ih more]

private theorem mapM_id_eq_some_iff {parts : List (Option Char)} {cs : List Char} :
    parts.mapM id = some cs ↔ parts = cs.map some := by
  induction parts generalizing cs with
  | nil => cases cs <;> simp [List.mapM_nil]
  | cons part parts ih =>
    cases cs <;> simp [List.mapM_cons, Option.bind_eq_some_iff, ih]

theorem decodeStrict?_eq_some_iff {text : String} :
    decodeStrict? bs = some text ↔ encode text = bs := by
  have hparts : decodeStrict? bs = some text ↔ decode bs = text.toList.map some := by
    rw [decodeStrict?, ← mapM_id_eq_some_iff, Option.map_eq_some_iff]
    constructor
    · rintro ⟨cs, hcs, rfl⟩
      rw [hcs, String.toList_ofList]
    · intro h
      exact ⟨text.toList, h, String.ofList_toList⟩
  rw [hparts]
  constructor
  · intro h
    exact (h ▸ decodes_decode bs).eq_flatMap
  · intro h
    exact (decodes_decode bs).unique (h ▸ decodes_flatMap text.toList)

end Decoding

end PairGrep.Utf8
