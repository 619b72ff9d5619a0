import Mathlib
import PairGrep.Proofs.Pair.Numbers

/-!
# From keys to values

A flat object of strings is searched for keys, and then for the values of the keys that were found.
Main statement: where no key is the end of another one, the second search reports the very members
that the first one has selected, in their order, unless the found keys make its expression too large.
-/

namespace PairGrep

open Pattern Json

/-- A member of a flat object: its key is a word, its value needs no escape and has no colon. -/
structure FlatMember where
  key : String
  value : String
  key_ne : key.toList ≠ []
  key_chars : ∀ c ∈ key.toList, isKeyChar c = true
  value_chars : ∀ c ∈ value.toList, c ≠ '"' ∧ c ≠ '\\' ∧ c ≠ ':' ∧ ¬ c < ' '

def flatObject (members : List FlatMember) : Value :=
  .object (members.map fun m => (m.key, .string m.value))

section Layouts

namespace FlatMember

private theorem escape_key (m : FlatMember) : m.key.toList.flatMap escapeChar = m.key.toList :=
  flatMap_escapeChar fun c hc => escapeChar_of_isKeyChar (m.key_chars c hc)

private theorem escape_value (m : FlatMember) :
    m.value.toList.flatMap escapeChar = m.value.toList := by
  apply flatMap_escapeChar
  intro c hc
  obtain ⟨hquote, hbackslash, -, hcontrol⟩ := m.value_chars c hc
  exact escapeChar_eq_self hquote hbackslash hcontrol

def rawKey (m : FlatMember) : Raw := ⟨m.key.toList, m.escape_key ▸ (Raw.escaped _).read⟩

def rawValue (m : FlatMember) : Raw := ⟨m.value.toList, m.escape_value ▸ (Raw.escaped _).read⟩

def pair (m : FlatMember) : Key × Layout := (⟨m.rawKey, .empty, .empty⟩, .string m.rawValue)

end FlatMember

def flatMembers (m : FlatMember) : List FlatMember → Members
  | [] => .last m.pair.1 m.pair.2 .empty
  | next :: more => .more m.pair.1 m.pair.2 .empty .empty (flatMembers next more)

def flatLayout : List FlatMember → Layout
  | [] => .emptyObject .empty
  | m :: more => .object .empty (flatMembers m more)

private theorem text_flatMembers (m : FlatMember) (more : List FlatMember) :
    (flatMembers m more).text =
      Value.membersText ((m :: more).map fun m => (m.key, .string m.value)) := by
  have hpair : ∀ m : FlatMember,
      m.pair.1.text ++ m.pair.2.text = quote m.key.toList ++ ':' :: quote m.value.toList := by
    intro m
    simp [FlatMember.pair, FlatMember.rawKey, FlatMember.rawValue, Key.text, Layout.text, Raw.quoted,
      Gap.empty, quote, m.escape_key, m.escape_value]
  induction more generalizing m with
  | nil =>
    rw [flatMembers, Members.text, hpair]
    exact List.append_nil _
  | cons next more ih =>
    rw [flatMembers, Members.text, hpair, ih]
    simp [Gap.empty, Value.membersText, Value.text]

theorem text_flatLayout (members : List FlatMember) :
    (flatLayout members).text = (flatObject members).text := by
  cases members with
  | nil => rfl
  | cons m more =>
    rw [flatLayout, Layout.text, text_flatMembers]
    rfl

theorem pairs_flatLayout (members : List FlatMember) :
    (flatLayout members).pairs = members.map FlatMember.pair := by
  cases members with
  | nil => rfl
  | cons m more =>
    rw [flatLayout, Layout.pairs]
    induction more generalizing m with
    | nil => rfl
    | cons next more ih =>
      rw [flatMembers, Members.pairs, ih]
      rfl

theorem strings_flatLayout (members : List FlatMember) :
    (flatLayout members).strings = members.map FlatMember.rawValue := by
  cases members with
  | nil => rfl
  | cons m more =>
    rw [flatLayout, Layout.strings]
    induction more generalizing m with
    | nil => rfl
    | cons next more ih =>
      rw [flatMembers, Members.strings, ih]
      rfl

private theorem tidy_flatLayout (members : List FlatMember) :
    Tidy (flatLayout members).strings (flatLayout members).pairs := by
  rw [strings_flatLayout, pairs_flatLayout]
  refine ⟨List.forall_mem_map.mpr fun m _ hcolon => ?_, List.forall_mem_map.mpr fun m _ => ⟨?_, rfl⟩⟩
  · exact (m.value_chars ':' hcolon).2.2.1 rfl
  · exact fun hcolon => absurd (m.key_chars ':' hcolon) (by decide)

end Layouts

section Search

variable {terms : List Term}

def startingWith (texts : List (List Char)) (members : List FlatMember) : List FlatMember :=
  members.filter fun m => ∃ t ∈ texts, t <+: m.value.toList

def endingWith (texts : List (List Char)) (members : List FlatMember) : List FlatMember :=
  members.filter fun m => ∃ t ∈ texts, t <:+ m.key.toList

/-- What a search for values reports of a member: its value up to the first comma. -/
def FlatMember.token (m : FlatMember) : Token := .ofText (strip (m.value.toList.takeWhile (· != ',')))

private theorem memberToken_values (m : FlatMember) :
    memberToken .values m.pair.1.raw.text m.pair.2 = m.token := by
  rw [memberToken, opening_eq_head]
  · rfl
  · rintro raw hraw hquote
    obtain rfl : m.rawValue = raw := Layout.string.inj hraw
    exact (m.value_chars '"' hquote).1 rfl

private theorem Matcher.search_flat [Sizing] (side : Side) (h : ∀ t ∈ terms, t.isPattern = false)
    (hplain : ∀ t ∈ Term.texts terms, Plain t) (members : List FlatMember) :
    Matcher.default.search (flatObject members).render terms side =
      if sizeLimit < Sizing.bytes (searchExpr side (Term.texts terms)) then .error .tooLarge
      else .ok ((members.filter fun m =>
        selects side (Term.texts terms) m.pair.1.raw.text m.pair.2).map
          fun m => memberToken side m.pair.1.raw.text m.pair.2) := by
  have htidy := tidy_flatLayout members
  obtain ⟨tokens, htokens, hsearch⟩ := Matcher.search_document true side h hplain
    ⟨.empty, flatLayout members, .empty⟩ fun _ => htidy
  rw [memberTokens_of_tidy htidy, pairs_flatLayout, List.filter_map, List.map_map] at htokens
  have htext : DocumentLayout.text ⟨.empty, flatLayout members, .empty⟩ =
      (flatObject members).text := by
    simp [DocumentLayout.text, Gap.empty, text_flatLayout]
  rw [htext] at hsearch
  rw [Value.render, hsearch]
  exact congrArg _ (congrArg _ (Eq.symm htokens))

theorem Matcher.keys_flat [Sizing] (h : ∀ t ∈ terms, t.isPattern = false)
    (hplain : ∀ t ∈ Term.texts terms, Plain t) (members : List FlatMember) :
    Matcher.default.keys (flatObject members).render terms =
      if sizeLimit < Sizing.bytes (searchExpr .keys (Term.texts terms)) then .error .tooLarge
      else .ok ((startingWith (Term.texts terms) members).map fun m => .text m.key) := by
  have htoken : ∀ m : FlatMember, memberToken .keys m.pair.1.raw.text m.pair.2 = .text m.key := by
    intro m
    have hkey : m.pair.1.raw.text.rtakeWhile isKeyChar = m.key.toList :=
      List.rtakeWhile_eq_self_iff.mpr m.key_chars
    rw [memberToken, hkey, String.ofList_toList]
  rw [Matcher.keys, Matcher.search_flat .keys h hplain, List.map_congr_left fun m _ => htoken m]
  rfl

theorem Matcher.values_flat [Sizing] (h : ∀ t ∈ terms, t.isPattern = false)
    (hplain : ∀ t ∈ Term.texts terms, Plain t) (members : List FlatMember) :
    Matcher.default.values (flatObject members).render terms =
      if sizeLimit < Sizing.bytes (searchExpr .values (Term.texts terms)) then .error .tooLarge
      else .ok ((endingWith (Term.texts terms) members).map FlatMember.token) := by
  rw [Matcher.values, Matcher.search_flat .values h hplain,
    List.map_congr_left fun m _ => memberToken_values m]
  rfl

end Search

section RoundTrip

/-- No key of a member is the end of the key of another one. -/
def KeysApart (members : List FlatMember) : Prop :=
  members.Pairwise fun m n => ¬ m.key.toList <:+ n.key.toList ∧ ¬ n.key.toList <:+ m.key.toList

variable {members selected : List FlatMember}

theorem KeysApart.key_inj (h : KeysApart members) {m n : FlatMember} (hm : m ∈ members)
    (hn : n ∈ members) (hsuffix : m.key.toList <:+ n.key.toList) : m = n := by
  by_contra hne
  have hsymm : Std.Symm fun m n : FlatMember =>
      ¬ m.key.toList <:+ n.key.toList ∧ ¬ n.key.toList <:+ m.key.toList := ⟨fun _ _ h => h.symm⟩
  exact (List.Pairwise.forall h hm hn hne).1 hsuffix

/-- The keys of some of the members end the keys of those members and of no others. -/
theorem KeysApart.endingWith_keys (h : KeysApart members) (p : FlatMember → Bool) :
    endingWith ((members.filter p).map fun m => m.key.toList) members = members.filter p := by
  refine List.filter_congr fun m hm => ?_
  rw [Bool.eq_iff_iff, decide_eq_true_eq]
  constructor
  · -- A selected key that ends the key of a member is that member's own.
    rintro ⟨t, ht, hsuffix⟩
    obtain ⟨n, hn, rfl⟩ := List.mem_map.mp ht
    obtain ⟨hmem, hp⟩ := List.mem_filter.mp hn
    rwa [← h.key_inj hmem hm hsuffix]
  · exact fun hp =>
      ⟨_, List.mem_map_of_mem (List.mem_filter.mpr ⟨hm, hp⟩), List.suffix_rfl⟩

theorem KeysApart.nodup (h : KeysApart members) (p : FlatMember → Bool) :
    ((members.filter p).map fun m => Token.text m.key).Nodup := by
  rw [List.Nodup, List.pairwise_map]
  refine (h.filter p).imp fun {m n} hmn heq => hmn.1 ?_
  rw [Token.text.inj heq]

private theorem texts_keys (hne : selected ≠ []) :
    Term.texts ((selected.map fun m => Token.text m.key).map fun t => .literal t.display) =
      selected.map fun m => m.key.toList := by
  cases selected with
  | nil => exact absurd rfl hne
  | cons m more =>
    simp [Term.texts, Term.text, Token.display]

/-- The values of the keys that were found are those of the members that were selected, each up to
its first comma, in the same order, unless the found keys make the expression too large. -/
theorem Matcher.values_of_found [Sizing] (h : KeysApart members) {literals : List String}
    (hplain : ∀ s ∈ literals, Plain s.toList) {found : List Token}
    (hfound : Matcher.default.keys (flatObject members).render (literals.map .literal) = .ok found)
    (hne : found ≠ []) :
    let selected := startingWith (Term.texts (literals.map .literal)) members
    let expression := searchExpr .values (selected.map fun m => m.key.toList)
    found.Nodup ∧ found = selected.map (fun m => .text m.key) ∧
      Matcher.default.values (flatObject members).render
          (found.map fun t => .literal t.display) =
        (if sizeLimit < Sizing.bytes expression then .error .tooLarge
        else .ok (selected.map FlatMember.token)) ∧
      (∀ [LawfulSizing], (selected.map fun m => m.key.length).sum ≤ 100000 →
        Sizing.bytes expression ≤ sizeLimit) := by
  intro selected expression
  have hliterals : ∀ t ∈ literals.map Term.literal, t.isPattern = false :=
    List.forall_mem_map.mpr fun s _ => rfl
  have htexts : ∀ t ∈ Term.texts (literals.map Term.literal), Plain t := by
    cases literals with
    | nil => simp [Term.texts, Plain]
    | cons s more => simpa [Term.texts, Term.text] using hplain
  rw [Matcher.keys_flat hliterals htexts] at hfound
  split at hfound
  · simp at hfound
  · obtain rfl : selected.map (fun m => Token.text m.key) = found := Except.ok.inj hfound
    have hselected : selected ≠ [] := by simpa using hne
    have hkeys : ∀ t ∈ selected.map fun m => m.key.toList,
        t ≠ [] ∧ ∀ c ∈ t, isKeyChar c = true :=
      List.forall_mem_map.mpr fun m _ => ⟨m.key_ne, m.key_chars⟩
    have hending : endingWith (selected.map fun m => m.key.toList) members = selected :=
      h.endingWith_keys _
    refine ⟨h.nodup _, rfl, ?_, fun hlength => ?_⟩
    · rw [Matcher.values_flat, texts_keys hselected, hending]
      · exact List.forall_mem_map.mpr fun t _ => rfl
      · rw [texts_keys hselected]
        exact fun t ht c hc => isPlain_of_isKeyChar ((hkeys t ht).2 c hc)
    · apply bytes_le_sizeLimit
      have hbytes : ∀ m ∈ selected, max 1 (utf8Length m.key.toList) = m.key.length := by
        intro m _
        have hpos := List.length_pos_iff.mpr m.key_ne
        rw [utf8Length_of_isKeyChar m.key_chars, String.length_toList] at *
        omega
      rw [List.map_map, Function.comp_def, List.map_congr_left hbytes]
      exact hlength

/-- The members of the object with the text "{"a":"red","ab":"7,5","c":"blue"}". -/
def sampleMembers : List FlatMember :=
  [⟨"a", "red", by simp, by simp [isKeyChar], by simp⟩,
    ⟨"ab", "7,5", by simp, by simp [isKeyChar], by simp⟩,
    ⟨"c", "blue", by simp, by simp [isKeyChar], by simp⟩]

theorem Matcher.values_of_found_sampleMembers :
    KeysApart sampleMembers ∧ (∀ s ∈ ["r", "7"], Plain s.toList) ∧
    Matcher.default.keys (flatObject sampleMembers).render [.literal "r", .literal "7"] =
      .ok [.text "a", .text "ab"] ∧
    Matcher.default.values (flatObject sampleMembers).render [.literal "a", .literal "ab"] =
      .ok [.text "red", .number (.int 7 (by decide))] := by
  have hapart : KeysApart sampleMembers := by simp [KeysApart, sampleMembers, List.suffix_cons_iff]
  have hplain : ∀ s ∈ ["r", "7"], Plain s.toList := by decide +kernel
  have hkeys : Matcher.default.keys (flatObject sampleMembers).render
      (["r", "7"].map .literal) = .ok [.text "a", .text "ab"] := by decide +kernel
  obtain ⟨-, -, hvalues, hsize⟩ := Matcher.values_of_found hapart hplain hkeys (by simp)
  rw [if_neg (not_lt.mpr (hsize (by decide +kernel)))] at hvalues
  exact ⟨hapart, hplain, hkeys, hvalues⟩

def wideMember (n : ℕ) : FlatMember where
  key := wideKey (n + 1)
  value := "x"
  key_ne := by simp [wideKey]
  key_chars := (plain_wideKey (n + 1)).1
  value_chars := by simp

theorem Matcher.values_of_wideMember :
    KeysApart [wideMember 599999] ∧ Plain "x".toList ∧
    ∀ [Sizing] [LawfulSizing],
      Matcher.default.keys (flatObject [wideMember 599999]).render [.literal "x"] =
        .ok [.text (wideMember 599999).key] ∧
      Matcher.default.values (flatObject [wideMember 599999]).render
        [.literal (Token.text (wideMember 599999).key).display] = .error .tooLarge := by
  have hx : ∀ t ∈ Term.texts [.literal "x"], Plain t := by decide +kernel
  obtain ⟨hkey, hlength⟩ := plain_wideKey 600000
  have htexts : Term.texts [.literal (Token.text (wideMember 599999).key).display] =
      [(wideKey 600000).toList] := rfl
  refine ⟨List.pairwise_singleton _ _, hx _ List.mem_cons_self, ?_⟩
  intro _ _
  have hsize : ¬ sizeLimit < Sizing.bytes (searchExpr .keys (Term.texts [.literal "x"])) :=
    not_lt.mpr (bytes_le_sizeLimit .keys (by decide))
  have hlarge : sizeLimit < Sizing.bytes (searchExpr .values [(wideKey 600000).toList]) := by
    apply sizeLimit_lt_bytes .values (List.mem_singleton_self _)
    rw [utf8Length_of_isKeyChar hkey, hlength]
    decide
  constructor
  · rw [Matcher.keys_flat (by simp [Term.isPattern]) hx, if_neg hsize]
    rfl
  · rw [Matcher.values_flat (by simp [Term.isPattern]), htexts, if_pos hlarge]
    rw [htexts]
    exact List.forall_mem_singleton.mpr fun c hc => isPlain_of_isKeyChar (hkey c hc)

end RoundTrip

end PairGrep
