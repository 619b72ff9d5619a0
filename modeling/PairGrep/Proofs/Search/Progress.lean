import PairGrep.Proofs.Search.Walks

/-!
# Progress of a scan

The matches of a text are found one after another. Each search goes on where the last match ended and
passes over an empty match there, so every match ends behind the last one. From this the scan comes to
an end, its matches are apart, and there is at most one more of them than the text has characters,
whatever the program is. What lies between two matches is spanned from nowhere, but for the empty match
that is passed over.
-/

namespace PairGrep.Pattern

namespace Program

variable {p : Program} {text : Array Char} {last : Option Nat} {m n : Match} {ms : List Match}

section Steps

/-- A match from the first place, from a given one on, from which something is spanned. -/
structure First (p : Program) (text : Array Char) (start : Nat) (m : Match) : Prop where
  le_start : start ≤ m.start
  start_le_stop : m.start ≤ m.stop
  stop_le : m.stop ≤ text.size
  spans : p.Spans text m.start m.stop
  before : ∀ s stop, start ≤ s → s < m.start → ¬p.Spans text s stop

theorem first_of_find? {start : Nat} (hstart : start ≤ text.size + 1)
    (h : p.find? text start = some m) : p.First text start m := by
  have hfind := p.find?_spans text hstart
  rw [h] at hfind
  obtain ⟨hle, hsize, hspans, hbefore⟩ := hfind
  obtain ⟨horder, hstop⟩ := hspans.le hsize
  exact ⟨hle, horder, hstop, hspans, hbefore⟩

/-- A step of the scan takes what is found first, or passes over it, if it is empty and the last match
ended there. -/
theorem next?_eq_some {start : Nat} (h : p.next? text start last = some m) :
    (p.find? text start = some m ∧ ¬(m.start = m.stop ∧ last = some m.stop)) ∨
      ∃ passed, p.find? text start = some passed ∧ passed.start = passed.stop ∧
        last = some passed.stop ∧ p.find? text (start + 1) = some m := by
  rw [next?] at h
  cases hfound : p.find? text start with
  | none => simp [hfound] at h
  | some found =>
    simp only [hfound] at h
    split at h
    · rename_i hempty
      exact .inr ⟨found, rfl, hempty.1, hempty.2.symm, h⟩
    · rename_i hnot
      obtain rfl := Option.some.inj h
      exact .inl ⟨rfl, fun hempty => hnot ⟨hempty.1, hempty.2.symm⟩⟩

/-- A match behind the place where the last one ended, or anywhere if there is no last one. -/
structure Behind (p : Program) (text : Array Char) (last : Option Nat) (m : Match) : Prop where
  le_start : last.getD 0 ≤ m.start
  start_le_stop : m.start ≤ m.stop
  stop_le : m.stop ≤ text.size
  lt_stop : ∀ stop ∈ last, stop < m.stop
  spans : p.Spans text m.start m.stop

/-- The match that comes next. A place before it from which something is spanned is the one where the
last match ended, and an empty match there comes to nothing. -/
structure Follows (p : Program) (text : Array Char) (last : Option Nat) (m : Match) : Prop extends
    Behind p text last m where
  gap : ∀ s stop, last.getD 0 ≤ s → s < m.start → p.Spans text s stop →
    last = some s ∧ p.Spans text s s

theorem follows_of_next? (hlast : last.getD 0 ≤ text.size)
    (h : p.next? text (last.getD 0) last = some m) : p.Follows text last m := by
  rcases next?_eq_some h with ⟨hfound, hnot⟩ | ⟨passed, hpassed, hempty, rfl, hfound⟩
  · have hm := first_of_find? (Nat.le_succ_of_le hlast) hfound
    refine ⟨⟨hm.le_start, hm.start_le_stop, hm.stop_le, ?_, hm.spans⟩,
      fun s stop hs hs' hspan => absurd hspan (hm.before s stop hs hs')⟩
    intro stop hmem
    obtain rfl : last = some stop := hmem
    have hle : stop ≤ m.start := hm.le_start
    have horder := hm.start_le_stop
    refine Nat.lt_of_le_of_ne (hle.trans horder) fun hsame => hnot ⟨?_, congrArg some hsame⟩
    omega
  · have hat := first_of_find? (Nat.le_succ_of_le hlast) hpassed
    have hm := first_of_find? (Nat.succ_le_succ hlast) hfound
    have hlt : passed.stop < m.start := hm.le_start
    refine ⟨⟨hlt.le, hm.start_le_stop, hm.stop_le, ?_, hm.spans⟩, fun s stop hs hs' hspan => ?_⟩
    · rintro _ ⟨⟩
      exact hlt.trans_le hm.start_le_stop
    · have hs : passed.stop ≤ s := hs
      by_cases hhere : s = passed.stop
      · subst hhere
        exact ⟨rfl, hempty ▸ hat.spans⟩
      · have hbeyond : passed.stop + 1 ≤ s := by omega
        exact absurd hspan (hm.before s stop hbeyond hs')

theorem Behind.trans (h : p.Behind text last m) (h' : p.Behind text (some m.stop) n) :
    p.Behind text last n := by
  have hstart : m.stop ≤ n.start := h'.le_start
  have hstop : m.stop < n.stop := h'.lt_stop _ rfl
  refine ⟨?_, h'.start_le_stop, h'.stop_le, fun stop hmem => (h.lt_stop stop hmem).trans hstop,
    h'.spans⟩
  exact h.le_start.trans (h.start_le_stop.trans hstart)

end Steps

section Runs

/-- The matches that come after the last one, step after step until none is found, with no bound on
their number. -/
inductive Scans (p : Program) (text : Array Char) : Option Nat → List Match → Prop
  | done {last : Option Nat} (h : p.next? text (last.getD 0) last = none) : Scans p text last []
  | found {last : Option Nat} {m : Match} {ms : List Match}
    (h : p.next? text (last.getD 0) last = some m) (hrest : Scans p text (some m.stop) ms) :
    Scans p text last (m :: ms)

def endsLeft (text : Array Char) : Option Nat → Nat
  | none => text.size + 1
  | some stop => text.size - stop

theorem Behind.endsLeft_lt (h : p.Behind text last m) :
    endsLeft text (some m.stop) < endsLeft text last := by
  have hstop := h.stop_le
  cases last with
  | none =>
    simp only [endsLeft]
    omega
  | some stop =>
    have hlt := h.lt_stop stop rfl
    simp only [endsLeft]
    omega

/-- The bound on the number of matches is never met. -/
theorem scans_matchesFrom {fuel : Nat} (hlast : last.getD 0 ≤ text.size)
    (hfuel : endsLeft text last < fuel) :
    p.Scans text last (p.matchesFrom text fuel (last.getD 0) last) := by
  induction fuel generalizing last with
  | zero => omega
  | succ fuel ih =>
    rw [matchesFrom]
    cases hnext : p.next? text (last.getD 0) last with
    | none => exact .done hnext
    | some m =>
      have hm := follows_of_next? hlast hnext
      have hends := hm.endsLeft_lt
      have hstop : (some m.stop).getD 0 ≤ text.size := hm.stop_le
      exact .found hnext (ih hstop (by omega))

theorem Scans.unique {ms' : List Match} (h : p.Scans text last ms) (h' : p.Scans text last ms') :
    ms = ms' := by
  induction h generalizing ms' with
  | done h =>
    cases h' with
    | done => rfl
    | found hfound => simp [h] at hfound
  | found h _ ih =>
    cases h' with
    | done hdone => simp [h] at hdone
    | found hfound hrest =>
      obtain rfl := Option.some.inj (h.symm.trans hfound)
      rw [ih hrest]

/-- The scan of a text comes to an end, and to no other than the matches of the text. -/
theorem scans_iff : p.Scans text none ms ↔ ms = p.allMatches text := by
  have hscans : p.Scans text none (p.allMatches text) :=
    scans_matchesFrom (Nat.zero_le _) (Nat.lt_succ_self _)
  exact ⟨fun h => h.unique hscans, fun h => h ▸ hscans⟩

theorem Scans.behind (h : p.Scans text last ms) (hlast : last.getD 0 ≤ text.size) :
    ∀ n ∈ ms, p.Behind text last n := by
  induction h with
  | done => simp
  | found h _ ih =>
    have hm := (follows_of_next? hlast h).toBehind
    exact List.forall_mem_cons.mpr ⟨hm, fun n hn => hm.trans (ih hm.stop_le n hn)⟩

theorem Scans.pairwise (h : p.Scans text last ms) (hlast : last.getD 0 ≤ text.size) :
    ms.Pairwise fun m n => m.stop ≤ n.start ∧ m.stop < n.stop := by
  induction h with
  | done => exact .nil
  | found h hrest ih =>
    have hm := (follows_of_next? hlast h).stop_le
    refine .cons (fun n hn => ?_) (ih hm)
    have hn := hrest.behind hm n hn
    exact ⟨hn.le_start, hn.lt_stop _ rfl⟩

theorem Scans.follows (h : p.Scans text last ms) (hlast : last.getD 0 ≤ text.size) {i : Nat}
    (hm : ms[i]? = some m) (hn : ms[i + 1]? = some n) : p.Follows text (some m.stop) n := by
  induction h generalizing i with
  | done => simp at hm
  | @found last first ms h hrest ih =>
    have hfirst : (some first.stop).getD 0 ≤ text.size := (follows_of_next? hlast h).stop_le
    cases i with
    | succ i => exact ih hfirst hm hn
    | zero =>
      obtain rfl : first = m := Option.some.inj hm
      cases hrest with
      | done => simp at hn
      | found hnext =>
        obtain rfl := Option.some.inj hn
        exact follows_of_next? hfirst hnext

theorem Scans.length_le (h : p.Scans text last ms) (hlast : last.getD 0 ≤ text.size) :
    ms.length ≤ endsLeft text last := by
  induction h with
  | done => exact Nat.zero_le _
  | found h _ ih =>
    have hm := (follows_of_next? hlast h).toBehind
    have hends := hm.endsLeft_lt
    have hrest := ih hm.stop_le
    rw [List.length_cons]
    omega

end Runs

section Texts

theorem text_append_drop (h : m.start ≤ m.stop) :
    m.text text ++ text.toList.drop m.stop = text.toList.drop m.start := by
  have hdrop : text.toList.drop m.stop = (text.toList.drop m.start).drop (m.stop - m.start) := by
    rw [List.drop_drop, Nat.add_sub_cancel' h]
  rw [Match.text, Array.toList_extract, List.extract_eq_take_drop, hdrop, List.take_append_drop]

theorem Scans.length_le_count (h : p.Scans text last ms) (hlast : last.getD 0 ≤ text.size) {c : Char}
    (hc : ∀ m ∈ ms, c ∈ m.text text) : ms.length ≤ (text.toList.drop (last.getD 0)).count c := by
  induction h with
  | done => exact Nat.zero_le _
  | @found last m ms h _ ih =>
    obtain ⟨hm, hms⟩ := List.forall_mem_cons.mp hc
    have hbehind := (follows_of_next? hlast h).toBehind
    have hrest := ih hbehind.stop_le hms
    calc ms.length + 1
        ≤ (text.toList.drop m.stop).count c + (m.text text).count c :=
          Nat.add_le_add hrest (List.count_pos_iff.mpr hm)
      _ = (text.toList.drop m.start).count c := by
          rw [← text_append_drop hbehind.start_le_stop, List.count_append, Nat.add_comm]
      _ ≤ (text.toList.drop (last.getD 0)).count c :=
          (List.drop_sublist_drop_left _ hbehind.le_start).count_le c

end Texts

theorem spans_of_mem_allMatches (h : m ∈ p.allMatches text) :
    m.start ≤ text.size ∧ p.Spans text m.start m.stop := by
  have hbehind := (scans_iff.mpr rfl).behind (Nat.zero_le _) m h
  exact ⟨hbehind.start_le_stop.trans hbehind.stop_le, hbehind.spans⟩

/-- The matches of a text advance: the scan for them comes to an end, with at most one more than the
text has characters, each is a part of the text, none starts before an earlier one has ended, and no
two of them are empty at one place. -/
structure Advances (p : Program) (text : List Char) : Prop where
  scans_iff (ms : List Match) : p.Scans text.toArray none ms ↔ ms = p.allMatches text.toArray
  length_le : (p.allMatches text.toArray).length ≤ text.length + 1
  part : ∀ m ∈ p.allMatches text.toArray, ∃ before after,
    text = before ++ m.text text.toArray ++ after ∧ m.start = before.length ∧
      m.stop = (before ++ m.text text.toArray).length
  apart : (p.allMatches text.toArray).Pairwise fun m n => m.stop ≤ n.start
  empty : (p.allMatches text.toArray).Pairwise fun m n =>
    ¬(m.start = m.stop ∧ n.start = n.stop ∧ m.start = n.start)

theorem advances (p : Program) (text : List Char) : p.Advances text := by
  have hscans : p.Scans text.toArray none (p.allMatches text.toArray) := scans_iff.mpr rfl
  have hzero : (none : Option Nat).getD 0 ≤ text.toArray.size := Nat.zero_le _
  have hapart := hscans.pairwise hzero
  refine ⟨fun ms => scans_iff, hscans.length_le hzero, fun m hm => ?_,
    hapart.imp fun h => h.1, hapart.imp fun {m n} h hempty => ?_⟩
  · have hbehind := hscans.behind hzero m hm
    have hstart := hbehind.start_le_stop
    have hstop : m.stop ≤ text.length := hbehind.stop_le
    have hsplit : text.take m.start ++ m.text text.toArray = text.take m.stop := by
      simp [Match.text, List.extract_eq_take_drop, ← List.take_add, Nat.add_sub_cancel' hstart]
    refine ⟨text.take m.start, text.drop m.stop, ?_, ?_, ?_⟩
    · rw [hsplit, List.take_append_drop]
    · rw [List.length_take]
      omega
    · rw [hsplit, List.length_take]
      omega
  · obtain ⟨hm, hn, hsame⟩ := hempty
    omega

end Program

end PairGrep.Pattern
