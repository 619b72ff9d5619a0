import PairGrep.Proofs.Search.Run

/-!
# Paths of an expression

The ways in which an expression takes characters from a place in a text, in the order of preference.
The program of an expression whose unbounded repetitions take a character in each round tries just
these ways in just this order.
-/

namespace PairGrep.Pattern

/-- A place in a text, with the marks that were passed: the characters before it, the last one
first, and those after it. -/
structure Cursor where
  before : List Char
  after : List Char
  marks : List (Nat × Nat)

namespace Cursor

def whole (c : Cursor) : List Char := c.before.reverse ++ c.after

def thread (c : Cursor) (inst : Nat) : Thread := ⟨inst, c.before.length, c.marks⟩

def mark (c : Cursor) (slot : Nat) : Cursor := ⟨c.before, c.after, (slot, c.before.length) :: c.marks⟩

/-- The second cursor is the first one moved over some characters, marks apart. -/
def Over (c : Cursor) (w : List Char) (d : Cursor) : Prop :=
  c.after = w ++ d.after ∧ d.before = w.reverse ++ c.before

theorem Over.refl (c : Cursor) : c.Over [] c := ⟨rfl, rfl⟩

theorem Over.trans {c d e : Cursor} {w x : List Char} (h : c.Over w d) (h' : d.Over x e) :
    c.Over (w ++ x) e := by
  obtain ⟨ha, hb⟩ := h
  obtain ⟨ha', hb'⟩ := h'
  exact ⟨by rw [ha, ha', List.append_assoc], by rw [hb', hb, List.reverse_append, List.append_assoc]⟩

theorem Over.whole_eq {c d : Cursor} {w : List Char} (h : c.Over w d) : d.whole = c.whole := by
  rw [whole, whole, h.1, h.2]
  simp

theorem getElem?_place {text : Array Char} {c : Cursor} (h : c.whole = text.toList) :
    text[c.before.length]? = c.after.head? := by
  rw [← Array.getElem?_toList, ← h, whole, List.getElem?_append_right (by simp)]
  simp [List.head?_eq_getElem?]

theorem getElem?_place_pred {text : Array Char} {c : Cursor} (h : c.whole = text.toList) :
    (if c.before.length = 0 then none else text[c.before.length - 1]?) = c.before.head? := by
  cases hb : c.before with
  | nil => simp
  | cons a before =>
    rw [if_neg (by simp), ← Array.getElem?_toList, ← h, whole, hb]
    simp

end Cursor

/-- Ways of going on from a cursor, in the order of preference. -/
abbrev Moves := Cursor → List Cursor

namespace Moves

/-- Every way goes over some characters of the text. -/
def Forward (f : Moves) : Prop := ∀ c, ∀ d ∈ f c, ∃ w, c.Over w d

def Advances (f : Moves) : Prop := ∀ c, ∀ d ∈ f c, d.after.length < c.after.length

def seq (f g : Moves) : Moves := fun c => (f c).flatMap g

def opt (greedy : Bool) (f : Moves) : Moves := fun c => if greedy then f c ++ [c] else c :: f c

def times (f : Moves) : Nat → Moves
  | 0 => fun c => [c]
  | n + 1 => f.seq (f.times n)

def upTo (greedy : Bool) (f : Moves) : Nat → Moves
  | 0 => fun c => [c]
  | n + 1 => opt greedy (f.seq (upTo greedy f n))

def many (greedy : Bool) (f : Moves) : Moves := fun c => upTo greedy f c.after.length c

theorem findSome?_seq {α : Type} (f g : Moves) (c : Cursor) (k : Cursor → Option α) :
    (f.seq g c).findSome? k = (f c).findSome? fun d => (g d).findSome? k := by
  rw [seq]
  induction f c with
  | nil => rfl
  | cons d ds ih =>
    rw [List.flatMap_cons, List.findSome?_append, ih, List.findSome?_cons]
    cases (g d).findSome? k <;> rfl

theorem findSome?_opt {α : Type} (greedy : Bool) (f : Moves) (c : Cursor) (k : Cursor → Option α) :
    (opt greedy f c).findSome? k =
      if greedy then ((f c).findSome? k).or (k c) else (k c).or ((f c).findSome? k) := by
  cases greedy with
  | true => simp [opt, List.findSome?_append]
  | false =>
    simp only [opt, Bool.false_eq_true, if_false, List.findSome?_cons]
    cases k c <;> rfl

theorem mem_opt {greedy : Bool} {f : Moves} {c d : Cursor} :
    d ∈ opt greedy f c ↔ d ∈ f c ∨ d = c := by
  cases greedy <;> simp [opt, or_comm]

theorem mem_seq {f g : Moves} {c e : Cursor} : e ∈ f.seq g c ↔ ∃ d ∈ f c, e ∈ g d :=
  List.mem_flatMap

theorem nil_seq (f : Moves) : seq (fun c => [c]) f = f := by
  funext c
  simp [seq]

theorem seq_assoc (f g h : Moves) : (f.seq g).seq h = f.seq (g.seq h) := by
  funext c
  exact List.flatMap_assoc

theorem times_succ (f : Moves) (n : Nat) : f.times (n + 1) = (f.times n).seq f := by
  induction n with
  | zero =>
    funext c
    simp [times, seq]
  | succ n ih =>
    calc f.times (n + 2) = f.seq (f.times (n + 1)) := rfl
      _ = f.seq ((f.times n).seq f) := by rw [ih]
      _ = (f.times (n + 1)).seq f := (seq_assoc f (f.times n) f).symm

theorem Forward.length_le {f : Moves} (h : f.Forward) {c d : Cursor} (hd : d ∈ f c) :
    d.after.length ≤ c.after.length := by
  obtain ⟨w, hw, -⟩ := h c d hd
  simp [hw]

theorem Forward.seq {f g : Moves} (hf : f.Forward) (hg : g.Forward) : (f.seq g).Forward := by
  intro c e he
  obtain ⟨d, hd, he⟩ := mem_seq.mp he
  obtain ⟨w, hw⟩ := hf c d hd
  obtain ⟨x, hx⟩ := hg d e he
  exact ⟨w ++ x, hw.trans hx⟩

theorem Forward.opt {f : Moves} (hf : f.Forward) (greedy : Bool) : (Moves.opt greedy f).Forward := by
  intro c d hd
  rcases mem_opt.mp hd with hd | rfl
  · exact hf c d hd
  · exact ⟨[], .refl d⟩

theorem Forward.times {f : Moves} (hf : f.Forward) (n : Nat) : (f.times n).Forward := by
  induction n with
  | zero =>
    intro c d hd
    rw [List.mem_singleton.mp hd]
    exact ⟨[], .refl c⟩
  | succ n ih => exact hf.seq ih

theorem Forward.upTo {f : Moves} (hf : f.Forward) (greedy : Bool) (n : Nat) :
    (Moves.upTo greedy f n).Forward := by
  induction n with
  | zero =>
    intro c d hd
    rw [List.mem_singleton.mp hd]
    exact ⟨[], .refl c⟩
  | succ n ih => exact (hf.seq ih).opt greedy

theorem Forward.many {f : Moves} (hf : f.Forward) (greedy : Bool) : (Moves.many greedy f).Forward :=
  fun c => hf.upTo greedy c.after.length c

/-- Rounds beyond the number of characters that are left add nothing. -/
theorem upTo_eq_many {f : Moves} (hf : f.Advances) (greedy : Bool) (n : Nat) (c : Cursor)
    (h : c.after.length ≤ n) : upTo greedy f n c = many greedy f c := by
  have hstop : ∀ (m : Nat) (d : Cursor), d.after.length = 0 → upTo greedy f m d = [d] := by
    intro m d hd
    cases m with
    | zero => rfl
    | succ m =>
      have hnone : f d = [] := by
        rw [List.eq_nil_iff_forall_not_mem]
        intro e he
        have := hf d e he
        omega
      cases greedy <;> simp [upTo, opt, seq, hnone]
  have hsame : ∀ (m n : Nat) (d : Cursor), d.after.length ≤ m → d.after.length ≤ n →
      upTo greedy f m d = upTo greedy f n d := by
    intro m
    induction m with
    | zero =>
      intro n d hm _
      rw [hstop 0 d (by omega), hstop n d (by omega)]
    | succ m ih =>
      intro n d hm hn
      cases n with
      | zero => rw [hstop 0 d (by omega), hstop (m + 1) d (by omega)]
      | succ n =>
        have hrec : (f d).flatMap (upTo greedy f m) = (f d).flatMap (upTo greedy f n) := by
          apply List.flatMap_congr
          intro e he
          have := hf d e he
          exact ih n e (by omega) (by omega)
        simp only [upTo, opt, seq, hrec]
  exact hsame n c.after.length c h (Nat.le_refl _)

/-- Any number of rounds is none, or a round and any number of further ones. -/
theorem many_eq {f : Moves} (hf : f.Advances) (greedy : Bool) (c : Cursor) :
    many greedy f c = opt greedy (f.seq (many greedy f)) c := by
  have hrec : (f c).flatMap (upTo greedy f c.after.length) = (f c).flatMap (many greedy f) := by
    apply List.flatMap_congr
    intro d hd
    exact upTo_eq_many hf greedy _ d (Nat.le_of_lt (hf c d hd))
  rw [← upTo_eq_many hf greedy (c.after.length + 1) c (by omega)]
  simp only [upTo, opt, seq, hrec]

end Moves

namespace Expr

/-- The ways in which an expression can be matched from a cursor, in the order of preference. -/
def paths : Expr → Moves
  | empty => fun c => [c]
  | set s => fun c =>
    match c.after with
    | a :: rest => if s.contains a then [⟨a :: c.before, rest, c.marks⟩] else []
    | [] => []
  | look l => fun c => if l.holds c.before.head? c.after.head? then [c] else []
  | capture index body => fun c =>
    (body.paths (c.mark (2 * index))).map fun d => d.mark (2 * index + 1)
  | cat first rest => first.paths.seq rest.paths
  | alt first rest => fun c => first.paths c ++ rest.paths c
  | repeated min max greedy body =>
    (body.paths.times min).seq (match max with
      | some max => Moves.upTo greedy body.paths (max - min)
      | none => Moves.many greedy body.paths)

/-- Does every unbounded repetition take a character in each round? -/
def productive : Expr → Bool
  | empty | set _ | look _ => true
  | capture _ body => body.productive
  | cat first rest | alt first rest => first.productive && rest.productive
  | repeated _ max _ body => (max.isSome || body.takesChar) && body.productive

theorem paths_forward (e : Expr) : e.paths.Forward := by
  induction e with
  | empty =>
    intro c d hd
    rw [List.mem_singleton.mp hd]
    exact ⟨[], .refl c⟩
  | set s =>
    rintro ⟨before, after, marks⟩ d hd
    cases after with
    | nil => simp [paths] at hd
    | cons a rest =>
      simp only [paths] at hd
      split at hd
      · rw [List.mem_singleton.mp hd]
        exact ⟨[a], rfl, rfl⟩
      · simp at hd
  | look l =>
    intro c d hd
    simp only [paths] at hd
    split at hd
    · rw [List.mem_singleton.mp hd]
      exact ⟨[], .refl c⟩
    · simp at hd
  | capture index body ih =>
    intro c d hd
    obtain ⟨e, he, rfl⟩ := List.mem_map.mp hd
    obtain ⟨w, hw⟩ := ih _ e he
    exact ⟨w, hw⟩
  | cat first rest ihf ihr => exact ihf.seq ihr
  | alt first rest ihf ihr =>
    intro c d hd
    rcases List.mem_append.mp hd with hd | hd
    · exact ihf c d hd
    · exact ihr c d hd
  | repeated min max greedy body ih =>
    cases max with
    | some max => exact (ih.times min).seq (ih.upTo greedy (max - min))
    | none => exact (ih.times min).seq (ih.many greedy)

/-- A match of an expression that takes a character ends on a shorter rest of the text. -/
theorem paths_advances {e : Expr} (h : e.takesChar = true) : e.paths.Advances := by
  induction e with
  | empty => simp [takesChar] at h
  | look l => simp [takesChar] at h
  | set s =>
    rintro ⟨before, after, marks⟩ d hd
    cases after with
    | nil => simp [paths] at hd
    | cons a rest =>
      simp only [paths] at hd
      split at hd
      · rw [List.mem_singleton.mp hd]
        simp
      · simp at hd
  | capture index body ih =>
    intro c d hd
    obtain ⟨e, he, rfl⟩ := List.mem_map.mp hd
    have hlt := ih h _ e he
    exact hlt
  | cat first rest ihf ihr =>
    intro c e he
    obtain ⟨d, hd, he⟩ := Moves.mem_seq.mp he
    have hfirst := (first.paths_forward).length_le hd
    have hrest := (rest.paths_forward).length_le he
    rcases (Bool.or_eq_true _ _).mp h with h | h
    · have := ihf h c d hd
      omega
    · have := ihr h d e he
      omega
  | alt first rest ihf ihr =>
    obtain ⟨hf, hr⟩ := (Bool.and_eq_true _ _).mp h
    intro c d hd
    rcases List.mem_append.mp hd with hd | hd
    · exact ihf hf c d hd
    · exact ihr hr c d hd
  | repeated min max greedy body ih =>
    obtain ⟨hmin, hbody⟩ := (Bool.and_eq_true _ _).mp h
    obtain ⟨min, rfl⟩ := Nat.exists_eq_succ_of_ne_zero (by simpa using hmin)
    have hforward := body.paths_forward
    intro c e he
    obtain ⟨d, hd, he⟩ := Moves.mem_seq.mp he
    obtain ⟨b, hb, hd⟩ := Moves.mem_seq.mp hd
    have hfirst := ih hbody c b hb
    have hmore := (hforward.times min).length_le hd
    have hlast : e.after.length ≤ d.after.length := by
      cases max with
      | some max => exact (hforward.upTo greedy _).length_le he
      | none => exact (hforward.many greedy).length_le he
    omega

end Expr

/-- The instructions stand in the program from an address on. -/
def Program.Holds (p : Program) (o : Nat) (code : List Inst) : Prop :=
  ∀ i, i < code.length → p.code[o + i]? = code[i]?

namespace Program.Holds

variable {p : Program} {o : Nat}

theorem append {a b : List Inst} (h : p.Holds o (a ++ b)) :
    p.Holds o a ∧ p.Holds (o + a.length) b := by
  constructor
  · intro i hi
    rw [h i (by rw [List.length_append]; omega), List.getElem?_append_left hi]
  · intro i hi
    rw [Nat.add_assoc, h (a.length + i) (by rw [List.length_append]; omega),
      List.getElem?_append_right (by omega), Nat.add_sub_cancel_left]

theorem cons {inst : Inst} {code : List Inst} (h : p.Holds o (inst :: code)) :
    p.code[o]? = some inst ∧ p.Holds (o + 1) code := by
  obtain ⟨hfirst, hrest⟩ := append (a := [inst]) h
  exact ⟨by simpa using hfirst 0 (by simp), hrest⟩

end Program.Holds

/-- From the first of the instructions a run goes on with the moves, one after another, each of
which leads to the place after the instructions. -/
structure Runs (code : List Inst) (f : Moves) : Prop where
  forward : f.Forward
  outcome : ∀ {p : Program} {text : Array Char} {o : Nat}, p.Holds o code →
    ∀ {c : Cursor}, c.whole = text.toList → ∀ {k : Cursor → Option Thread},
      (∀ d ∈ f c, p.Outcome text (d.thread (o + code.length)) (k d)) →
        p.Outcome text (c.thread o) ((f c).findSome? k)

namespace Runs

variable {p : Program} {text : Array Char} {o : Nat} {c : Cursor} {k : Cursor → Option Thread}

private theorem next_eq {inst : Inst} (hi : p.code[o]? = some inst) :
    p.next text (c.thread o) = Program.successors text (c.thread o) inst := by
  simp [Program.next, Cursor.thread, hi]

private theorem not_accepts {inst : Inst} (hi : p.code[o]? = some inst) (ha : inst ≠ .accept) :
    ¬p.Accepts (c.thread o) := by
  simp [Program.Accepts, Cursor.thread, hi, ha]

theorem of_fork {near : Bool} {distance : Int} {far : Nat} {r r' : Option Thread}
    (hi : p.code[o]? = some (.fork near distance)) (hfar : ((o : Int) + distance).toNat = far)
    (h : p.Outcome text (c.thread (o + 1)) r) (h' : p.Outcome text (c.thread far) r') :
    p.Outcome text (c.thread o) (if near then r.or r' else r'.or r) := by
  subst hfar
  have hna := not_accepts (c := c) hi (by simp)
  have hn : p.next text (c.thread o) =
      Program.successors text (c.thread o) (.fork near distance) := next_eq hi
  cases near with
  | true => exact .of_two hna hn h h'
  | false => exact .of_two hna hn h' h

theorem of_jump {distance : Int} {far : Nat} {r : Option Thread}
    (hi : p.code[o]? = some (.jump distance)) (hfar : ((o : Int) + distance).toNat = far)
    (h : p.Outcome text (c.thread far) r) : p.Outcome text (c.thread o) r := by
  subst hfar
  exact .of_one (not_accepts hi (by simp)) (next_eq hi) h

theorem nil : Runs [] fun c => [c] where
  forward := fun c d hd => ⟨[], by rw [List.mem_singleton.mp hd]; exact .refl c⟩
  outcome := fun _ _ _ _ hk => by
    simpa using hk _ (List.mem_singleton.mpr rfl)

theorem set (s : CharSet) : Runs [.char s] (Expr.set s).paths where
  forward := (Expr.set s).paths_forward
  outcome := by
    intro p text o hc c hw k hk
    have hi := hc.cons.1
    have hget := Cursor.getElem?_place hw
    obtain ⟨before, after, marks⟩ := c
    cases after with
    | nil =>
      refine .of_nil (not_accepts hi (by simp)) ((next_eq hi).trans ?_)
      simp [Program.successors, Cursor.thread, hget]
    | cons a rest =>
      by_cases hs : s.contains a
      · have hd := hk ⟨a :: before, rest, marks⟩ (by simp [Expr.paths, hs])
        have hn : Program.successors text (Cursor.thread ⟨before, a :: rest, marks⟩ o) (.char s) =
            [Cursor.thread ⟨a :: before, rest, marks⟩ (o + 1)] := by
          simp [Program.successors, Cursor.thread, hget, hs]
        have hone := Program.Outcome.of_one (not_accepts hi (by simp)) ((next_eq hi).trans hn) hd
        simpa [Expr.paths, hs] using hone
      · have hn : Program.successors text (Cursor.thread ⟨before, a :: rest, marks⟩ o) (.char s) =
            [] := by
          simp [Program.successors, Cursor.thread, hget, hs]
        have hnone := Program.Outcome.of_nil (not_accepts hi (by simp)) ((next_eq hi).trans hn)
        simpa [Expr.paths, hs] using hnone

theorem look (l : Look) : Runs [.look l] (Expr.look l).paths where
  forward := (Expr.look l).paths_forward
  outcome := by
    intro p text o hc c hw k hk
    have hi := hc.cons.1
    have hafter := Cursor.getElem?_place hw
    have hbefore := Cursor.getElem?_place_pred hw
    have hn : Program.successors text (c.thread o) (.look l) =
        if l.holds c.before.head? c.after.head? then [c.thread (o + 1)] else [] := by
      simp only [Program.successors, Cursor.thread, hafter]
      rw [← hbefore]
      rfl
    by_cases hl : l.holds c.before.head? c.after.head?
    · have hd := hk c (by simp [Expr.paths, hl])
      rw [if_pos hl] at hn
      have hone := Program.Outcome.of_one (not_accepts hi (by simp)) ((next_eq hi).trans hn) hd
      simpa [Expr.paths, hl] using hone
    · rw [if_neg hl] at hn
      have hnone := Program.Outcome.of_nil (not_accepts hi (by simp)) ((next_eq hi).trans hn)
      simpa [Expr.paths, hl] using hnone

theorem append {a b : List Inst} {f g : Moves} (hf : Runs a f) (hg : Runs b g) :
    Runs (a ++ b) (f.seq g) where
  forward := hf.forward.seq hg.forward
  outcome := by
    intro p text o hc c hw k hk
    obtain ⟨ha, hb⟩ := hc.append
    rw [Moves.findSome?_seq]
    refine hf.outcome ha hw fun d hd => ?_
    obtain ⟨w, hover⟩ := hf.forward c d hd
    refine hg.outcome hb (hover.whole_eq.trans hw) fun e he => ?_
    rw [Nat.add_assoc, ← List.length_append]
    exact hk e (Moves.mem_seq.mpr ⟨d, hd, he⟩)

theorem capture {a : List Inst} {f : Moves} (hf : Runs a f) (index : Nat) :
    Runs (.mark (2 * index) :: (a ++ [.mark (2 * index + 1)])) fun c =>
      (f (c.mark (2 * index))).map fun d => d.mark (2 * index + 1) where
  forward := by
    intro c d hd
    obtain ⟨e, he, rfl⟩ := List.mem_map.mp hd
    obtain ⟨w, hw⟩ := hf.forward _ e he
    exact ⟨w, hw⟩
  outcome := by
    intro p text o hc c hw k hk
    obtain ⟨hi, hrest⟩ := hc.cons
    obtain ⟨ha, hclose⟩ := hrest.append
    rw [List.findSome?_map]
    refine .of_one (not_accepts hi (by simp)) (next_eq hi)
      (hf.outcome ha (c := c.mark (2 * index)) hw fun d hd => ?_)
    have hi' := hclose.cons.1
    refine .of_one (not_accepts hi' (by simp)) (next_eq hi') ?_
    have hd' := hk (d.mark (2 * index + 1)) (List.mem_map_of_mem hd)
    rw [List.length_cons, List.length_append, List.length_singleton,
      show o + (a.length + 1 + 1) = o + 1 + a.length + 1 by omega] at hd'
    exact hd'

theorem alt {a b : List Inst} {f g : Moves} (hf : Runs a f) (hg : Runs b g) :
    Runs (.fork true (a.length + 2) :: (a ++ .jump (b.length + 1) :: b)) fun c => f c ++ g c where
  forward := by
    intro c d hd
    rcases List.mem_append.mp hd with hd | hd
    · exact hf.forward c d hd
    · exact hg.forward c d hd
  outcome := by
    intro p text o hc c hw k hk
    obtain ⟨hi, hrest⟩ := hc.cons
    obtain ⟨ha, hrest⟩ := hrest.append
    obtain ⟨hj, hb⟩ := hrest.cons
    rw [List.length_cons, List.length_append, List.length_cons] at hk
    have hfirst := hf.outcome ha hw fun d hd =>
      of_jump hj (by omega) (hk d (List.mem_append_left _ hd))
    have hsecond := hg.outcome hb hw fun d hd => by
      have hd' := hk d (List.mem_append_right _ hd)
      rwa [show o + (a.length + (b.length + 1) + 1) = o + 1 + a.length + 1 + b.length by omega]
        at hd'
    rw [List.findSome?_append]
    exact of_fork hi (by omega) hfirst hsecond

theorem optional {a : List Inst} {f : Moves} (hf : Runs a f) (greedy : Bool) :
    Runs (Expr.optional greedy a) (Moves.opt greedy f) where
  forward := hf.forward.opt greedy
  outcome := by
    intro p text o hc c hw k hk
    obtain ⟨hi, ha⟩ := hc.cons
    have hfar : ((o : Int) + (a.length + 1)).toNat = o + (Expr.optional greedy a).length := by
      rw [Expr.optional, List.length_cons]
      omega
    have hbody := hf.outcome ha hw (k := k) fun d hd => by
      rw [Nat.add_assoc, Nat.add_comm 1]
      exact hk d (Moves.mem_opt.mpr (.inl hd))
    have hskip := hk c (Moves.mem_opt.mpr (.inr rfl))
    rw [Moves.findSome?_opt]
    exact of_fork hi hfar hbody hskip

theorem times {a : List Inst} {f : Moves} (hf : Runs a f) (n : Nat) :
    Runs (Expr.times n a) (f.times n) := by
  induction n with
  | zero => exact nil
  | succ n ih =>
    rw [Expr.times, List.replicate_succ, List.flatten_cons]
    exact hf.append ih

theorem upTo {a : List Inst} {f : Moves} (hf : Runs a f) (greedy : Bool) (n : Nat) :
    Runs (Expr.upTo greedy a n) (Moves.upTo greedy f n) := by
  induction n with
  | zero => exact nil
  | succ n ih => exact (hf.append ih).optional greedy

theorem loop {a : List Inst} {f : Moves} (hf : Runs a f) (hadv : f.Advances) (greedy : Bool) :
    Runs (Expr.loop greedy a) (Moves.many greedy f) where
  forward := hf.forward.many greedy
  outcome := by
    intro p text o hc c hw k hk
    obtain ⟨hi, hrest⟩ := hc.cons
    obtain ⟨ha, hj⟩ := hrest.append
    have hlen : (Expr.loop greedy a).length = a.length + 2 := by simp [Expr.loop]
    -- Each round ends on a shorter rest of the text, which carries the induction.
    induction hn : c.after.length using Nat.strong_induction_on generalizing c with
    | h n ih =>
      have hback : ∀ d ∈ f c, p.Outcome text (d.thread (o + 1 + a.length))
          ((Moves.many greedy f d).findSome? k) := by
        intro d hd
        obtain ⟨w, hover⟩ := hf.forward c d hd
        have hd' := ih d.after.length (hn ▸ hadv c d hd) (hover.whole_eq.trans hw)
          (fun e he => hk e (by
            rw [Moves.many_eq hadv]
            exact Moves.mem_opt.mpr (.inl (Moves.mem_seq.mpr ⟨d, hd, he⟩)))) rfl
        exact of_jump hj.cons.1 (by omega) hd'
      have hbody := hf.outcome ha hw hback
      rw [← Moves.findSome?_seq] at hbody
      have hskip := hk c (by
        rw [Moves.many_eq hadv]
        exact Moves.mem_opt.mpr (.inr rfl))
      rw [Moves.many_eq hadv, Moves.findSome?_opt]
      exact of_fork hi (by omega) hbody hskip

theorem runs {a : List Inst} {f : Moves} (hf : Runs a f) (hadv : f.Advances) (greedy : Bool) :
    Runs (Expr.runs greedy a) (f.seq (Moves.many greedy f)) where
  forward := hf.forward.seq (hf.forward.many greedy)
  outcome := by
    intro p text o hc c hw k hk
    obtain ⟨ha, hj⟩ := hc.append
    have hlen : (Expr.runs greedy a).length = a.length + 1 := by simp [Expr.runs]
    induction hn : c.after.length using Nat.strong_induction_on generalizing c with
    | h n ih =>
      rw [Moves.findSome?_seq]
      refine hf.outcome ha hw fun d hd => ?_
      obtain ⟨w, hover⟩ := hf.forward c d hd
      have hmany : ∀ e ∈ Moves.many greedy f d,
          p.Outcome text (e.thread (o + (Expr.runs greedy a).length)) (k e) :=
        fun e he => hk e (Moves.mem_seq.mpr ⟨d, hd, he⟩)
      have hagain := ih d.after.length (hn ▸ hadv c d hd) (hover.whole_eq.trans hw)
        (fun e he => hmany e (by
          rw [Moves.many_eq hadv]
          exact Moves.mem_opt.mpr (.inl he))) rfl
      have hstop := hmany d (by
        rw [Moves.many_eq hadv]
        exact Moves.mem_opt.mpr (.inr rfl))
      rw [hlen, ← Nat.add_assoc] at hstop
      have hfork := of_fork hj.cons.1 (by omega) hstop hagain
      rw [Moves.many_eq hadv, Moves.findSome?_opt]
      cases greedy <;> exact hfork

end Runs

namespace Expr

/-- The program of an expression tries its paths. -/
theorem runs_code {e : Expr} (h : e.productive = true) : Runs e.code e.paths := by
  induction e with
  | empty => exact Runs.nil
  | set s => exact Runs.set s
  | look l => exact Runs.look l
  | capture index body ih => exact (ih h).capture index
  | cat first rest ihf ihr =>
    obtain ⟨hf, hr⟩ := (Bool.and_eq_true _ _).mp h
    exact (ihf hf).append (ihr hr)
  | alt first rest ihf ihr =>
    obtain ⟨hf, hr⟩ := (Bool.and_eq_true _ _).mp h
    exact (ihf hf).alt (ihr hr)
  | repeated min max greedy body ih =>
    obtain ⟨hloop, hbody⟩ := (Bool.and_eq_true _ _).mp h
    have hruns := ih hbody
    cases max with
    | some max => exact (hruns.times min).append (hruns.upTo greedy (max - min))
    | none =>
      have htakes : body.takesChar = true := by simpa using hloop
      have hadv := paths_advances htakes
      cases min with
      | zero =>
        have hcode : (repeated 0 none greedy body).code = Expr.loop greedy body.code := by
          simp [code, bounded, htakes]
        rw [hcode, paths, Moves.times, Moves.nil_seq]
        exact hruns.loop hadv greedy
      | succ min =>
        rw [paths, Moves.times_succ, Moves.seq_assoc]
        exact (hruns.times min).append (hruns.runs hadv greedy)

end Expr

end PairGrep.Pattern
