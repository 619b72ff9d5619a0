import PairGrep.Proofs.Search.Walks

/-!
# What an expression spans

The places of a text between which an expression can be matched, whichever match is preferred. The
program of the expression spans the same places.
-/

namespace PairGrep.Pattern

/-- So many rounds of a relation. -/
def Rounds (R : Nat → Nat → Prop) : Nat → Nat → Nat → Prop
  | 0, i, j => i = j
  | n + 1, i, j => ∃ k, R i k ∧ Rounds R n k j

namespace Rounds

variable {R S : Nat → Nat → Prop}

theorem add {m n i j : Nat} :
    Rounds R (m + n) i j ↔ ∃ k, Rounds R m i k ∧ Rounds R n k j := by
  induction m generalizing i with
  | zero => simp [Rounds]
  | succ m ih =>
    rw [Nat.add_right_comm]
    constructor
    · rintro ⟨k, hk, h⟩
      obtain ⟨l, hl, h⟩ := ih.mp h
      exact ⟨l, ⟨k, hk, hl⟩, h⟩
    · rintro ⟨l, ⟨k, hk, hl⟩, h⟩
      exact ⟨k, hk, ih.mpr ⟨l, hl, h⟩⟩

theorem congr (h : ∀ i j, R i j ↔ S i j) (n i j : Nat) : Rounds R n i j ↔ Rounds S n i j := by
  induction n generalizing i with
  | zero => exact Iff.rfl
  | succ n ih => simp only [Rounds, h, ih]

end Rounds

namespace Expr

/-- The expression can be matched from one place of the text to another one. -/
def Spans (text : Array Char) : Expr → Nat → Nat → Prop
  | empty => fun i j => i = j
  | set s => fun i j => j = i + 1 ∧ ∃ c, text[i]? = some c ∧ s.contains c = true
  | look l => fun i j =>
    i = j ∧ l.holds (if i = 0 then none else text[i - 1]?) text[i]? = true
  | capture _ body => body.Spans text
  | cat first rest => fun i j => ∃ k, first.Spans text i k ∧ rest.Spans text k j
  | alt first rest => fun i j => first.Spans text i j ∨ rest.Spans text i j
  | repeated min max _ body => fun i j =>
    ∃ n, (∀ m, max = some m → n ≤ m - min) ∧ Rounds (body.Spans text) (min + n) i j

end Expr

section Walks

variable {p : Program} {text : Array Char}

theorem Program.Walks.of_code {n : Nat} {t u v : Thread} {inst : Inst}
    (hi : p.code[t.inst]? = some inst) (hu : u ∈ Program.successors text t inst)
    (h : p.Walks text n u v) : p.Walks text (n + 1) t v :=
  .step (by rw [next, hi]; exact hu) h

theorem Program.Walks.exists_successor {n : Nat} {t a : Thread} {inst : Inst}
    (hi : p.code[t.inst]? = some inst) (hinst : inst ≠ .accept) (h : p.Walks text n t a)
    (ha : p.Accepts a) :
    ∃ m u, n = m + 1 ∧ u ∈ Program.successors text t inst ∧ p.Walks text m u a := by
  cases h with
  | refl =>
    rw [Accepts, hi] at ha
    exact absurd (Option.some.inj ha) hinst
  | step hu h =>
    rw [next, hi] at hu
    exact ⟨_, _, rfl, hu, h⟩

theorem mem_successors_fork {t u : Thread} {near : Bool} {distance : Int} :
    u ∈ Program.successors text t (.fork near distance) ↔
      u = ⟨t.inst + 1, t.place, t.marks⟩ ∨
        u = ⟨((t.inst : Int) + distance).toNat, t.place, t.marks⟩ := by
  cases near <;> simp [Program.successors, or_comm]

/-- Walks enter the instructions at the first one and leave them behind the last one, and the places
at which they can do so are those in the relation. -/
structure Joins (text : Array Char) (code : List Inst) (R : Nat → Nat → Prop) : Prop where
  enter : ∀ {p : Program} {o : Nat}, p.Holds o code → ∀ {t : Thread} {j : Nat}, t.inst = o →
    R t.place j → ∃ n u, p.Walks text n t u ∧ u.inst = o + code.length ∧ u.place = j
  leave : ∀ {p : Program} {o : Nat}, p.Holds o code → ∀ {n : Nat} {t a : Thread}, t.inst = o →
    p.Walks text n t a → p.Accepts a →
      ∃ m u, m ≤ n ∧ p.Walks text m u a ∧ u.inst = o + code.length ∧ R t.place u.place

namespace Joins

variable {a b : List Inst} {R S : Nat → Nat → Prop}

theorem congr (h : Joins text a R) (hRS : ∀ i j, R i j ↔ S i j) : Joins text a S where
  enter hc _ _ ht hj := h.enter hc ht ((hRS _ _).mpr hj)
  leave hc _ _ _ ht hwalk ha := by
    obtain ⟨m, u, hm, hu, hinst, hR⟩ := h.leave hc ht hwalk ha
    exact ⟨m, u, hm, hu, hinst, (hRS _ _).mp hR⟩

theorem nil : Joins text [] (· = ·) where
  enter _ t _ ht hj := ⟨0, t, .refl t, ht, hj⟩
  leave _ n t _ ht hwalk _ := ⟨n, t, Nat.le_refl n, hwalk, ht, rfl⟩

theorem single {inst : Inst} (hinst : inst ≠ .accept)
    (hnext : ∀ (t u : Thread), u ∈ Program.successors text t inst →
      u.inst = t.inst + 1 ∧ R t.place u.place)
    (hR : ∀ (t : Thread) (j : Nat), R t.place j →
      ∃ u ∈ Program.successors text t inst, u.inst = t.inst + 1 ∧ u.place = j) :
    Joins text [inst] R where
  enter := by
    intro p o hc t j ht hj
    obtain ⟨u, hu, hui, huj⟩ := hR t j hj
    have hi : p.code[t.inst]? = some inst := ht ▸ hc.cons.1
    exact ⟨1, u, .of_code hi hu (.refl u), ht ▸ hui, huj⟩
  leave := by
    intro p o hc n t a ht hwalk ha
    have hi : p.code[t.inst]? = some inst := ht ▸ hc.cons.1
    obtain ⟨m, u, rfl, hu, hrest⟩ := hwalk.exists_successor hi hinst ha
    obtain ⟨hui, huR⟩ := hnext t u hu
    exact ⟨m, u, by omega, hrest, ht ▸ hui, huR⟩

theorem set (s : CharSet) : Joins text [.char s] ((Expr.set s).Spans text) := by
  apply single (by simp)
  · intro t u hu
    cases hc : text[t.place]? with
    | none => simp [Program.successors, hc] at hu
    | some c =>
      by_cases hs : s.contains c
      · obtain rfl : u = ⟨t.inst + 1, t.place + 1, t.marks⟩ := by
          simpa [Program.successors, hc, hs] using hu
        exact ⟨rfl, rfl, c, hc, hs⟩
      · simp [Program.successors, hc, hs] at hu
  · rintro t j ⟨rfl, c, hc, hs⟩
    exact ⟨⟨t.inst + 1, t.place + 1, t.marks⟩, by simp [Program.successors, hc, hs], rfl, rfl⟩

theorem look (l : Look) : Joins text [.look l] ((Expr.look l).Spans text) := by
  have hsucc : ∀ t : Thread, Program.successors text t (.look l) =
      if l.holds (if t.place = 0 then none else text[t.place - 1]?) text[t.place]? then
        [⟨t.inst + 1, t.place, t.marks⟩] else [] := fun _ => rfl
  apply single (by simp)
  · intro t u hu
    rw [hsucc] at hu
    by_cases hl : l.holds (if t.place = 0 then none else text[t.place - 1]?) text[t.place]? = true
    · rw [if_pos hl] at hu
      rw [List.mem_singleton.mp hu]
      exact ⟨rfl, rfl, hl⟩
    · rw [if_neg hl] at hu
      simp at hu
  · rintro t j ⟨rfl, hl⟩
    exact ⟨⟨t.inst + 1, t.place, t.marks⟩, by rw [hsucc, if_pos hl]; simp, rfl, rfl⟩

theorem mark (slot : Nat) : Joins text [.mark slot] (· = ·) := by
  apply single (by simp)
  · intro t u hu
    rw [List.mem_singleton.mp hu]
    exact ⟨rfl, rfl⟩
  · intro t j hj
    exact ⟨_, List.mem_singleton.mpr rfl, rfl, hj⟩

theorem append (ha : Joins text a R) (hb : Joins text b S) :
    Joins text (a ++ b) fun i j => ∃ k, R i k ∧ S k j where
  enter := by
    rintro p o hc t j ht ⟨k, hR, hS⟩
    obtain ⟨hca, hcb⟩ := hc.append
    obtain ⟨m, u, hwalk, hu, rfl⟩ := ha.enter hca ht hR
    obtain ⟨n, v, hwalk', hv, hj⟩ := hb.enter hcb hu hS
    exact ⟨m + n, v, hwalk.trans hwalk', by rw [hv, List.length_append, Nat.add_assoc], hj⟩
  leave := by
    intro p o hc n t a ht hwalk hacc
    obtain ⟨hca, hcb⟩ := hc.append
    obtain ⟨m, u, hm, hu, hui, hR⟩ := ha.leave hca ht hwalk hacc
    obtain ⟨l, v, hl, hv, hvi, hS⟩ := hb.leave hcb hui hu hacc
    exact ⟨l, v, by omega, hv, by rw [hvi, List.length_append, Nat.add_assoc], _, hR, hS⟩

theorem capture (ha : Joins text a R) (index : Nat) :
    Joins text (.mark (2 * index) :: (a ++ [.mark (2 * index + 1)])) R := by
  apply ((mark _).append (ha.append (mark _))).congr
  simp

theorem alt (ha : Joins text a R) (hb : Joins text b S) :
    Joins text (.fork true (a.length + 2) :: (a ++ .jump (b.length + 1) :: b))
      fun i j => R i j ∨ S i j where
  enter := by
    intro p o hc t j ht hj
    obtain ⟨hfork, hrest⟩ := hc.cons
    obtain ⟨hca, hrest⟩ := hrest.append
    obtain ⟨hjump, hcb⟩ := hrest.cons
    rw [← ht] at hfork
    rcases hj with hR | hS
    · obtain ⟨n, u, hwalk, hu, rfl⟩ :=
        ha.enter hca (t := ⟨t.inst + 1, t.place, t.marks⟩) (by rw [ht]) hR
      rw [← hu] at hjump
      refine ⟨_, _, .of_code hfork (mem_successors_fork.mpr (.inl rfl))
        (hwalk.trans (.of_code hjump (List.mem_singleton.mpr rfl) (.refl _))), ?_, rfl⟩
      simp only [List.length_cons, List.length_append, hu]
      omega
    · obtain ⟨n, u, hwalk, hu, rfl⟩ := hb.enter hcb
        (t := ⟨((t.inst : Int) + (a.length + 2)).toNat, t.place, t.marks⟩)
        (by simp only [ht]; omega) hS
      refine ⟨_, _, .of_code hfork (mem_successors_fork.mpr (.inr rfl)) hwalk, ?_, rfl⟩
      simp only [List.length_cons, List.length_append, hu]
      omega
  leave := by
    intro p o hc n t a' ht hwalk hacc
    obtain ⟨hfork, hrest⟩ := hc.cons
    obtain ⟨hca, hrest⟩ := hrest.append
    obtain ⟨hjump, hcb⟩ := hrest.cons
    rw [← ht] at hfork
    obtain ⟨n, u, rfl, hu, hwalk⟩ := hwalk.exists_successor hfork (by simp) hacc
    rcases mem_successors_fork.mp hu with rfl | rfl
    · obtain ⟨m, v, hm, hwalk, hv, hR⟩ := ha.leave hca (by rw [ht]) hwalk hacc
      rw [← hv] at hjump
      obtain ⟨m, w, rfl, hw, hwalk⟩ := hwalk.exists_successor hjump (by simp) hacc
      rw [List.mem_singleton.mp hw] at hwalk
      refine ⟨m, _, by omega, hwalk, ?_, .inl hR⟩
      simp only [List.length_cons, List.length_append, hv]
      omega
    · obtain ⟨m, v, hm, hwalk, hv, hS⟩ := hb.leave hcb (by simp only [ht]; omega) hwalk hacc
      refine ⟨m, v, by omega, hwalk, ?_, .inr hS⟩
      simp only [List.length_cons, List.length_append, hv]
      omega

theorem optional (ha : Joins text a R) (greedy : Bool) :
    Joins text (Expr.optional greedy a) fun i j => i = j ∨ R i j where
  enter := by
    intro p o hc t j ht hj
    obtain ⟨hfork, hca⟩ := hc.cons
    rw [← ht] at hfork
    rw [Expr.optional, List.length_cons]
    rcases hj with rfl | hR
    · refine ⟨_, _, .of_code hfork (mem_successors_fork.mpr (.inr rfl)) (.refl _), ?_, rfl⟩
      simp only [ht]
      omega
    · obtain ⟨n, u, hwalk, hu, rfl⟩ :=
        ha.enter hca (t := ⟨t.inst + 1, t.place, t.marks⟩) (by rw [ht]) hR
      exact ⟨_, _, .of_code hfork (mem_successors_fork.mpr (.inl rfl)) hwalk, by omega, rfl⟩
  leave := by
    intro p o hc n t a' ht hwalk hacc
    obtain ⟨hfork, hca⟩ := hc.cons
    rw [← ht] at hfork
    rw [Expr.optional, List.length_cons]
    obtain ⟨n, u, rfl, hu, hwalk⟩ := hwalk.exists_successor hfork (by simp) hacc
    rcases mem_successors_fork.mp hu with rfl | rfl
    · obtain ⟨m, v, hm, hwalk, hv, hR⟩ := ha.leave hca (by rw [ht]) hwalk hacc
      exact ⟨m, v, by omega, hwalk, by omega, .inr hR⟩
    · exact ⟨n, _, by omega, hwalk, by simp only [ht]; omega, .inl rfl⟩

theorem times (ha : Joins text a R) (n : Nat) : Joins text (Expr.times n a) (Rounds R n) := by
  induction n with
  | zero => exact nil
  | succ n ih =>
    rw [Expr.times, List.replicate_succ, List.flatten_cons]
    exact ha.append ih

theorem upTo (ha : Joins text a R) (greedy : Bool) (max : Nat) :
    Joins text (Expr.upTo greedy a max) fun i j => ∃ n ≤ max, Rounds R n i j := by
  induction max with
  | zero =>
    apply nil.congr
    intro i j
    simp [Rounds]
  | succ max ih =>
    apply ((ha.append ih).optional greedy).congr
    intro i j
    constructor
    · rintro (rfl | ⟨k, hk, n, hn, h⟩)
      · exact ⟨0, by omega, rfl⟩
      · exact ⟨n + 1, by omega, k, hk, h⟩
    · rintro ⟨n, hn, h⟩
      cases n with
      | zero => exact .inl h
      | succ n =>
        obtain ⟨k, hk, h⟩ := h
        exact .inr ⟨k, hk, n, by omega, h⟩

theorem runs (ha : Joins text a R) (greedy : Bool) :
    Joins text (Expr.runs greedy a) fun i j => ∃ n, Rounds R (n + 1) i j where
  enter := by
    rintro p o hc t j ht ⟨n, hn⟩
    obtain ⟨hca, hfork⟩ := hc.append
    have hfork := hfork.cons.1
    rw [Expr.runs, List.length_append, List.length_singleton]
    induction n generalizing t with
    | zero =>
      obtain ⟨k, hk, rfl⟩ := hn
      obtain ⟨m, u, hwalk, hu, rfl⟩ := ha.enter hca ht hk
      rw [← hu] at hfork
      exact ⟨_, _, hwalk.trans (.of_code hfork (mem_successors_fork.mpr (.inl rfl)) (.refl _)),
        by simp only [hu]; omega, rfl⟩
    | succ n ih =>
      obtain ⟨k, hk, hn⟩ := hn
      obtain ⟨m, u, hwalk, hu, rfl⟩ := ha.enter hca ht hk
      obtain ⟨l, v, hwalk', hv⟩ := ih
        (t := ⟨((u.inst : Int) + -(a.length : Int)).toNat, u.place, u.marks⟩)
        (by simp only [hu]; omega) hn
      rw [← hu] at hfork
      exact ⟨_, v, hwalk.trans (.of_code hfork (mem_successors_fork.mpr (.inr rfl)) hwalk'), hv⟩
  leave := by
    intro p o hc n t a' ht hwalk hacc
    obtain ⟨hca, hfork⟩ := hc.append
    have hfork := hfork.cons.1
    rw [Expr.runs, List.length_append, List.length_singleton]
    -- A walk back to the first instruction is shorter, since it has passed the fork.
    induction n using Nat.strong_induction_on generalizing t with
    | h n ih =>
      obtain ⟨m, u, hm, hwalk, hu, hR⟩ := ha.leave hca ht hwalk hacc
      have hfork' := hfork
      rw [← hu] at hfork'
      obtain ⟨m, v, rfl, hv, hwalk⟩ := hwalk.exists_successor hfork' (by simp) hacc
      rcases mem_successors_fork.mp hv with rfl | rfl
      · exact ⟨m, _, by omega, hwalk, by simp only [hu]; omega, 0, _, hR, rfl⟩
      · obtain ⟨l, w, hl, hwalk, hw, k, hk⟩ := ih m (by omega) (by simp only [hu]; omega) hwalk
        exact ⟨l, w, by omega, hwalk, hw, k + 1, _, hR, hk⟩

/-- A fork over the instructions in front of the first one, and a jump back to it behind the last
one. -/
theorem loop (ha : Joins text a R) (greedy : Bool) :
    Joins text (Expr.loop greedy a) fun i j => ∃ n, Rounds R n i j where
  enter := by
    rintro p o hc t j ht ⟨n, hn⟩
    obtain ⟨hfork, hrest⟩ := hc.cons
    obtain ⟨hca, hjump⟩ := hrest.append
    have hjump := hjump.cons.1
    have hlen : (Expr.loop greedy a).length = a.length + 2 := by simp [Expr.loop]
    induction n generalizing t with
    | zero =>
      rw [← ht] at hfork
      exact ⟨_, _, .of_code hfork (mem_successors_fork.mpr (.inr rfl)) (.refl _),
        by simp only [ht]; omega, hn⟩
    | succ n ih =>
      obtain ⟨k, hk, hn⟩ := hn
      obtain ⟨m, u, hwalk, hu, rfl⟩ :=
        ha.enter hca (t := ⟨t.inst + 1, t.place, t.marks⟩) (by rw [ht]) hk
      obtain ⟨l, v, hwalk', hv⟩ := ih
        (t := ⟨((u.inst : Int) + -(a.length + 1 : Int)).toNat, u.place, u.marks⟩)
        (by simp only [hu]; omega) hn
      rw [← ht] at hfork
      rw [← hu] at hjump
      exact ⟨_, v, .of_code hfork (mem_successors_fork.mpr (.inl rfl))
        (hwalk.trans (.of_code hjump (List.mem_singleton.mpr rfl) hwalk')), hv⟩
  leave := by
    intro p o hc n t a' ht hwalk hacc
    obtain ⟨hfork, hrest⟩ := hc.cons
    obtain ⟨hca, hjump⟩ := hrest.append
    have hjump := hjump.cons.1
    have hlen : (Expr.loop greedy a).length = a.length + 2 := by simp [Expr.loop]
    induction n using Nat.strong_induction_on generalizing t with
    | h n ih =>
      have hfork' := hfork
      rw [← ht] at hfork'
      obtain ⟨n, u, rfl, hu, hwalk⟩ := hwalk.exists_successor hfork' (by simp) hacc
      rcases mem_successors_fork.mp hu with rfl | rfl
      · obtain ⟨m, v, hm, hwalk, hv, hR⟩ := ha.leave hca (by rw [ht]) hwalk hacc
        have hjump' := hjump
        rw [← hv] at hjump'
        obtain ⟨m, w, rfl, hw, hwalk⟩ := hwalk.exists_successor hjump' (by simp) hacc
        rw [List.mem_singleton.mp hw] at hwalk
        obtain ⟨l, x, hl, hwalk, hx, k, hk⟩ := ih m (by omega) (by simp only [hv]; omega) hwalk
        exact ⟨l, x, by omega, hwalk, hx, k + 1, _, hR, hk⟩
      · exact ⟨n, _, by omega, hwalk, by simp only [ht]; omega, 0, rfl⟩

end Joins

namespace Expr

/-- The program of an expression can pass where the expression spans. -/
theorem joins_code (e : Expr) : Joins text e.code (e.Spans text) := by
  induction e with
  | empty => exact .nil
  | set s => exact .set s
  | look l => exact .look l
  | capture index body ih => exact ih.capture index
  | cat first rest ihf ihr => exact ihf.append ihr
  | alt first rest ihf ihr => exact ihf.alt ihr
  | repeated min max greedy body ih =>
    cases max with
    | some max =>
      apply ((ih.times min).append (ih.upTo greedy (max - min))).congr
      intro i j
      simp only [Spans, Rounds.add, Option.some.injEq, forall_eq']
      constructor
      · rintro ⟨k, hk, n, hn, h⟩
        exact ⟨n, hn, k, hk, h⟩
      · rintro ⟨n, hn, k, hk, h⟩
        exact ⟨k, hk, n, hn, h⟩
    | none =>
      cases min with
      | zero =>
        by_cases htakes : body.takesChar
        · simp only [code, bounded, htakes, if_true]
          apply (ih.loop greedy).congr
          intro i j
          simp [Spans]
        · simp only [code, bounded, htakes, Bool.false_eq_true, if_false]
          apply ((ih.runs greedy).optional greedy).congr
          intro i j
          simp only [Spans, Nat.zero_add, reduceCtorEq, false_implies, implies_true, true_and]
          constructor
          · rintro (rfl | ⟨n, hn⟩)
            · exact ⟨0, rfl⟩
            · exact ⟨n + 1, hn⟩
          · rintro ⟨n, hn⟩
            cases n with
            | zero => exact .inl hn
            | succ n => exact .inr ⟨n, hn⟩
      | succ min =>
        apply ((ih.times min).append (ih.runs greedy)).congr
        intro i j
        simp only [Spans, reduceCtorEq, false_implies, implies_true, true_and]
        constructor
        · rintro ⟨k, hk, n, hn⟩
          exact ⟨n, by rw [Nat.add_right_comm, Nat.add_assoc, Rounds.add]; exact ⟨k, hk, hn⟩⟩
        · rintro ⟨n, hn⟩
          rw [Nat.add_right_comm, Nat.add_assoc, Rounds.add] at hn
          obtain ⟨k, hk, hn⟩ := hn
          exact ⟨k, hk, n, hn⟩

end Expr

/-- A program spans what its expression does. -/
theorem Program.spans_ofExpr {e : Expr} {start stop : Nat} :
    (Program.ofExpr e).Spans text start stop ↔ e.Spans text start stop := by
  have hall : (Program.ofExpr e).Holds 0 (e.code ++ [.accept]) := by
    intro i _
    simp [Program.ofExpr]
  obtain ⟨hcode, haccept⟩ := hall.append
  have haccept : (Program.ofExpr e).code[0 + e.code.length]? = some .accept := by
    simpa using haccept.cons.1
  constructor
  · rintro ⟨n, a, hwalk, ha, rfl⟩
    obtain ⟨m, u, -, hwalk, hu, hspan⟩ := e.joins_code.leave hcode rfl hwalk ha
    rw [← hu] at haccept
    cases hwalk with
    | refl => exact hspan
    | step hv _ => simp [next, haccept, Program.successors] at hv
  · intro hspan
    obtain ⟨n, u, hwalk, hu, hplace⟩ :=
      e.joins_code.enter hcode (t := ⟨0, start, []⟩) rfl hspan
    exact ⟨n, u, hwalk, by rw [Accepts, hu, haccept], hplace⟩

end Walks

end PairGrep.Pattern
