import Mathlib
import PairGrep.Pattern.Search

/-!
# Runs of a program

What a program does from a thread when nothing is remembered: the thread fails if every way from it
ends without acceptance, and else it finds the first acceptance in the order of preference. The
search that enters each pair of an instruction and a place only once comes to the same result, and
its fuel never runs out.
-/

namespace PairGrep.Pattern

def Thread.state (t : Thread) : Nat × Nat := (t.inst, t.place)

namespace Program

variable {p : Program} {text : Array Char}

def Accepts (p : Program) (t : Thread) : Prop := p.code[t.inst]? = some .accept

def next (p : Program) (text : Array Char) (t : Thread) : List Thread :=
  match p.code[t.inst]? with
  | some inst => successors text t inst
  | none => []

/-- Every way from the thread ends without acceptance. -/
inductive Fails (p : Program) (text : Array Char) : Thread → Prop
  | intro {t : Thread} (ha : ¬p.Accepts t) (hn : ∀ u ∈ p.next text t, Fails p text u) :
    Fails p text t

/-- The first acceptance in the order of preference is reached after so many steps. -/
inductive Finds (p : Program) (text : Array Char) : Nat → Thread → Thread → Prop
  | here {t : Thread} (ha : p.Accepts t) : Finds p text 0 t t
  | step {n : Nat} {t u a : Thread} {skipped rest : List Thread} (ha : ¬p.Accepts t)
    (hn : p.next text t = skipped ++ u :: rest) (hs : ∀ v ∈ skipped, p.Fails text v)
    (hu : Finds p text n u a) : Finds p text (n + 1) t a

theorem next_state {t u : Thread} (h : t.state = u.state) :
    (p.next text t).map Thread.state = (p.next text u).map Thread.state := by
  obtain ⟨hi, hp⟩ := Prod.mk.inj h
  simp only [next, hi]
  cases p.code[u.inst]? with
  | none => rfl
  | some inst =>
    cases inst with
    | char s =>
      simp only [successors, hi, hp]
      cases text[u.place]? with
      | none => rfl
      | some c => by_cases hc : s.contains c <;> simp [hc, Thread.state]
    | look l =>
      simp only [successors, hi, hp]
      generalize (if u.place = 0 then none else text[u.place - 1]?) = before
      by_cases hl : l.holds before text[u.place]? <;> simp [hl, Thread.state]
    | mark slot => simp [successors, Thread.state, hi, hp]
    | fork next distance => cases next <;> simp [successors, Thread.state, hi, hp]
    | jump distance => simp [successors, Thread.state, hi, hp]
    | accept => rfl

private theorem Accepts.of_state {t u : Thread} (h : t.state = u.state) (ha : p.Accepts t) :
    p.Accepts u := by
  rw [Accepts, ← (Prod.mk.inj h).1]
  exact ha

theorem Fails.of_state {t u : Thread} (hf : p.Fails text t) (h : t.state = u.state) :
    p.Fails text u := by
  induction hf generalizing u with
  | @intro t ha hn ih =>
    refine .intro (fun hu => ha (hu.of_state h.symm)) fun v hv => ?_
    have hm : v.state ∈ (p.next text t).map Thread.state := by
      rw [next_state h]
      exact List.mem_map_of_mem hv
    obtain ⟨w, hw, hwv⟩ := List.mem_map.mp hm
    exact ih w hw hwv

theorem Finds.of_state {n : Nat} {t u a : Thread} (hf : p.Finds text n t a)
    (h : t.state = u.state) : ∃ b, p.Finds text n u b := by
  induction hf generalizing u with
  | here ha => exact ⟨u, .here (ha.of_state h)⟩
  | @step n t v a skipped rest ha hn hs _ ih =>
    have hm : (p.next text t).map Thread.state = (p.next text u).map Thread.state := next_state h
    rw [hn, List.map_append, List.map_cons] at hm
    obtain ⟨skipped', rest', hn', hsk, hre⟩ := List.map_eq_append_iff.mp hm.symm
    obtain ⟨v', rest'', rfl, hv, -⟩ := List.map_eq_cons_iff.mp hre
    obtain ⟨b, hb⟩ := ih hv.symm
    refine ⟨b, .step (fun hu => ha (hu.of_state h.symm)) hn' (fun w hw => ?_) hb⟩
    have hws : w.state ∈ skipped.map Thread.state := by
      rw [← hsk]
      exact List.mem_map_of_mem hw
    obtain ⟨x, hx, hxw⟩ := List.mem_map.mp hws
    exact (hs x hx).of_state hxw

theorem Fails.not_finds {n : Nat} {t a : Thread} (hf : p.Fails text t) :
    ¬p.Finds text n t a := by
  intro h
  induction h with
  | here ha =>
    obtain ⟨hna, -⟩ := hf
    exact hna ha
  | step ha hn _ _ ih =>
    obtain ⟨-, hall⟩ := hf
    exact ih (hall _ (by simp [hn]))

theorem Finds.unique {n m : Nat} {t a b : Thread} (h : p.Finds text n t a)
    (h' : p.Finds text m t b) : n = m ∧ a = b := by
  induction h generalizing m b with
  | here ha =>
    cases h' with
    | here => exact ⟨rfl, rfl⟩
    | step hna => exact absurd ha hna
  | @step n t u a skipped rest ha hn hs hu ih =>
    cases h' with
    | here ha' => exact absurd ha' ha
    | @step m _ u' _ skipped' rest' _ hn' hs' hu' =>
      -- Neither list of skipped threads can go on past the thread that finds something.
      have hsplit : skipped ++ u :: rest = skipped' ++ u' :: rest' := hn.symm.trans hn'
      have heq : u = u' := by
        rcases List.append_eq_append_iff.mp hsplit with ⟨l, hl, hr⟩ | ⟨l, hl, hr⟩
        · cases l with
          | nil => exact (List.cons.inj hr).1
          | cons x l =>
            have hx : u = x := (List.cons.inj hr).1
            exact absurd hu ((hs' u (by simp [hl, hx])).not_finds)
        · cases l with
          | nil => exact (List.cons.inj hr).1.symm
          | cons x l =>
            have hx : u' = x := (List.cons.inj hr).1
            exact absurd hu' ((hs u' (by simp [hl, hx])).not_finds)
      subst heq
      obtain ⟨rfl, rfl⟩ := ih hu'
      exact ⟨rfl, rfl⟩

end Program

namespace Visited

/-- All pairs that have been entered belong to threads with a property. -/
def Within (v : Visited) (S : Thread → Prop) : Prop :=
  ∀ t : Thread, v.contains t.place t.inst → S t

theorem contains_none (places place inst : Nat) : (none places).contains place inst = false := by
  simp only [contains, none, Array.getD_eq_getD_getElem?, Array.getElem?_replicate]
  split <;> simp

theorem contains_insert (v : Visited) (place inst place' inst' : Nat) (h : place < v.masks.size) :
    (v.insert place inst).contains place' inst' =
      (v.contains place' inst' || (decide (place' = place) && decide (inst' = inst))) := by
  simp only [contains, insert, Array.getD_eq_getD_getElem?, Array.getElem?_modify]
  by_cases hp : place = place'
  · subst hp
    have hget : v.masks[place]? = some v.masks[place] := Array.getElem?_eq_getElem h
    simp only [if_true, hget, Option.map_some, Option.getD_some, Nat.testBit_or, decide_true,
      Bool.true_and]
    congr 1
    rw [Nat.one_shiftLeft, Nat.testBit_two_pow]
    exact decide_eq_decide.mpr eq_comm
  · simp [hp, Ne.symm hp]

theorem Within.mono {v : Visited} {S S' : Thread → Prop} (h : v.Within S)
    (hS : ∀ t, S t → S' t) : v.Within S' := fun t ht => hS t (h t ht)

theorem Within.insert {v : Visited} {S : Thread → Prop} (h : v.Within S) {t : Thread}
    (hp : t.place < v.masks.size) (ht : ∀ u : Thread, u.state = t.state → S u) :
    (v.insert t.place t.inst).Within S := by
  intro u hu
  rw [contains_insert _ _ _ _ _ hp, Bool.or_eq_true, Bool.and_eq_true, decide_eq_true_eq,
    decide_eq_true_eq] at hu
  rcases hu with hu | ⟨hup, hui⟩
  · exact h u hu
  · exact ht u (by rw [Thread.state, Thread.state, hup, hui])

def free (v : Visited) (insts : Nat) : Finset (Nat × Nat) :=
  (Finset.range v.masks.size ×ˢ Finset.range insts).filter fun x => ¬v.contains x.1 x.2

theorem size_insert (v : Visited) (place inst : Nat) :
    (v.insert place inst).masks.size = v.masks.size := by
  simp [insert]

theorem card_free_insert_le (v : Visited) (insts place inst : Nat) (h : place < v.masks.size) :
    ((v.insert place inst).free insts).card ≤ (v.free insts).card := by
  apply Finset.card_le_card
  intro x hx
  simp only [free, Finset.mem_filter, size_insert, contains_insert _ _ _ _ _ h] at hx ⊢
  exact ⟨hx.1, fun hc => hx.2 (by simp [hc])⟩

theorem card_free_insert_lt (v : Visited) (insts place inst : Nat) (h : place < v.masks.size)
    (hi : inst < insts) (hv : ¬v.contains place inst) :
    ((v.insert place inst).free insts).card < (v.free insts).card := by
  apply Finset.card_lt_card
  refine ⟨fun x hx => ?_, fun hsub => ?_⟩
  · simp only [free, Finset.mem_filter, size_insert, contains_insert _ _ _ _ _ h] at hx ⊢
    exact ⟨hx.1, fun hc => hx.2 (by simp [hc])⟩
  · have hmem : (place, inst) ∈ v.free insts := by simp [free, h, hi, hv]
    have hnot := hsub hmem
    simp [free, contains_insert _ _ _ _ _ h] at hnot

theorem card_free_le (v : Visited) (insts : Nat) :
    (v.free insts).card ≤ v.masks.size * insts := by
  calc (v.free insts).card
      ≤ (Finset.range v.masks.size ×ˢ Finset.range insts).card := Finset.card_filter_le _ _
    _ = v.masks.size * insts := by simp

end Visited

namespace Program

variable {p : Program} {text : Array Char}

/-- The search from a stack of threads, with no bound on their number. -/
inductive Explores (p : Program) (text : Array Char) :
    List Thread → Visited → Option Thread × Visited → Prop
  | done (v : Visited) : Explores p text [] v (none, v)
  | seen {t : Thread} {stack : List Thread} {v : Visited} {r : Option Thread × Visited}
    (hv : v.contains t.place t.inst = true) (h : Explores p text stack v r) :
    Explores p text (t :: stack) v r
  | accept {t : Thread} (stack : List Thread) {v : Visited}
    (hv : v.contains t.place t.inst = false) (ha : p.Accepts t) :
    Explores p text (t :: stack) v (some t, v.insert t.place t.inst)
  | enter {t : Thread} {stack : List Thread} {v : Visited} {r : Option Thread × Visited}
    (hv : v.contains t.place t.inst = false) (ha : ¬p.Accepts t)
    (h : Explores p text (p.next text t ++ stack) (v.insert t.place t.inst) r) :
    Explores p text (t :: stack) v r

private theorem next_length_le (t : Thread) : (p.next text t).length ≤ 2 := by
  rw [next]
  split
  · next inst _ =>
    cases inst with
    | char s =>
      simp only [successors]
      split
      · split <;> simp
      · simp
    | look l =>
      simp only [successors]
      generalize (if t.place = 0 then none else text[t.place - 1]?) = before
      split <;> simp
    | mark slot => simp [successors]
    | fork next distance => cases next <;> simp [successors]
    | jump distance => simp [successors]
    | accept => simp [successors]
  · simp

theorem place_of_mem_next {t u : Thread} (hu : u ∈ p.next text t) :
    u.place = t.place ∨ (u.place = t.place + 1 ∧ t.place < text.size) := by
  rw [next] at hu
  split at hu
  · next inst _ =>
    cases inst with
    | char s =>
      simp only [successors] at hu
      split at hu
      · next c hc =>
        split at hu
        · exact .inr ⟨by simp [List.mem_singleton.mp hu], (Array.getElem?_eq_some_iff.mp hc).1⟩
        · simp at hu
      · simp at hu
    | look l =>
      simp only [successors] at hu
      generalize (if t.place = 0 then none else text[t.place - 1]?) = before at hu
      split at hu
      · exact .inl (by simp [List.mem_singleton.mp hu])
      · simp at hu
    | mark slot => exact .inl (by simp [List.mem_singleton.mp hu])
    | fork near distance =>
      left
      cases near <;> simp only [successors, List.mem_cons, List.not_mem_nil, or_false,
        Bool.false_eq_true, if_false, if_true] at hu <;> rcases hu with rfl | rfl <;> rfl
    | jump distance => exact .inl (by simp [List.mem_singleton.mp hu])
    | accept => simp [successors] at hu
  · simp at hu

theorem next_place_le {t u : Thread} (h : t.place ≤ text.size) (hu : u ∈ p.next text t) :
    u.place ≤ text.size := by
  have := place_of_mem_next hu
  omega

/-- The fuel of a search lasts: each pair is entered once, and leads to two threads at most. -/
theorem explores_explore (fuel : Nat) (stack : List Thread) (v : Visited)
    (hv : v.masks.size = text.size + 1) (hs : ∀ t ∈ stack, t.place ≤ text.size)
    (hf : 2 * (v.free p.code.size).card + stack.length < fuel) :
    p.Explores text stack v (p.explore text fuel stack v) := by
  induction fuel generalizing stack v with
  | zero => omega
  | succ fuel ih =>
    cases stack with
    | nil => exact .done v
    | cons t stack =>
      have ht : t.place < v.masks.size := by
        have := hs t List.mem_cons_self
        omega
      have hrest : ∀ u ∈ stack, u.place ≤ text.size := fun u hu => hs u (List.mem_cons_of_mem t hu)
      have hsize := v.size_insert t.place t.inst
      rw [List.length_cons] at hf
      rw [explore]
      cases hseen : v.contains t.place t.inst with
      | true =>
        exact .seen hseen (ih stack v hv hrest (by omega))
      | false =>
        simp only [Bool.false_eq_true, if_false]
        cases hc : p.code[t.inst]? with
        | none =>
          have hle := v.card_free_insert_le p.code.size t.place t.inst ht
          refine .enter hseen (by simp [Accepts, hc]) ?_
          have hnext : p.next text t = [] := by simp [next, hc]
          rw [hnext, List.nil_append]
          exact ih stack _ (hsize.trans hv) hrest (by omega)
        | some inst =>
          have hi : t.inst < p.code.size := (Array.getElem?_eq_some_iff.mp hc).1
          have hlt := v.card_free_insert_lt p.code.size t.place t.inst ht hi (by simp [hseen])
          have hnext : p.next text t = successors text t inst := by simp [next, hc]
          have hlen : (p.next text t).length ≤ 2 := next_length_le t
          by_cases ha : inst = .accept
          · subst ha
            exact .accept stack hseen hc
          · have hgo : ∀ u ∈ p.next text t ++ stack, u.place ≤ text.size := by
              intro u hu
              rcases List.mem_append.mp hu with hu | hu
              · exact next_place_le (by omega) hu
              · exact hrest u hu
            have hrec := ih (p.next text t ++ stack) _ (hsize.trans hv) hgo (by
              rw [List.length_append]
              omega)
            rw [hnext] at hrec
            have henter := Explores.enter hseen (by simp [Accepts, hc, ha]) (hnext ▸ hrec)
            rw [hnext] at henter
            cases inst with
            | accept => exact absurd rfl ha
            | _ => exact henter

/-- The thread leaves the stack without acceptance, and all that is entered from it has a
property. -/
def Passes (p : Program) (text : Array Char) (S : Thread → Prop) (t : Thread) : Prop :=
  ∀ (stack : List Thread) (v : Visited) (r : Option Thread × Visited),
    p.Explores text (t :: stack) v r → v.Within S → v.masks.size = text.size + 1 →
      ∃ v', v'.Within S ∧ v'.masks.size = text.size + 1 ∧ p.Explores text stack v' r

section Memory

variable {S : Thread → Prop}

theorem Passes.all {l stack : List Thread} (hl : ∀ u ∈ l, p.Passes text S u) {v : Visited}
    {r : Option Thread × Visited} (h : p.Explores text (l ++ stack) v r) (hv : v.Within S)
    (hsize : v.masks.size = text.size + 1) :
    ∃ v', v'.Within S ∧ v'.masks.size = text.size + 1 ∧ p.Explores text stack v' r := by
  induction l generalizing v with
  | nil => exact ⟨v, hv, hsize, h⟩
  | cons u l ih =>
    obtain ⟨w, hw, hws, he⟩ := hl u List.mem_cons_self _ v r h hv hsize
    exact ih (fun x hx => hl x (List.mem_cons_of_mem u hx)) he hw hws

theorem Fails.passes {t : Thread} (hf : p.Fails text t) (ht : t.place ≤ text.size)
    (hS : ∀ u, p.Fails text u → S u) : p.Passes text S t := by
  induction hf with
  | @intro t ha hn ih =>
    intro stack v r h hv hsize
    cases h with
    | seen _ h => exact ⟨v, hv, hsize, h⟩
    | accept _ _ ha' => exact absurd ha' ha
    | enter _ _ h =>
      have hins : (v.insert t.place t.inst).Within S :=
        hv.insert (by omega) fun u hu => hS u ((Fails.intro ha hn).of_state hu.symm)
      exact Passes.all (fun u hu => ih u hu (next_place_le ht hu)) h hins
        ((v.size_insert _ _).trans hsize)

/-- What may have been entered before a thread that finds an acceptance after `n` steps: threads
that fail, and those from which the acceptance is farther away. -/
def Before (p : Program) (text : Array Char) (n : Nat) (t : Thread) : Prop :=
  p.Fails text t ∨ ∃ m b, n < m ∧ p.Finds text m t b

theorem Finds.not_seen {n : Nat} {t a : Thread} (hf : p.Finds text n t a) {v : Visited}
    (hv : v.Within (p.Before text n)) : v.contains t.place t.inst ≠ true := by
  intro hseen
  rcases hv t hseen with h | ⟨m, b, hm, h⟩
  · exact h.not_finds hf
  · exact absurd (hf.unique h).1 (by omega)

/-- The search comes to the acceptance that the thread finds, whatever lies below it on the
stack. -/
theorem Finds.explores {n : Nat} {t a : Thread} (hf : p.Finds text n t a) {stack : List Thread}
    {v : Visited} {r : Option Thread × Visited} (h : p.Explores text (t :: stack) v r)
    (hv : v.Within (p.Before text n)) (hsize : v.masks.size = text.size + 1)
    (ht : t.place ≤ text.size) : r.1 = some a := by
  induction hf generalizing stack v with
  | here ha =>
    cases h with
    | seen hseen => exact absurd hseen ((Finds.here ha).not_seen hv)
    | accept => rfl
    | enter _ hna => exact absurd ha hna
  | @step n t u a skipped rest ha hn hs hu ih =>
    have hstep := Finds.step ha hn hs hu
    cases h with
    | seen hseen => exact absurd hseen (hstep.not_seen hv)
    | accept _ _ hna => exact absurd hna ha
    | enter _ _ h =>
      have hplace : ∀ w ∈ p.next text t, w.place ≤ text.size := fun w hw => next_place_le ht hw
      have hins : (v.insert t.place t.inst).Within (p.Before text n) := by
        apply (hv.mono fun w hw => hw.imp_right ?_).insert (by omega)
        · intro w hw
          obtain ⟨b, hb⟩ := hstep.of_state hw.symm
          exact .inr ⟨n + 1, b, by omega, hb⟩
        · rintro ⟨m, b, hm, hb⟩
          exact ⟨m, b, by omega, hb⟩
      rw [hn, List.append_assoc] at h
      obtain ⟨w, hw, hws, he⟩ := Passes.all
        (fun x hx => (hs x hx).passes (hplace x (by simp [hn, hx])) fun _ => Or.inl) h hins
        ((v.size_insert _ _).trans hsize)
      exact ih he hw hws (hplace u (by simp [hn]))

end Memory

/-- What a run from a thread comes to: an acceptance, or none. -/
def Outcome (p : Program) (text : Array Char) (t : Thread) : Option Thread → Prop
  | none => p.Fails text t
  | some a => ∃ n, p.Finds text n t a

theorem Outcome.of_nil {t : Thread} (ha : ¬p.Accepts t) (hn : p.next text t = []) :
    p.Outcome text t none :=
  .intro ha fun u hu => by simp [hn] at hu

theorem Outcome.of_one {t u : Thread} {r : Option Thread} (ha : ¬p.Accepts t)
    (hn : p.next text t = [u]) (hu : p.Outcome text u r) : p.Outcome text t r := by
  cases r with
  | none =>
    refine .intro ha fun v hv => ?_
    rw [hn] at hv
    rwa [List.mem_singleton.mp hv]
  | some a =>
    obtain ⟨n, hf⟩ := hu
    have hnext : p.next text t = [] ++ u :: [] := hn
    exact ⟨n + 1, .step ha hnext (by simp) hf⟩

/-- Of two threads that follow, the second is tried where the first fails. -/
theorem Outcome.of_two {t u v : Thread} {r r' : Option Thread} (ha : ¬p.Accepts t)
    (hn : p.next text t = [u, v]) (hu : p.Outcome text u r) (hv : p.Outcome text v r') :
    p.Outcome text t (r.or r') := by
  cases r with
  | some a =>
    obtain ⟨n, hf⟩ := hu
    have hnext : p.next text t = [] ++ u :: [v] := hn
    exact ⟨n + 1, .step ha hnext (by simp) hf⟩
  | none =>
    have hfail : ∀ w ∈ [u], p.Fails text w := fun w hw => by rwa [List.mem_singleton.mp hw]
    cases r' with
    | none =>
      refine .intro ha fun w hw => ?_
      rw [hn] at hw
      rcases List.mem_cons.mp hw with rfl | hw
      · exact hu
      · rwa [List.mem_singleton.mp hw]
    | some a =>
      obtain ⟨n, hf⟩ := hv
      exact ⟨n + 1, .step ha hn hfail hf⟩

def matchOf (start : Nat) (t : Thread) : Match := ⟨start, t.place, t.marks⟩

theorem explore_of_outcome {o : Option Thread} {start : Nat} {v : Visited}
    (ho : p.Outcome text ⟨0, start, []⟩ o) (hv : v.Within (p.Fails text))
    (hsize : v.masks.size = text.size + 1) (hstart : start ≤ text.size) :
    ∃ v', p.explore text (p.fuel text) [⟨0, start, []⟩] v = (o, v') ∧
      (o = none → v'.Within (p.Fails text) ∧ v'.masks.size = text.size + 1) := by
  have hfuel : 2 * (v.free p.code.size).card + 1 < p.fuel text := by
    have hle := v.card_free_le p.code.size
    rw [hsize, Nat.mul_comm] at hle
    rw [fuel, Nat.mul_assoc]
    omega
  have hex := explores_explore (p.fuel text) [⟨0, start, []⟩] v hsize
    (by simpa using hstart) (by simpa using hfuel)
  cases o with
  | none =>
    have hf : p.Fails text ⟨0, start, []⟩ := ho
    obtain ⟨v', hw, hs, he⟩ := hf.passes hstart (fun _ h => h) _ _ _ hex hv hsize
    generalize p.explore text (p.fuel text) [⟨0, start, []⟩] v = r at he
    cases he
    exact ⟨v', rfl, fun _ => ⟨hw, hs⟩⟩
  | some a =>
    obtain ⟨n, hf⟩ := ho
    have hr := hf.explores hex (hv.mono fun _ => Or.inl) hsize hstart
    exact ⟨_, Prod.ext hr rfl, fun h => by simp at h⟩

/-- A search tries the places one after another, though it remembers what failed before. -/
theorem findWithin_eq {o : Nat → Option Thread} (count start : Nat) {v : Visited}
    (ho : ∀ s ≤ text.size, p.Outcome text ⟨0, s, []⟩ (o s)) (hv : v.Within (p.Fails text))
    (hsize : v.masks.size = text.size + 1) (hcount : start + count ≤ text.size + 1) :
    p.findWithin text count start v =
      (List.range' start count).findSome? fun s => (o s).map (matchOf s) := by
  induction count generalizing start v with
  | zero => rfl
  | succ count ih =>
    obtain ⟨v', hex, hnone⟩ := explore_of_outcome (ho start (by omega)) hv hsize (by omega)
    rw [findWithin, hex, List.range'_succ, List.findSome?_cons]
    cases hs : o start with
    | none =>
      obtain ⟨hw, hs'⟩ := hnone hs
      simpa using ih (start + 1) hw hs' (by omega)
    | some a => rfl

theorem find?_eq {o : Nat → Option Thread} (start : Nat)
    (ho : ∀ s ≤ text.size, p.Outcome text ⟨0, s, []⟩ (o s)) (hstart : start ≤ text.size + 1) :
    p.find? text start =
      (List.range' start (text.size + 1 - start)).findSome? fun s => (o s).map (matchOf s) := by
  refine findWithin_eq _ _ ho (fun t ht => ?_) (by simp [Visited.none]) (by omega)
  rw [Visited.contains_none] at ht
  exact absurd ht (by simp)

end Program

end PairGrep.Pattern
