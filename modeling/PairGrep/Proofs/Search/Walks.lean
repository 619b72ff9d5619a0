import PairGrep.Proofs.Search.Paths

/-!
# Walks of a program

A program spans two places of a text if one of its walks leads from the first to acceptance at the
second, be it the preferred one or not. The search finds a match where there is such a walk and only
there, also if the program has loops that take no character. What the program of an expression spans
is told by the expression.
-/

namespace PairGrep.Pattern

namespace Program

variable {p : Program} {text : Array Char}

/-- A thread is reached from another one in so many steps. -/
inductive Walks (p : Program) (text : Array Char) : Nat → Thread → Thread → Prop
  | refl (t : Thread) : Walks p text 0 t t
  | step {n : Nat} {t u v : Thread} (hu : u ∈ p.next text t) (h : Walks p text n u v) :
    Walks p text (n + 1) t v

def Spans (p : Program) (text : Array Char) (start stop : Nat) : Prop :=
  ∃ n a, p.Walks text n ⟨0, start, []⟩ a ∧ p.Accepts a ∧ a.place = stop

namespace Walks

theorem trans {m n : Nat} {t u v : Thread} (h : p.Walks text m t u) (h' : p.Walks text n u v) :
    p.Walks text (m + n) t v := by
  induction h with
  | refl t => simpa using h'
  | step hu _ ih =>
    rw [Nat.add_right_comm]
    exact .step hu (ih h')

theorem place_le {n : Nat} {t u : Thread} (h : p.Walks text n t u) (ht : t.place ≤ text.size) :
    t.place ≤ u.place ∧ u.place ≤ text.size := by
  induction h with
  | refl t => exact ⟨Nat.le_refl _, ht⟩
  | step hu _ ih =>
    have hstep := place_of_mem_next hu
    have := ih (next_place_le ht hu)
    omega

end Walks

theorem Spans.le {start stop : Nat} (h : p.Spans text start stop) (hstart : start ≤ text.size) :
    start ≤ stop ∧ stop ≤ text.size := by
  obtain ⟨n, a, hwalk, -, rfl⟩ := h
  exact hwalk.place_le hstart

section Search

/-- The thread's instruction has been entered at its place. -/
def Entered (v : Visited) (t : Thread) : Prop := v.contains t.place t.inst = true

theorem Entered.of_state {v : Visited} {t u : Thread} (h : Entered v t) (hstate : t.state = u.state) :
    Entered v u := by
  obtain ⟨hi, hp⟩ := Prod.mk.inj hstate
  rwa [Entered, ← hi, ← hp]

theorem entered_insert {v : Visited} {t u : Thread} (ht : t.place < v.masks.size) :
    Entered (v.insert t.place t.inst) u ↔ Entered v u ∨ u.state = t.state := by
  simp only [Entered, Visited.contains_insert _ _ _ _ _ ht, Bool.or_eq_true, Bool.and_eq_true,
    decide_eq_true_eq, Thread.state, Prod.mk.injEq, and_comm]

/-- Where the thread is no acceptance and all that follows has been entered. -/
def Explored (p : Program) (text : Array Char) (v : Visited) (t : Thread) : Prop :=
  ¬p.Accepts t ∧ ∀ u ∈ p.next text t, Entered v u

theorem Explored.of_state {v : Visited} {t u : Thread} (h : p.Explored text v t)
    (hstate : t.state = u.state) : p.Explored text v u := by
  refine ⟨fun ha => h.1 ?_, fun w hw => ?_⟩
  · rw [Accepts, (Prod.mk.inj hstate).1]
    exact ha
  · have hmem : w.state ∈ (p.next text t).map Thread.state := by
      rw [next_state hstate]
      exact List.mem_map_of_mem hw
    obtain ⟨x, hx, hxw⟩ := List.mem_map.mp hmem
    exact (h.2 x hx).of_state hxw

def Closed (p : Program) (text : Array Char) (v : Visited) : Prop :=
  ∀ t, Entered v t → p.Explored text v t

/-- A search in vain enters its whole stack, and explores all that it enters. -/
theorem Explores.closed {stack : List Thread} {v : Visited} {r : Option Thread × Visited}
    (h : p.Explores text stack v r) (hnone : r.1 = none) (hsize : v.masks.size = text.size + 1)
    (hstack : ∀ t ∈ stack, t.place ≤ text.size) :
    r.2.masks.size = text.size + 1 ∧ (∀ t, Entered v t → Entered r.2 t) ∧
      (∀ t ∈ stack, Entered r.2 t) ∧
      ∀ t, Entered r.2 t → Entered v t ∨ p.Explored text r.2 t := by
  induction h with
  | done v => exact ⟨hsize, fun _ h => h, by simp, fun _ h => .inl h⟩
  | @seen t stack v r hseen _ ih =>
    obtain ⟨hr, hmono, hall, hexp⟩ :=
      ih hnone hsize fun u hu => hstack u (List.mem_cons_of_mem t hu)
    exact ⟨hr, hmono, List.forall_mem_cons.mpr ⟨hmono t hseen, hall⟩, hexp⟩
  | accept => simp at hnone
  | @enter t stack v r _ ha _ ih =>
    have ht : t.place ≤ text.size := hstack t List.mem_cons_self
    have hins : ∀ u, Entered (v.insert t.place t.inst) u ↔ Entered v u ∨ u.state = t.state :=
      fun u => entered_insert (by omega)
    have hplaces : ∀ u ∈ p.next text t ++ stack, u.place ≤ text.size := by
      intro u hu
      rcases List.mem_append.mp hu with hu | hu
      · exact next_place_le ht hu
      · exact hstack u (List.mem_cons_of_mem t hu)
    obtain ⟨hr, hmono, hall, hexp⟩ := ih hnone ((v.size_insert _ _).trans hsize) hplaces
    have hself : p.Explored text r.2 t :=
      ⟨ha, fun u hu => hall u (List.mem_append_left _ hu)⟩
    refine ⟨hr, fun u hu => hmono u ((hins u).mpr (.inl hu)), ?_, fun u hu => ?_⟩
    · intro u hu
      rcases List.mem_cons.mp hu with rfl | hu
      · exact hmono u ((hins u).mpr (.inr rfl))
      · exact hall u (List.mem_append_right _ hu)
    · rcases hexp u hu with hu | hu
      · rcases (hins u).mp hu with hu | hu
        · exact .inl hu
        · exact .inr (hself.of_state hu.symm)
      · exact .inr hu

theorem Closed.not_accepts {v : Visited} (hv : p.Closed text v) {n : Nat} {t a : Thread}
    (h : p.Walks text n t a) (ht : Entered v t) : ¬p.Accepts a := by
  induction h with
  | refl t => exact (hv t ht).1
  | step hu _ ih => exact ih ((hv _ ht).2 _ hu)

theorem exists_walks_of_explore {fuel : Nat} {stack : List Thread} {v v' : Visited} {a : Thread}
    (h : p.explore text fuel stack v = (some a, v')) :
    p.Accepts a ∧ ∃ t ∈ stack, ∃ n, p.Walks text n t a := by
  induction fuel generalizing stack v with
  | zero => simp [explore] at h
  | succ fuel ih =>
    cases stack with
    | nil => simp [explore] at h
    | cons t stack =>
      have hlater : ∀ {v}, p.explore text fuel stack v = (some a, v') →
          p.Accepts a ∧ ∃ u ∈ t :: stack, ∃ n, p.Walks text n u a := by
        intro v h
        obtain ⟨ha, u, hu, hwalk⟩ := ih h
        exact ⟨ha, u, List.mem_cons_of_mem t hu, hwalk⟩
      rw [explore] at h
      split at h
      · exact hlater h
      · split at h
        · exact hlater h
        · rename_i hi
          obtain rfl := Option.some.inj (Prod.mk.inj h).1
          exact ⟨hi, t, List.mem_cons_self, 0, .refl t⟩
        · rename_i inst _ hi
          obtain ⟨ha, u, hu, n, hwalk⟩ := ih h
          rcases List.mem_append.mp hu with hu | hu
          · have hnext : u ∈ p.next text t := by simpa [next, hi] using hu
            exact ⟨ha, t, List.mem_cons_self, n + 1, .step hnext hwalk⟩
          · exact ⟨ha, u, List.mem_cons_of_mem t hu, n, hwalk⟩

/-- The search from a place that a closed set does not settle. -/
theorem explore_closed (start : Nat) {v : Visited} (hv : p.Closed text v)
    (hsize : v.masks.size = text.size + 1) (hstart : start ≤ text.size) :
    match p.explore text (p.fuel text) [⟨0, start, []⟩] v with
    | (some a, _) => p.Spans text start a.place
    | (none, v') => p.Closed text v' ∧ v'.masks.size = text.size + 1 ∧
        ∀ stop, ¬p.Spans text start stop := by
  have hfuel : 2 * (v.free p.code.size).card + 1 < p.fuel text := by
    have hle := v.card_free_le p.code.size
    rw [hsize, Nat.mul_comm] at hle
    rw [fuel, Nat.mul_assoc]
    omega
  have hex := explores_explore (p.fuel text) [⟨0, start, []⟩] v hsize (by simpa using hstart)
    (by simpa using hfuel)
  rcases hr : p.explore text (p.fuel text) [⟨0, start, []⟩] v with ⟨a | a, v'⟩
  · rw [hr] at hex
    obtain ⟨hsize', hmono, hall, hexp⟩ := hex.closed rfl hsize (by simpa using hstart)
    have hclosed : p.Closed text v' := by
      intro t ht
      rcases hexp t ht with ht | ht
      · exact ⟨(hv t ht).1, fun u hu => hmono u ((hv t ht).2 u hu)⟩
      · exact ht
    refine ⟨hclosed, hsize', fun stop hspan => ?_⟩
    obtain ⟨n, a, hwalk, ha, -⟩ := hspan
    exact hclosed.not_accepts hwalk (hall _ List.mem_cons_self) ha
  · obtain ⟨ha, t, ht, n, hwalk⟩ := exists_walks_of_explore hr
    rw [List.mem_singleton.mp ht] at hwalk
    exact ⟨n, a, hwalk, ha, rfl⟩

/-- The places are tried one after another: before the first from which something is spanned there is
none. -/
theorem findWithin_spans (count start : Nat) {v : Visited} (hv : p.Closed text v)
    (hsize : v.masks.size = text.size + 1) (hcount : start + count ≤ text.size + 1) :
    match p.findWithin text count start v with
    | some m => start ≤ m.start ∧ m.start ≤ text.size ∧ p.Spans text m.start m.stop ∧
        ∀ s stop, start ≤ s → s < m.start → ¬p.Spans text s stop
    | none => ∀ s stop, start ≤ s → s < start + count → ¬p.Spans text s stop := by
  induction count generalizing start v with
  | zero =>
    intro s stop hs hs'
    omega
  | succ count ih =>
    have hstep := explore_closed start hv hsize (by omega)
    rw [findWithin]
    rcases hr : p.explore text (p.fuel text) [⟨0, start, []⟩] v with ⟨a | a, v'⟩ <;>
      rw [hr] at hstep
    · obtain ⟨hv', hsize', hnone⟩ := hstep
      have hrest := ih (start + 1) hv' hsize' (by omega)
      dsimp only
      cases hm : p.findWithin text count (start + 1) v' with
      | some m =>
        rw [hm] at hrest
        obtain ⟨hge, hle, hspan, hgap⟩ := hrest
        refine ⟨by omega, hle, hspan, fun s stop hs hs' => ?_⟩
        by_cases hfirst : s = start
        · exact hfirst ▸ hnone stop
        · exact hgap s stop (by omega) hs'
      | none =>
        rw [hm] at hrest
        intro s stop hs hs'
        by_cases hfirst : s = start
        · exact hfirst ▸ hnone stop
        · exact hrest s stop (by omega) (by omega)
    · have hle : start ≤ text.size := by omega
      exact ⟨Nat.le_refl _, hle, hstep, fun s stop hs hs' => absurd hs (Nat.not_le.mpr hs')⟩

private theorem closed_none (places : Nat) : p.Closed text (.none places) := by
  intro t ht
  rw [Entered, Visited.contains_none] at ht
  exact absurd ht (by simp)

variable (p text) in
theorem find?_spans {start : Nat} (hstart : start ≤ text.size + 1) :
    match p.find? text start with
    | some m => start ≤ m.start ∧ m.start ≤ text.size ∧ p.Spans text m.start m.stop ∧
        ∀ s stop, start ≤ s → s < m.start → ¬p.Spans text s stop
    | none => ∀ s stop, start ≤ s → s ≤ text.size → ¬p.Spans text s stop := by
  have hclosed : p.Closed text (.none (text.size + 1)) := closed_none _
  have hfind := findWithin_spans (text.size + 1 - start) start hclosed (by simp [Visited.none])
    (by omega)
  rw [find?]
  split at hfind
  · exact hfind
  · exact fun s stop hs hs' => hfind s stop hs (by omega)

/-- Something is found just where something is spanned. -/
theorem find?_isSome_iff :
    (p.find? text 0).isSome = true ↔ ∃ start stop, start ≤ text.size ∧ p.Spans text start stop := by
  have hfind := p.find?_spans text (Nat.zero_le _)
  cases hm : p.find? text 0 with
  | some m =>
    rw [hm] at hfind
    exact iff_of_true rfl ⟨m.start, m.stop, hfind.2.1, hfind.2.2.1⟩
  | none =>
    rw [hm] at hfind
    refine iff_of_false (by simp) ?_
    rintro ⟨start, stop, hstart, hspan⟩
    exact hfind start stop (Nat.zero_le _) hstart hspan

end Search

end Program

end PairGrep.Pattern
