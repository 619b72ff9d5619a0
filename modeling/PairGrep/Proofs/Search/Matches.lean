import PairGrep.Proofs.Search.Paths

/-!
# Matches of an expression

The matches that a program finds in a text, told by the paths of its expression: from each place the
first path is taken, if there is one, and the search goes on where it ends. Only expressions whose
matches take a character are looked at here, so the rule on empty matches does not come in.
-/

namespace PairGrep.Pattern

namespace Cursor

def place (text : List Char) (n : Nat) : Cursor := ⟨(text.take n).reverse, text.drop n, []⟩

def bare (c : Cursor) : Cursor := ⟨c.before, c.after, []⟩

theorem place_length {text : List Char} {n : Nat} (h : n ≤ text.length) :
    (place text n).before.length = n := by
  simp [place, h]

theorem place_whole (text : List Char) (n : Nat) : (place text n).whole = text := by
  simp [place, whole]

theorem place_zero (text : List Char) : place text 0 = ⟨[], text, []⟩ := rfl

theorem place_eq_cons {text : List Char} {n : Nat} (h : n < text.length) :
    place text n = ⟨(place text n).before, text[n] :: (place text (n + 1)).after, []⟩ := by
  simp only [place, List.drop_eq_getElem_cons h]

theorem place_succ {text : List Char} {n : Nat} (h : n < text.length) :
    place text (n + 1) = ⟨text[n] :: (place text n).before, (place text (n + 1)).after, []⟩ := by
  simp only [place, List.take_succ_eq_append_getElem h, List.reverse_append, List.reverse_singleton,
    List.singleton_append]

theorem bare_eq_place {text : List Char} {c : Cursor} (h : c.whole = text) :
    c.bare = place text c.before.length := by
  subst h
  have hlen : c.before.length = c.before.reverse.length := List.length_reverse.symm
  simp only [bare, place, whole, hlen, List.take_left, List.drop_left, List.reverse_reverse]

end Cursor

namespace Moves

/-- The first paths from place to place, each with where it starts and ends. -/
def scan (f : Moves) (c : Cursor) : List (Cursor × Cursor) :=
  match (f c.bare).head? with
  | some d =>
    if d.after.length < c.after.length then (c.bare, d) :: scan f d else []
  | none =>
    match _h : c.after with
    | [] => []
    | a :: rest => scan f ⟨a :: c.before, rest, []⟩
termination_by c.after.length
decreasing_by
  · assumption
  · simp [_h]

theorem scan_bare (f : Moves) (c : Cursor) : f.scan c.bare = f.scan c := by
  rw [scan, scan]
  rfl

theorem scan_of_some {f : Moves} (hf : f.Advances) {c d : Cursor} (h : (f c.bare).head? = some d) :
    f.scan c = (c.bare, d) :: f.scan d := by
  have hlt : d.after.length < c.after.length := hf c.bare d (List.mem_of_head? h)
  rw [scan]
  simp [h, hlt]

theorem scan_of_none {f : Moves} {before rest : List Char} {a : Char} {marks : List (Nat × Nat)}
    (h : (f ⟨before, a :: rest, []⟩).head? = none) :
    f.scan ⟨before, a :: rest, marks⟩ = f.scan ⟨a :: before, rest, []⟩ := by
  rw [scan]
  simp [Cursor.bare, h]

theorem scan_of_end {f : Moves} (hf : f.Advances) {before : List Char} {marks : List (Nat × Nat)} :
    f.scan ⟨before, [], marks⟩ = [] := by
  rw [scan]
  cases h : (f ⟨before, [], []⟩).head? with
  | some d =>
    have := hf _ d (List.mem_of_head? h)
    simp at this
  | none => simp [Cursor.bare, h]

end Moves

def Match.between (c d : Cursor) : Match := ⟨c.before.length, d.before.length, d.marks⟩

namespace Program

variable {e : Expr} {text : Array Char}

/-- The run of an expression's program comes to the end of the first path. -/
theorem outcome_ofExpr (he : e.productive = true) {s : Nat} (hs : s ≤ text.size) :
    (ofExpr e).Outcome text ⟨0, s, []⟩
      ((e.paths (Cursor.place text.toList s)).head?.map (Cursor.thread · e.code.length)) := by
  have hall : (ofExpr e).Holds 0 (e.code ++ [.accept]) := by
    intro i _
    simp [ofExpr]
  obtain ⟨hcode, haccept⟩ := hall.append
  have hlen : (Cursor.place text.toList s).before.length = s :=
    Cursor.place_length (by simpa using hs)
  have hout := (Expr.runs_code he).outcome hcode (c := Cursor.place text.toList s)
    (Cursor.place_whole _ _) (k := fun d => some (d.thread e.code.length)) fun d _ =>
      ⟨0, by rw [Nat.zero_add]; exact .here (by simpa [Accepts, Cursor.thread] using haccept.cons.1)⟩
  have hhead : (e.paths (Cursor.place text.toList s)).findSome?
      (fun d => some (d.thread e.code.length)) =
        (e.paths (Cursor.place text.toList s)).head?.map (Cursor.thread · e.code.length) := by
    cases e.paths (Cursor.place text.toList s) <;> rfl
  rw [hhead, Cursor.thread, hlen] at hout
  exact hout

theorem find?_step (he : e.productive = true) {s : Nat} (hs : s ≤ text.size) :
    (ofExpr e).find? text s =
      match (e.paths (Cursor.place text.toList s)).head? with
      | some d => some (.between (Cursor.place text.toList s) d)
      | none => (ofExpr e).find? text (s + 1) := by
  have ho := fun (i : Nat) (hi : i ≤ text.size) => outcome_ofExpr he hi
  have hlen : (Cursor.place text.toList s).before.length = s :=
    Cursor.place_length (by simpa using hs)
  rw [find?_eq s ho (by omega), find?_eq (s + 1) ho (by omega),
    show text.size + 1 - s = text.size + 1 - (s + 1) + 1 by omega, List.range'_succ,
    List.findSome?_cons]
  cases (e.paths (Cursor.place text.toList s)).head? with
  | none => rfl
  | some d => simp [matchOf, Match.between, Cursor.thread, hlen]

theorem find?_end (he : e.productive = true) : (ofExpr e).find? text (text.size + 1) = none := by
  rw [find?_eq _ (fun _ hi => outcome_ofExpr he hi) (Nat.le_refl _)]
  simp

theorem start_lt_stop (he : e.productive = true) (htakes : e.takesChar = true) {s : Nat}
    (hs : s ≤ text.size + 1) {m : Match} (hm : (ofExpr e).find? text s = some m) :
    m.start < m.stop := by
  induction hn : text.size + 1 - s generalizing s with
  | zero =>
    obtain rfl : s = text.size + 1 := by omega
    simp [find?_end he] at hm
  | succ n ih =>
    rw [find?_step he (by omega)] at hm
    cases hd : (e.paths (Cursor.place text.toList s)).head? with
    | none =>
      rw [hd] at hm
      exact ih (by omega) hm (by omega)
    | some d =>
      rw [hd] at hm
      obtain ⟨w, hafter, hbefore⟩ := e.paths_forward _ d (List.mem_of_head? hd)
      have hlt := Expr.paths_advances htakes _ d (List.mem_of_head? hd)
      rw [← Option.some.inj hm, Match.between, hbefore]
      rw [hafter] at hlt
      simp only [List.length_append, List.length_reverse] at hlt ⊢
      omega

/-- A match that takes a character is never passed over. -/
theorem next?_eq (he : e.productive = true) (htakes : e.takesChar = true) {s : Nat}
    (hs : s ≤ text.size) (lastEnd : Option Nat) :
    (ofExpr e).next? text s lastEnd = (ofExpr e).find? text s := by
  rw [next?]
  cases hm : (ofExpr e).find? text s with
  | none => rfl
  | some m =>
    have hlt := start_lt_stop he htakes (by omega) hm
    simp [Nat.ne_of_lt hlt]

theorem matchesFrom_eq (he : e.productive = true) (htakes : e.takesChar = true) (fuel s : Nat)
    (lastEnd : Option Nat) (hs : s ≤ text.size) (hfuel : text.size - s < fuel) :
    (ofExpr e).matchesFrom text fuel s lastEnd =
      (e.paths.scan (Cursor.place text.toList s)).map fun x => .between x.1 x.2 := by
  have hadv := Expr.paths_advances htakes
  induction hn : text.size - s using Nat.strong_induction_on generalizing s fuel lastEnd with
  | h n ih =>
    obtain ⟨fuel, rfl⟩ := Nat.exists_eq_succ_of_ne_zero (Nat.ne_zero_of_lt hfuel)
    have hlen : (Cursor.place text.toList s).before.length = s :=
      Cursor.place_length (by simpa using hs)
    rw [matchesFrom, next?_eq he htakes hs]
    cases hd : (e.paths (Cursor.place text.toList s)).head? with
    | some d =>
      obtain ⟨w, hover⟩ := e.paths_forward _ d (List.mem_of_head? hd)
      have hlt := hadv _ d (List.mem_of_head? hd)
      have hwhole : d.whole = text.toList := hover.whole_eq.trans (Cursor.place_whole _ _)
      have hsize : d.before.length + d.after.length = text.size := by
        rw [← Array.length_toList, ← hwhole]
        simp [Cursor.whole]
      have hrest : (Cursor.place text.toList s).after.length = text.size - s := by
        simp [Cursor.place]
      rw [find?_step he hs, hd, Moves.scan_of_some (c := Cursor.place text.toList s) hadv hd,
        List.map_cons]
      have hstop : (Match.between (Cursor.place text.toList s) d).stop = d.before.length := rfl
      simp only [hstop]
      rw [ih (text.size - d.before.length) (by omega) fuel d.before.length _ (by omega) (by omega)
        rfl, ← Cursor.bare_eq_place hwhole, Moves.scan_bare]
      rfl
    | none =>
      rw [find?_step he hs, hd]
      by_cases hend : s = text.size
      · subst hend
        have hplace : Cursor.place text.toList text.size = ⟨text.toList.reverse, [], []⟩ := by
          simp [Cursor.place]
        simp only [find?_end he, hplace, Moves.scan_of_end hadv, List.map_nil]
      · have hlt : s < text.toList.length := by
          rw [Array.length_toList]
          omega
        have hgo := ih (text.size - (s + 1)) (by omega) (fuel + 1) (s + 1) lastEnd (by omega)
          (by omega) rfl
        rw [matchesFrom, next?_eq he htakes (by omega)] at hgo
        rw [Cursor.place_eq_cons hlt] at hd
        rw [Cursor.place_eq_cons hlt, Moves.scan_of_none hd, ← Cursor.place_succ hlt]
        exact hgo

/-- All matches of an expression that takes a character are its first paths from place to place. -/
theorem allMatches_ofExpr (he : e.productive = true) (htakes : e.takesChar = true) :
    (ofExpr e).allMatches text =
      (e.paths.scan ⟨[], text.toList, []⟩).map fun x => .between x.1 x.2 := by
  rw [allMatches, matchesFrom_eq he htakes _ _ _ (Nat.zero_le _) (by omega), Cursor.place_zero]

end Program

end PairGrep.Pattern
