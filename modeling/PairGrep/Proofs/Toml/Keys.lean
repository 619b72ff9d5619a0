import Mathlib
import PairGrep.Toml.Reader

/-!
# Documents give no key twice

A line that would give a key of a table a second time is refused, and so is a key of an inline table.
So what is read as a document has one value at most under each key, in every table that it holds.
-/

namespace PairGrep.Toml

def Value.IsScalar : Value → Prop
  | .array _ | .table _ => False
  | _ => True

/-- No table that the value holds, at any depth, has a key twice. -/
inductive Distinct : Value → Prop where
  | scalar {v : Value} (h : v.IsScalar) : Distinct v
  | array {items : List Value} (h : ∀ v ∈ items, Distinct v) : Distinct (.array items)
  | table {entries : List (String × Value)} (hkeys : (entries.map Prod.fst).Nodup)
    (h : ∀ p ∈ entries, Distinct p.2) : Distinct (.table entries)

theorem mem_of_lookup {α : Type} {entries : List (String × α)} {key : String} {a : α}
    (h : entries.lookup key = some a) : (key, a) ∈ entries := by
  obtain ⟨front, back, rfl, -⟩ := List.lookup_eq_some_iff.mp h
  simp

theorem Distinct.keys {entries : List (String × Value)} (h : Distinct (.table entries)) :
    (entries.map Prod.fst).Nodup := by
  cases h with
  | scalar h => exact h.elim
  | table hkeys _ => exact hkeys

theorem Distinct.of_mem {entries : List (String × Value)} (h : Distinct (.table entries))
    {p : String × Value} (hp : p ∈ entries) : Distinct p.2 := by
  cases h with
  | scalar h => exact h.elim
  | table _ hvalues => exact hvalues p hp

namespace Node

variable {entries inner found : List (String × Node)} {items : List Node} {key : String}
  {kind : TableKind} {node old : Node} {path header : List String} {v : Value}

theorem entryValues_eq_map (entries : List (String × Node)) :
    entryValues entries = entries.map fun p => (p.1, p.2.value) := by
  induction entries with
  | nil => rfl
  | cons p rest ih => rw [entryValues, ih, List.map_cons]

theorem itemValues_eq_map (items : List Node) : itemValues items = items.map value := by
  induction items with
  | nil => rfl
  | cons n rest ih => rw [itemValues, ih, List.map_cons]

/-- The entries of a table under way have no key twice, at any depth. -/
structure DistinctEntries (entries : List (String × Node)) : Prop where
  keys : (entries.map Prod.fst).Nodup
  values : ∀ p ∈ entries, Distinct p.2.value

theorem distinct_table_iff : Distinct (Node.table kind entries).value ↔ DistinctEntries entries := by
  rw [value, entryValues_eq_map]
  constructor
  · intro h
    have hkeys := h.keys
    rw [List.map_map] at hkeys
    exact ⟨hkeys, fun p hp => h.of_mem (List.mem_map_of_mem hp)⟩
  · intro h
    refine .table ?_ ?_
    · rw [List.map_map]
      exact h.keys
    · exact List.forall_mem_map.mpr h.values

theorem distinct_tables_iff : Distinct (Node.tables items).value ↔ ∀ n ∈ items, Distinct n.value := by
  rw [value, itemValues_eq_map]
  constructor
  · intro h
    cases h with
    | scalar h => exact h.elim
    | array h => simpa using h
  · intro h
    exact .array (by simpa using h)

theorem put_eq_set (h : entries.lookup key = some old) (node : Node) :
    ∃ front back, entries = front ++ (key, old) :: back ∧
      put entries key node = front ++ (key, node) :: back := by
  induction entries with
  | nil => simp at h
  | cons p rest ih =>
    obtain ⟨k, n⟩ := p
    by_cases hk : k = key
    · subst hk
      rw [List.lookup_cons_self] at h
      obtain rfl := Option.some.inj h
      exact ⟨[], rest, rfl, if_pos rfl⟩
    · have hne : (key == k) = false := beq_false_of_ne (Ne.symm hk)
      rw [List.lookup_cons, hne] at h
      obtain ⟨front, back, rfl, hput⟩ := ih h
      exact ⟨(k, n) :: front, back, rfl, by rw [put, if_neg hk, hput]; rfl⟩

namespace DistinctEntries

theorem nil : DistinctEntries [] := ⟨List.nodup_nil, by simp⟩

theorem of_lookup (h : DistinctEntries entries) (hold : entries.lookup key = some old) :
    Distinct old.value :=
  h.values (key, old) (mem_of_lookup hold)

theorem of_lookup_table (h : DistinctEntries entries)
    (hold : entries.lookup key = some (.table kind inner)) : DistinctEntries inner :=
  distinct_table_iff.mp (h.of_lookup hold)

theorem append (h : DistinctEntries entries) (hnew : entries.lookup key = none)
    (hnode : Distinct node.value) : DistinctEntries (entries ++ [(key, node)]) := by
  have habsent : ∀ p ∈ entries, p.1 ≠ key := by
    intro p hp heq
    simpa [heq] using List.lookup_eq_none_iff.mp hnew p hp
  constructor
  · rw [List.map_append, List.nodup_append]
    refine ⟨h.keys, List.nodup_singleton _, fun k hk k' hk' => ?_⟩
    obtain ⟨p, hp, rfl⟩ := List.mem_map.mp hk
    obtain rfl : k' = key := by simpa using hk'
    exact habsent p hp
  · exact List.forall_mem_append.mpr ⟨h.values, by simpa using hnode⟩

theorem put (h : DistinctEntries entries) (hold : entries.lookup key = some old)
    (hnode : Distinct node.value) : DistinctEntries (put entries key node) := by
  obtain ⟨front, back, hentries, hput⟩ := put_eq_set hold node
  obtain ⟨hkeys, hvalues⟩ := h
  rw [hentries] at hkeys hvalues
  rw [hput]
  constructor
  · simpa using hkeys
  · simp only [List.forall_mem_append, List.forall_mem_cons] at hvalues ⊢
    exact ⟨hvalues.1, hnode, hvalues.2.2⟩

section Steps

variable {step : Option (List (String × Node))}

/-- What has been done in a table that is new is done in the table around it. -/
theorem append_table (h : DistinctEntries entries) (hnew : entries.lookup key = none)
    (hstep : ∀ inner, step = some inner → DistinctEntries inner)
    (hfound : (step.map fun inner => entries ++ [(key, .table kind inner)]) = some found) :
    DistinctEntries found := by
  obtain ⟨inner, hinner, rfl⟩ := Option.map_eq_some_iff.mp hfound
  exact h.append hnew (distinct_table_iff.mpr (hstep inner hinner))

/-- What has been done in a table is done in the table around it. -/
theorem put_table (h : DistinctEntries entries)
    (hold : entries.lookup key = some old)
    (hstep : ∀ inner, step = some inner → DistinctEntries inner)
    (hfound : (step.map fun inner => Node.put entries key (.table kind inner)) = some found) :
    DistinctEntries found := by
  obtain ⟨inner, hinner, rfl⟩ := Option.map_eq_some_iff.mp hfound
  exact h.put hold (distinct_table_iff.mpr (hstep inner hinner))

theorem put_tables (h : DistinctEntries entries)
    (hold : entries.lookup key = some (.tables (.table kind inner :: items)))
    (hstep : DistinctEntries inner → ∀ inner, step = some inner → DistinctEntries inner)
    (hfound : (step.map fun inner => Node.put entries key (.tables (.table kind inner :: items))) =
      some found) : DistinctEntries found := by
  obtain ⟨inner', hinner', rfl⟩ := Option.map_eq_some_iff.mp hfound
  obtain ⟨hfirst, hitems⟩ := List.forall_mem_cons.mp (distinct_tables_iff.mp (h.of_lookup hold))
  have hnew := hstep (distinct_table_iff.mp hfirst) inner' hinner'
  exact h.put hold (distinct_tables_iff.mpr
    (List.forall_mem_cons.mpr ⟨distinct_table_iff.mpr hnew, hitems⟩))

end Steps

theorem setKey (h : DistinctEntries entries) (hv : Distinct v)
    (hfound : Node.setKey entries path v = some found) : DistinctEntries found := by
  fun_induction Node.setKey entries path v generalizing found with
  | case1 => simp at hfound
  | case2 entries key hnew =>
    obtain rfl := Option.some.inj hfound
    exact h.append hnew hv
  | case3 => simp at hfound
  | case4 entries key rest hrest hnew ih => exact h.append_table hnew (fun _ => ih nil) hfound
  | case5 entries key rest hrest inner hold ih =>
    exact h.put_table hold (fun _ => ih (h.of_lookup_table hold)) hfound
  | case6 entries key rest hrest inner hold ih =>
    exact h.put_table hold (fun _ => ih (h.of_lookup_table hold)) hfound
  | case7 => simp at hfound

theorem openTable (h : DistinctEntries entries)
    (hfound : Node.openTable entries path = some found) : DistinctEntries found := by
  fun_induction Node.openTable entries path generalizing found with
  | case1 => simp at hfound
  | case2 entries key hnew =>
    obtain rfl := Option.some.inj hfound
    exact h.append hnew (distinct_table_iff.mpr nil)
  | case3 entries key inner hold =>
    obtain rfl := Option.some.inj hfound
    exact h.put hold (distinct_table_iff.mpr (h.of_lookup_table hold))
  | case4 => simp at hfound
  | case5 entries key rest hrest hnew ih => exact h.append_table hnew (fun _ => ih nil) hfound
  | case6 entries key rest hrest kind inner hold ih =>
    exact h.put_table hold (fun _ => ih (h.of_lookup_table hold)) hfound
  | case7 entries key rest hrest kind inner items hold ih =>
    exact h.put_tables hold (fun hinner _ => ih hinner) hfound
  | case8 => simp at hfound

theorem openItem (h : DistinctEntries entries)
    (hfound : Node.openItem entries path = some found) : DistinctEntries found := by
  have hempty : Distinct (Node.table .headed []).value := distinct_table_iff.mpr nil
  fun_induction Node.openItem entries path generalizing found with
  | case1 => simp at hfound
  | case2 entries key hnew =>
    obtain rfl := Option.some.inj hfound
    exact h.append hnew (distinct_tables_iff.mpr (by simpa using hempty))
  | case3 entries key items hold =>
    obtain rfl := Option.some.inj hfound
    have hitems := distinct_tables_iff.mp (h.of_lookup hold)
    exact h.put hold (distinct_tables_iff.mpr (List.forall_mem_cons.mpr ⟨hempty, hitems⟩))
  | case4 => simp at hfound
  | case5 entries key rest hrest hnew ih => exact h.append_table hnew (fun _ => ih nil) hfound
  | case6 entries key rest hrest kind inner hold ih =>
    exact h.put_table hold (fun _ => ih (h.of_lookup_table hold)) hfound
  | case7 entries key rest hrest kind inner items hold ih =>
    exact h.put_tables hold (fun hinner _ => ih hinner) hfound
  | case8 => simp at hfound

theorem setIn (h : DistinctEntries entries) (hv : Distinct v)
    (hfound : Node.setIn entries header path v = some found) : DistinctEntries found := by
  fun_induction Node.setIn entries header path v generalizing found with
  | case1 => exact h.setKey hv hfound
  | case2 entries key rest kind inner hold ih =>
    exact h.put_table hold (fun _ => ih (h.of_lookup_table hold)) hfound
  | case3 entries key rest kind inner items hold ih =>
    exact h.put_tables hold (fun hinner _ => ih hinner) hfound
  | case4 => simp at hfound

end DistinctEntries

end Node

section Words

variable {word whole rest : List Char} {v : Value} {n : ℤ} {negative : Bool}

private theorem isScalar_of_integerOf? (h : integerOf? n = some v) : v.IsScalar := by
  unfold integerOf? at h
  split_ifs at h
  obtain rfl := Option.some.inj h
  trivial

private theorem isScalar_of_based? {base : ℕ} {isDigit : Char → Bool}
    (h : based? base isDigit word = some v) : v.IsScalar := by
  obtain ⟨ds, -, h⟩ := Option.bind_eq_some_iff.mp h
  exact isScalar_of_integerOf? h

private theorem isScalar_of_real? (h : real? negative whole rest = some v) : v.IsScalar := by
  have hlast : ∀ (digits : ℕ) (e : ℤ), ((Double.ofDecimal? negative digits e).bind fun x =>
      some (Value.real (.finite x))) = some v → v.IsScalar := by
    intro digits e hx
    obtain ⟨x, -, hx⟩ := Option.bind_eq_some_iff.mp hx
    obtain rfl := Option.some.inj hx
    trivial
  simp only [real?, Option.bind_eq_bind, Option.bind_eq_some_iff, Option.pure_def] at h
  obtain ⟨ds, -, h⟩ := h
  split at h
  all_goals
    obtain ⟨split, -, h⟩ := Option.bind_eq_some_iff.mp h
    split at h
    all_goals
      obtain ⟨exponent, -, h⟩ := Option.bind_eq_some_iff.mp h
      exact hlast _ _ h

private theorem isScalar_of_number? (h : number? word = some v) : v.IsScalar := by
  unfold number? at h
  split at h
  · exact isScalar_of_based? h
  · exact isScalar_of_based? h
  · exact isScalar_of_based? h
  · dsimp only at h
    split_ifs at h
    · obtain rfl := Option.some.inj h
      trivial
    · obtain rfl := Option.some.inj h
      trivial
    · split at h
      · obtain ⟨ds, -, h⟩ := Option.bind_eq_some_iff.mp h
        exact isScalar_of_integerOf? h
      · split_ifs at h
        exact isScalar_of_real? h

theorem isScalar_of_word? (h : word? word = some v) : v.IsScalar := by
  unfold word? at h
  split_ifs at h
  · obtain rfl := Option.some.inj h
    trivial
  · obtain rfl := Option.some.inj h
    trivial
  · cases hnumber : number? word with
    | some v' =>
      rw [hnumber] at h
      obtain rfl : v' = v := Option.some.inj h
      exact isScalar_of_number? hnumber
    | none =>
      rw [hnumber, Option.orElse_none] at h
      obtain ⟨text, -, rfl⟩ := Option.map_eq_some_iff.mp h
      trivial

end Words

/-! The readers of values call each other with less fuel, and so do the proofs about them. -/

mutual

theorem distinct_of_value? {fuel : ℕ} {cs rest : List Char} {v : Value}
    (h : value? fuel cs = some (v, rest)) : Distinct v := by
  match fuel, h with
  | 0, h => simp [value?] at h
  | fuel + 1, h =>
    have hstring : ((string? cs).map fun p => (Value.text p.1, p.2)) = some (v, rest) →
        Distinct v := by
      intro hread
      obtain ⟨p, -, hp⟩ := Option.map_eq_some_iff.mp hread
      obtain ⟨rfl, -⟩ := Prod.mk.inj hp
      exact .scalar trivial
    unfold value? at h
    split at h
    · exact hstring h
    · exact hstring h
    · obtain ⟨start, -, h⟩ := Option.bind_eq_some_iff.mp h
      obtain ⟨p, hitems, hp⟩ := Option.bind_eq_some_iff.mp h
      obtain ⟨rfl, -⟩ := Prod.mk.inj (Option.some.inj hp)
      exact .array (distinct_of_items? hitems)
    · obtain ⟨start, -, h⟩ := Option.bind_eq_some_iff.mp h
      obtain ⟨p, hentries, hp⟩ := Option.bind_eq_some_iff.mp h
      obtain ⟨rfl, -⟩ := Prod.mk.inj (Option.some.inj hp)
      have htable : Distinct (Node.table .headed p.1).value :=
        Node.distinct_table_iff.mpr (distinct_of_entries? .nil hentries)
      exact htable
    · obtain ⟨word, hword, hp⟩ := Option.bind_eq_some_iff.mp h
      obtain ⟨rfl, -⟩ := Prod.mk.inj (Option.some.inj hp)
      exact .scalar (isScalar_of_word? hword)

theorem distinct_of_items? {fuel : ℕ} {cs rest : List Char} {items : List Value}
    (h : items? fuel cs = some (items, rest)) : ∀ v ∈ items, Distinct v := by
  match fuel, h with
  | 0, h =>
    unfold items? at h
    split at h
    · obtain ⟨rfl, -⟩ := Prod.mk.inj (Option.some.inj h)
      simp
    · simp at h
    · contradiction
  | fuel + 1, h =>
    unfold items? at h
    split at h
    · obtain ⟨rfl, -⟩ := Prod.mk.inj (Option.some.inj h)
      simp
    · simp at h
    · rename_i hfuel _ _
      obtain rfl := Nat.succ.inj hfuel
      obtain ⟨⟨v, cs⟩, hv, h⟩ := Option.bind_eq_some_iff.mp h
      have hfirst : Distinct v := distinct_of_value? hv
      obtain ⟨after, -, h⟩ := Option.bind_eq_some_iff.mp h
      split at h
      · obtain ⟨start, -, h⟩ := Option.bind_eq_some_iff.mp h
        obtain ⟨⟨vs, cs⟩, hvs, hp⟩ := Option.bind_eq_some_iff.mp h
        obtain ⟨rfl, -⟩ := Prod.mk.inj (Option.some.inj hp)
        exact List.forall_mem_cons.mpr ⟨hfirst, distinct_of_items? hvs⟩
      · obtain ⟨rfl, -⟩ := Prod.mk.inj (Option.some.inj h)
        simpa using hfirst
      · simp at h

theorem distinct_of_entries? {fuel : ℕ} {cs rest : List Char}
    {sofar entries : List (String × Node)} (hsofar : Node.DistinctEntries sofar)
    (h : entries? fuel sofar cs = some (entries, rest)) : Node.DistinctEntries entries := by
  match fuel, h with
  | 0, h =>
    unfold entries? at h
    split at h
    · obtain ⟨rfl, -⟩ := Prod.mk.inj (Option.some.inj h)
      exact hsofar
    · simp at h
    · contradiction
  | fuel + 1, h =>
    unfold entries? at h
    split at h
    · obtain ⟨rfl, -⟩ := Prod.mk.inj (Option.some.inj h)
      exact hsofar
    · simp at h
    · rename_i hfuel _ _
      obtain rfl := Nat.succ.inj hfuel
      obtain ⟨⟨path, cs⟩, -, h⟩ := Option.bind_eq_some_iff.mp h
      dsimp only at h
      split at h
      · obtain ⟨⟨v, cs⟩, hv, h⟩ := Option.bind_eq_some_iff.mp h
        obtain ⟨sofar', hset, h⟩ := Option.bind_eq_some_iff.mp h
        have hnext : Node.DistinctEntries sofar' := hsofar.setKey (distinct_of_value? hv) hset
        obtain ⟨after, -, h⟩ := Option.bind_eq_some_iff.mp h
        split at h
        · obtain ⟨start, -, h⟩ := Option.bind_eq_some_iff.mp h
          exact distinct_of_entries? hnext h
        · obtain ⟨rfl, -⟩ := Prod.mk.inj (Option.some.inj h)
          exact hnext
        · simp at h
      · simp at h

end

section Documents

variable {s s' : State} {cs rest text : List Char} {fuel : ℕ} {doc : List (String × Value)}

/-- A line keeps the keys of every table apart. -/
theorem distinct_of_line? (hs : Node.DistinctEntries s.entries) (h : line? s cs = some (s', rest)) :
    Node.DistinctEntries s'.entries := by
  have hskip : some (s, cs) = some (s', rest) → Node.DistinctEntries s'.entries := by
    intro heq
    obtain ⟨rfl, -⟩ := Prod.mk.inj (Option.some.inj heq)
    exact hs
  unfold line? at h
  split at h
  · exact hskip h
  · exact hskip h
  · exact hskip h
  · exact hskip h
  · obtain ⟨⟨path, cs⟩, -, h⟩ := Option.bind_eq_some_iff.mp h
    dsimp only at h
    split at h
    · obtain ⟨entries, hopen, h⟩ := Option.bind_eq_some_iff.mp h
      obtain ⟨rfl, -⟩ := Prod.mk.inj (Option.some.inj h)
      exact hs.openItem hopen
    · simp at h
  · obtain ⟨⟨path, cs⟩, -, h⟩ := Option.bind_eq_some_iff.mp h
    dsimp only at h
    split at h
    · obtain ⟨entries, hopen, h⟩ := Option.bind_eq_some_iff.mp h
      obtain ⟨rfl, -⟩ := Prod.mk.inj (Option.some.inj h)
      exact hs.openTable hopen
    · simp at h
  · obtain ⟨⟨path, cs⟩, -, h⟩ := Option.bind_eq_some_iff.mp h
    dsimp only at h
    split at h
    · obtain ⟨⟨v, cs⟩, hv, h⟩ := Option.bind_eq_some_iff.mp h
      obtain ⟨entries, hset, h⟩ := Option.bind_eq_some_iff.mp h
      obtain ⟨rfl, -⟩ := Prod.mk.inj (Option.some.inj h)
      exact hs.setIn (distinct_of_value? hv) hset
    · simp at h

theorem distinct_of_lines? (hs : Node.DistinctEntries s.entries) (h : lines? fuel s cs = some s') :
    Node.DistinctEntries s'.entries := by
  induction fuel generalizing s cs with
  | zero => simp [lines?] at h
  | succ fuel ih =>
    unfold lines? at h
    obtain ⟨⟨next, cs⟩, hline, h⟩ := Option.bind_eq_some_iff.mp h
    have hnext : Node.DistinctEntries next.entries := distinct_of_line? hs hline
    obtain ⟨after, -, h⟩ := Option.bind_eq_some_iff.mp h
    split at h
    · obtain rfl := Option.some.inj h
      exact hnext
    · exact ih hnext h
    · exact ih hnext h
    · simp at h

/-- A document has one value at most under each key of each of its tables. -/
theorem distinct_of_document? (h : document? text = some doc) : Distinct (.table doc) := by
  obtain ⟨s, hlines, h⟩ := Option.bind_eq_some_iff.mp h
  obtain rfl := Option.some.inj h
  have htable : Distinct (Node.table .headed s.entries).value :=
    Node.distinct_table_iff.mpr (distinct_of_lines? .nil hlines)
  exact htable

end Documents

end PairGrep.Toml
