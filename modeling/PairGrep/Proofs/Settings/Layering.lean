import Mathlib
import PairGrep.Settings.Setting

/-!
# Layering is field by field

A source that is laid over a tree of settings changes what it sets and nothing else: a field of a
section is the source's where the source sets it, and what it was otherwise. Only keys of the source
that are paths into the section can reach past this.
-/

namespace PairGrep.Setting

section Entries

variable {old new : List (String × Setting)} {key name : String} {s t : Setting}

private theorem lookup_cons_of_ne (h : name ≠ key) :
    ((key, s) :: old).lookup name = old.lookup name := by
  rw [List.lookup_cons, beq_false_of_ne h]

private theorem lookup_eq_none (h : name ∉ old.map Prod.fst) : old.lookup name = none := by
  rw [List.lookup_eq_none_iff]
  intro p hp
  have hmem : p.1 ∈ old.map Prod.fst := List.mem_map_of_mem hp
  simpa using fun heq : name = p.1 => h (heq ▸ hmem)

theorem lookup_putEntry (old : List (String × Setting)) (key name : String) (s : Setting) :
    (putEntry old key s).lookup name = if name = key then some s else old.lookup name := by
  induction old with
  | nil =>
    rw [putEntry]
    split_ifs with hname
    · rw [hname, List.lookup_cons_self]
    · rw [lookup_cons_of_ne hname]
  | cons p rest ih =>
    obtain ⟨k, t⟩ := p
    rw [putEntry]
    split_ifs with hk hname hname
    · rw [hname, hk, List.lookup_cons_self]
    · rw [hk, lookup_cons_of_ne hname, lookup_cons_of_ne hname]
    · rw [lookup_cons_of_ne (hname ▸ Ne.symm hk), ih, if_pos hname]
    · by_cases hfirst : name = k
      · rw [hfirst, List.lookup_cons_self, List.lookup_cons_self]
      · rw [lookup_cons_of_ne hfirst, lookup_cons_of_ne hfirst, ih, if_neg hname]

theorem lookup_mergeEntries_of_none (h : new.lookup name = none) :
    (mergeEntries old new).lookup name = old.lookup name := by
  induction new generalizing old with
  | nil => rw [mergeEntries]
  | cons p rest ih =>
    obtain ⟨key, t⟩ := p
    have hne : name ≠ key := by
      rintro rfl
      simp at h
    rw [lookup_cons_of_ne hne] at h
    rw [mergeEntries, ih h, lookup_putEntry, if_neg hne]

theorem lookup_mergeEntries_of_some (hkeys : (new.map Prod.fst).Nodup)
    (h : new.lookup name = some t) :
    (mergeEntries old new).lookup name = some (merge ((old.lookup name).getD .missing) t) := by
  induction new generalizing old with
  | nil => simp at h
  | cons p rest ih =>
    obtain ⟨key, u⟩ := p
    obtain ⟨hnew, hrest⟩ := List.nodup_cons.mp hkeys
    rw [mergeEntries]
    by_cases hname : name = key
    · subst hname
      rw [List.lookup_cons_self] at h
      obtain rfl := Option.some.inj h
      rw [lookup_mergeEntries_of_none (lookup_eq_none hnew), lookup_putEntry, if_pos rfl]
    · rw [lookup_cons_of_ne hname] at h
      rw [ih hrest h, lookup_putEntry, if_neg hname]

end Entries

section Fields

variable {s old : Setting} {source : List (String × Setting)} {path : List PathStep}
  {table name : String}

/-- What a tree has under a name of one of its tables. -/
def field? (s : Setting) (table name : String) : Option Setting :=
  match s with
  | .table root =>
    match root.lookup table with
    | some (.table entries) => entries.lookup name
    | _ => none
  | _ => none

theorem field?_eq_some_iff : s.field? table name = some old ↔
    ∃ root entries, s = .table root ∧ root.lookup table = some (.table entries) ∧
      entries.lookup name = some old := by
  constructor
  · intro h
    unfold field? at h
    split at h
    · split at h
      · rename_i root _ entries hentries
        exact ⟨root, entries, rfl, hentries, h⟩
      · simp at h
    · simp at h
  · rintro ⟨root, entries, rfl, hentries, h⟩
    simp only [field?, hentries, h]

private theorem field?_putEntry_self (root entries : List (String × Setting)) (table name : String) :
    (Setting.table (putEntry root table (.table entries))).field? table name = entries.lookup name := by
  simp only [field?, lookup_putEntry, if_true]

private theorem field?_putEntry_of_ne {key : String} (h : table ≠ key)
    (root : List (String × Setting)) (t : Setting) :
    (Setting.table (putEntry root key t)).field? table name = (Setting.table root).field? table name := by
  simp only [field?, lookup_putEntry, if_neg h]

/-- The path leads to the table or to the name in it, to something inside, or to an item of the table,
which would make a list of it. -/
def Reaches (table name : String) : List PathStep → Prop
  | .key k :: .key n :: _ => k = table ∧ n = name
  | .key k :: _ => k = table
  | _ => True

instance (table name : String) : (path : List PathStep) → Decidable (Reaches table name path)
  | [] | .index _ :: _ => isTrue trivial
  | [.key k] | .key k :: .index _ :: _ => inferInstanceAs (Decidable (k = table))
  | .key k :: .key n :: _ => inferInstanceAs (Decidable (k = table ∧ n = name))

theorem field?_setPath_of_not_reaches (h : s.field? table name = some old)
    (hpath : ¬ Reaches table name path) (new : Setting) :
    (s.setPath path new).field? table name = some old := by
  obtain ⟨root, content, rfl, hcontent, hold⟩ := field?_eq_some_iff.mp h
  match path with
  | [] => exact absurd trivial hpath
  | .index n :: _ => exact absurd trivial hpath
  | .key k :: rest =>
    rw [setPath, Setting.entries]
    by_cases hk : table = k
    · subst hk
      -- The path leads into the section, past the name.
      match rest with
      | [] => exact absurd rfl hpath
      | .index n :: _ => exact absurd rfl hpath
      | .key n :: rest =>
        have hn : name ≠ n := fun heq => hpath ⟨rfl, heq.symm⟩
        rw [setPath, field?_putEntry_self, hcontent, Option.getD_some, Setting.entries,
          lookup_putEntry, if_neg hn, hold]
    · rw [field?_putEntry_of_ne hk, h]

theorem field?_setPath_table {entries : List (String × Setting)} (h : s.field? table name = some old)
    (hkeys : (entries.map Prod.fst).Nodup) :
    (s.setPath [.key table] (.table entries)).field? table name =
      some ((entries.lookup name).elim old (merge old)) := by
  obtain ⟨root, content, rfl, hcontent, hold⟩ := field?_eq_some_iff.mp h
  rw [setPath, setPath, merge, Setting.entries, field?_putEntry_self, hcontent, Option.getD_some,
    Setting.entries]
  cases hnew : entries.lookup name with
  | none => rw [lookup_mergeEntries_of_none hnew, hold, Option.elim_none]
  | some t => rw [lookup_mergeEntries_of_some hkeys hnew, hold, Option.getD_some, Option.elim_some]

private theorem field?_cons_of_ne {key : String} {t : Setting} (h : table ≠ key) :
    (Setting.table ((key, t) :: source)).field? table name = (Setting.table source).field? table name := by
  simp only [field?, lookup_cons_of_ne h]

/-- A source that is laid over a tree sets the field where it has it, and leaves it otherwise. -/
theorem field?_layer (h : s.field? table name = some old) (htable : pathOf table = [.key table])
    (hkeys : (source.map Prod.fst).Nodup)
    (hsection : ∀ t, source.lookup table = some t →
      ∃ entries, t = .table entries ∧ (entries.map Prod.fst).Nodup)
    (hpaths : ∀ p ∈ source, p.1 ≠ table → ¬ Reaches table name (pathOf p.1)) :
    (s.layer source).field? table name =
      some (((Setting.table source).field? table name).elim old (merge old)) := by
  induction source generalizing s old with
  | nil => simpa [layer, field?] using h
  | cons p rest ih =>
    obtain ⟨key, t⟩ := p
    obtain ⟨hnew, hrest⟩ := List.nodup_cons.mp hkeys
    have hrestPaths := fun p hp => hpaths p (List.mem_cons_of_mem _ hp)
    have hlayer : s.layer ((key, t) :: rest) = (s.setPath (pathOf key) t).layer rest := rfl
    rw [hlayer]
    by_cases hkey : table = key
    · subst hkey
      obtain ⟨entries, rfl, hentries⟩ := hsection t List.lookup_cons_self
      have hnone : rest.lookup table = none := lookup_eq_none hnew
      have hset := field?_setPath_table h hentries
      rw [← htable] at hset
      rw [ih hset hrest (by simp [hnone]) hrestPaths]
      simp [field?, hnone]
    · have hkept := field?_setPath_of_not_reaches h
        (hpaths (key, t) List.mem_cons_self (Ne.symm hkey)) t
      rw [ih hkept hrest (fun u hu => hsection u (by rwa [lookup_cons_of_ne hkey])) hrestPaths,
        field?_cons_of_ne hkey]

end Fields

end PairGrep.Setting
