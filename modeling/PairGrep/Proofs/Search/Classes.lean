import PairGrep.Pattern.Elaborate
import PairGrep.Proofs.Search.Sets

/-!
# The sets that a pattern asks for

Every set of characters in the expression of a pattern has its ranges in order, whatever the flags:
the sets of the tables, those with characters added that differ in case only, and those that are put
together in brackets. For a range in brackets this rests on its ends being in order in the source.
-/

namespace PairGrep.Pattern

namespace Unicode

theorem ordered_classified (rows : List String) (classes : List Nat) :
    (classified rows classes).Ordered := by
  apply CharSet.ordered_ofRanges
  have hranges : ∀ (start : Nat) (numbers : List Nat),
      ∀ r ∈ classRanges classes start numbers, r.1 ≤ r.2 + 1 := by
    intro start numbers
    fun_induction classRanges classes start numbers with
    | case1 start value length rest more hvalue ih =>
      intro r hr
      rcases List.mem_cons.mp hr with rfl | hr
      · simp only
        omega
      · exact ih r hr
    | case2 start value length rest more hvalue ih => exact ih
    | case3 => simp
  exact hranges 0 _

theorem ordered_alternating (rows : List String) : (alternating rows).Ordered := by
  apply CharSet.ordered_ofRanges
  have hranges : ∀ (start : Nat) (numbers : List Nat),
      ∀ r ∈ secondRanges start numbers, r.1 ≤ r.2 + 1 := by
    intro start numbers
    fun_induction secondRanges start numbers with
    | case1 start lacking having rest ih =>
      intro r hr
      rcases List.mem_cons.mp hr with rfl | hr
      · simp only
        omega
      · exact ih r hr
    | case2 => simp
  exact hranges 0 _

private theorem ordered_of_map {α : Type} {o : Option α} {f : α → CharSet} {s : CharSet}
    (hf : ∀ a, (f a).Ordered) (h : o.map f = some s) : s.Ordered := by
  obtain ⟨a, -, rfl⟩ := Option.map_eq_some_iff.mp h
  exact hf a

theorem ordered_categoryOrAll? {name : String} {s : CharSet} (h : categoryOrAll? name = some s) :
    s.Ordered := by
  unfold categoryOrAll? at h
  split at h
  · rw [← Option.some.inj h]
    exact CharSet.ordered_all
  · rw [← Option.some.inj h]
    exact CharSet.ordered_ofRanges (by simp)
  · rw [← Option.some.inj h, assigned]
    exact CharSet.ordered_complement (ordered_classified _ _)
  · exact ordered_of_map (fun _ => ordered_classified _ _) h

theorem ordered_script? {name : String} {s : CharSet} (h : script? name = some s) : s.Ordered :=
  ordered_of_map (fun _ => ordered_classified _ _) h

theorem ordered_scriptExtension? {name : String} {s : CharSet}
    (h : scriptExtension? name = some s) : s.Ordered :=
  ordered_of_map (fun _ => CharSet.ordered_union
    (CharSet.ordered_inter (ordered_classified _ _) (ordered_classified _ _))
    (ordered_classified _ _)) h

theorem ordered_segment? {names : List (String × Nat)} {runs : List String} {name : String}
    {s : CharSet} (h : segment? names runs name = some s) : s.Ordered :=
  ordered_of_map (fun _ => ordered_classified _ _) h

theorem ordered_named {name : String} {s : CharSet} (h : named name = .ok s) : s.Ordered := by
  have hfound : (if !shadowsProperty name && isPropertyName name then property? name
      else (categoryOrAll? name).orElse fun _ => script? name) = some s := by
    unfold named at h
    revert h
    generalize (if !shadowsProperty name && isPropertyName name then property? name
      else (categoryOrAll? name).orElse fun _ => script? name) = found
    intro h
    cases found with
    | none => simp at h
    | some t => simpa using h
  split at hfound
  · exact ordered_of_map (fun _ => ordered_alternating _) hfound
  · cases hcategory : categoryOrAll? name with
    | none => exact ordered_script? (by simpa [hcategory] using hfound)
    | some t =>
      obtain rfl : t = s := by simpa [hcategory] using hfound
      exact ordered_categoryOrAll? hcategory

private theorem eq_some_of_found {o : Option CharSet} {e : Error} {s : CharSet}
    (h : (match o with
      | some s => Except.ok s
      | none => .error e) = .ok s) : o = some s := by
  cases o with
  | none => simp at h
  | some t => simpa using h

theorem ordered_valued {property value : String} {s : CharSet}
    (h : valued property value = .ok s) : s.Ordered := by
  unfold valued at h
  split at h
  · exact ordered_categoryOrAll? (eq_some_of_found h)
  · exact ordered_categoryOrAll? (eq_some_of_found h)
  · exact ordered_script? (eq_some_of_found h)
  · exact ordered_script? (eq_some_of_found h)
  · exact ordered_scriptExtension? (eq_some_of_found h)
  · exact ordered_scriptExtension? (eq_some_of_found h)
  · exact ordered_of_map (fun _ => ordered_classified _ _) (eq_some_of_found h)
  · exact ordered_segment? (eq_some_of_found h)
  · exact ordered_segment? (eq_some_of_found h)
  · exact ordered_segment? (eq_some_of_found h)
  · exact ordered_segment? (eq_some_of_found h)
  · exact ordered_segment? (eq_some_of_found h)
  · exact ordered_segment? (eq_some_of_found h)
  · simp at h

theorem ordered_query {q : PropertyQuery} {s : CharSet} (h : query q = .ok s) : s.Ordered := by
  unfold query at h
  split at h
  · exact ordered_named h
  · exact ordered_valued h

theorem ordered_fold {s : CharSet} (hs : s.Ordered) : (fold s).Ordered := by
  unfold fold
  apply CharSet.ordered_foldl _ hs
  intro t orbit ht
  apply CharSet.ordered_foldl _ ht
  intro u n hu
  exact CharSet.ordered_insert hu (Nat.le_succ _)

end Unicode

namespace Flags

variable {f : Flags} {s : CharSet}

theorem ordered_foldSet (hs : s.Ordered) : (f.foldSet s).Ordered := by
  unfold foldSet
  split
  · split
    · exact Unicode.ordered_fold hs
    · exact CharSet.ordered_foldAscii hs
  · exact hs

theorem ordered_negateSet (negated : Bool) (hs : s.Ordered) : (f.negateSet negated s).Ordered := by
  unfold negateSet
  split
  · split
    · exact CharSet.ordered_complement hs
    · exact CharSet.ordered_byteComplement hs
  · exact hs

theorem ordered_finishClass {negated : Bool} {t : CharSet} (hs : s.Ordered)
    (h : f.finishClass negated s = .ok t) : t.Ordered := by
  unfold finishClass at h
  simp only at h
  split at h
  · obtain rfl := Except.ok.inj h
    exact ordered_negateSet negated (ordered_foldSet hs)
  · simp at h

end Flags

theorem AsciiClass.ordered_chars (name : AsciiClass) : name.chars.Ordered := by
  apply CharSet.ordered_ofRanges
  cases name <;> simp

theorem ShortClass.ordered_chars (unicode : Bool) (name : ShortClass) :
    (name.chars unicode).Ordered := by
  cases name <;> cases unicode <;> simp only [chars]
  · exact AsciiClass.ordered_chars _
  · rw [Unicode.digit]
    exact Unicode.ordered_alternating _
  · exact AsciiClass.ordered_chars _
  · exact CharSet.ordered_ofRanges (by simp)
  · exact AsciiClass.ordered_chars _
  · rw [Unicode.word]
    exact Unicode.ordered_alternating _

namespace ClassTree

/-- No range runs backwards. -/
def Valid : ClassTree → Prop
  | .range lo hi => lo.char ≤ hi.char
  | .bracket _ inside => inside.Valid
  | .union first rest => first.Valid ∧ rest.Valid
  | .op _ lhs rhs => lhs.Valid ∧ rhs.Valid
  | _ => True

end ClassTree

namespace Elaborate

variable {f : Flags}

theorem ordered_short {negated : Bool} {name : ShortClass} {s : CharSet}
    (h : short f negated name = .ok s) : s.Ordered := by
  unfold short at h
  simp only at h
  split at h
  · obtain rfl := Except.ok.inj h
    exact Flags.ordered_negateSet negated (name.ordered_chars _)
  · simp at h

theorem ordered_property {q : PropertyQuery} {s : CharSet} (h : property f q = .ok s) :
    s.Ordered := by
  unfold property at h
  split at h
  · cases hq : Unicode.query q with
    | error e => simp [hq, bind, Except.bind] at h
    | ok t =>
      obtain rfl : f.negateSet q.negated (f.foldSet t) = s := by
        simpa [hq, bind, Except.bind, pure, Except.pure] using h
      exact Flags.ordered_negateSet _ (Flags.ordered_foldSet (Unicode.ordered_query hq))
  · simp at h

private theorem classCode_eq {l : Literal} {n : Nat} (h : classCode f l = .ok n) :
    n = l.char.toNat := by
  unfold classCode char at h
  split at h
  · simp [bind, Except.bind] at h
  · simp only [bind, Except.bind, pure, Except.pure] at h
    split at h
    · simp at h
    · exact (Except.ok.inj h).symm

theorem ordered_combine {s t : CharSet} (kind : ClassOp) (hs : s.Ordered) (ht : t.Ordered) :
    (combine kind s t).Ordered := by
  cases kind with
  | intersection => exact CharSet.ordered_inter hs ht
  | difference => exact CharSet.ordered_diff hs ht
  | symmetricDifference => exact CharSet.ordered_symmDiff hs ht

theorem ordered_inside {tree : ClassTree} {s : CharSet} (hvalid : tree.Valid)
    (h : inside f tree = .ok s) : s.Ordered := by
  induction tree generalizing s with
  | empty =>
    obtain rfl := Except.ok.inj h
    exact CharSet.ordered_empty
  | literal l =>
    cases hn : classCode f l with
    | error e => simp [inside, hn, bind, Except.bind] at h
    | ok n =>
      obtain rfl : CharSet.ofRanges [(n, n)] = s := by
        simpa [inside, hn, bind, Except.bind, pure, Except.pure] using h
      exact CharSet.ordered_ofRanges (by simp)
  | range lo hi =>
    cases hm : classCode f lo with
    | error e => simp [inside, hm, bind, Except.bind] at h
    | ok m =>
      cases hn : classCode f hi with
      | error e => simp [inside, hm, hn, bind, Except.bind] at h
      | ok n =>
        obtain rfl : CharSet.ofRanges [(m, n)] = s := by
          simpa [inside, hm, hn, bind, Except.bind, pure, Except.pure] using h
        have hle : lo.char.toNat ≤ hi.char.toNat := hvalid
        rw [← classCode_eq hm, ← classCode_eq hn] at hle
        exact CharSet.ordered_ofRanges (by simp; omega)
  | ascii negated name => exact Flags.ordered_finishClass name.ordered_chars h
  | short negated name => exact ordered_short h
  | property q => exact ordered_property h
  | bracket negated tree ih =>
    cases ht : inside f tree with
    | error e => simp [inside, ht, bind, Except.bind] at h
    | ok t =>
      exact Flags.ordered_finishClass (ih hvalid ht) (by simpa [inside, ht, bind, Except.bind] using h)
  | union first rest ihf ihr =>
    cases hfirst : inside f first with
    | error e => simp [inside, hfirst, bind, Except.bind] at h
    | ok t =>
      cases hrest : inside f rest with
      | error e => simp [inside, hfirst, hrest, bind, Except.bind] at h
      | ok u =>
        obtain rfl : t.union u = s := by
          simpa [inside, hfirst, hrest, bind, Except.bind, pure, Except.pure] using h
        exact CharSet.ordered_union (ihf hvalid.1 hfirst) (ihr hvalid.2 hrest)
  | op kind lhs rhs ihl ihr =>
    cases hlhs : inside f lhs with
    | error e => simp [inside, hlhs, bind, Except.bind] at h
    | ok t =>
      cases hrhs : inside f rhs with
      | error e => simp [inside, hlhs, hrhs, bind, Except.bind] at h
      | ok u =>
        obtain rfl : combine kind (f.foldSet t) (f.foldSet u) = s := by
          simpa [inside, hlhs, hrhs, bind, Except.bind, pure, Except.pure] using h
        exact ordered_combine kind (Flags.ordered_foldSet (ihl hvalid.1 hlhs))
          (Flags.ordered_foldSet (ihr hvalid.2 hrhs))

end Elaborate

end PairGrep.Pattern
