import ThreeXNode.Library.Maps

namespace ThreeXNode.Library

/-! ## The latest value of a key -/

section
variable {κ τ : Type} [Ord κ] [Std.TransOrd κ] [Std.LawfulEqOrd κ] [LinearOrder τ]

def assign (m : Std.ExtTreeMap κ τ) (e : κ × τ) : Std.ExtTreeMap κ τ := m.insert e.1 e.2

def raise (m : Std.ExtTreeMap κ τ) (e : κ × τ) : Std.ExtTreeMap κ τ :=
  match m[e.1]? with
  | some current => if current < e.2 then m.insert e.1 e.2 else m
  | none => m.insert e.1 e.2

def LastOf (entries : List (κ × τ)) (k : κ) (t : τ) : Prop :=
  ∃ front back, entries = front ++ (k, t) :: back ∧ ∀ e ∈ back, e.1 ≠ k

omit [Ord κ] [Std.TransOrd κ] [Std.LawfulEqOrd κ] [LinearOrder τ] in
theorem lastOf_append_single {entries : List (κ × τ)} {e : κ × τ} {k : κ} {t : τ} :
    LastOf (entries ++ [e]) k t ↔ e = (k, t) ∨ e.1 ≠ k ∧ LastOf entries k t := by
  constructor
  · rintro ⟨front, back, shape, clear⟩
    rcases List.eq_nil_or_concat' back with rfl | ⟨init, last, rfl⟩
    · have same := List.append_inj_right' shape rfl
      exact .inl (List.cons.inj same).1
    · right
      rw [← List.cons_append, ← List.append_assoc] at shape
      have ends := List.append_inj' shape rfl
      have own : e = last := (List.cons.inj ends.2).1
      refine ⟨own ▸ clear last (by simp), front, init, ends.1, ?_⟩
      intro other member
      exact clear other (List.mem_append_left _ member)
  · rintro (rfl | ⟨other, front, back, rfl, clear⟩)
    · exact ⟨entries, [], rfl, by simp⟩
    · refine ⟨front, back ++ [e], by simp, ?_⟩
      intro e' member
      rcases List.mem_append.mp member with here | here
      · exact clear e' here
      · rw [List.mem_singleton.mp here]
        exact other

omit [Ord κ] [Std.TransOrd κ] [Std.LawfulEqOrd κ] [LinearOrder τ] in
theorem LastOf.mem {entries : List (κ × τ)} {k : κ} {t : τ} (last : LastOf entries k t) : (k, t) ∈ entries := by
  obtain ⟨front, back, rfl, -⟩ := last
  simp

omit [Ord κ] [Std.TransOrd κ] [Std.LawfulEqOrd κ] [LinearOrder τ] in
theorem lastOf_of_nodup {entries : List (κ × τ)} (distinct : (entries.map (·.1)).Nodup) {k : κ} {t : τ} :
    LastOf entries k t ↔ (k, t) ∈ entries := by
  refine ⟨LastOf.mem, fun member => ?_⟩
  obtain ⟨front, back, rfl⟩ := List.append_of_mem member
  refine ⟨front, back, rfl, fun e there same => ?_⟩
  rw [List.map_append, List.map_cons] at distinct
  have apart := (List.nodup_cons.mp distinct.of_append_right).1
  exact apart (List.mem_map.mpr ⟨e, there, same⟩)

omit [Ord κ] [Std.TransOrd κ] [Std.LawfulEqOrd κ] [LinearOrder τ] in
theorem exists_lastOf {entries : List (κ × τ)} {k : κ} (member : k ∈ entries.map (·.1)) : ∃ t, LastOf entries k t := by
  induction entries using List.reverseRecOn with
  | nil => simp at member
  | append_singleton entries e ih =>
      by_cases own : e.1 = k
      · exact ⟨e.2, lastOf_append_single.mpr (.inl (by rw [← own]))⟩
      · have earlier : k ∈ entries.map (·.1) := by
          rw [List.map_append, List.mem_append, List.map_singleton, List.mem_singleton] at member
          exact member.resolve_right fun same => own same.symm
        obtain ⟨t, last⟩ := ih earlier
        exact ⟨t, lastOf_append_single.mpr (.inr ⟨own, last⟩)⟩

omit [LinearOrder τ] in
theorem assigned_iff (entries : List (κ × τ)) (k : κ) (t : τ) :
    (entries.foldl assign (∅ : Std.ExtTreeMap κ τ))[k]? = some t ↔ LastOf entries k t := by
  induction entries using List.reverseRecOn with
  | nil => simp [LastOf]
  | append_singleton entries e ih =>
      rw [List.foldl_append, List.foldl_cons, List.foldl_nil, lastOf_append_single, assign, Std.ExtTreeMap.getElem?_insert]
      by_cases own : e.1 = k
      · subst own
        simp [Prod.ext_iff]
      · have apart : e ≠ (k, t) := fun same => own (by rw [same])
        simp [own, apart, ih]

theorem raise_some (m : Std.ExtTreeMap κ τ) (e : κ × τ) (k : κ) (t : τ) :
    (raise m e)[k]? = some t ↔ IsGreatest ({t | m[k]? = some t} ∪ {t | e = (k, t)}) t := by
  obtain ⟨k', t'⟩ := e
  by_cases own : k' = k
  · subst own
    cases found : m[k']? with
    | none =>
        have rose : (raise m (k', t'))[k']? = some t' := by simp [raise, found]
        simp only [rose, Option.some.injEq, Prod.mk.injEq, true_and, reduceCtorEq, Set.ofPred_false, Set.empty_union]
        constructor
        · rintro rfl
          exact ⟨rfl, fun u same => same.ge⟩
        · exact fun greatest => greatest.1
    | some current =>
        have rose : (raise m (k', t'))[k']? = some (max current t') := by
          simp only [raise, found]
          split
          · rename_i less
            simp [max_eq_right less.le]
          · rename_i more
            simp [found, max_eq_left (not_lt.mp more)]
        have pair : {u | some current = some u} ∪ {u | ((k', t') : κ × τ) = (k', u)} = ({current, t'} : Set τ) := by
          ext u
          simp [eq_comm, or_comm]
        rw [rose, Option.some.injEq, pair]
        have largest : IsGreatest ({current, t'} : Set τ) (max current t') := isGreatest_pair
        constructor
        · rintro rfl
          exact largest
        · exact fun greatest => largest.unique greatest
  · have kept : (raise m (k', t'))[k]? = m[k]? := by
      simp only [raise]
      split
      · split <;> simp [Std.ExtTreeMap.getElem?_insert, own]
      · simp [Std.ExtTreeMap.getElem?_insert, own]
    have single : {u | m[k]? = some u} ∪ {u | ((k', t') : κ × τ) = (k, u)} = {u | m[k]? = some u} := by
      ext u
      simp [own]
    rw [kept, single]
    constructor
    · intro found
      exact ⟨found, fun u there => (Option.some.inj (there.symm.trans found)).le⟩
    · exact fun greatest => greatest.1

omit [Ord κ] [Std.TransOrd κ] [Std.LawfulEqOrd κ] in
theorem exists_greatest {s : Set τ} (finite : s.Finite) (some' : s.Nonempty) : ∃ t, IsGreatest s t := by
  obtain ⟨u, there⟩ := some'
  have greatest := finite.toFinset.isGreatest_max' ⟨u, finite.mem_toFinset.mpr there⟩
  rw [finite.coe_toFinset] at greatest
  exact ⟨_, greatest⟩

theorem isGreatest_union_of {s s' : Set τ} (finite : s.Finite) {t : τ} :
    IsGreatest ({t | IsGreatest s t} ∪ s') t ↔ IsGreatest (s ∪ s') t := by
  constructor
  · rintro ⟨member, upper⟩
    refine ⟨?_, ?_⟩
    · rcases member with greatest | there
      · exact .inl greatest.1
      · exact .inr there
    · rintro u (there | there)
      · obtain ⟨top, greatest⟩ := exists_greatest finite ⟨u, there⟩
        exact (greatest.2 there).trans (upper (.inl greatest))
      · exact upper (.inr there)
  · rintro ⟨member, upper⟩
    refine ⟨?_, ?_⟩
    · rcases member with there | there
      · exact .inl ⟨there, fun u other => upper (.inl other)⟩
      · exact .inr there
    · rintro u (greatest | there)
      · exact upper (.inl greatest.1)
      · exact upper (.inr there)

theorem raised_iff (entries : List (κ × τ)) (m : Std.ExtTreeMap κ τ) (k : κ) (t : τ) :
    (entries.foldl raise m)[k]? = some t ↔ IsGreatest ({t | m[k]? = some t} ∪ {t | (k, t) ∈ entries}) t := by
  induction entries using List.reverseRecOn generalizing t with
  | nil =>
      simp only [List.foldl_nil, List.not_mem_nil, Set.ofPred_false, Set.union_empty]
      constructor
      · intro found
        exact ⟨found, fun u there => (Option.some.inj (there.symm.trans found)).le⟩
      · exact fun greatest => greatest.1
  | append_singleton entries e ih =>
      rw [List.foldl_append, List.foldl_cons, List.foldl_nil, raise_some]
      have before : {t | (entries.foldl raise m)[k]? = some t} =
          {t | IsGreatest ({t | m[k]? = some t} ∪ {t | (k, t) ∈ entries}) t} := Set.ext ih
      have finite : ({t | m[k]? = some t} ∪ {t | (k, t) ∈ entries}).Finite := by
        refine Set.Finite.union ?_ ?_
        · exact Set.Subsingleton.finite fun a here b here' => Option.some.inj (here.symm.trans here')
        · exact (List.finite_toSet (entries.map (·.2))).subset fun a here => List.mem_map.mpr ⟨_, here, rfl⟩
      have both : {t | (k, t) ∈ entries} ∪ {t | e = (k, t)} = {t | (k, t) ∈ entries ++ [e]} := by
        ext u
        simp [eq_comm]
      rw [before, isGreatest_union_of finite, Set.union_assoc, both]

end

end ThreeXNode.Library
