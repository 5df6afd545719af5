import Mathlib

namespace ThreeXNode.Library

variable {κ α β : Type} [Ord κ] [Std.TransOrd κ]

theorem mem_iff_some {m : Std.ExtTreeMap κ α} {k : κ} : k ∈ m ↔ ∃ v, m[k]? = some v := by
  rw [Std.ExtTreeMap.mem_iff_isSome_getElem?, Option.isSome_iff_exists]

theorem nodup_keys [Std.LawfulEqOrd κ] (m : Std.ExtTreeMap κ α) : m.keys.Nodup := by
  refine (Std.ExtTreeMap.distinct_keys).imp ?_
  intro a b ne eq
  exact ne (by simp [eq])

theorem size_le_of_keys [Std.LawfulEqOrd κ] {m : Std.ExtTreeMap κ α}
    {m' : Std.ExtTreeMap κ β} (sub : ∀ k, k ∈ m → k ∈ m') :
    m.size ≤ m'.size := by
  rw [← Std.ExtTreeMap.length_keys, ← Std.ExtTreeMap.length_keys]
  exact ((nodup_keys m).subperm fun k mem =>
    Std.ExtTreeMap.mem_keys.mpr (sub k (Std.ExtTreeMap.mem_keys.mp mem))).length_le

theorem ofList_values [Std.LawfulEqOrd κ] {p : α → Prop} (entries : List (κ × α)) (all : ∀ e ∈ entries, p e.2) {k : κ}
    {v : α} (found : (Std.ExtTreeMap.ofList entries)[k]? = some v) : p v := by
  have insert : ∀ (entries : List (κ × α)) (m : Std.ExtTreeMap κ α), (∀ e ∈ entries, p e.2) →
      (∀ (k : κ) (v : α), m[k]? = some v → p v) →
      ∀ (k : κ) (v : α), (entries.foldl (fun m e => m.insert e.1 e.2) m)[k]? = some v → p v := by
    intro entries
    induction entries with
    | nil => exact fun m _ held => held
    | cons e entries ih =>
        intro m all held
        apply ih _ fun e mem => all e (List.mem_cons_of_mem _ mem)
        intro k v read
        rw [Std.ExtTreeMap.getElem?_insert] at read
        split at read
        · cases read
          exact all e List.mem_cons_self
        · exact held k v read
  rw [Std.ExtTreeMap.ofList_eq_foldl] at found
  exact insert entries ∅ all (by simp) k v found

theorem find?_toList [Std.LawfulEqOrd κ] [DecidableEq κ] (m : Std.ExtTreeMap κ α) (k : κ) :
    (m.toList.find? (·.1 = k)).map (·.2) = m[k]? := by
  cases found : m.toList.find? (·.1 = k) with
  | some e =>
      have same : e.1 = k := by simpa using List.find?_some found
      have here := Std.ExtTreeMap.mem_toList_iff_getElem?_eq_some.mp (List.mem_of_find?_eq_some found)
      rw [← same, here, Option.map_some]
  | none =>
      cases here : m[k]? with
      | none => rfl
      | some v =>
          have mem := Std.ExtTreeMap.mem_toList_iff_getElem?_eq_some.mpr here
          simpa using List.find?_eq_none.mp found _ mem

theorem values_filter [Std.LawfulEqOrd κ] [DecidableEq κ] {m : Std.ExtTreeMap κ α} {key : α → κ}
    (keyed : ∀ (k : κ) (v : α), m[k]? = some v → key v = k) (k : κ) :
    (m.toList.map (·.2)).filter (key · = k) = m[k]?.toList := by
  have nodup : (m.toList.map (·.1)).Nodup := by
    rw [Std.ExtTreeMap.map_fst_toList_eq_keys]
    exact nodup_keys m
  have entries : ∀ e ∈ m.toList, key e.2 = e.1 := fun e mem =>
    keyed e.1 e.2 (Std.ExtTreeMap.mem_toList_iff_getElem?_eq_some.mp mem)
  rw [← find?_toList]
  generalize m.toList = listed at nodup entries
  induction listed with
  | nil => rfl
  | cons e rest ih =>
      rw [List.map_cons, List.nodup_cons] at nodup
      obtain ⟨own, others⟩ := List.forall_mem_cons.mp entries
      rw [List.map_cons, List.filter_cons, List.find?_cons, own]
      by_cases same : e.1 = k
      · have gone : (rest.map (·.2)).filter (key · = k) = [] := by
          rw [List.filter_eq_nil_iff]
          intro v mem
          obtain ⟨e', there, rfl⟩ := List.mem_map.mp mem
          rw [others e' there, decide_eq_true_eq]
          intro other
          exact nodup.1 (List.mem_map.mpr ⟨e', there, other.trans same.symm⟩)
        simp [same, gone]
      · simpa [same] using ih nodup.2 others

end ThreeXNode.Library
