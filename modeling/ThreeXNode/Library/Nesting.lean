import ThreeXNode.Library.Json

namespace ThreeXNode.Library

/-! # How deep JSON values nest -/

namespace Json

mutual

/-- The brackets around the innermost value. -/
def nesting : Json → Nat
  | .arr items => nestingItems items + 1
  | .obj members => nestingMembers members + 1
  | .null | .bool _ | .num _ | .str _ => 0

def nestingItems : List Json → Nat
  | [] => 0
  | item :: rest => max (nesting item) (nestingItems rest)

def nestingMembers : List (String × Json) → Nat
  | [] => 0
  | (_, value) :: rest => max (nesting value) (nestingMembers rest)

end

theorem nestingItems_le {items : List Json} {n : Nat} : nestingItems items ≤ n ↔ ∀ item ∈ items, item.nesting ≤ n := by
  induction items with
  | nil => simp [nestingItems]
  | cons item rest ih => simp [nestingItems, ih]

theorem nestingMembers_le {members : List (String × Json)} {n : Nat} :
    nestingMembers members ≤ n ↔ ∀ member ∈ members, member.2.nesting ≤ n := by
  induction members with
  | nil => simp [nestingMembers]
  | cons member rest ih =>
      obtain ⟨key, value⟩ := member
      simp [nestingMembers, ih]

theorem nesting_arr_le {items : List Json} {n : Nat} :
    (Json.arr items).nesting ≤ n + 1 ↔ ∀ item ∈ items, item.nesting ≤ n := by
  rw [nesting, Nat.add_le_add_iff_right, nestingItems_le]

theorem nesting_obj_le {members : List (String × Json)} {n : Nat} :
    (Json.obj members).nesting ≤ n + 1 ↔ ∀ member ∈ members, member.2.nesting ≤ n := by
  rw [nesting, Nat.add_le_add_iff_right, nestingMembers_le]

end Json

namespace Fields

def nesting (o : Fields) : Nat := (Json.ofFields o).nesting

theorem nesting_le {o : Fields} {n : Nat} :
    nesting o ≤ n + 1 ↔ ∀ (name : String) (value : Json), o[name]? = some value → value.nesting ≤ n := by
  unfold nesting Json.ofFields
  rw [Json.nesting_obj_le]
  simp only [Prod.forall, Std.ExtTreeMap.mem_toList_iff_getElem?_eq_some]

theorem nesting_pos (o : Fields) : 0 < nesting o := Nat.succ_pos _

theorem nesting_insert {o : Fields} {name : String} {value : Json} {n : Nat} (own : nesting o ≤ n + 1)
    (inserted : value.nesting ≤ n) : nesting (o.insert name value) ≤ n + 1 := by
  rw [nesting_le] at *
  intro other held found
  rw [Std.ExtTreeMap.getElem?_insert] at found
  split at found
  · cases found
    exact inserted
  · exact own other held found

theorem nesting_sub {o o' : Fields} (sub : ∀ (name : String) (value : Json), o[name]? = some value → o'[name]? = some value) :
    nesting o ≤ nesting o' := by
  obtain ⟨n, same⟩ := Nat.exists_eq_succ_of_ne_zero (nesting_pos o').ne'
  have own : nesting o' ≤ n + 1 := same.le
  rw [same]
  exact nesting_le.mpr fun name value found => nesting_le.mp own name value (sub name value found)

end Fields

theorem Json.nesting_asFields {j : Json} {o : Fields} {n : Nat} (decoded : j.asFields = some o) (own : j.nesting ≤ n + 1) :
    Fields.nesting o ≤ n + 1 := by
  cases j with
  | obj members =>
      obtain rfl := Option.some.inj decoded
      rw [Fields.nesting_le]
      intro name value found
      have mem : (name, value) ∈ members := by
        rw [Std.ExtTreeMap.ofList_eq_insertMany_empty, Std.ExtTreeMap.getElem?_insertMany_list,
          List.findSomeRev?_eq_findSome?_reverse] at found
        simp only [Std.ExtTreeMap.getElem?_empty, Option.or_none] at found
        obtain ⟨member, last, same⟩ := List.exists_of_findSome?_eq_some found
        obtain ⟨key, held⟩ := member
        simp only [Option.ite_none_right_eq_some, Option.some.injEq] at same
        obtain ⟨own, rfl⟩ := same
        rw [← show key = name by simpa using own]
        exact List.mem_reverse.mp last
      exact (Json.nesting_obj_le.mp own) _ mem
  | null =>
      obtain rfl := Option.some.inj decoded
      rw [Fields.nesting_le]
      intro name value found
      simp at found
  | bool _ | num _ | str _ | arr _ => cases decoded

end ThreeXNode.Library
