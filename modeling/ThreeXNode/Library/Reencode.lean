import ThreeXNode.Library.Json
import ThreeXNode.Library.Maps

namespace ThreeXNode.Library
namespace Json

/-! # Values decoded without a type and written again

A decoder that knows no types keeps each number as a float and each object as a map. -/

section

variable (float64 : NumLit → Option NumLit)

mutual

/-- `none` where a number does not fit. -/
def reencode : Json → Option Json
  | .null => some .null
  | .bool b => some (.bool b)
  | .num n => (float64 n).map .num
  | .str s => some (.str s)
  | .arr items => (reencodeItems items).map .arr
  | .obj members => (reencodeMembers members).map fun written => .ofFields (.ofList written)

def reencodeItems : List Json → Option (List Json)
  | [] => some []
  | item :: items =>
      match reencode item, reencodeItems items with
      | some item, some items => some (item :: items)
      | _, _ => none

def reencodeMembers : List (String × Json) → Option (List (String × Json))
  | [] => some []
  | (key, j) :: members =>
      match reencode j, reencodeMembers members with
      | some j, some members => some ((key, j) :: members)
      | _, _ => none

end

def reencodeFields (o : Fields) : Option Fields := (reencodeMembers float64 o.toList).map fun written => .ofList written

end

variable {float64 : NumLit → Option NumLit}

/-! ## What a decoded value holds -/

theorem reencodeItems_cons {item : Json} {items written : List Json}
    (read : reencodeItems float64 (item :: items) = some written) :
    ∃ item' items', reencode float64 item = some item' ∧ reencodeItems float64 items = some items' ∧
      written = item' :: items' := by
  rw [reencodeItems] at read
  split at read
  · rename_i item' items' first rest
    cases read
    exact ⟨item', items', first, rest, rfl⟩
  · cases read

theorem reencodeMembers_cons {key : String} {j : Json} {members written : List (String × Json)}
    (read : reencodeMembers float64 ((key, j) :: members) = some written) :
    ∃ j' members', reencode float64 j = some j' ∧ reencodeMembers float64 members = some members' ∧
      written = (key, j') :: members' := by
  rw [reencodeMembers] at read
  split at read
  · rename_i j' members' first rest
    cases read
    exact ⟨j', members', first, rest, rfl⟩
  · cases read

theorem reencodeItems_forall₂ {items written : List Json} (read : reencodeItems float64 items = some written) :
    List.Forall₂ (fun item item' => reencode float64 item = some item') items written := by
  induction items generalizing written with
  | nil =>
      cases read
      exact .nil
  | cons item items ih =>
      obtain ⟨item', items', first, rest, rfl⟩ := reencodeItems_cons read
      exact .cons first (ih rest)

theorem get_reencodeMembers {members written : List (String × Json)} (read : reencodeMembers float64 members = some written)
    (key : String) : ((Std.ExtTreeMap.ofList members : Fields)[key]?).map (reencode float64) =
      ((Std.ExtTreeMap.ofList written : Fields)[key]?).map some := by
  have insert : ∀ (members written : List (String × Json)) (o o' : Fields), reencodeMembers float64 members = some written →
      o[key]?.map (reencode float64) = o'[key]?.map some →
      ((members.foldl (fun o e => o.insert e.1 e.2) o)[key]?).map (reencode float64) =
        ((written.foldl (fun o e => o.insert e.1 e.2) o')[key]?).map some := by
    intro members
    induction members with
    | nil =>
        intro written o o' read same
        cases read
        exact same
    | cons e members ih =>
        intro written o o' read same
        obtain ⟨j', members', first, rest, rfl⟩ := reencodeMembers_cons read
        refine ih members' _ _ rest ?_
        rw [Std.ExtTreeMap.getElem?_insert, Std.ExtTreeMap.getElem?_insert]
        split
        · rw [Option.map_some, first]
          rfl
        · exact same
  rw [Std.ExtTreeMap.ofList_eq_foldl, Std.ExtTreeMap.ofList_eq_foldl]
  exact insert members written ∅ ∅ read (by simp)

@[simp] theorem ofList_toList (o : Fields) : (Std.ExtTreeMap.ofList o.toList : Fields) = o :=
  Option.some.inj (asFields_ofFields o)

theorem get_reencodeFields {o o' : Fields} (read : reencodeFields float64 o = some o') (key : String) :
    o[key]?.map (reencode float64) = o'[key]?.map some := by
  obtain ⟨written, decoded, rfl⟩ := Option.map_eq_some_iff.mp read
  have same := get_reencodeMembers decoded key
  rwa [ofList_toList] at same

theorem reencode_str {j : Json} {s : String} (read : reencode float64 j = some (.str s)) : j = .str s := by
  cases j with
  | str s' =>
      cases read
      rfl
  | num n =>
      obtain ⟨n', -, none⟩ := Option.map_eq_some_iff.mp read
      cases none
  | arr items =>
      obtain ⟨items', -, none⟩ := Option.map_eq_some_iff.mp read
      cases none
  | obj members =>
      obtain ⟨written, -, none⟩ := Option.map_eq_some_iff.mp read
      cases none
  | null | bool _ => cases read

/-! ## Writing again changes nothing more -/

mutual

theorem reencode_again : ∀ {j j' : Json}, reencode float64 j = some j' → reencode some j' = some j'
  | .null, j', read | .bool _, j', read | .str _, j', read => by
      cases read
      rfl
  | .num n, j', read => by
      obtain ⟨n', -, rfl⟩ := Option.map_eq_some_iff.mp read
      rfl
  | .arr items, j', read => by
      obtain ⟨items', decoded, rfl⟩ := Option.map_eq_some_iff.mp read
      rw [reencode, reencodeItems_again decoded, Option.map_some]
  | .obj members, j', read => by
      obtain ⟨written, decoded, rfl⟩ := Option.map_eq_some_iff.mp read
      have kept : ∀ e ∈ (Std.ExtTreeMap.ofList written : Fields).toList, reencode some e.2 = some e.2 := by
        intro e mem
        exact ofList_values (p := fun j => reencode some j = some j) written (reencodeMembers_again decoded)
          (Std.ExtTreeMap.mem_toList_iff_getElem?_eq_some.mp mem)
      have same : ∀ members : List (String × Json), (∀ e ∈ members, reencode some e.2 = some e.2) →
          reencodeMembers some members = some members := by
        intro members
        induction members with
        | nil => exact fun _ => rfl
        | cons e members ih =>
            intro held
            rw [reencodeMembers, held e List.mem_cons_self, ih fun e mem => held e (List.mem_cons_of_mem _ mem)]
      rw [ofFields, reencode, same _ kept, Option.map_some, ofList_toList]
      rfl

theorem reencodeItems_again : ∀ {items items' : List Json}, reencodeItems float64 items = some items' →
    reencodeItems some items' = some items'
  | [], items', read => by
      cases read
      rfl
  | item :: items, items', read => by
      obtain ⟨item', rest', first, rest, rfl⟩ := reencodeItems_cons read
      rw [reencodeItems, reencode_again first, reencodeItems_again rest]

theorem reencodeMembers_again : ∀ {members members' : List (String × Json)},
    reencodeMembers float64 members = some members' → ∀ e ∈ members', reencode some e.2 = some e.2
  | [], members', read => by
      cases read
      exact fun _ mem => absurd mem List.not_mem_nil
  | (key, j) :: members, members', read => by
      obtain ⟨j', rest', first, rest, rfl⟩ := reencodeMembers_cons read
      intro e mem
      rcases List.mem_cons.mp mem with rfl | mem
      · exact reencode_again first
      · exact reencodeMembers_again rest e mem

end

/-! ## Where every number fits -/

mutual

theorem reencode_total : ∀ j : Json, ∃ j', reencode some j = some j'
  | .null | .bool _ | .num _ | .str _ => ⟨_, rfl⟩
  | .arr items => by
      obtain ⟨items', read⟩ := reencodeItems_total items
      exact ⟨.arr items', by rw [reencode, read, Option.map_some]⟩
  | .obj members => by
      obtain ⟨written, read⟩ := reencodeMembers_total members
      exact ⟨_, by rw [reencode, read, Option.map_some]⟩

theorem reencodeItems_total : ∀ items : List Json, ∃ items', reencodeItems some items = some items'
  | [] => ⟨[], rfl⟩
  | item :: items => by
      obtain ⟨item', first⟩ := reencode_total item
      obtain ⟨items', rest⟩ := reencodeItems_total items
      exact ⟨item' :: items', by rw [reencodeItems, first, rest]⟩

theorem reencodeMembers_total : ∀ members : List (String × Json), ∃ written, reencodeMembers some members = some written
  | [] => ⟨[], rfl⟩
  | (key, j) :: members => by
      obtain ⟨j', first⟩ := reencode_total j
      obtain ⟨written, rest⟩ := reencodeMembers_total members
      exact ⟨(key, j') :: written, by rw [reencodeMembers, first, rest]⟩

end

theorem reencodeFields_total (o : Fields) : ∃ o', reencodeFields some o = some o' := by
  obtain ⟨written, read⟩ := reencodeMembers_total o.toList
  exact ⟨_, by rw [reencodeFields, read, Option.map_some]⟩

end Json
end ThreeXNode.Library
