import ThreeXNode.Library.Json

namespace ThreeXNode.Library

/-! # Members whose names differ from a field's in case only

A decoder that fills a struct reads such a member into the field too. -/

/-- Names of fields are ASCII; besides its own letters, two runes fold to one of them. -/
def foldRune (c : Char) : Char :=
  if c.toNat = 0x17F then 's' else if c.toNat = 0x212A then 'k' else c.toLower

def spells (key name : String) : Bool := name.toList.map foldRune = key.toList.map foldRune

theorem spells_self (key : String) : spells key key = true := decide_eq_true rfl

namespace Fields

def spelling? (o : Fields) (key : String) : Option String := (o.keys.filter (spells key)).getLast?

/-- What a field is filled with. An object that has the name itself is read by it, whatever else it has. -/
def field? (o : Fields) (key : String) : Option Json := o[key]?.or ((spelling? o key).bind (o[·]?))

variable {o o' : Fields} {key : String}

theorem field?_of_get {j : Json} (here : o[key]? = some j) : field? o key = some j := by
  rw [field?, here, Option.some_or]

@[simp] theorem field?_insert_self (o : Fields) (key : String) (j : Json) : field? (o.insert key j) key = some j :=
  field?_of_get Std.ExtTreeMap.getElem?_insert_self

theorem spelling?_congr (same : ∀ name, spells key name = true → o'[name]?.isSome = o[name]?.isSome) :
    spelling? o' key = spelling? o key := by
  have units : (o'.map fun _ _ => ()).filter (fun name _ => spells key name) =
      (o.map fun _ _ => ()).filter fun name _ => spells key name := by
    refine Std.ExtTreeMap.ext_getElem? fun {name} => ?_
    rw [Std.ExtTreeMap.getElem?_filter', Std.ExtTreeMap.getElem?_filter', Std.ExtTreeMap.getElem?_map, Std.ExtTreeMap.getElem?_map]
    by_cases read : spells key name = true
    · have there := same name read
      cases here : o[name]? <;> cases here' : o'[name]? <;> simp [here, here'] at there ⊢
    · simp [read]
  have names := congrArg Std.ExtTreeMap.keys units
  rw [Std.ExtTreeMap.keys_filter_key, Std.ExtTreeMap.keys_filter_key, Std.ExtTreeMap.keys_map, Std.ExtTreeMap.keys_map] at names
  rw [spelling?, spelling?, names]

theorem spelling?_spells {name : String} (found : spelling? o key = some name) : spells key name = true :=
  (List.mem_filter.mp (List.mem_of_getLast? found)).2

theorem field?_congr (same : ∀ name, spells key name = true → o'[name]? = o[name]?) : field? o' key = field? o key := by
  have last : spelling? o' key = spelling? o key := spelling?_congr fun name here => by rw [same name here]
  rw [field?, field?, same key (spells_self key), last]
  cases found : spelling? o key with
  | none => rfl
  | some name => rw [Option.bind_some, Option.bind_some, same name (spelling?_spells found)]

theorem field?_insert_of_apart {other : String} (apart : spells key other = false) (j : Json) :
    field? (o.insert other j) key = field? o key := by
  refine field?_congr fun name here => ?_
  have differ : name ≠ other := by
    rintro rfl
    rw [here] at apart
    cases apart
  rw [Std.ExtTreeMap.getElem?_insert]
  simp [differ.symm]

theorem field?_related {f : Json → Option Json} (same : ∀ name : String, o[name]?.map f = o'[name]?.map some) (key : String) :
    (field? o key).map f = (field? o' key).map some := by
  have there : ∀ name : String, o'[name]?.isSome = o[name]?.isSome := by
    intro name
    have both := congrArg Option.isSome (same name)
    rwa [Option.isSome_map, Option.isSome_map, eq_comm] at both
  have last : spelling? o' key = spelling? o key := spelling?_congr fun name _ => there name
  have own := same key
  rw [field?, field?, last]
  cases here : o[key]? with
  | some j =>
      rw [here] at own
      obtain ⟨j', here', -⟩ := Option.map_eq_some_iff.mp own.symm
      rw [here'] at own ⊢
      exact own
  | none =>
      rw [here] at own
      rw [Option.map_eq_none_iff.mp own.symm, Option.none_or, Option.none_or]
      cases spelling? o key with
      | none => rfl
      | some name => exact same name

/-- No member is read into the field but by the field's own name. -/
def plain (o : Fields) (key : String) : Bool := o.keys.all fun name => spells key name → name = key

theorem plain_iff : plain o key = true ↔ ∀ name, o[name]?.isSome = true → spells key name = true → name = key := by
  simp only [plain, List.all_eq_true, decide_eq_true_eq, Std.ExtTreeMap.mem_keys, Std.ExtTreeMap.mem_iff_isSome_getElem?]

theorem field?_plain (own : plain o key = true) : field? o key = o[key]? := by
  rw [field?]
  cases here : o[key]? with
  | some j => rfl
  | none =>
      rw [Option.none_or]
      cases found : spelling? o key with
      | none => rfl
      | some name =>
          rw [Option.bind_some]
          cases there : o[name]? with
          | none => rfl
          | some j =>
              have same := plain_iff.mp own name (by rw [there]; rfl) (spelling?_spells found)
              rw [same, here] at there
              cases there

theorem plain_congr (same : ∀ name : String, o'[name]?.isSome = o[name]?.isSome) (key : String) : plain o' key = plain o key := by
  rw [Bool.eq_iff_iff, plain_iff, plain_iff]
  simp only [same]

theorem plain_insert (own : plain o key = true) {other : String} (named : spells key other = true → other = key) (j : Json) :
    plain (o.insert other j) key = true := by
  rw [plain_iff] at own ⊢
  intro name there read
  by_cases same : other = name
  · exact same ▸ named (same ▸ read)
  · rw [Std.ExtTreeMap.getElem?_insert] at there
    exact own name (by simpa [same] using there) read

end Fields
end ThreeXNode.Library
