import ThreeXNode.Leaf.Validate

namespace ThreeXNode.Leaf
open Library

/-- The credentials of other protocols and the panel's own bookkeeping, which no client keeps. -/
def ignores (name : String) : Prop := name ∈ ["password", "auth", "secret"] ∨ name ∈ panelClientMetadataFields

/-- The supported fields are kept as they are, but for the day 0 of a reset that never comes. -/
def keeps (source : Client) (name : String) (value : Json) : Prop :=
  name ∈ panelClientSupportedFields ∧ ¬(name = "trafficResetDay" ∧ value = .ofInt 0 ∧ neverReset source)

instance (name : String) : Decidable (ignores name) := by
  unfold ignores
  infer_instance

instance (source : Client) (name : String) (value : Json) : Decidable (keeps source name value) := by
  unfold keeps
  infer_instance

theorem ignored_unsupported {name : String} (ignored : ignores name) : name ∉ panelClientSupportedFields := by
  unfold ignores panelClientMetadataFields at ignored
  simp only [List.mem_cons, List.not_mem_nil, or_false] at ignored
  rcases ignored with (rfl | rfl | rfl) | rfl | rfl | rfl | rfl | rfl | rfl | rfl <;> decide

def passes (entry : String × Json) : Prop :=
  entry.1 ∈ panelClientSupportedFields ∨ ignores entry.1 ∨ entry.2.isEmpty = true

def keep (source n : Client) (entry : String × Json) : Client :=
  if keeps source entry.1 entry.2 then n.insert entry.1 entry.2 else n

theorem normalizeField_eq {source n m : Client} {name : String} {value : Json} :
    normalizeField source n name value = .ok m ↔ passes (name, value) ∧ m = keep source n (name, value) := by
  have ended {a : Client} : (Except.ok a : Except String Client) = .ok m ↔ m = a := by
    rw [Except.ok.injEq]
    exact eq_comm
  have credential : (name = "password" ∨ name = "auth" ∨ name = "secret") ↔ name ∈ ["password", "auth", "secret"] := by
    simp
  unfold normalizeField passes keep
  by_cases supported : name ∈ panelClientSupportedFields
  · have plain : ¬ignores name := fun ignored => ignored_unsupported ignored supported
    rw [if_neg fun foreign => plain (.inl (credential.mp foreign)), if_pos supported]
    by_cases zero : name = "trafficResetDay" ∧ value = .ofInt 0 ∧ neverReset source
    · rw [if_pos zero, ended, if_neg fun kept : keeps source name value => kept.2 zero]
      simp [supported]
    · have kept : keeps source name value := ⟨supported, zero⟩
      rw [if_neg zero, ended, if_pos kept]
      simp [supported]
  · rw [if_neg supported, if_neg fun kept : keeps source name value => supported kept.1]
    by_cases foreign : name = "password" ∨ name = "auth" ∨ name = "secret"
    · rw [if_pos foreign, ended]
      simp [ignores, credential.mp foreign]
    · rw [if_neg foreign]
      by_cases dropped : name ∈ panelClientMetadataFields ∨ value.isEmpty = true
      · rw [if_pos dropped, ended]
        have passed : name ∈ panelClientSupportedFields ∨ ignores name ∨ value.isEmpty = true :=
          .inr (dropped.imp .inr id)
        simp [passed]
      · rw [if_neg dropped]
        constructor
        · intro refused
          split at refused <;> cases refused
        · rintro ⟨here | (here | here) | here, -⟩
          · exact absurd here supported
          · exact absurd (credential.mpr here) foreign
          · exact absurd (.inl here) dropped
          · exact absurd (.inr here) dropped

theorem kept_fields (source : Client) (name : String) :
    (source.toList.foldl (keep source) ∅)[name]? = source[name]?.filter fun value => keeps source name value := by
  have listed {name : String} {value : Json} : (name, value) ∈ source.toList ↔ source[name]? = some value :=
    Std.ExtTreeMap.mem_toList_iff_getElem?_eq_some
  have all := foldl_keeps (f := keep source) (s := (∅ : Client)) (fun done n => (∀ entry ∈ done, entry ∈ source.toList) ∧
    ∀ value, n[name]? = some value ↔ (name, value) ∈ done ∧ keeps source name value) source.toList (by simp) ?_
  · apply Option.ext
    intro value
    rw [all.2 value, listed, Option.filter_eq_some_iff]
    simp
  · rintro done ⟨other, held⟩ n here ⟨inside, before⟩
    constructor
    · intro entry member
      rcases List.mem_append.mp member with earlier | last
      · exact inside entry earlier
      · rw [List.mem_singleton.mp last]
        exact here
    intro value
    by_cases same : other = name
    · subst same
      have unique : (other, value) ∈ done ++ [(other, held)] ↔ held = value := by
        constructor
        · intro member
          rcases List.mem_append.mp member with earlier | last
          · have there := listed.mp (inside _ earlier)
            rw [listed.mp here] at there
            exact Option.some.inj there
          · exact (Prod.mk.inj (List.mem_singleton.mp last)).2.symm
        · rintro rfl
          exact List.mem_append_right _ List.mem_cons_self
      unfold keep
      by_cases kept : keeps source other held
      · rw [if_pos kept, Std.ExtTreeMap.getElem?_insert_self, Option.some.injEq, unique]
        constructor
        · rintro rfl
          exact ⟨rfl, kept⟩
        · exact And.left
      · rw [if_neg kept, before value, unique]
        constructor
        · rintro ⟨earlier, kept'⟩
          exact ⟨unique.mp (List.mem_append_left _ earlier), kept'⟩
        · rintro ⟨rfl, kept'⟩
          exact absurd kept' kept
    · have untouched : (keep source n (other, held))[name]? = n[name]? := by
        unfold keep
        split
        · simp [Std.ExtTreeMap.getElem?_insert, same]
        · rfl
      rw [untouched, before value, List.mem_append, List.mem_singleton, Prod.mk.injEq]
      simp [Ne.symm same]

theorem normalizeVLESSClient_eq {source stored : Client} :
    normalizeVLESSClient source = .ok stored ↔ (∀ entry ∈ source.toList, passes entry) ∧
      (∀ name : String, stored[name]? = source[name]?.filter fun value => keeps source name value) ∧
      validateClient stored = .ok () := by
  have folded {n : Client} : n = source.toList.foldl (keep source) ∅ ↔
      ∀ name : String, n[name]? = source[name]?.filter fun value => keeps source name value := by
    constructor
    · rintro rfl name
      exact kept_fields source name
    · intro same
      apply Std.ExtTreeMap.ext_getElem?
      intro name
      rw [same name, kept_fields]
  have loop {n : Client} := @foldlM_checked _ _ _ _ _ _ source.toList ∅ n
    fun n entry m => @normalizeField_eq source n m entry.1 entry.2
  simp only [normalizeVLESSClient, Except.bind_eq_ok, Except.pure_eq_ok]
  constructor
  · rintro ⟨n, ran, _, valid, rfl⟩
    obtain ⟨passed, same⟩ := loop.mp ran
    exact ⟨passed, folded.mp same, valid⟩
  · rintro ⟨passed, same, valid⟩
    exact ⟨stored, loop.mpr ⟨passed, folded.mpr same⟩, (), valid, rfl⟩

/-- A client that the node takes over is valid, keeps what it has of the supported fields, stays as it is when it is taken
over again, and lost no value but credentials of other protocols and bookkeeping. -/
theorem client_projected {source stored : Client} (normal : normalizeVLESSClient source = .ok stored) :
    validateClient stored = .ok () ∧
    (∀ (name : String) (value : Json), stored[name]? = some value →
      name ∈ panelClientSupportedFields ∧ source[name]? = some value) ∧
    normalizeVLESSClient stored = .ok stored ∧
    ∀ (name : String) (value : Json), source[name]? = some value → value.isEmpty = false → ¬ignores name →
      name ∈ panelClientSupportedFields ∧ stored[name]? = some value := by
  obtain ⟨passed, same, valid⟩ := normalizeVLESSClient_eq.mp normal
  have held (name : String) (value : Json) : stored[name]? = some value ↔
      source[name]? = some value ∧ keeps source name value := by
    rw [same name, Option.filter_eq_some_iff]
    simp
  have never : neverReset stored ↔ neverReset source := by
    unfold neverReset Fields.text
    rw [normalizeVLESSClient_get normal (by decide) (by decide)]
  refine ⟨valid, ?_, ?_, ?_⟩
  · intro name value here
    obtain ⟨there, kept⟩ := (held name value).mp here
    exact ⟨kept.1, there⟩
  · refine normalizeVLESSClient_eq.mpr ⟨?_, ?_, valid⟩
    · rintro ⟨name, value⟩ member
      have here := Std.ExtTreeMap.mem_toList_iff_getElem?_eq_some.mp member
      exact .inl ((held name value).mp here).2.1
    · intro name
      cases here : stored[name]? with
      | none => rfl
      | some value =>
          obtain ⟨-, supported, day⟩ := (held name value).mp here
          have kept : keeps stored name value := by
            refine ⟨supported, ?_⟩
            rintro ⟨own, zero, mode⟩
            exact day ⟨own, zero, never.mp mode⟩
          rw [Option.filter_some, if_pos (decide_eq_true kept)]
  · intro name value there full own
    have member : (name, value) ∈ source.toList := Std.ExtTreeMap.mem_toList_iff_getElem?_eq_some.mpr there
    rcases passed _ member with supported | ignored | blank
    · refine ⟨supported, (held name value).mpr ⟨there, supported, ?_⟩⟩
      rintro ⟨-, rfl, -⟩
      cases full
    · exact absurd ignored own
    · rw [full] at blank
      cases blank

def taken : Client := .ofList ([("id", .str "0b3ccf2f-6d6f-4a5c-9d1c-1f6d8f0c1a2b"), ("email", .str "alice"),
  ("enable", .bool true), ("password", .str "tr0jan"), ("up", .ofInt 7)] : List (String × Json))

theorem client_projected_taken : ∃ stored, normalizeVLESSClient taken = .ok stored ∧ validateClient stored = .ok () := by
  have runs : (normalizeVLESSClient taken).isOk = true := by decide +kernel
  cases normal : normalizeVLESSClient taken with
  | error _ => simp [normal, Except.isOk, Except.toBool] at runs
  | ok stored => exact ⟨stored, rfl, (client_projected normal).1⟩

/-- The password of a Trojan inbound is accepted and dropped. -/
theorem client_credentials_dropped :
    taken["password"]? = some (.str "tr0jan") ∧ "password" ∉ panelClientSupportedFields ∧
    ∃ stored, normalizeVLESSClient taken = .ok stored ∧ stored["password"]? = none := by
  have runs : (normalizeVLESSClient taken).toOption.map (·["password"]?) = some none := by decide +kernel
  refine ⟨by decide +kernel, by decide, ?_⟩
  cases normal : normalizeVLESSClient taken with
  | error _ => simp [normal, Except.toOption] at runs
  | ok stored => exact ⟨stored, rfl, by simpa [normal, Except.toOption] using runs⟩

end ThreeXNode.Leaf
