import ThreeXNode.Library.Texts
import ThreeXNode.Sub.Clash

namespace ThreeXNode.Sub.Clash
open ThreeXNode.Library

/-! # The names of the proxies -/

/-! ## Maps -/

namespace Document

theorem lookup_filter {entries : List (String × Json)} {key other : String} (ne : other ≠ key) :
    (entries.filter (·.1 ≠ key)).lookup other = entries.lookup other := by
  induction entries with
  | nil => rfl
  | cons entry entries ih =>
      obtain ⟨k, value⟩ := entry
      by_cases same : k = key
      · have differs : (other == k) = false := by
          rw [beq_eq_false_iff_ne, same]
          exact ne
        rw [List.filter_cons_of_neg (by simp [same]), ih, List.lookup_cons, differs]
      · rw [List.filter_cons_of_pos (by simpa using same), List.lookup_cons, List.lookup_cons, ih]

@[simp] theorem get_set_self (d : Document) (key : String) (value : Json) : (d.set key value).get key = some value := by
  simp [get, set]

theorem get_set_of_ne (d : Document) {key other : String} (value : Json) (ne : other ≠ key) :
    (d.set key value).get other = d.get other := by
  have differs : (other == key) = false := beq_eq_false_iff_ne.mpr ne
  simp only [get, set, List.lookup_cons, differs]
  exact lookup_filter ne

end Document

/-! ## Candidates -/

def candidate (base : String) : Nat → String
  | 0 => base
  | k + 1 => base ++ "-" ++ toString (k + 2)

theorem candidate_succ_toList (base : String) (k : Nat) :
    (candidate base (k + 1)).toList = base.toList ++ '-' :: (toString (k + 2)).toList := by
  simp [candidate]

theorem candidate_inj {base : String} {i j : Nat} (same : candidate base i = candidate base j) : i = j := by
  have lists := congrArg String.toList same
  cases i with
  | zero => cases j with
    | zero => rfl
    | succ j =>
        rw [candidate_succ_toList] at lists
        have length := congrArg List.length lists
        simp [candidate] at length
  | succ i => cases j with
    | zero =>
        rw [candidate_succ_toList] at lists
        have length := congrArg List.length lists
        simp [candidate] at length
    | succ j =>
        rw [candidate_succ_toList, candidate_succ_toList, List.append_cancel_left_eq, List.cons.injEq] at lists
        have number := toString_nat_inj (String.toList_injective lists.2)
        omega

theorem candidate_ne_empty {base : String} (named : base ≠ "") (k : Nat) : candidate base k ≠ "" := by
  cases k with
  | zero => exact named
  | succ k =>
      intro empty
      have lists := congrArg String.toList empty
      rw [candidate_succ_toList] at lists
      simp at lists

theorem freeName_candidate (seen : List String) (base : String) (fuel k : Nat) (tried : ∀ j < k, candidate base j ∈ seen) :
    ∃ i, freeName seen base fuel (k + 2) (candidate base k) = candidate base i ∧
      (∀ j < i, candidate base j ∈ seen) ∧ (candidate base i ∈ seen → i = k + fuel) := by
  induction fuel generalizing k with
  | zero => exact ⟨k, rfl, tried, fun _ => rfl⟩
  | succ fuel ih =>
      unfold freeName
      split
      · rename_i taken
        have tried' : ∀ j < k + 1, candidate base j ∈ seen := by
          intro j before
          rcases Nat.lt_succ_iff_lt_or_eq.mp before with earlier | rfl
          · exact tried j earlier
          · exact taken
        obtain ⟨i, found, all, last⟩ := ih (k + 1) tried'
        refine ⟨i, found, all, fun mem => ?_⟩
        have here := last mem
        omega
      · rename_i free
        exact ⟨k, rfl, tried, fun mem => absurd mem free⟩

/-- The loop ends within one try more than there are names, at the first candidate that is new. -/
theorem uniqueName_spec (seen : List String) (base : String) :
    ∃ k, uniqueName seen base = candidate base k ∧ candidate base k ∉ seen ∧ ∀ j < k, candidate base j ∈ seen := by
  obtain ⟨k, found, all, last⟩ := freeName_candidate seen base (seen.length + 1) 0
    fun j before => absurd before (Nat.not_lt_zero j)
  refine ⟨k, found, fun mem => ?_, all⟩
  have tried : (List.range (seen.length + 1)).map (candidate base) ⊆ seen := by
    intro name here
    obtain ⟨i, below, rfl⟩ := List.mem_map.mp here
    refine all i ?_
    rw [last mem, Nat.zero_add]
    exact List.mem_range.mp below
  have distinct : ((List.range (seen.length + 1)).map (candidate base)).Nodup :=
    List.Nodup.map (fun _ _ same => candidate_inj same) List.nodup_range
  have few := (List.subperm_of_subset distinct tried).length_le
  rw [List.length_map, List.length_range] at few
  omega

/-! ## All proxies -/

theorem baseName_ne_empty (env : Env) (proxy : Document) (idx : Nat) : baseName env proxy idx ≠ "" := by
  unfold baseName
  simp only
  split
  · intro empty
    have lists := congrArg String.toList empty
    unfold fallbackProxyName at lists
    simp only at lists
    split at lists
    · simp at lists
    · simp at lists
  · rename_i named
    exact named

@[simp] theorem text_set_self (d : Document) (key s : String) : (d.set key (.str s)).text key = some s := by
  simp [Document.text]

/-- The proxy at a position is named by its remark or, without one, by the fallback for the position; a number follows
where that name is given already, the first one that is free. -/
structure Renamed (env : Env) (given : List String) (idx : Nat) (before after : Document) : Prop where
  named : ∃ k, after.text "name" = some (candidate (baseName env before idx) k) ∧
    candidate (baseName env before idx) k ∉ given ∧ ∀ j < k, candidate (baseName env before idx) j ∈ given
  others : ∀ key, key ≠ "name" → after.get key = before.get key

theorem Renamed.congr {env : Env} {given given' : List String} {idx : Nat} {before after : Document}
    (renamed : Renamed env given idx before after) (same : ∀ name, name ∈ given ↔ name ∈ given') :
    Renamed env given' idx before after := by
  obtain ⟨k, named, fresh, all⟩ := renamed.named
  exact ⟨⟨k, named, mt (same _).mpr fresh, fun j below => (same _).mp (all j below)⟩, renamed.others⟩

inductive RenamedFrom (env : Env) : List String → Nat → List Document → List Document → Prop where
  | nil {given : List String} {idx : Nat} : RenamedFrom env given idx [] []
  | cons {given : List String} {idx : Nat} {before after : Document} {name : String} {proxies proxies' : List Document} :
      Renamed env given idx before after → after.text "name" = some name →
      RenamedFrom env (name :: given) (idx + 1) proxies proxies' →
      RenamedFrom env given idx (before :: proxies) (after :: proxies')

theorem ensureUnique_renamed (env : Env) (seen : List String) (idx : Nat) (proxies : List Document) :
    RenamedFrom env seen idx proxies (ensureUnique env seen idx proxies) := by
  induction proxies generalizing seen idx with
  | nil => exact .nil
  | cons proxy proxies ih =>
      obtain ⟨k, tried, fresh, all⟩ := uniqueName_spec seen (baseName env proxy idx)
      have first : (proxy.set "name" (.str (uniqueName seen (baseName env proxy idx)))).text "name" =
          some (uniqueName seen (baseName env proxy idx)) := text_set_self _ _ _
      refine .cons ⟨⟨k, ?_, fresh, all⟩, fun key ne => proxy.get_set_of_ne _ ne⟩ first (ih _ _)
      rw [first, tried]

section Renamed

variable {env : Env} {given : List String} {idx : Nat} {proxies proxies' : List Document}

theorem RenamedFrom.names (renamed : RenamedFrom env given idx proxies proxies') :
    (proxies'.filterMap (·.text "name")).Nodup ∧
      ∀ name ∈ proxies'.filterMap (·.text "name"), name ≠ "" ∧ name ∉ given := by
  induction renamed with
  | nil => exact ⟨List.nodup_nil, fun name mem => absurd mem List.not_mem_nil⟩
  | @cons given idx before after name proxies proxies' first named rest ih =>
      obtain ⟨distinct, names⟩ := ih
      obtain ⟨k, same, fresh, -⟩ := first.named
      rw [named, Option.some.injEq] at same
      rw [List.filterMap_cons_some (f := fun d : Document => d.text "name") named]
      refine ⟨List.nodup_cons.mpr ⟨fun mem => (names _ mem).2 List.mem_cons_self, distinct⟩, fun other mem => ?_⟩
      rcases List.mem_cons.mp mem with rfl | later
      · exact same ▸ ⟨candidate_ne_empty (baseName_ne_empty env before idx) k, fresh⟩
      · exact ⟨(names other later).1, fun taken => (names other later).2 (List.mem_cons_of_mem _ taken)⟩

theorem RenamedFrom.length_eq (renamed : RenamedFrom env given idx proxies proxies') :
    proxies'.length = proxies.length := by
  induction renamed with
  | nil => rfl
  | cons first named rest ih => rw [List.length_cons, List.length_cons, ih]

theorem RenamedFrom.at (renamed : RenamedFrom env given idx proxies proxies') {i : Nat} {before after : Document}
    (here : proxies[i]? = some before) (there : proxies'[i]? = some after) :
    ∃ given', Renamed env given' (idx + i) before after ∧
      ∀ name, name ∈ given' ↔ name ∈ (proxies'.take i).filterMap (·.text "name") ∨ name ∈ given := by
  induction renamed generalizing i with
  | nil => cases here
  | @cons given idx first first' name proxies proxies' renamed named rest ih =>
      cases i with
      | zero =>
          obtain rfl := Option.some.inj here
          obtain rfl := Option.some.inj there
          exact ⟨given, renamed, fun other => by simp⟩
      | succ i =>
          obtain ⟨given', renamed', names⟩ := ih here there
          refine ⟨given', ?_, fun other => ?_⟩
          · rwa [Nat.add_assoc, Nat.add_comm 1 i] at renamed'
          · rw [names, List.take_succ_cons, List.filterMap_cons_some (f := fun d : Document => d.text "name") named,
              List.mem_cons, List.mem_cons]
            exact ⟨fun either => either.elim (fun mem => .inl (.inr mem)) (·.imp_left .inl),
              fun either => either.elim (·.elim (fun same => .inr (.inl same)) .inl) fun mem => .inr (.inr mem)⟩

theorem RenamedFrom.source (renamed : RenamedFrom env given idx proxies proxies') {name : String}
    (mem : name ∈ proxies'.filterMap (·.text "name")) :
    ∃ before ∈ proxies, ∃ idx k, name = candidate (baseName env before idx) k := by
  induction renamed with
  | nil => cases mem
  | @cons given idx before after first proxies proxies' renamed named rest ih =>
      rw [List.filterMap_cons_some (f := fun d : Document => d.text "name") named] at mem
      rcases List.mem_cons.mp mem with rfl | later
      · obtain ⟨k, same, -, -⟩ := renamed.named
        rw [named, Option.some.injEq] at same
        exact ⟨before, List.mem_cons_self, idx, k, same⟩
      · obtain ⟨other, here, found⟩ := ih later
        exact ⟨other, List.mem_cons_of_mem _ here, found⟩

end Renamed

/-! ## Reserved names -/

def reserved : List String := "PROXY" :: builtins

theorem candidate_reserved {base : String} {k : Nat} (mem : candidate base k ∈ reserved) : base ∈ reserved := by
  cases k with
  | zero => exact mem
  | succ k =>
      have ends : ∀ name ∈ reserved, name.toList.getLast?.any Char.isDigit = false := by decide +kernel
      have nonempty : (toString (k + 2)).toList ≠ [] := by
        rw [toString_nat_toList]
        exact Nat.toDigits_ne_nil
      obtain ⟨c, last⟩ := Option.ne_none_iff_exists'.mp (mt List.getLast?_eq_none_iff.mp nonempty)
      have digit := isDigit_of_mem_toString (List.mem_of_getLast? last)
      have here := ends _ mem
      rw [candidate_succ_toList, List.getLast?_append, List.getLast?_cons, last] at here
      simp [digit] at here

theorem fallbackProxyName_free (env : Env) (proxy : Document) (idx : Nat) : fallbackProxyName env proxy idx ∉ reserved := by
  intro mem
  have hyphens : ∀ name ∈ reserved, name.toList.count '-' ≤ 1 ∧ name.toList.head? ≠ some 'p' := by decide +kernel
  obtain ⟨few, head⟩ := hyphens _ mem
  unfold fallbackProxyName at few head
  simp only at few head
  split at few
  · simp only [String.toList_append, List.count_append] at few
    have hyphen : "-".toList.count '-' = 1 := rfl
    omega
  · rename_i other
    rw [if_neg other] at head
    simp at head

theorem reserved_of_name {env : Env} {proxies : List Document} {name : String}
    (mem : name ∈ (ensureUniqueProxyNames env proxies).filterMap (·.text "name")) (taken : name ∈ reserved) :
    ∃ proxy ∈ proxies, ∃ remark ∈ reserved, proxy.text "name" = some remark := by
  obtain ⟨before, stored, idx, k, same⟩ := (ensureUnique_renamed env [] 0 proxies).source mem
  have base := candidate_reserved (same ▸ taken)
  unfold baseName at base
  simp only at base
  split at base
  · exact absurd base (fallbackProxyName_free env before idx)
  · rename_i remark
    refine ⟨before, stored, _, base, ?_⟩
    cases found : before.text "name" with
    | none => simp [found] at remark
    | some remark => rfl

end ThreeXNode.Sub.Clash
