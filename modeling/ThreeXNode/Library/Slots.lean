import ThreeXNode.Library.Fold

namespace ThreeXNode.Library

universe u

inductive Fault where
  | missing
  | occupied
  | refused
  deriving DecidableEq

variable {κ α : Type u} [DecidableEq κ]

def take (slots : κ → Option α) (k : κ) : Except Fault (κ → Option α) :=
  if (slots k).isSome then .ok (Function.update slots k none) else .error .missing

def put (slots : κ → Option α) (entry : κ × α) : Except Fault (κ → Option α) :=
  if (slots entry.1).isSome then .error .occupied else .ok (Function.update slots entry.1 (some entry.2))

def entryAt (entries : List (κ × α)) (k : κ) : Option α := (entries.find? (·.1 = k)).map (·.2)

theorem entryAt_cons (a : κ × α) (entries : List (κ × α)) (k : κ) :
    entryAt (a :: entries) k = if a.1 = k then some a.2 else entryAt entries k := by
  by_cases same : a.1 = k <;> simp [entryAt, same]

theorem entryAt_none {entries : List (κ × α)} {k : κ} :
    entryAt entries k = none ↔ k ∉ entries.map (·.1) := by
  simp only [entryAt, Option.map_eq_none_iff, List.find?_eq_none, decide_eq_true_eq, List.mem_map, not_exists, not_and]

theorem entryAt_some {entries : List (κ × α)} (distinct : (entries.map (·.1)).Nodup) {k : κ} {v : α} :
    entryAt entries k = some v ↔ (k, v) ∈ entries := by
  induction entries with
  | nil => simp [entryAt]
  | cons a entries ih =>
      rw [List.map_cons, List.nodup_cons] at distinct
      obtain ⟨apart, distinct⟩ := distinct
      rw [entryAt_cons, List.mem_cons]
      by_cases same : a.1 = k
      · have elsewhere : (k, v) ∉ entries := fun mem => apart (same ▸ List.mem_map_of_mem mem)
        rw [if_pos same, Option.some.injEq]
        exact ⟨fun value => .inl (Prod.ext same.symm value.symm), fun held =>
          held.elim (fun here => (congrArg Prod.snd here).symm) fun mem => absurd mem elsewhere⟩
      · rw [if_neg same, ih distinct]
        exact ⟨.inr, fun held => held.resolve_left fun here => same (congrArg Prod.fst here).symm⟩

theorem entryAt_append (front back : List (κ × α)) (k : κ) :
    entryAt (front ++ back) k = (entryAt front k).or (entryAt back k) := by
  induction front with
  | nil => rfl
  | cons a front ih =>
      rw [List.cons_append, entryAt_cons, entryAt_cons, ih]
      split <;> rfl

theorem take_after {slots : κ → Option α} {gone : List κ} {k : κ} [DecidablePred (· ∈ gone)]
    [DecidablePred (· ∈ gone ++ [k])] (fresh : k ∉ gone) (filled : (slots k).isSome = true) :
    take (fun k => if k ∈ gone then none else slots k) k = .ok fun j => if j ∈ gone ++ [k] then none else slots j := by
  simp only [take, fresh, ↓reduceIte, filled]
  congr 1
  funext j
  by_cases same : j = k <;> simp [same]

theorem put_after {slots : κ → Option α} {entries : List (κ × α)} {e : κ × α} (fresh : e.1 ∉ entries.map (·.1))
    (free : slots e.1 = none) : put (fun k => (entryAt entries k).or (slots k)) e =
      .ok fun k => (entryAt (entries ++ [e]) k).or (slots k) := by
  simp only [put, entryAt_none.mpr fresh, free, Option.none_or, Option.isSome_none, Bool.false_eq_true, ↓reduceIte]
  congr 1
  funext k
  rw [entryAt_append, entryAt_cons]
  by_cases same : e.1 = k
  · subst same
    simp [entryAt_none.mpr fresh]
  · rw [Function.update_of_ne (Ne.symm same), if_neg same]
    simp [entryAt]

/-! ## From one list of entries to another -/

variable [DecidableEq α]

def lost (old new : List (κ × α)) : List (κ × α) := old.filter fun e => entryAt new e.1 ≠ some e.2

/-- What is put where an entry was lost, then the entries in new places. -/
def gained (old new : List (κ × α)) : List (κ × α) :=
  (lost old new).filterMap (fun e => (entryAt new e.1).map (e.1, ·)) ++ new.filter fun e => entryAt old e.1 = none

theorem lost_nodup {old : List (κ × α)} (new : List (κ × α)) (distinct : (old.map (·.1)).Nodup) :
    ((lost old new).map (·.1)).Nodup :=
  distinct.sublist (List.filter_sublist.map _)

theorem mem_lost {old new : List (κ × α)} (distinct : (old.map (·.1)).Nodup) {k : κ} :
    k ∈ (lost old new).map (·.1) ↔ ∃ v, entryAt old k = some v ∧ entryAt new k ≠ some v := by
  simp only [lost, List.mem_map, List.mem_filter, decide_eq_true_eq, entryAt_some distinct]
  constructor
  · rintro ⟨e, ⟨mem, differs⟩, rfl⟩
    exact ⟨e.2, mem, differs⟩
  · rintro ⟨v, mem, differs⟩
    exact ⟨(k, v), ⟨mem, differs⟩, rfl⟩

theorem mem_gained {old new : List (κ × α)} (oldDistinct : (old.map (·.1)).Nodup)
    (newDistinct : (new.map (·.1)).Nodup) {k : κ} {v : α} :
    (k, v) ∈ gained old new ↔ entryAt new k = some v ∧ entryAt old k ≠ some v := by
  simp only [gained, List.mem_append, List.mem_filterMap, Option.map_eq_some_iff, List.mem_filter, decide_eq_true_eq,
    Prod.mk.injEq]
  constructor
  · rintro (⟨e, mem, w, here, rfl, rfl⟩ | ⟨mem, absent⟩)
    · obtain ⟨mem, differs⟩ := List.mem_filter.mp mem
      refine ⟨here, fun same => ?_⟩
      rw [(entryAt_some oldDistinct).mpr mem, Option.some.injEq] at same
      simp [here, same] at differs
    · exact ⟨(entryAt_some newDistinct).mpr mem, by simp [absent]⟩
  · rintro ⟨here, differs⟩
    cases before : entryAt old k with
    | none => exact .inr ⟨(entryAt_some newDistinct).mp here, rfl⟩
    | some u =>
        refine .inl ⟨(k, u), ?_, v, here, rfl, rfl⟩
        refine List.mem_filter.mpr ⟨(entryAt_some oldDistinct).mp before, ?_⟩
        rw [before] at differs
        simpa [here] using fun same : v = u => differs (congrArg some same.symm)

theorem gained_nodup {old new : List (κ × α)} (oldDistinct : (old.map (·.1)).Nodup)
    (newDistinct : (new.map (·.1)).Nodup) : ((gained old new).map (·.1)).Nodup := by
  rw [gained, List.map_append, List.nodup_append]
  have front : ((lost old new).filterMap (fun e => (entryAt new e.1).map (e.1, ·))).map (·.1) |>.Sublist
      ((lost old new).map (·.1)) := by
    induction lost old new with
    | nil => exact .slnil
    | cons e rest ih =>
        cases after : entryAt new e.1 with
        | none => simpa [after] using ih.cons e.1
        | some v => simpa [after] using ih
  refine ⟨(lost_nodup new oldDistinct).sublist front, newDistinct.sublist (List.filter_sublist.map _), ?_⟩
  rintro a mem _ mem' rfl
  obtain ⟨e, there, rfl⟩ := List.mem_map.mp mem'
  obtain ⟨f, before, same⟩ := List.mem_map.mp (front.subset mem)
  have absent : entryAt old e.1 = none := by simpa using (List.mem_filter.mp there).2
  rw [entryAt_none] at absent
  exact absent (same ▸ List.mem_map_of_mem (List.mem_filter.mp before).1)

/-! ### Under other names -/

section
variable {κ' β : Type u} [DecidableEq κ'] {old new : List (κ × α)} {name : κ → κ'}

omit [DecidableEq κ] [DecidableEq α] [DecidableEq κ'] in
private theorem keys_distinct {entries : List (κ × α)} (distinct : (entries.map (name ·.1)).Nodup) :
    (entries.map (·.1)).Nodup := by
  have through : entries.map (name ·.1) = (entries.map (·.1)).map name := by simp
  exact (through ▸ distinct).of_map

omit [DecidableEq κ'] in
theorem mem_gained_iff (oldDistinct : (old.map (name ·.1)).Nodup) (newDistinct : (new.map (name ·.1)).Nodup)
    {e : κ × α} : e ∈ gained old new ↔ e ∈ new ∧ e ∉ old := by
  rw [show e = (e.1, e.2) from rfl, mem_gained (keys_distinct oldDistinct) (keys_distinct newDistinct),
    entryAt_some (keys_distinct newDistinct), ne_eq, entryAt_some (keys_distinct oldDistinct)]

omit [DecidableEq κ'] in
theorem mem_lost_iff (newDistinct : (new.map (name ·.1)).Nodup) {e : κ × α} :
    e ∈ lost old new ↔ e ∈ old ∧ e ∉ new := by
  rw [lost, List.mem_filter, decide_eq_true_eq, ne_eq, entryAt_some (keys_distinct newDistinct)]

omit [DecidableEq κ'] in
theorem gained_names (oldDistinct : (old.map (name ·.1)).Nodup) (newDistinct : (new.map (name ·.1)).Nodup) :
    ((gained old new).map (name ·.1)).Nodup := by
  have keys := gained_nodup (keys_distinct oldDistinct) (keys_distinct newDistinct)
  refine List.Nodup.map_on ?_ keys.of_map
  intro e mem f mem' same
  exact List.inj_on_of_nodup_map newDistinct ((mem_gained_iff oldDistinct newDistinct).mp mem).1
    ((mem_gained_iff oldDistinct newDistinct).mp mem').1 same

theorem gained_free (oldDistinct : (old.map (name ·.1)).Nodup) (newDistinct : (new.map (name ·.1)).Nodup)
    {e : κ × α} (mem : e ∈ gained old new) :
    name e.1 ∈ (lost old new).map (name ·.1) ∨ name e.1 ∉ old.map (name ·.1) := by
  obtain ⟨here, fresh⟩ := (mem_gained_iff oldDistinct newDistinct).mp mem
  by_cases used : name e.1 ∈ old.map (name ·.1)
  · obtain ⟨f, before, same⟩ := List.mem_map.mp used
    refine .inl (List.mem_map.mpr ⟨f, (mem_lost_iff newDistinct).mpr ⟨before, fun after => ?_⟩, same⟩)
    exact fresh (List.inj_on_of_nodup_map newDistinct after here same ▸ before)
  · exact .inr used

theorem entryAt_gained (oldDistinct : (old.map (name ·.1)).Nodup) (newDistinct : (new.map (name ·.1)).Nodup)
    {m s : κ × α → β} (faithful : ∀ e ∈ new, e ∉ old → s e = m e) (k : κ')
    [Decidable (k ∈ (lost old new).map (name ·.1))] :
    (entryAt ((gained old new).map fun e => (name e.1, s e)) k).or
        (if k ∈ (lost old new).map (name ·.1) then none else entryAt (old.map fun e => (name e.1, m e)) k) =
      entryAt (new.map fun e => (name e.1, m e)) k := by
  have oldNames : ((old.map fun e => (name e.1, m e)).map (·.1)).Nodup := by simpa [Function.comp_def]
  have newNames : ((new.map fun e => (name e.1, m e)).map (·.1)).Nodup := by simpa [Function.comp_def]
  have moreNames : (((gained old new).map fun e => (name e.1, s e)).map (·.1)).Nodup := by
    simpa [Function.comp_def] using gained_names oldDistinct newDistinct
  cases more : entryAt ((gained old new).map fun e => (name e.1, s e)) k with
  | some v =>
      obtain ⟨e, mem, same⟩ := List.mem_map.mp ((entryAt_some moreNames).mp more)
      cases same
      obtain ⟨here, fresh⟩ := (mem_gained_iff oldDistinct newDistinct).mp mem
      exact ((entryAt_some newNames).mpr (List.mem_map.mpr ⟨e, here, by rw [faithful e here fresh]⟩)).symm
  | none =>
      have stays {e : κ × α} (here : e ∈ new) (named : name e.1 = k) : e ∈ old := by
        by_contra fresh
        rw [entryAt_none] at more
        refine more (List.mem_map.mpr ⟨_, List.mem_map.mpr ⟨e, ?_, rfl⟩, named⟩)
        exact (mem_gained_iff oldDistinct newDistinct).mpr ⟨here, fresh⟩
      rw [Option.none_or]
      split
      · rename_i gone
        obtain ⟨e, mem, named⟩ := List.mem_map.mp gone
        obtain ⟨before, left⟩ := (mem_lost_iff newDistinct).mp mem
        refine (entryAt_none.mpr fun used => ?_).symm
        obtain ⟨_, used, named'⟩ := List.mem_map.mp used
        obtain ⟨f, here, rfl⟩ := List.mem_map.mp used
        have same := List.inj_on_of_nodup_map oldDistinct (stays here named') before (named'.trans named.symm)
        exact left (same ▸ here)
      · rename_i kept
        cases after : entryAt (new.map fun e => (name e.1, m e)) k with
        | some v =>
            obtain ⟨e, here, same⟩ := List.mem_map.mp ((entryAt_some newNames).mp after)
            cases same
            exact (entryAt_some oldNames).mpr (List.mem_map.mpr ⟨e, stays here rfl, rfl⟩)
        | none =>
            refine entryAt_none.mpr fun used => ?_
            obtain ⟨_, used, named⟩ := List.mem_map.mp used
            obtain ⟨e, before, rfl⟩ := List.mem_map.mp used
            refine kept (List.mem_map.mpr ⟨e, (mem_lost_iff newDistinct).mpr ⟨before, fun here => ?_⟩, named⟩)
            rw [entryAt_none] at after
            exact after (List.mem_map.mpr ⟨_, List.mem_map.mpr ⟨e, here, rfl⟩, named⟩)

end

end ThreeXNode.Library
