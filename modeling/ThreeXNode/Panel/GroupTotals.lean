import ThreeXNode.Panel.Groups
import ThreeXNode.Library.Split

namespace ThreeXNode.Panel
open Library

/-! # The totals of groups -/

section Sums

variable {db db' : Database} {select select' : ClientRecord → Bool}

theorem sumUse_congr (clients : db'.clients = db.clients) (same : ∀ rec ∈ db.clients, select' rec = select rec)
    (use : ∀ rec ∈ db.clients, select rec = true → memberUse db' rec = memberUse db rec) :
    sumUse db' select' = sumUse db select := by
  unfold sumUse
  rw [clients, List.filter_congr same]
  refine congrArg List.sum (List.map_congr_left fun rec mem => ?_)
  obtain ⟨stored, selected⟩ := List.mem_filter.mp mem
  exact use rec stored selected

theorem sumUse_zero (unused : ∀ rec ∈ db.clients, select rec = true → memberUse db rec = 0) : sumUse db select = 0 := by
  refine List.sum_eq_zero fun use mem => ?_
  obtain ⟨rec, here, rfl⟩ := List.mem_map.mp mem
  obtain ⟨stored, selected⟩ := List.mem_filter.mp here
  exact unused rec stored selected

theorem sumUse_split (db : Database) (select part : ClientRecord → Bool) :
    sumUse db select = (sumUse db fun rec => select rec && part rec) + sumUse db fun rec => select rec && !part rec := by
  unfold sumUse
  induction db.clients with
  | nil => rfl
  | cons rec rest ih =>
      cases selected : select rec <;> cases inside : part rec <;> simp [selected, inside, ih]
      · exact add_left_comm _ _ _
      · exact (add_assoc _ _ _).symm

end Sums

/-! ## What is removed of a group -/

def totalOf (totals : List (String × (Int × Int))) (name : String) : Int × Int :=
  ((totals.filter (·.1 = name)).map (·.2)).sum

theorem totalOf_append (a b : List (String × (Int × Int))) (name : String) :
    totalOf (a ++ b) name = totalOf a name + totalOf b name := by
  unfold totalOf
  rw [List.filter_append, List.map_append, List.sum_append]

theorem totalOf_absent {totals : List (String × (Int × Int))} {name : String} (absent : name ∉ totals.map (·.1)) :
    totalOf totals name = 0 := by
  have none : totals.filter (·.1 = name) = [] := by
    rw [List.filter_eq_nil_iff]
    intro entry mem own
    exact absent (List.mem_map.mpr ⟨entry, mem, by simpa using own⟩)
  unfold totalOf
  rw [none]
  rfl

theorem totalOf_single (part : String × (Int × Int)) (name : String) :
    totalOf [part] name = if part.1 = name then part.2 else 0 := by
  by_cases own : part.1 = name <;> simp [totalOf, own]

theorem totalOf_mem {totals : List (String × (Int × Int))} (distinct : (totals.map (·.1)).Nodup) {entry : String × (Int × Int)}
    (mem : entry ∈ totals) : totalOf totals entry.1 = entry.2 := by
  induction totals with
  | nil => cases mem
  | cons first rest ih =>
      rw [List.map_cons, List.nodup_cons] at distinct
      rw [show first :: rest = [first] ++ rest from rfl, totalOf_append, totalOf_single]
      rcases List.mem_cons.mp mem with rfl | later
      · rw [if_pos rfl, totalOf_absent distinct.1, add_zero]
      · have differs : first.1 ≠ entry.1 := fun own => distinct.1 (own ▸ List.mem_map_of_mem later)
        rw [if_neg differs, zero_add, ih distinct.2 later]

theorem addTotal_names (totals : List (String × (Int × Int))) (part : String × (Int × Int)) :
    (addTotal totals part).map (·.1) = if part.1 ∈ totals.map (·.1) then totals.map (·.1) else totals.map (·.1) ++ [part.1] := by
  have there : (totals.any (·.1 = part.1)) = true ↔ part.1 ∈ totals.map (·.1) := by
    simp only [List.any_eq_true, decide_eq_true_eq, List.mem_map]
  unfold addTotal
  by_cases known : part.1 ∈ totals.map (·.1)
  · rw [if_pos (there.mpr known), if_pos known, List.map_map]
    refine List.map_congr_left fun agg _ => ?_
    rw [Function.comp_apply]
    split <;> rfl
  · rw [if_neg (mt there.mp known), if_neg known, List.map_append, List.map_singleton]

theorem totalOf_addTotal {totals : List (String × (Int × Int))} (distinct : (totals.map (·.1)).Nodup)
    (part : String × (Int × Int)) (name : String) :
    totalOf (addTotal totals part) name = totalOf totals name + if part.1 = name then part.2 else 0 := by
  unfold addTotal
  split
  · rename_i known
    obtain ⟨agg, mem, own⟩ := List.any_eq_true.mp known
    have own := of_decide_eq_true own
    let changed := totals.map fun agg => if agg.1 = part.1 then (agg.1, agg.2 + part.2) else agg
    have names : changed.map (·.1) = totals.map (·.1) := by
      rw [List.map_map]
      refine List.map_congr_left fun agg _ => ?_
      rw [Function.comp_apply]
      split <;> rfl
    by_cases asked : part.1 = name
    · subst asked
      have mem' : (agg.1, agg.2 + part.2) ∈ changed := List.mem_map.mpr ⟨agg, mem, if_pos own⟩
      have after : totalOf changed agg.1 = agg.2 + part.2 := totalOf_mem (names ▸ distinct) mem'
      have before : totalOf totals agg.1 = agg.2 := totalOf_mem distinct mem
      rw [own] at after before
      rw [if_pos rfl, before]
      exact after
    · rw [if_neg asked, add_zero]
      unfold totalOf
      rw [List.filter_map, List.map_map]
      have kept : (fun entry : String × (Int × Int) => decide (entry.1 = name)) ∘
          (fun agg => if agg.1 = part.1 then (agg.1, agg.2 + part.2) else agg) = fun entry => decide (entry.1 = name) := by
        funext agg
        rw [Function.comp_apply]
        split <;> rfl
      rw [kept]
      refine congrArg List.sum (List.map_congr_left fun agg mem => ?_)
      have named : agg.1 = name := by simpa using (List.mem_filter.mp mem).2
      rw [Function.comp_apply, if_neg (fun own => asked (own.symm.trans named))]
  · rw [totalOf_append, totalOf_single]

theorem totals_added (parts : List (String × (Int × Int))) :
    ((parts.foldl addTotal []).map (·.1)).Nodup ∧ ∀ name, totalOf (parts.foldl addTotal []) name = totalOf parts name := by
  refine foldl_keeps (fun done totals => (totals.map (·.1)).Nodup ∧ ∀ name, totalOf totals name = totalOf done name) parts
    ⟨List.nodup_nil, fun _ => rfl⟩ ?_
  rintro done part totals - ⟨distinct, sums⟩
  constructor
  · rw [addTotal_names]
    split
    · exact distinct
    · rename_i new
      exact List.nodup_append.mpr ⟨distinct, List.nodup_singleton _, by
        rintro name mem other single rfl
        exact new (List.mem_singleton.mp single ▸ mem)⟩
  · intro name
    rw [totalOf_addTotal distinct, totalOf_append, totalOf_single, sums]

theorem chunkStrings_flatten (emails : List String) : (chunkStrings emails sqlInChunk).flatten = emails := by
  unfold chunkStrings
  rw [← List.flatMap_def, pages_join]
  refine List.take_of_length_le ?_
  unfold sqlInChunk
  omega

theorem totalOf_batch {db : Database} {batch : List String} {name : String} (named : name ≠ "") :
    totalOf (batchTotals db batch) name = sumUse db fun rec => rec.group = name && rec.email ∈ batch := by
  have distinct : ((batchTotals db batch).map (·.1)).Nodup := by
    unfold batchTotals
    rw [List.map_map]
    exact (List.map_id _).symm ▸ List.nodup_dedup _
  by_cases mem : name ∈ (batchTotals db batch).map (·.1)
  · obtain ⟨entry, here, rfl⟩ := List.mem_map.mp mem
    rw [totalOf_mem distinct here]
    obtain ⟨_, -, rfl⟩ := List.mem_map.mp here
    rfl
  · rw [totalOf_absent mem]
    refine (sumUse_zero fun rec stored selected => ?_).symm
    simp only [Bool.and_eq_true, decide_eq_true_eq] at selected
    unfold memberUse
    have unused : db.clientTraffics.filter (·.email = rec.email) = [] := by
      rw [List.filter_eq_nil_iff]
      intro row row_mem own
      refine mem (List.mem_map.mpr ⟨(name, _), List.mem_map.mpr ⟨name, ?_, rfl⟩, rfl⟩)
      refine List.mem_dedup.mpr (List.mem_map.mpr ⟨rec, List.mem_filter.mpr ⟨stored, ?_⟩, selected.1⟩)
      have joined : hasTraffic db rec = true := List.any_eq_true.mpr ⟨row, row_mem, own⟩
      simp [selected, named, joined]
    rw [unused]
    rfl

theorem totalOf_removed {db : Database} {emails : List String} (distinct : emails.Nodup) {name : String} (named : name ≠ "") :
    totalOf (removedTotals db emails) name = sumUse db fun rec => rec.group = name && rec.email ∈ emails := by
  unfold removedTotals
  rw [(totals_added _).2]
  suffices all : ∀ batches : List (List String), batches.flatten.Nodup →
      totalOf (batches.flatMap (batchTotals db)) name = sumUse db fun rec => rec.group = name && rec.email ∈ batches.flatten by
    have whole := all (chunkStrings emails sqlInChunk) ((chunkStrings_flatten emails).symm ▸ distinct)
    rwa [chunkStrings_flatten] at whole
  intro batches
  induction batches with
  | nil =>
      intro _
      refine (sumUse_zero fun rec _ selected => ?_).symm
      simp at selected
  | cons batch rest ih =>
      intro distinct
      rw [List.flatten_cons, List.nodup_append] at distinct
      rw [List.flatMap_cons, totalOf_append, totalOf_batch named, ih distinct.2.1, List.flatten_cons,
        sumUse_split db (fun rec => rec.group = name && rec.email ∈ batch ++ rest.flatten) fun rec => rec.email ∈ batch]
      congr 1
      · refine sumUse_congr rfl (fun rec _ => ?_) fun _ _ _ => rfl
        by_cases here : rec.email ∈ batch <;> simp [here]
      · refine sumUse_congr rfl (fun rec _ => ?_) fun _ _ _ => rfl
        by_cases here : rec.email ∈ batch
        · have elsewhere : rec.email ∉ rest.flatten := fun later => distinct.2.2 _ here _ later rfl
          simp [here, elsewhere]
        · simp [here]

/-! ## Baselines -/

theorem baseline_mapped {groups : List ClientGroup} {name : String} {f : ClientGroup → ClientGroup}
    (names : ∀ row, (f row).name = row.name) (change : Int × Int → Int × Int)
    (reset : ∀ row, row.name = name → (f row).reset = change row.reset) (stored : name ∈ groups.map (·.name)) :
    baseline (groups.map f) name = change (baseline groups name) := by
  unfold baseline
  have asked : (fun row : ClientGroup => decide (row.name = name)) ∘ f = fun row => decide (row.name = name) := by
    funext row
    rw [Function.comp_apply, names]
  rw [List.find?_map, asked]
  cases found : groups.find? (·.name = name) with
  | none =>
      obtain ⟨row, mem, own⟩ := List.mem_map.mp stored
      exact absurd (decide_eq_true own) (List.find?_eq_none.mp found row mem)
  | some row =>
      have own : row.name = name := by simpa using List.find?_some found
      exact reset row own

theorem baseline_absent {groups : List ClientGroup} {name : String} (absent : name ∉ groups.map (·.name)) :
    baseline groups name = 0 := by
  have none : groups.find? (·.name = name) = none := by
    rw [List.find?_eq_none]
    intro row mem own
    exact absent (List.mem_map.mpr ⟨row, mem, by simpa using own⟩)
  unfold baseline
  rw [none]
  rfl

theorem baseline_untouched {groups : List ClientGroup} {name : String} {f : ClientGroup → ClientGroup}
    (names : ∀ row, (f row).name = row.name) (reset : ∀ row, row.name = name → f row = row) :
    baseline (groups.map f) name = baseline groups name := by
  by_cases stored : name ∈ groups.map (·.name)
  · exact baseline_mapped names id (fun row own => by rw [reset row own]; rfl) stored
  · refine (baseline_absent fun mem => stored ?_).trans (baseline_absent stored).symm
    obtain ⟨_, mapped, rfl⟩ := List.mem_map.mp mem
    obtain ⟨row, row_mem, rfl⟩ := List.mem_map.mp mapped
    exact List.mem_map.mpr ⟨row, row_mem, (names row).symm⟩

theorem baseline_append {groups : List ClientGroup} {row : ClientGroup} (new : row.name ∉ groups.map (·.name)) (name : String) :
    baseline (groups ++ [row]) name = if row.name = name then row.reset else baseline groups name := by
  by_cases own : row.name = name
  · subst own
    have none : groups.find? (·.name = row.name) = none := by
      rw [List.find?_eq_none]
      intro other mem same
      exact new (List.mem_map.mpr ⟨other, mem, by simpa using same⟩)
    unfold baseline
    rw [List.find?_append, none, if_pos rfl]
    simp
  · unfold baseline
    rw [List.find?_append, if_neg own]
    simp [own]

theorem any_name {groups : List ClientGroup} {name : String} :
    groups.any (·.name = name) = true ↔ name ∈ groups.map (·.name) := by
  simp only [List.any_eq_true, decide_eq_true_eq, List.mem_map]

theorem shiftBaseline_spec {groups : List ClientGroup} (total : String × (Int × Int)) (name : String) :
    baseline (shiftBaseline groups total) name = baseline groups name - if total.1 = name then total.2 else 0 := by
  unfold shiftBaseline
  by_cases nothing : total.2.1 = 0 ∧ total.2.2 = 0
  · rw [if_pos nothing, show total.2 = 0 from Prod.ext nothing.1 nothing.2, ite_self, sub_zero]
  · rw [if_neg nothing]
    by_cases stored : groups.any (·.name = total.1) = true
    · rw [if_pos stored]
      by_cases own : total.1 = name
      · subst own
        rw [if_pos rfl]
        exact baseline_mapped (fun row => by split <;> rfl) (· - total.2) (fun row is => by rw [if_pos is]) (any_name.mp stored)
      · rw [if_neg own, sub_zero]
        exact baseline_untouched (fun row => by split <;> rfl) fun row is => if_neg (is ▸ Ne.symm own)
    · rw [if_neg stored, baseline_append (mt any_name.mpr stored)]
      by_cases own : total.1 = name
      · rw [if_pos own, if_pos own, ← own, baseline_absent (mt any_name.mpr stored), zero_sub]
      · rw [if_neg own, if_neg own, sub_zero]

theorem shiftBaselines_spec (totals : List (String × (Int × Int))) (groups : List ClientGroup) (name : String) :
    baseline (totals.foldl shiftBaseline groups) name = baseline groups name - totalOf totals name := by
  refine foldl_keeps (fun done groups' => baseline groups' name = baseline groups name - totalOf done name) totals ?_ ?_
  · exact (sub_zero _).symm
  · intro done total groups' _ held
    rw [shiftBaseline_spec, held, totalOf_append, totalOf_single, sub_sub]

/-- The total of a group as it is shown, before it is cut off at zero. -/
def groupTotal (s : GroupDb) (name : String) : Int × Int := sumUse s.db (·.group = name) - baseline s.groups name

section Released

variable {s : GroupDb} {emails : List String} {name : String}

theorem released (distinct : emails.Nodup) (named : name ≠ "") {db : Database}
    (left : sumUse db (·.group = name) = sumUse s.db fun rec => rec.group = name && !decide (rec.email ∈ emails)) :
    groupTotal ⟨db, (adjustGroupBaselinesForRemovedTraffic s emails).groups⟩ name = groupTotal s name := by
  unfold groupTotal adjustGroupBaselinesForRemovedTraffic
  rw [shiftBaselines_spec, totalOf_removed distinct named, left,
    sumUse_split s.db (·.group = name) fun rec => rec.email ∈ emails]
  abel

theorem memberUse_map {db db' : Database} {g : ClientTraffic → ClientTraffic}
    (traffics : db'.clientTraffics = db.clientTraffics.map g) (own : ∀ row, (g row).email = row.email) (rec : ClientRecord) :
    memberUse db' rec = ((db.clientTraffics.filter (·.email = rec.email)).map fun row => ((g row).up, (g row).down)).sum := by
  unfold memberUse
  rw [traffics, List.filter_map, List.map_map]
  have kept : (fun row : ClientTraffic => decide (row.email = rec.email)) ∘ g = fun row => decide (row.email = rec.email) := by
    funext row
    rw [Function.comp_apply, own]
  rw [kept]
  rfl

theorem memberUse_zeroed (db : Database) (rec : ClientRecord) :
    memberUse (zeroCounters db emails) rec = if rec.email ∈ emails then 0 else memberUse db rec := by
  rw [memberUse_map (show (zeroCounters db emails).clientTraffics = _ from rfl) (fun row => by split <;> rfl)]
  split
  · rename_i zeroed
    refine List.sum_eq_zero fun use mem => ?_
    obtain ⟨row, here, rfl⟩ := List.mem_map.mp mem
    have own : row.email = rec.email := by simpa using (List.mem_filter.mp here).2
    rw [if_pos (own ▸ zeroed)]
    rfl
  · rename_i other
    refine congrArg List.sum (List.map_congr_left fun row here => ?_)
    have own : row.email = rec.email := by simpa using (List.mem_filter.mp here).2
    rw [if_neg (own ▸ other)]

theorem memberUse_deleted (db : Database) (rec : ClientRecord) :
    memberUse (deleteTraffics db emails) rec = if rec.email ∈ emails then 0 else memberUse db rec := by
  unfold memberUse deleteTraffics
  simp only [List.filter_filter]
  split
  · rename_i deleted
    refine List.sum_eq_zero fun use mem => ?_
    obtain ⟨row, here, -⟩ := List.mem_map.mp mem
    have both := (List.mem_filter.mp here).2
    simp only [Bool.and_eq_true, decide_eq_true_eq] at both
    exact absurd (both.1 ▸ deleted) both.2
  · rename_i other
    refine congrArg List.sum (congrArg (List.map _) (List.filter_congr fun row _ => ?_))
    by_cases own : row.email = rec.email
    · simp [own, other]
    · simp [own]

theorem sumUse_left {db : Database} (clients : db.clients = s.db.clients)
    (use : ∀ rec, memberUse db rec = if rec.email ∈ emails then 0 else memberUse s.db rec) :
    sumUse db (·.group = name) = sumUse s.db fun rec => rec.group = name && !decide (rec.email ∈ emails) := by
  rw [sumUse_split db (·.group = name) fun rec => rec.email ∈ emails, sumUse_zero, zero_add]
  · refine sumUse_congr clients (fun _ _ => rfl) fun rec _ selected => ?_
    simp only [Bool.and_eq_true, Bool.not_eq_true', decide_eq_false_iff_not] at selected
    rw [use, if_neg selected.2]
  · intro rec _ selected
    simp only [Bool.and_eq_true, decide_eq_true_eq] at selected
    rw [use, if_pos selected.2]

theorem sumUse_deleteRecords {db : Database} (clients : db.clients = s.db.clients)
    (use : ∀ rec, rec.email ∉ emails → memberUse db rec = memberUse s.db rec) :
    sumUse (deleteRecords db emails) (·.group = name) =
      sumUse s.db fun rec => rec.group = name && !decide (rec.email ∈ emails) := by
  show (((db.clients.filter (·.email ∉ emails)).filter (·.group = name)).map (memberUse db)).sum = _
  unfold sumUse
  rw [List.filter_filter, clients]
  have same : s.db.clients.filter (fun rec => decide (rec.group = name) && decide (rec.email ∉ emails)) =
      s.db.clients.filter fun rec => rec.group = name && !decide (rec.email ∈ emails) :=
    List.filter_congr fun rec _ => by simp
  rw [same]
  refine congrArg List.sum (List.map_congr_left fun rec mem => ?_)
  have selected := (List.mem_filter.mp mem).2
  simp only [Bool.and_eq_true, Bool.not_eq_true', decide_eq_false_iff_not] at selected
  exact use rec selected.2

end Released

end ThreeXNode.Panel
