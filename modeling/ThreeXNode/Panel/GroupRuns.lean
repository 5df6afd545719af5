import ThreeXNode.Panel.GroupPolls

namespace ThreeXNode.Panel
open Library List

/-! # Runs of operations on clients and groups -/

inductive GroupCall where
  | addTraffic (p : TrafficPoll)
  | bulkResetTraffic (emails : List String)
  | resetAllClientTraffics (id : Option Nat) (now : Int)
  | resetClientTrafficByEmail (email : String)
  | delClientStat (email : String)
  | delClientStatsByEmails (emails : List String)
  | deleteClient (email : String) (keepTraffic : Bool)
  | bulkDelete (emails : List String) (skipped : String → Bool) (keepTraffic : Bool)
  | resetAllTraffics
  | resetGroupTraffic (name : String)
  | createGroup (name : String)
  | renameGroup (oldName newName : String)
  | deleteGroup (name : String)
  | addToGroup (emails : List String) (group : String)

def okOr (s : GroupDb) : Except String GroupDb → GroupDb
  | .ok s' => s'
  | .error _ => s

def GroupCall.run (s : GroupDb) : GroupCall → GroupDb
  | .addTraffic p => { s with db := p.run s.db }
  | .bulkResetTraffic emails => Panel.bulkResetTraffic s emails
  | .resetAllClientTraffics id now => Panel.resetAllClientTraffics s id now
  | .resetClientTrafficByEmail email => Panel.resetClientTrafficByEmail s email
  | .delClientStat email => Panel.delClientStat s email
  | .delClientStatsByEmails emails => Panel.delClientStatsByEmails s emails.dedup
  | .deleteClient email keepTraffic => Panel.deleteClient s email keepTraffic
  | .bulkDelete emails skipped keepTraffic => Panel.bulkDelete s emails skipped keepTraffic
  | .resetAllTraffics => Panel.resetAllTraffics s
  | .resetGroupTraffic name => okOr s (Panel.resetGroupTraffic s name)
  | .createGroup name => okOr s (Panel.createGroup s name)
  | .renameGroup oldName newName => okOr s (Panel.renameGroup s oldName newName)
  | .deleteGroup name => okOr s (Panel.deleteGroup s name)
  | .addToGroup emails group => addToGroupTables s emails group

/-! ## The meter of a group -/

def moves (emails : List String) (group : String) (rec : ClientRecord) : Bool := rec.email ∈ emails && rec.group ≠ group

/-- What a call does to the totals of the groups: traffic of members counts, a reset of the group starts again, groups
that are renamed or whose members move take their totals along, and renewals and the reset of all traffic forget. -/
def GroupCall.meter (s : GroupDb) (m : String → Int × Int) : GroupCall → String → Int × Int
  | .addTraffic p => p.meter s.db m
  | .resetAllTraffics => fun name => m name - sumUse s.db (·.group = name)
  | .resetGroupTraffic name | .deleteGroup name => Function.update m (trimSpace name) 0
  | .renameGroup oldName newName =>
      match Panel.renameGroup s oldName newName with
      | .ok _ =>
          if trimSpace oldName = trimSpace newName then m
          else Function.update (Function.update m (trimSpace newName) (m (trimSpace oldName) + m (trimSpace newName)))
            (trimSpace oldName) 0
      | .error _ => m
  | .addToGroup emails group => fun name =>
      m name + (if name = trimSpace group then sumUse s.db (moves emails name) else 0) -
        sumUse s.db fun rec => rec.group = name && moves emails (trimSpace group) rec
  | _ => m

def meterRun (s : GroupDb) (m : String → Int × Int) : List GroupCall → String → Int × Int
  | [] => m
  | call :: rest => meterRun (call.run s) (call.meter s m) rest

/-! ## Keys -/

def resetEmails (db : Database) : Option Nat → List String
  | none => db.clientTraffics.map (·.email)
  | some id => (db.clientInbounds.filter (·.inboundId = id)).flatMap fun link =>
      (db.clients.filter (·.id = link.clientId)).map (·.email)

theorem resetAllClientTraffics_eq (s : GroupDb) (id : Option Nat) (now : Int) :
    resetAllClientTraffics s id now = if resetEmails s.db id = [] then s
      else
        ⟨{ deleteNodeTraffics (clearGlobalTraffic (zeroCounters s.db (resetEmails s.db id)) (resetEmails s.db id))
              (resetEmails s.db id) with
            inbounds := s.db.inbounds.map fun ib =>
              if id.all (ib.id = ·) then { ib with lastTrafficResetTime := now } else ib },
          (adjustGroupBaselinesForRemovedTraffic s (resetEmails s.db id)).groups⟩ := by
  cases id with
  | none => rfl
  | some id => rfl

section Unique

variable {db : Database}

theorem unique_zeroed (unique : Unique db) (emails : List String) : Unique (zeroCounters db emails) := by
  refine unique.of_maps (List.map_id _).symm (fun _ => rfl) rfl (fun row => ?_) rfl
  split <;> rfl

theorem unique_deleted (unique : Unique db) (emails : List String) : Unique (deleteTraffics db emails) :=
  unique.of_sublists (.refl _) List.filter_sublist (.refl _)

theorem unique_records (unique : Unique db) (emails : List String) : Unique (deleteRecords db emails) :=
  unique.of_sublists List.filter_sublist (.refl _) List.filter_sublist

theorem unique_setGroups (unique : Unique db) (select : ClientRecord → Bool) (group : String) :
    Unique (setGroups db select group) := by
  refine unique.of_maps rfl (fun rec => ?_) (List.map_id _).symm (fun _ => rfl) rfl
  split <;> rfl

end Unique

theorem run_unique {s : GroupDb} (unique : Unique s.db) (call : GroupCall) : Unique (call.run s).db := by
  have replaced : ∀ {oldName newName s'}, replaceGroupTables s oldName newName = .ok s' → Unique s'.db := by
    intro oldName newName s' done
    unfold replaceGroupTables at done
    split at done
    · cases done
      exact unique_setGroups unique _ _
    · split at done
      · cases done
      · cases done
        exact unique_setGroups unique _ _
  have ok : ∀ {result : Except String GroupDb}, (∀ s', result = .ok s' → Unique s'.db) → Unique (okOr s result).db := by
    intro result all
    cases result with
    | ok s' => exact all s' rfl
    | error _ => exact unique
  cases call with
  | addTraffic p => exact p.run_unique unique
  | bulkResetTraffic emails => exact (unique_zeroed unique (trimmedEmails emails)).same rfl rfl rfl
  | resetAllClientTraffics id now =>
      show Unique (Panel.resetAllClientTraffics s id now).db
      rw [resetAllClientTraffics_eq]
      split
      · exact unique
      · exact (unique_zeroed unique (resetEmails s.db id)).same rfl rfl rfl
  | resetClientTrafficByEmail email => exact (unique_zeroed unique [email]).same rfl rfl rfl
  | delClientStat email => exact (unique_deleted unique [email]).same rfl rfl rfl
  | delClientStatsByEmails emails => exact (unique_deleted unique emails.dedup).same rfl rfl rfl
  | deleteClient email keepTraffic =>
      cases keepTraffic with
      | true => exact unique_records unique _
      | false =>
          have gone : Unique (deleteNodeTraffics (clearGlobalTraffic (deleteTraffics s.db [email]) [email]) [email]) :=
            (unique_deleted unique [email]).same rfl rfl rfl
          exact unique_records gone _
  | bulkDelete emails skipped keepTraffic =>
      cases keepTraffic with
      | true => exact unique_records unique _
      | false => exact unique_records (unique_deleted unique _) _
  | resetAllTraffics => exact unique.of_maps (List.map_id _).symm (fun _ => rfl) rfl (fun _ => rfl) rfl
  | resetGroupTraffic name =>
      refine ok fun s' done => ?_
      unfold Panel.resetGroupTraffic at done
      simp only at done
      split at done
      · cases done
      · split at done <;> cases done <;> exact unique
  | createGroup name =>
      refine ok fun s' done => ?_
      unfold Panel.createGroup at done
      simp only at done
      split at done
      · cases done
      · split at done <;> cases done
        exact unique
  | renameGroup oldName newName =>
      refine ok fun s' done => ?_
      unfold Panel.renameGroup at done
      simp only at done
      split at done
      · cases done
      · split at done
        · cases done
        · split at done
          · cases done
            exact unique
          · exact replaced done
  | deleteGroup name =>
      refine ok fun s' done => ?_
      unfold Panel.deleteGroup at done
      simp only at done
      split at done
      · cases done
      · exact replaced done
  | addToGroup emails group =>
      show Unique (addToGroupTables s emails group).db
      unfold addToGroupTables
      simp only
      split
      · exact unique
      · exact unique_setGroups unique _ _

/-! ## What a call does to the totals -/

section Steps

variable {s : GroupDb} {name : String}

theorem resetEmails_nodup (unique : Unique s.db) (id : Option Nat) : (resetEmails s.db id).Nodup := by
  cases id with
  | none => exact unique.traffics
  | some id =>
      have pairs : ((s.db.clientInbounds.filter (·.inboundId = id)).map fun link => (link.clientId, link.inboundId)).Nodup :=
        unique.links.sublist (filter_sublist.map _)
      refine nodup_flatMap.mpr ⟨fun link _ => unique.emails.sublist (filter_sublist.map _), ?_⟩
      refine (pairwise_map.mp pairs).imp_of_mem fun {a b} a_mem b_mem differ => ?_
      have a_id : a.inboundId = id := by simpa using (mem_filter.mp a_mem).2
      have b_id : b.inboundId = id := by simpa using (mem_filter.mp b_mem).2
      intro email of_a of_b
      obtain ⟨rec, rec_mem, rfl⟩ := mem_map.mp of_a
      obtain ⟨other, other_mem, own⟩ := mem_map.mp of_b
      obtain ⟨rec_mem, rec_id⟩ := mem_filter.mp rec_mem
      obtain ⟨other_mem, other_id⟩ := mem_filter.mp other_mem
      have same : other = rec := inj_on_of_nodup_map unique.emails other_mem rec_mem own
      subst same
      refine differ (Prod.ext ?_ (a_id.trans b_id.symm))
      exact (of_decide_eq_true rec_id).symm.trans (of_decide_eq_true other_id)

theorem total_zeroed {db : Database} {emails : List String} (distinct : emails.Nodup) (named : name ≠ "")
    (clients : db.clients = s.db.clients) (traffics : db.clientTraffics = (zeroCounters s.db emails).clientTraffics) :
    groupTotal ⟨db, (adjustGroupBaselinesForRemovedTraffic s emails).groups⟩ name = groupTotal s name := by
  refine released distinct named (sumUse_left clients fun rec => ?_)
  rw [← memberUse_zeroed]
  unfold memberUse
  rw [traffics]

theorem total_deleted {db : Database} {emails : List String} (distinct : emails.Nodup) (named : name ≠ "")
    (clients : db.clients = s.db.clients) (traffics : db.clientTraffics = (deleteTraffics s.db emails).clientTraffics) :
    groupTotal ⟨db, (adjustGroupBaselinesForRemovedTraffic s emails).groups⟩ name = groupTotal s name := by
  refine released distinct named (sumUse_left clients fun rec => ?_)
  rw [← memberUse_deleted]
  unfold memberUse
  rw [traffics]

theorem trimmedEmails_nodup (emails : List String) : (trimmedEmails emails).Nodup := List.nodup_dedup _

theorem total_recordless {emails : List String} (distinct : emails.Nodup) (named : name ≠ "") {db : Database}
    (clients : db.clients = s.db.clients)
    (traffics : db.clientTraffics = s.db.clientTraffics ∨ db.clientTraffics = (deleteTraffics s.db emails).clientTraffics) :
    groupTotal ⟨deleteRecords db emails, (adjustGroupBaselinesForRemovedTraffic s emails).groups⟩ name =
      groupTotal s name := by
  refine released distinct named (sumUse_deleteRecords clients fun rec stays => ?_)
  rcases traffics with same | deleted
  · unfold memberUse
    rw [same]
  · have kept := @memberUse_deleted emails s.db rec
    rw [if_neg stays] at kept
    rw [← kept]
    unfold memberUse
    rw [deleted]

theorem total_forgotten (s : GroupDb) (name : String) :
    groupTotal (resetAllTraffics s) name = groupTotal s name - sumUse s.db (·.group = name) := by
  have none : sumUse (resetAllTraffics s).db (·.group = name) = 0 := by
    refine sumUse_zero fun rec _ _ => sum_eq_zero fun use mem => ?_
    obtain ⟨row, here, rfl⟩ := mem_map.mp mem
    obtain ⟨_, -, rfl⟩ := mem_map.mp (mem_filter.mp here).1
    rfl
  unfold groupTotal
  rw [none]
  show 0 - baseline s.groups name = _
  abel

theorem total_restarted (s : GroupDb) (given : String) (named : name ≠ "") :
    groupTotal (okOr s (resetGroupTraffic s given)) name = Function.update (groupTotal s) (trimSpace given) 0 name := by
  unfold resetGroupTraffic
  by_cases blank : trimSpace given = ""
  · rw [if_pos blank, Function.update_of_ne (blank ▸ named)]
    rfl
  · rw [if_neg blank]
    by_cases stored : s.groups.any (·.name = trimSpace given) = true
    · rw [if_pos stored]
      unfold groupTotal
      show sumUse s.db _ - baseline (s.groups.map fun row =>
        if row.name = trimSpace given then { row with reset := sumUse s.db (·.group = trimSpace given) } else row) name = _
      by_cases own : name = trimSpace given
      · subst own
        rw [Function.update_self, baseline_mapped (fun row => by split <;> rfl)
          (fun _ => sumUse s.db (·.group = trimSpace given)) (fun row is => by rw [if_pos is]) (any_name.mp stored), sub_self]
      · rw [Function.update_of_ne own, baseline_untouched (fun row => by split <;> rfl) fun row is => by
          rw [if_neg (is ▸ own)]]
    · rw [if_neg stored]
      unfold groupTotal
      show sumUse s.db _ - baseline (s.groups ++ [_]) _ = _
      rw [baseline_append (mt any_name.mpr stored)]
      by_cases own : name = trimSpace given
      · subst own
        rw [if_pos rfl, Function.update_self, sub_self]
      · rw [if_neg (Ne.symm own), Function.update_of_ne own]

theorem baseline_created {groups : List ClientGroup} {group : String} (new : ¬groups.any (·.name = group) = true)
    (name : String) : baseline (groups ++ [⟨group, 0⟩]) name = baseline groups name := by
  rw [baseline_append (mt any_name.mpr new)]
  split
  · rename_i own
    rw [baseline_absent (own ▸ mt any_name.mpr new)]
  · rfl

theorem total_created (s : GroupDb) (given : String) : groupTotal (okOr s (createGroup s given)) name = groupTotal s name := by
  unfold createGroup
  simp only
  split
  · rfl
  · split
    · rfl
    · rename_i new
      unfold groupTotal
      show sumUse s.db _ - baseline (s.groups ++ [_]) name = _
      rw [baseline_created new]

theorem sumUse_setGroups (db : Database) (select : ClientRecord → Bool) (group name : String) :
    sumUse (setGroups db select group) (·.group = name) =
      sumUse db fun rec => decide ((if select rec then group else rec.group) = name) := by
  unfold sumUse setGroups
  simp only [filter_map, map_map]
  have asked : (fun rec : ClientRecord => decide (rec.group = name)) ∘
      (fun rec => if select rec then { rec with group := group } else rec) =
        fun rec => decide ((if select rec then group else rec.group) = name) := by
    funext rec
    rw [Function.comp_apply]
    split <;> rfl
  rw [asked]
  refine congrArg sum (map_congr_left fun rec _ => ?_)
  rw [Function.comp_apply]
  split <;> rfl

theorem foundReset_congr {groups : List ClientGroup} {p q : ClientGroup → Bool} (same : ∀ row ∈ groups, p row = q row) :
    ((groups.find? p).map (·.reset)).getD 0 = ((groups.find? q).map (·.reset)).getD 0 := by
  rw [find?_congr same]

theorem baseline_removed (groups : List ClientGroup) (oldName name : String) :
    baseline (groups.filter (·.name ≠ oldName)) name = if name = oldName then 0 else baseline groups name := by
  by_cases own : name = oldName
  · subst own
    rw [if_pos rfl]
    refine baseline_absent fun mem => ?_
    obtain ⟨row, kept, is⟩ := mem_map.mp mem
    exact of_decide_eq_true (mem_filter.mp kept).2 is
  · rw [if_neg own]
    unfold baseline
    rw [find?_filter]
    refine foundReset_congr fun row _ => ?_
    by_cases is : row.name = name
    · simp [is, own]
    · simp [is]

theorem baseline_renamed {groups : List ClientGroup} {oldName newName : String} (differ : oldName ≠ newName)
    (free : oldName ∉ groups.map (·.name) ∨ newName ∉ groups.map (·.name)) (name : String) :
    baseline (groups.map fun row => if row.name = oldName then { row with name := newName } else row) name =
      if name = newName then baseline groups oldName + baseline groups newName
      else if name = oldName then 0 else baseline groups name := by
  have moved : baseline (groups.map fun row => if row.name = oldName then { row with name := newName } else row) name =
      ((groups.find? fun row => decide ((if row.name = oldName then newName else row.name) = name)).map (·.reset)).getD 0 := by
    unfold baseline
    rw [find?_map, Option.map_map]
    have resets : (fun row : ClientGroup => row.reset) ∘
        (fun row => if row.name = oldName then { row with name := newName } else row) = fun row => row.reset := by
      funext row
      rw [Function.comp_apply]
      split <;> rfl
    rw [resets]
    refine foundReset_congr fun row _ => ?_
    rw [Function.comp_apply]
    split <;> rfl
  have unlike : ∀ {other}, other ∉ groups.map (·.name) → ∀ row ∈ groups, row.name ≠ other :=
    fun absent row mem own => absent (mem_map.mpr ⟨row, mem, own⟩)
  rw [moved]
  by_cases new : name = newName
  · subst new
    rw [if_pos rfl]
    rcases free with absent | absent
    · rw [baseline_absent absent, zero_add]
      refine foundReset_congr fun row mem => ?_
      rw [if_neg (unlike absent row mem)]
    · rw [baseline_absent absent, add_zero]
      refine foundReset_congr fun row mem => ?_
      by_cases old : row.name = oldName
      · rw [if_pos old, old]
        simp
      · rw [if_neg old]
        simp [old, unlike absent row mem]
  · rw [if_neg new]
    by_cases old : name = oldName
    · subst old
      rw [if_pos rfl, find?_eq_none.mpr]
      · rfl
      · intro row _
        by_cases is : row.name = name
        · simp [is, Ne.symm new]
        · simp [is]
    · rw [if_neg old]
      refine foundReset_congr fun row _ => ?_
      by_cases is : row.name = oldName
      · rw [if_pos is, is]
        simp [Ne.symm new, Ne.symm old]
      · rw [if_neg is]

theorem total_deleted_group (s : GroupDb) (given : String) (named : name ≠ "") :
    groupTotal (okOr s (deleteGroup s given)) name = Function.update (groupTotal s) (trimSpace given) 0 name := by
  unfold deleteGroup
  by_cases blank : trimSpace given = ""
  · rw [if_pos blank, Function.update_of_ne (blank ▸ named)]
    rfl
  · rw [if_neg blank]
    unfold replaceGroupTables groupTotal
    rw [if_pos rfl]
    show sumUse (setGroups _ _ _) _ - baseline (s.groups.filter _) name = _
    rw [sumUse_setGroups, baseline_removed]
    by_cases own : name = trimSpace given
    · subst own
      rw [Function.update_self, if_pos rfl, sumUse_zero, sub_zero]
      intro rec _ selected
      by_cases member : rec.group = trimSpace given
      · simp [member, Ne.symm blank] at selected
      · simp [member] at selected
    · rw [Function.update_of_ne own, if_neg own]
      refine congrArg (· - _) (sumUse_congr rfl (fun rec _ => ?_) fun _ _ _ => rfl)
      by_cases member : rec.group = trimSpace given
      · simp [member, Ne.symm own, Ne.symm named]
      · simp [member]

theorem total_replaced {s s' : GroupDb} {oldName newName : String} (fill : newName ≠ "") (differ : oldName ≠ newName)
    (done : replaceGroupTables s oldName newName = .ok s') :
    groupTotal s' name = Function.update (Function.update (groupTotal s) newName
      (groupTotal s oldName + groupTotal s newName)) oldName 0 name := by
  unfold replaceGroupTables at done
  rw [if_neg fill] at done
  by_cases both : s.groups.any (·.name = oldName) = true ∧ s.groups.any (·.name = newName) = true
  · rw [if_pos both] at done
    cases done
  · rw [if_neg both] at done
    cases done
    have free : oldName ∉ s.groups.map (·.name) ∨ newName ∉ s.groups.map (·.name) := by
      rw [any_name, any_name] at both
      tauto
    unfold groupTotal
    show sumUse (setGroups _ _ _) _ - baseline (s.groups.map _) name = _
    rw [sumUse_setGroups, baseline_renamed differ free]
    by_cases old : name = oldName
    · subst old
      rw [Function.update_self, if_neg differ, if_pos rfl, sumUse_zero, sub_zero]
      intro rec _ selected
      by_cases member : rec.group = name
      · simp [member, Ne.symm differ] at selected
      · simp [member] at selected
    · rw [Function.update_of_ne old]
      by_cases new : name = newName
      · subst new
        rw [Function.update_self, if_pos rfl,
          sumUse_split s.db (fun rec => decide ((if decide (rec.group = oldName) then name else rec.group) = name))
            fun rec => rec.group = oldName]
        have from_old : (sumUse s.db fun rec =>
            decide ((if decide (rec.group = oldName) then name else rec.group) = name) && decide (rec.group = oldName)) =
              sumUse s.db (·.group = oldName) := by
          refine sumUse_congr rfl (fun rec _ => ?_) fun _ _ _ => rfl
          by_cases member : rec.group = oldName <;> simp [member]
        have from_new : (sumUse s.db fun rec =>
            decide ((if decide (rec.group = oldName) then name else rec.group) = name) && !decide (rec.group = oldName)) =
              sumUse s.db (·.group = name) := by
          refine sumUse_congr rfl (fun rec _ => ?_) fun _ _ _ => rfl
          by_cases member : rec.group = oldName
          · simp [member, differ]
          · simp [member]
        rw [from_old, from_new]
        abel
      · rw [Function.update_of_ne new, if_neg new, if_neg old]
        refine congrArg (· - _) (sumUse_congr rfl (fun rec _ => ?_) fun _ _ _ => rfl)
        by_cases member : rec.group = oldName
        · simp [member, Ne.symm new, Ne.symm old]
        · simp [member]

theorem sumUse_moved (db : Database) (emails : List String) (group name : String) :
    sumUse (setGroups db (moves emails group) group) (·.group = name) =
      sumUse db (·.group = name) + (if name = group then sumUse db (moves emails name) else 0) -
        sumUse db fun rec => rec.group = name && moves emails group rec := by
  rw [sumUse_setGroups]
  by_cases own : name = group
  · subst own
    have stays : (sumUse db fun rec => rec.group = name && moves emails name rec) = 0 := by
      refine sumUse_zero fun rec _ selected => ?_
      simp only [moves, Bool.and_eq_true, decide_eq_true_eq] at selected
      exact absurd selected.1 selected.2.2
    rw [if_pos rfl, stays, sub_zero, sumUse_split db _ (moves emails name), add_comm]
    congr 1
    · refine sumUse_congr rfl (fun rec _ => ?_) fun _ _ _ => rfl
      by_cases member : rec.group = name
      · simp [moves, member]
      · cases here : moves emails name rec <;> simp [member]
    · refine sumUse_congr rfl (fun rec _ => ?_) fun _ _ _ => rfl
      cases here : moves emails name rec <;> simp
  · rw [if_neg own, add_zero, sumUse_split db (·.group = name) (moves emails group), add_sub_cancel_left]
    refine sumUse_congr rfl (fun rec _ => ?_) fun _ _ _ => rfl
    cases here : moves emails group rec
    · simp
    · simp [Ne.symm own]

theorem total_moved (s : GroupDb) (emails : List String) (given name : String) :
    groupTotal (addToGroupTables s emails given) name =
      groupTotal s name + (if name = trimSpace given then sumUse s.db (moves emails name) else 0) -
        sumUse s.db fun rec => rec.group = name && moves emails (trimSpace given) rec := by
  unfold addToGroupTables
  by_cases none : emails = []
  · subst none
    have still : ∀ group, (sumUse s.db fun rec => moves [] group rec) = 0 :=
      fun group => sumUse_zero fun rec _ selected => by simp [moves] at selected
    have stay : (sumUse s.db fun rec => rec.group = name && moves [] (trimSpace given) rec) = 0 :=
      sumUse_zero fun rec _ selected => by simp [moves] at selected
    rw [if_pos rfl, stay, still, ite_self, add_zero, sub_zero]
  · rw [if_neg none]
    have baselines : ∀ {new : Prop} [Decidable new], (new → ¬s.groups.any (·.name = trimSpace given) = true) →
        baseline (if new then s.groups ++ [⟨trimSpace given, 0⟩] else s.groups) name = baseline s.groups name := by
      intro new _ free
      split
      · rename_i created
        exact baseline_created (free created) name
      · rfl
    unfold groupTotal
    show sumUse (setGroups s.db (moves emails (trimSpace given)) (trimSpace given)) _ - _ = _
    rw [sumUse_moved]
    simp only
    rw [baselines fun created => created.2.1]
    abel

end Steps

theorem total_metered {s : GroupDb} (unique : Unique s.db) (call : GroupCall) {name : String} (named : name ≠ "") :
    groupTotal (call.run s) name = call.meter s (groupTotal s) name := by
  cases call with
  | addTraffic p => exact p.total_polled unique name
  | bulkResetTraffic emails => exact total_zeroed (trimmedEmails_nodup emails) named rfl rfl
  | resetAllClientTraffics id now =>
      show groupTotal (Panel.resetAllClientTraffics s id now) name = groupTotal s name
      rw [resetAllClientTraffics_eq]
      split
      · rfl
      · exact total_zeroed (resetEmails_nodup unique id) named rfl rfl
  | resetClientTrafficByEmail email => exact total_zeroed (nodup_singleton email) named rfl rfl
  | delClientStat email => exact total_deleted (nodup_singleton email) named rfl rfl
  | delClientStatsByEmails emails => exact total_deleted (nodup_dedup emails) named rfl rfl
  | deleteClient email keepTraffic =>
      cases keepTraffic with
      | true => exact total_recordless (nodup_singleton email) named rfl (.inl rfl)
      | false => exact total_recordless (nodup_singleton email) named rfl (.inr rfl)
  | bulkDelete emails skipped keepTraffic =>
      have distinct := (trimmedEmails_nodup emails).filter fun email => s.db.clients.any (·.email = email) && !skipped email
      cases keepTraffic with
      | true => exact total_recordless distinct named rfl (.inl rfl)
      | false => exact total_recordless distinct named rfl (.inr rfl)
  | resetAllTraffics => exact total_forgotten s name
  | resetGroupTraffic given => exact total_restarted s given named
  | createGroup given => exact total_created s given
  | renameGroup oldName newName =>
      show groupTotal (okOr s (Panel.renameGroup s oldName newName)) name = _
      unfold GroupCall.meter
      simp only
      cases done : Panel.renameGroup s oldName newName with
      | error _ => rfl
      | ok s' =>
          unfold Panel.renameGroup at done
          simp only at done
          split at done
          · cases done
          · split at done
            · cases done
            · rename_i fill
              split at done
              · rename_i same
                cases done
                rw [if_pos same]
                rfl
              · rename_i differ
                rw [if_neg differ]
                exact total_replaced fill differ done
  | deleteGroup given => exact total_deleted_group s given named
  | addToGroup emails given => exact total_moved s emails given name

theorem meter_congr (call : GroupCall) {s : GroupDb} {m m' : String → Int × Int} (same : ∀ name, name ≠ "" → m name = m' name)
    {name : String} (named : name ≠ "") : call.meter s m name = call.meter s m' name := by
  have updated : ∀ {m m' : String → Int × Int} key value, (∀ name, name ≠ "" → m name = m' name) →
      ∀ name, name ≠ "" → Function.update m key value name = Function.update m' key value name := by
    intro m m' key value same name named
    by_cases own : name = key
    · subst own
      rw [Function.update_self, Function.update_self]
    · rw [Function.update_of_ne own, Function.update_of_ne own]
      exact same name named
  have still := same name named
  cases call with
  | addTraffic p =>
      unfold GroupCall.meter TrafficPoll.meter
      simp only
      rw [still]
  | resetAllTraffics =>
      show m name - sumUse s.db (·.group = name) = m' name - sumUse s.db (·.group = name)
      rw [still]
  | resetGroupTraffic given => exact updated _ _ same name named
  | deleteGroup given => exact updated _ _ same name named
  | addToGroup emails given =>
      unfold GroupCall.meter
      simp only
      rw [still]
  | renameGroup oldName newName =>
      unfold GroupCall.meter
      simp only
      cases done : Panel.renameGroup s oldName newName with
      | error _ => exact still
      | ok s' =>
          unfold Panel.renameGroup at done
          simp only at done
          split at done
          · cases done
          · rename_i old_named
            split at done
            · cases done
            · rename_i new_named
              simp only
              split
              · exact still
              · rw [same _ old_named, same _ new_named]
                exact updated _ _ (updated _ _ same) name named
  | _ => exact still

theorem runs_metered (calls : List GroupCall) : ∀ {s : GroupDb} {m : String → Int × Int}, Unique s.db →
    (∀ name, name ≠ "" → groupTotal s name = m name) → ∀ name, name ≠ "" →
      groupTotal (calls.foldl GroupCall.run s) name = meterRun s m calls name := by
  induction calls with
  | nil => exact fun _ held => held
  | cons call rest ih =>
      intro s m unique held
      refine ih (run_unique unique call) fun name named => ?_
      rw [total_metered unique call named]
      exact meter_congr call held named

theorem listGroups_rows {order : List String → List String} (walks : ∀ names, (order names).Perm names) (s : GroupDb) :
    (∀ row ∈ listGroups order s, row.name ≠ "" →
      row.up = max (groupTotal s row.name).1 0 ∧ row.down = max (groupTotal s row.name).2 0 ∧
        row.trafficUsed = row.up + row.down) ∧
    ∀ name, name ≠ "" → groupTotal s name ≠ 0 → ∃ row ∈ listGroups order s, row.name = name := by
  have derived : ∀ {name}, name ≠ "" → (name ∈ ((s.db.clients.filter (·.group ≠ "")).map (·.group)).dedup ↔
      ∃ rec ∈ s.db.clients, rec.group = name) := by
    intro name named
    rw [mem_dedup, mem_map]
    constructor
    · rintro ⟨rec, mem, rfl⟩
      exact ⟨rec, (mem_filter.mp mem).1, rfl⟩
    · rintro ⟨rec, mem, rfl⟩
      exact ⟨rec, mem_filter.mpr ⟨mem, by simpa using named⟩, rfl⟩
  have unled : ∀ {name}, (¬∃ rec ∈ s.db.clients, rec.group = name) → sumUse s.db (·.group = name) = 0 :=
    fun {name} none => sumUse_zero fun rec mem own => absurd ⟨rec, mem, of_decide_eq_true own⟩ none
  constructor
  · intro row mem named
    obtain ⟨name, -, rfl⟩ := mem_map.mp ((mem_insertionSort _).mp mem)
    have sums : (if name ∈ ((s.db.clients.filter (·.group ≠ "")).map (·.group)).dedup then sumUse s.db (·.group = name) else 0) =
        sumUse s.db (·.group = name) := by
      split
      · rfl
      · rename_i none
        exact (unled (mt (derived named).mpr none)).symm
    simp only [sums]
    exact ⟨rfl, rfl, trivial⟩
  · intro name named used
    have known : name ∈ (s.groups.map (·.name) ++ ((s.db.clients.filter (·.group ≠ "")).map (·.group)).dedup).dedup := by
      rw [mem_dedup, mem_append, derived named]
      by_contra none
      push Not at none
      refine used ?_
      unfold groupTotal
      have memberless : ¬∃ rec ∈ s.db.clients, rec.group = name := by
        rintro ⟨rec, mem, own⟩
        exact none.2 rec mem own
      rw [unled memberless, baseline_absent none.1, sub_zero]
    unfold listGroups
    simp only [mem_insertionSort, mem_map]
    exact ⟨_, ⟨name, (walks _).mem_iff.mpr known, rfl⟩, rfl⟩

def teamRecord (id : Nat) (email : String) : ClientRecord where
  id := id
  email := email
  subID := ""
  uuid := ""
  password := ""
  auth := ""
  flow := ""
  security := ""
  reverse := none
  privateKey := ""
  publicKey := ""
  allowedIPs := ""
  preSharedKey := ""
  keepAlive := 0
  forwardedPorts := ""
  secret := ""
  adTag := ""
  limitIP := 0
  totalGB := 0
  expiryTime := 0
  enable := true
  tgID := 0
  group := "team"
  comment := ""
  reset := 0
  resetDay := 0
  resetMax := 0
  trafficReset := ""
  trafficResetDay := 0
  createdAt := 0
  updatedAt := 0
  syncOrphanedAt := 0

def team : GroupDb where
  db := {
    panelGuid := ""
    nodes := []
    inbounds := []
    nextInboundId := 1
    clients := [teamRecord 1 "ann", teamRecord 2 "bob"]
    nextClientId := 3
    clientInbounds := []
    clientTraffics := [⟨0, true, "ann", 10, 4, 0, 0, 0, 0, 0, 0, 0⟩, ⟨0, true, "bob", 7, 1, 0, 0, 0, 0, 0, 0, 0⟩]
    nodeClientTraffics := []
    clientGlobalTraffics := [] }
  groups := []

def teamCalls : List GroupCall :=
  [.addTraffic ⟨[], [⟨"ann", 5, 1⟩], ⟨9000, 9000, fun _ => true, fun _ n => n⟩, .counted [] true⟩,
    .resetClientTrafficByEmail "ann", .deleteClient "bob" false, .renameGroup "team" "crew"]

end ThreeXNode.Panel
