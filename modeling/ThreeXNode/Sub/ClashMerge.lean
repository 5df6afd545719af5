import ThreeXNode.Sub.ClashGraph

namespace ThreeXNode.Sub.Clash
open ThreeXNode.Library

/-! # What merging a routing source changes -/

theorem itemsAt_congr {d d' : Document} {key : String} (same : d'.get key = d.get key) : itemsAt d' key = itemsAt d key := by
  unfold itemsAt
  rw [same]

@[simp] theorem itemsAt_set_self (d : Document) (key : String) (items : List Json) :
    itemsAt (d.set key (.arr items)) key = items := by
  simp [itemsAt, asAnySlice]

/-! ## Rules -/

theorem mergeClashRules_get (base : Document) (customRules : List Json) {key : String} (ne : key ≠ "rules") :
    (mergeClashRules base customRules).get key = base.get key := by
  unfold mergeClashRules
  split
  · rfl
  split
  · exact base.get_set_of_ne _ ne
  · exact base.get_set_of_ne _ ne

theorem mergeClashRules_items (base : Document) (customRules : List Json) :
    itemsAt (mergeClashRules base customRules) "rules" =
      if hasClashMatchRule customRules then customRules else customRules ++ itemsAt base "rules" := by
  unfold mergeClashRules
  split
  · rename_i empty
    rw [empty]
    rfl
  split
  · exact itemsAt_set_self _ _ _
  · exact itemsAt_set_self _ _ _

/-! ## Loops over the keys of a source -/

section Keys

variable {step : Document → String × Json → Except ClashError Document}

theorem foldlM_key (frame : ∀ d e d', step d e = .ok d' → ∀ key, key ≠ e.1 → d'.get key = d.get key)
    {entries : List (String × Json)} (distinct : (entries.map (·.1)).Nodup) {base merged : Document}
    (ran : entries.foldlM step base = .ok merged) (key : String) :
    (entries.lookup key = none ∧ merged.get key = base.get key) ∨
      ∃ value before after, entries.lookup key = some value ∧ before.get key = base.get key ∧
        step before (key, value) = .ok after ∧ merged.get key = after.get key := by
  induction entries generalizing base with
  | nil =>
      cases ran
      exact .inl ⟨rfl, rfl⟩
  | cons entry entries ih =>
      obtain ⟨k, value⟩ := entry
      rw [List.foldlM_cons, Except.bind_eq_ok] at ran
      obtain ⟨next, first, rest⟩ := ran
      rw [List.map_cons, List.nodup_cons] at distinct
      rw [List.lookup_cons]
      by_cases same : key = k
      · have absent : entries.lookup key = none := by
          rw [List.lookup_eq_none_iff]
          intro e mem
          rw [bne_iff_ne]
          intro own
          exact distinct.1 (List.mem_map.mpr ⟨e, mem, own.symm.trans same⟩)
        have kept : merged.get key = next.get key := by
          rcases ih distinct.2 rest with ⟨-, kept⟩ | ⟨_, _, _, found, -⟩
          · exact kept
          · rw [absent] at found
            cases found
        refine .inr ⟨value, base, next, ?_, rfl, ?_, kept⟩
        · rw [same, beq_self_eq_true]
        · rw [same]
          exact first
      · rw [beq_eq_false_iff_ne.mpr same]
        have held := frame base (k, value) next first key same
        rcases ih distinct.2 rest with ⟨none, kept⟩ | ⟨value', before, after, found, start, ran, kept⟩
        · exact .inl ⟨none, kept.trans held⟩
        · exact .inr ⟨value', before, after, found, start.trans held, ran, kept⟩

end Keys

/-! ## Local sources -/

def localMap (env : Env) (content : String) : Document :=
  match env.unmarshal (trimSpace content) with
  | some (.obj members) => .ofMembers members
  | _ => .empty

def localRules (env : Env) (content : String) : List Json :=
  match env.unmarshal (trimSpace content) with
  | some (.arr items) => items
  | some (.obj members) => itemsAt (.ofMembers members) "rules"
  | _ => linesToClashRules (trimSpace content)

theorem mergeLocalEntry_get (d : Document) (e : String × Json) {key : String} (ne : key ≠ e.1) :
    (mergeLocalEntry d e).get key = d.get key := by
  unfold mergeLocalEntry
  split
  · rename_i rules
    split
    · exact mergeClashRules_get d _ (rules ▸ ne)
    · rfl
  · exact d.get_set_of_ne _ ne

theorem mergeLocal_key (base source : Document) (key : String) :
    (source.get key = none ∧ (source.entries.foldl mergeLocalEntry base).get key = base.get key) ∨
      ∃ value before, source.get key = some value ∧ before.get key = base.get key ∧
        (source.entries.foldl mergeLocalEntry base).get key = (mergeLocalEntry before (key, value)).get key := by
  have ran : source.entries.foldlM (fun d e => (.ok (mergeLocalEntry d e) : Except ClashError Document)) base =
      .ok (source.entries.foldl mergeLocalEntry base) := List.foldlM_pure
  have frame : ∀ (d : Document) (e : String × Json) (d' : Document),
      (.ok (mergeLocalEntry d e) : Except ClashError Document) = .ok d' → ∀ key, key ≠ e.1 → d'.get key = d.get key := by
    intro d e d' same key ne
    obtain rfl := Except.ok.inj same
    exact mergeLocalEntry_get d e ne
  rcases foldlM_key frame source.distinct ran key with absent | ⟨value, before, after, found, start, step, kept⟩
  · exact .inl absent
  · obtain rfl := Except.ok.inj step
    exact .inr ⟨value, before, found, start, kept⟩

theorem mergeLocal_get (base source : Document) {key : String} (ne : key ≠ "rules") :
    (source.entries.foldl mergeLocalEntry base).get key = (source.get key).or (base.get key) := by
  rcases mergeLocal_key base source key with ⟨absent, kept⟩ | ⟨value, before, found, -, kept⟩
  · rw [kept, absent]
    rfl
  · rw [kept, found, mergeLocalEntry, if_neg ne]
    exact before.get_set_self key value

theorem mergeLocal_rules (base source : Document) :
    itemsAt (source.entries.foldl mergeLocalEntry base) "rules" =
      if hasClashMatchRule (itemsAt source "rules") then itemsAt source "rules"
      else itemsAt source "rules" ++ itemsAt base "rules" := by
  rcases mergeLocal_key base source "rules" with ⟨absent, kept⟩ | ⟨value, before, found, start, kept⟩
  · have own : itemsAt source "rules" = [] := by
      unfold itemsAt
      rw [absent]
      rfl
    rw [itemsAt_congr kept, own]
    rfl
  · rw [itemsAt_congr kept, mergeLocalEntry, if_pos rfl]
    cases items : asAnySlice value with
    | none =>
        have own : itemsAt source "rules" = [] := by
          unfold itemsAt
          rw [found, Option.bind_some, items]
          rfl
        rw [own]
        exact itemsAt_congr start
    | some ruleList =>
        have own : itemsAt source "rules" = ruleList := by
          unfold itemsAt
          rw [found, Option.bind_some, items]
          rfl
        rw [own, ← itemsAt_congr start]
        exact mergeClashRules_items before ruleList

/-- A local source sets every key it has, and its rules come first. -/
theorem mergeClashRulesYAML_spec (env : Env) (base : Document) {content : String} (given : trimSpace content ≠ "") :
    (∀ key, key ≠ "rules" → (mergeClashRulesYAML env base content).get key =
        ((localMap env content).get key).or (base.get key)) ∧
      itemsAt (mergeClashRulesYAML env base content) "rules" =
        if hasClashMatchRule (localRules env content) then localRules env content
        else localRules env content ++ itemsAt base "rules" := by
  unfold mergeClashRulesYAML localMap localRules
  simp only [if_neg given]
  have listed : ∀ items, (∀ key, key ≠ "rules" → (mergeClashRules base items).get key =
      (Document.empty.get key).or (base.get key)) ∧ itemsAt (mergeClashRules base items) "rules" =
        if hasClashMatchRule items then items else items ++ itemsAt base "rules" :=
    fun items => ⟨fun key ne => mergeClashRules_get base items ne, mergeClashRules_items base items⟩
  cases env.unmarshal (trimSpace content) with
  | none => exact listed _
  | some value => cases value with
    | arr items => exact listed items
    | obj members => exact ⟨fun key ne => mergeLocal_get base _ ne, mergeLocal_rules base _⟩
    | null => exact listed _
    | bool b => exact listed _
    | num n => exact listed _
    | str s => exact listed _

/-! ## Groups -/

def Named (groups : List Json) : Prop :=
  (∀ group ∈ groups, clashProxyGroupName group ≠ "") ∧ (groups.map clashProxyGroupName).Nodup

theorem validateRemoteGroup_ok {seen seen' : List String} {group : Json}
    (ok : validateRemoteGroup seen group = .ok seen') :
    clashProxyGroupName group ≠ "" ∧ clashProxyGroupName group ∉ seen ∧ seen' = clashProxyGroupName group :: seen := by
  unfold validateRemoteGroup at ok
  split at ok
  · cases ok
  rename_i map found
  split at ok
  · rename_i name groupType named _
    have own : clashProxyGroupName group = trimSpace name := by
      unfold clashProxyGroupName
      rw [found, Option.bind_some, named, Option.getD_some]
    rw [own]
    split at ok
    · cases ok
    rename_i given
    split at ok
    · cases ok
    rename_i fresh
    split at ok
    · cases ok
    · cases ok
      exact ⟨fun empty => given (.inl empty), fresh, rfl⟩
  · cases ok

theorem validateRemoteGroups_named {groups : List Json} {seen : List String}
    (ok : groups.foldlM validateRemoteGroup [] = .ok seen) : Named groups := by
  have whole := foldlM_ok (fun done seen => Named done ∧ ∀ name, name ∈ seen ↔ name ∈ done.map clashProxyGroupName) ok
    ⟨⟨by simp, List.nodup_nil⟩, by simp⟩ ?_
  · exact whole.1
  · rintro done group seen next - ⟨⟨named, distinct⟩, same⟩ step
    obtain ⟨given, fresh, rfl⟩ := validateRemoteGroup_ok step
    refine ⟨⟨?_, ?_⟩, ?_⟩
    · intro g mem
      rcases List.mem_append.mp mem with before | last
      · exact named g before
      · rw [List.mem_singleton.mp last]
        exact given
    · rw [List.map_append, List.map_singleton, List.nodup_append]
      refine ⟨distinct, List.nodup_singleton _, fun a here b last => ?_⟩
      rintro rfl
      rw [List.mem_singleton] at last
      exact fresh ((same _).mpr (last ▸ here))
    · intro name
      rw [List.mem_cons, same, List.map_append, List.mem_append, List.map_singleton, List.mem_singleton, or_comm]

theorem firstNamed_eq {groups : List Json} (named : Named groups) : firstNamed groups = groups := by
  have prefixes : ∀ done rest, done ++ rest = groups → rest.foldl (fun merged group =>
      if clashProxyGroupName group = "" ∨ clashProxyGroupName group ∈ merged.map clashProxyGroupName then merged
      else merged ++ [group]) done = groups := by
    intro done rest
    induction rest generalizing done with
    | nil =>
        intro split
        rw [List.append_nil] at split
        exact split
    | cons group rest ih =>
        intro split
        have given : clashProxyGroupName group ≠ "" :=
          named.1 group (split ▸ List.mem_append_right done List.mem_cons_self)
        have fresh : clashProxyGroupName group ∉ done.map clashProxyGroupName := by
          intro mem
          have distinct := named.2
          rw [← split, List.map_append, List.map_cons, List.nodup_append] at distinct
          exact distinct.2.2 _ mem _ List.mem_cons_self rfl
        rw [List.foldl_cons, if_neg (not_or.mpr ⟨given, fresh⟩)]
        exact ih (done ++ [group]) (by simpa using split)
  exact prefixes [] groups rfl

theorem mergeClashProxyGroups_eq {base : Json} {groups : List Json} (given : clashProxyGroupName base ≠ "")
    (named : Named groups) : mergeClashProxyGroups [base] groups =
      if clashProxyGroupName base ∈ groups.map clashProxyGroupName then groups else groups ++ [base] := by
  unfold mergeClashProxyGroups
  rw [firstNamed_eq named]
  have order : ([base].map clashProxyGroupName).filter (· ≠ "") = [clashProxyGroupName base] := by simp [given]
  have found : groupNamed [base] (clashProxyGroupName base) = some base := by simp [groupNamed]
  simp only [order]
  split
  · rename_i replaced
    rw [List.filter_cons_of_neg (by simpa using replaced), List.filter_nil, List.filterMap_nil, List.append_nil]
  · rename_i kept
    rw [List.filter_cons_of_pos (by simpa using kept), List.filter_nil, List.filterMap_cons_some found, List.filterMap_nil]

theorem named_merged {base : Json} {groups : List Json} (given : clashProxyGroupName base ≠ "") (named : Named groups) :
    Named (mergeClashProxyGroups [base] groups) := by
  rw [mergeClashProxyGroups_eq given named]
  split
  · exact named
  · rename_i kept
    refine ⟨fun g mem => ?_, ?_⟩
    · rcases List.mem_append.mp mem with own | last
      · exact named.1 g own
      · rw [List.mem_singleton.mp last]
        exact given
    · rw [List.map_append, List.map_singleton, List.nodup_append]
      refine ⟨named.2, List.nodup_singleton _, fun a here b last => ?_⟩
      rintro rfl
      rw [List.mem_singleton] at last
      exact kept (last ▸ here)

/-! ## Remote sources -/

theorem asAnySlice_eq {value : Json} {items : List Json} (found : asAnySlice value = some items) : value = .arr items := by
  cases value with
  | arr items' =>
      cases found
      rfl
  | null | bool _ | num _ | str _ | obj _ => cases found

theorem validateRemote_rules {value : Json} (valid : validateRemoteClashValue "rules" value = .ok ()) :
    ∃ items, value = .arr items := by
  unfold validateRemoteClashValue at valid
  rw [if_pos rfl] at valid
  split at valid
  · cases valid
  · rename_i items found
    exact ⟨items, asAnySlice_eq found⟩

theorem validateRemote_groups {value : Json} (valid : validateRemoteClashValue "proxy-groups" value = .ok ()) :
    ∃ groups, value = .arr groups ∧ Named groups := by
  unfold validateRemoteClashValue at valid
  rw [if_neg (by decide), if_pos rfl] at valid
  split at valid
  · cases valid
  · rename_i groups found
    refine ⟨groups, asAnySlice_eq found, ?_⟩
    cases ran : groups.foldlM validateRemoteGroup [] with
    | error e =>
        rw [ran] at valid
        cases valid
    | ok seen => exact validateRemoteGroups_named ran

theorem mergeRemoteEntry_ok {d d' : Document} {e : String × Json} (ok : mergeRemoteEntry d e = .ok d') :
    (remoteClashAllowedKey e.1 = false ∧ d' = d) ∨
      (e.1 = "rules" ∧ ∃ items, e.2 = .arr items ∧ d' = mergeClashRules d items) ∨
      (e.1 = "proxy-groups" ∧ ∃ groups, e.2 = .arr groups ∧ Named groups ∧
        d' = d.set "proxy-groups" (.arr (mergeClashProxyGroups (itemsAt d "proxy-groups") groups))) ∨
      (e.1 = "rule-providers" ∧ d' = d.set "rule-providers" e.2) := by
  obtain ⟨key, value⟩ := e
  unfold mergeRemoteEntry at ok
  simp only at ok ⊢
  split at ok
  · rename_i allowed
    rw [Except.bind_eq_ok] at ok
    obtain ⟨⟨⟩, valid, ok⟩ := ok
    simp only [remoteClashAllowedKey, decide_eq_true_eq] at allowed
    rcases allowed with rfl | rfl | rfl
    · obtain ⟨groups, rfl, named⟩ := validateRemote_groups valid
      rw [if_neg (by decide), if_pos rfl, Except.pure_eq_ok] at ok
      exact .inr (.inr (.inl ⟨rfl, groups, rfl, named, ok.symm⟩))
    · rw [if_neg (by decide), if_neg (by decide), Except.pure_eq_ok] at ok
      exact .inr (.inr (.inr ⟨rfl, ok.symm⟩))
    · obtain ⟨items, rfl⟩ := validateRemote_rules valid
      rw [if_pos rfl, Except.pure_eq_ok] at ok
      exact .inr (.inl ⟨rfl, items, rfl, ok.symm⟩)
  · rename_i other
    exact .inl ⟨by simpa using other, (Except.ok.inj ok).symm⟩

theorem mergeRemoteEntry_frame (d : Document) (e : String × Json) (d' : Document) (ok : mergeRemoteEntry d e = .ok d')
    (key : String) (ne : key ≠ e.1) : d'.get key = d.get key := by
  rcases mergeRemoteEntry_ok ok with ⟨-, rfl⟩ | ⟨rules, items, -, rfl⟩ | ⟨groups, items, -, -, rfl⟩ | ⟨providers, rfl⟩
  · rfl
  · exact mergeClashRules_get d items (rules ▸ ne)
  · exact d.get_set_of_ne _ (groups ▸ ne)
  · exact d.get_set_of_ne _ (providers ▸ ne)

section Remote

variable {base remote merged : Document} (ran : remote.entries.foldlM mergeRemoteEntry base = .ok merged)

include ran

theorem mergeRemote_others {key : String} (other : remoteClashAllowedKey key = false) :
    merged.get key = base.get key := by
  rcases foldlM_key mergeRemoteEntry_frame remote.distinct ran key with ⟨-, kept⟩ | ⟨value, before, after, -, start, step, kept⟩
  · exact kept
  · rcases mergeRemoteEntry_ok step with ⟨-, same⟩ | ⟨rules, -⟩ | ⟨groups, -⟩ | ⟨providers, -⟩
    · rw [kept, same, start]
    · rw [show key = "rules" from rules] at other
      cases other
    · rw [show key = "proxy-groups" from groups] at other
      cases other
    · rw [show key = "rule-providers" from providers] at other
      cases other

theorem mergeRemote_rules : itemsAt merged "rules" =
    if hasClashMatchRule (itemsAt remote "rules") then itemsAt remote "rules"
    else itemsAt remote "rules" ++ itemsAt base "rules" := by
  rcases foldlM_key mergeRemoteEntry_frame remote.distinct ran "rules" with
    ⟨absent, kept⟩ | ⟨value, before, after, found, start, step, kept⟩
  · have own : itemsAt remote "rules" = [] := by
      unfold itemsAt Document.get
      rw [absent]
      rfl
    rw [itemsAt_congr kept, own]
    rfl
  · rcases mergeRemoteEntry_ok step with ⟨other, -⟩ | ⟨-, items, same, rfl⟩ | ⟨groups, -⟩ | ⟨providers, -⟩
    · cases other
    · have own : itemsAt remote "rules" = items := by
        unfold itemsAt Document.get
        rw [found, show value = .arr items from same]
        rfl
      rw [itemsAt_congr kept, own, ← itemsAt_congr start]
      exact mergeClashRules_items before items
    · exact absurd (show "rules" = "proxy-groups" from groups) (by decide)
    · exact absurd (show "rules" = "rule-providers" from providers) (by decide)

theorem mergeRemote_groups {group : Json} (single : itemsAt base "proxy-groups" = [group])
    (given : clashProxyGroupName group ≠ "") : Named (itemsAt remote "proxy-groups") ∧
      itemsAt merged "proxy-groups" = mergeClashProxyGroups [group] (itemsAt remote "proxy-groups") := by
  rcases foldlM_key mergeRemoteEntry_frame remote.distinct ran "proxy-groups" with
    ⟨absent, kept⟩ | ⟨value, before, after, found, start, step, kept⟩
  · have own : itemsAt remote "proxy-groups" = [] := by
      unfold itemsAt Document.get
      rw [absent]
      rfl
    have none' : Named [] := ⟨by simp, List.nodup_nil⟩
    rw [itemsAt_congr kept, own, single, mergeClashProxyGroups_eq given none', if_neg (by simp)]
    exact ⟨none', rfl⟩
  · rcases mergeRemoteEntry_ok step with ⟨other, -⟩ | ⟨rules, -⟩ | ⟨-, groups, same, named, rfl⟩ | ⟨providers, -⟩
    · cases other
    · exact absurd (show "proxy-groups" = "rules" from rules) (by decide)
    · have own : itemsAt remote "proxy-groups" = groups := by
        unfold itemsAt Document.get
        rw [found, show value = .arr groups from same]
        rfl
      rw [own, itemsAt_congr kept, itemsAt_set_self, itemsAt_congr start, single]
      exact ⟨named, rfl⟩
    · exact absurd (show "proxy-groups" = "rule-providers" from providers) (by decide)

end Remote

end ThreeXNode.Sub.Clash
