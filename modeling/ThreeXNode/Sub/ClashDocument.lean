import ThreeXNode.Sub.ClashMerge

namespace ThreeXNode.Sub.Clash
open ThreeXNode.Library

/-! # Documents a core can load -/

def groupName (spell : String → String) (value : Json) : String := spell (((asMap value).bind (·.text "name")).getD "")

/-- The names a core knows: those of the proxies, of the groups, and its own. -/
def coreNames (config : Document) : List String :=
  proxyNames config ++ (itemsAt config "proxy-groups").map (groupName id) ++ builtins

/-- The target of a rule; what follows it where the rule matches everything is not read. -/
def coreTarget (rule : String) : Option String :=
  if equalFold (ruleKind rule) "MATCH" then (ruleParts rule)[1]? else ruleTarget rule

def Refers (spell : String → String) (config : Document) (a b : String) : Prop :=
  ∃ value ∈ itemsAt config "proxy-groups", groupName spell value = a ∧
    (∃ refs, (asMap value).bind (·.get "proxies") = some refs ∧ ∃ ref, .str ref ∈ (asAnySlice refs).getD [] ∧ spell ref = b) ∧
    b ∈ (itemsAt config "proxy-groups").map (groupName spell)

def EndsInMatch (config : Document) : Prop :=
  ∃ front last, itemsAt config "rules" = front ++ [last] ∧ isMatchRule last = true

structure Loadable (config : Document) : Prop where
  named : "" ∉ coreNames config
  distinct : (coreNames config).Nodup
  resolves : Resolves id coreTarget (coreNames config) config
  acyclic : ∀ name, ¬Relation.TransGen (Refers id config) name name
  ends : EndsInMatch config

/-- No proxy is named like a group or like a name of the core's own, and no group like the latter. -/
def Apart (config : Document) : Prop :=
  (∀ name ∈ proxyNames config, name ∉ (itemsAt config "proxy-groups").map (groupName id) ∧ name ∉ builtins) ∧
    ∀ name ∈ (itemsAt config "proxy-groups").map (groupName id), name ∉ builtins

structure Unpadded (config : Document) : Prop where
  proxies : ∀ name ∈ proxyNames config, trimSpace name = name
  groups : ∀ value ∈ itemsAt config "proxy-groups", clashProxyGroupName value = groupName id value
  refs : ∀ value ∈ itemsAt config "proxy-groups", ∀ items, (asMap value).bind (·.get "proxies") = some (.arr items) →
    ∀ ref, .str ref ∈ items → trimSpace ref = ref
  vias : ∀ entry ∈ (providersOf config).entries, ∀ via, (asMap entry.2).bind (·.text "proxy") = some via →
    trimSpace via = via

def usedNames (config : Document) : List String := (coreNames config).filter (· ≠ "")

theorem Unpadded.mem_known {config : Document} (unpadded : Unpadded config) (name : String) :
    name ∈ known config ↔ name ∈ usedNames config := by
  have proxies : (proxyNames config).map trimSpace = proxyNames config := by
    rw [List.map_congr_left unpadded.proxies, List.map_id']
  have groups : (itemsAt config "proxy-groups").map clashProxyGroupName =
      (itemsAt config "proxy-groups").map (groupName id) := List.map_congr_left unpadded.groups
  have own : name ∈ builtins → name ≠ "" := by
    rintro mem rfl
    exact absurd mem (by decide)
  unfold known usedNames coreNames groupNames
  rw [proxies, groups]
  simp only [List.mem_append, List.mem_filter, decide_eq_true_eq]
  grind

theorem Unpadded.resolves_iff {config : Document} (unpadded : Unpadded config) :
    Resolves trimSpace ruleTarget (known config) config ↔ Resolves id ruleTarget (usedNames config) config := by
  have plain : ∀ ref, trimSpace ref = ref → (trimSpace ref ∈ known config ↔ id ref ∈ usedNames config) := by
    intro ref same
    rw [same, unpadded.mem_known]
    rfl
  constructor
  · intro resolves
    refine ⟨fun value mem refs found => ?_, fun entry mem via found => ?_, fun value mem => ?_⟩
    · obtain ⟨items, rfl, all⟩ := resolves.groups value mem refs found
      refine ⟨items, rfl, fun item here => ?_⟩
      obtain ⟨ref, rfl, known⟩ := all item here
      exact ⟨ref, rfl, (plain ref (unpadded.refs value mem items found ref here)).mp known⟩
    · have same := unpadded.vias entry mem via found
      exact (resolves.providers entry mem via found).imp (fun empty => same ▸ empty) (plain via same).mp
    · obtain ⟨rule, rfl, ⟨name, known, found⟩, set⟩ := resolves.rules value mem
      exact ⟨rule, rfl, ⟨name, (unpadded.mem_known name).mp known, found⟩, set⟩
  · intro resolves
    refine ⟨fun value mem refs found => ?_, fun entry mem via found => ?_, fun value mem => ?_⟩
    · obtain ⟨items, rfl, all⟩ := resolves.groups value mem refs found
      refine ⟨items, rfl, fun item here => ?_⟩
      obtain ⟨ref, rfl, known⟩ := all item here
      exact ⟨ref, rfl, (plain ref (unpadded.refs value mem items found ref here)).mpr known⟩
    · have same := unpadded.vias entry mem via found
      exact (resolves.providers entry mem via found).imp (fun empty => same.trans empty) (plain via same).mpr
    · obtain ⟨rule, rfl, ⟨name, known, found⟩, set⟩ := resolves.rules value mem
      exact ⟨rule, rfl, ⟨name, (unpadded.mem_known name).mpr known, found⟩, set⟩

/-! ## The document without routing -/

theorem ofMembers_get {entries : List (String × Json)} (distinct : (entries.map (·.1)).Nodup) (key : String) :
    (Document.ofMembers entries).get key = entries.lookup key := by
  have ran : entries.foldlM (fun d e => (.ok (d.set e.1 e.2) : Except ClashError Document)) .empty =
      .ok (Document.ofMembers entries) := List.foldlM_pure
  have frame : ∀ (d : Document) (e : String × Json) (d' : Document),
      (.ok (d.set e.1 e.2) : Except ClashError Document) = .ok d' → ∀ key, key ≠ e.1 → d'.get key = d.get key := by
    intro d e d' same key ne
    obtain rfl := Except.ok.inj same
    exact d.get_set_of_ne _ ne
  rcases foldlM_key frame distinct ran key with ⟨absent, kept⟩ | ⟨value, before, after, found, -, step, kept⟩
  · rw [kept, absent]
    rfl
  · obtain rfl := Except.ok.inj step
    rw [kept, found, Document.get_set_self]

theorem asMap_get {members : List (String × Json)} (distinct : (members.map (·.1)).Nodup) (key : String) :
    (asMap (.obj members)).bind (·.get key) = members.lookup key := ofMembers_get distinct key

theorem asMap_text {members : List (String × Json)} (distinct : (members.map (·.1)).Nodup) (key : String) :
    (asMap (.obj members)).bind (·.text key) = (⟨members, distinct⟩ : Document).text key := by
  show (Document.ofMembers members).text key = _
  unfold Document.text
  rw [ofMembers_get distinct]
  rfl

theorem threeKeys {a b c : String} (x y z : Json) (distinct : [a, b, c].Nodup) :
    ([(a, x), (b, y), (c, z)].map (·.1)).Nodup := distinct

def selectGroup (proxies : List Document) : Json :=
  .obj [("name", .str "PROXY"), ("type", .str "select"),
    ("proxies", .arr (((proxies.filterMap (·.text "name")).filter (· ≠ "") ++ ["DIRECT"]).map .str))]

theorem baseConfig_get (proxies : List Document) (key : String) : (baseConfig proxies).get key =
    [("proxies", Json.arr (proxies.map Document.toJson)), ("proxy-groups", .arr [selectGroup proxies]),
      ("rules", .arr [.str "MATCH,PROXY"])].lookup key :=
  ofMembers_get (threeKeys _ _ _ (by decide)) key

theorem baseConfig_groups (proxies : List Document) : itemsAt (baseConfig proxies) "proxy-groups" = [selectGroup proxies] := by
  unfold itemsAt
  rw [baseConfig_get]
  rfl

theorem baseConfig_rules (proxies : List Document) : itemsAt (baseConfig proxies) "rules" = [.str "MATCH,PROXY"] := by
  unfold itemsAt
  rw [baseConfig_get]
  rfl

theorem proxyNames_of {config : Document} {proxies : List Document}
    (same : config.get "proxies" = (baseConfig proxies).get "proxies") :
    proxyNames config = proxies.filterMap (·.text "name") := by
  have items : itemsAt config "proxies" = proxies.map Document.toJson := by
    unfold itemsAt
    rw [same, baseConfig_get]
    rfl
  unfold proxyNames
  rw [items, List.filterMap_map]
  exact List.filterMap_congr fun d _ => asMap_text d.distinct "name"

theorem selectGroup_name (proxies : List Document) (spell : String → String) :
    groupName spell (selectGroup proxies) = spell "PROXY" := by
  unfold groupName selectGroup
  rw [asMap_text (threeKeys _ _ _ (by decide))]
  rfl

theorem selectGroup_refs (proxies : List Document) : (asMap (selectGroup proxies)).bind (·.get "proxies") =
    some (.arr (((proxies.filterMap (·.text "name")).filter (· ≠ "") ++ ["DIRECT"]).map .str)) := by
  unfold selectGroup
  rw [asMap_get (threeKeys _ _ _ (by decide))]
  rfl

theorem selectGroup_ref {proxies : List Document} {refs : Json} {ref : String}
    (found : (asMap (selectGroup proxies)).bind (·.get "proxies") = some refs)
    (mem : .str ref ∈ (asAnySlice refs).getD []) : ref ∈ proxies.filterMap (·.text "name") ∨ ref = "DIRECT" := by
  rw [selectGroup_refs, Option.some.injEq] at found
  subst found
  obtain ⟨ref', here, same⟩ := List.mem_map.mp mem
  obtain rfl := Json.str.inj same
  rcases List.mem_append.mp here with proxy | direct
  · exact .inl (List.mem_filter.mp proxy).1
  · exact .inr (List.mem_singleton.mp direct)

theorem baseConfig_loadable {proxies : List Document} (named : "" ∉ proxies.filterMap (·.text "name"))
    (distinct : (proxies.filterMap (·.text "name")).Nodup)
    (free : ∀ name ∈ proxies.filterMap (·.text "name"), name ∉ reserved) : Loadable (baseConfig proxies) := by
  have names : coreNames (baseConfig proxies) = proxies.filterMap (·.text "name") ++ reserved := by
    unfold coreNames
    rw [proxyNames_of rfl, baseConfig_groups, List.map_singleton, selectGroup_name, List.append_assoc]
    rfl
  have noProviders : (providersOf (baseConfig proxies)).entries = [] := by
    unfold providersOf
    rw [baseConfig_get]
    rfl
  refine ⟨?_, ?_, ⟨?_, ?_, ?_⟩, ?_, ?_⟩
  · rw [names, List.mem_append]
    exact not_or.mpr ⟨named, by decide⟩
  · rw [names, List.nodup_append]
    refine ⟨distinct, by decide, fun name mem name' taken => ?_⟩
    rintro rfl
    exact free name mem taken
  · rw [baseConfig_groups, names]
    intro value mem refs found
    rw [List.mem_singleton.mp mem, selectGroup_refs, Option.some.injEq] at found
    refine ⟨_, found.symm, fun item here => ?_⟩
    obtain ⟨ref, mem, rfl⟩ := List.mem_map.mp here
    refine ⟨ref, rfl, List.mem_append.mpr ?_⟩
    rcases List.mem_append.mp mem with proxy | direct
    · exact .inl (List.mem_filter.mp proxy).1
    · rw [List.mem_singleton.mp direct]
      exact .inr (by decide)
  · rw [noProviders]
    simp
  · rw [baseConfig_rules, names]
    intro value mem
    rw [List.mem_singleton.mp mem]
    refine ⟨_, rfl, ⟨"PROXY", List.mem_append_right _ (by decide), by decide +kernel⟩, fun set => ?_⟩
    exact absurd set (by decide +kernel)
  · intro name cycle
    obtain ⟨next, ⟨value, mem, -, ⟨refs, found, ref, here, rfl⟩, there⟩, -⟩ := Relation.TransGen.head'_iff.mp cycle
    rw [baseConfig_groups] at mem there
    rw [List.mem_singleton.mp mem] at found
    rw [List.map_singleton, List.mem_singleton, selectGroup_name] at there
    rcases selectGroup_ref found here with proxy | direct
    · exact free ref proxy ((show ref = "PROXY" from there) ▸ List.mem_cons_self)
    · rw [direct] at there
      exact absurd there (by decide)
  · exact ⟨[], _, baseConfig_rules proxies, by decide +kernel⟩

end ThreeXNode.Sub.Clash
