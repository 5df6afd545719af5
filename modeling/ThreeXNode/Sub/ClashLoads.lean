import ThreeXNode.Sub.ClashDocument

namespace ThreeXNode.Sub.Clash
open ThreeXNode.Library

/-! # What the returned document is -/

def rulesBefore (own rest : List Json) : List Json := if hasClashMatchRule own then own else own ++ rest

structure RuledBy (own : List Json) (doc : Document) : Prop where
  rules : itemsAt doc "rules" = rulesBefore own [.str "MATCH,PROXY"]
  matched : hasClashMatchRule (itemsAt doc "rules") = true
  ends : hasClashMatchRule own = false → EndsInMatch doc

/-- The document with a local source, of which nothing is checked. -/
structure LocallyRouted (env : Env) (proxies : List Document) (content : String) (doc : Document) : Prop where
  keys : ∀ key, key ≠ "rules" → doc.get key = ((localMap env content).get key).or ((baseConfig proxies).get key)
  rules : RuledBy (localRules env content) doc

structure RemoteNames (proxies : List Document) (remote doc : Document) : Prop where
  named : "" ∉ (itemsAt doc "proxy-groups").map (groupName id)
  distinct : ((itemsAt doc "proxy-groups").map (groupName id)).Nodup
  groups : itemsAt doc "proxy-groups" =
    if "PROXY" ∈ (itemsAt remote "proxy-groups").map (groupName id) then itemsAt remote "proxy-groups"
    else itemsAt remote "proxy-groups" ++ [selectGroup proxies]
  resolves : Resolves id ruleTarget (usedNames doc) doc
  apart : Apart doc → "" ∉ coreNames doc ∧ (coreNames doc).Nodup
  /-- Groups refer to each other in a cycle only if they all are the remote's own. -/
  cycles : Apart doc → ∀ name, Relation.TransGen (Refers id doc) name name →
    name ∈ (itemsAt remote "proxy-groups").map (groupName id)

structure RemotelyRouted (proxies : List Document) (remote doc : Document) : Prop where
  others : ∀ key, remoteClashAllowedKey key = false → doc.get key = (baseConfig proxies).get key
  names : proxyNames doc = proxies.filterMap (·.text "name")
  rules : RuledBy (itemsAt remote "rules") doc
  unpadded : Unpadded doc → RemoteNames proxies remote doc

/-! ## Rules -/

theorem matchRule_base : isMatchRule (.str "MATCH,PROXY") = true := by decide +kernel

theorem ruledBy {own : List Json} {doc : Document}
    (same : itemsAt doc "rules" = rulesBefore own [.str "MATCH,PROXY"]) : RuledBy own doc := by
  unfold rulesBefore at same
  split at same
  · rename_i found
    refine ⟨?_, same ▸ found, fun none => absurd found (by rw [none]; decide)⟩
    rw [same, rulesBefore, if_pos found]
  · rename_i absent
    refine ⟨?_, ?_, fun _ => ⟨own, _, same, matchRule_base⟩⟩
    · rw [same, rulesBefore, if_neg absent]
    · rw [same, hasClashMatchRule, List.any_append, List.any_cons, matchRule_base]
      simp

/-! ## Names -/

theorem coreNames_distinct {config : Document} (named : "" ∉ proxyNames config) (distinct : (proxyNames config).Nodup)
    (groupsNamed : "" ∉ (itemsAt config "proxy-groups").map (groupName id))
    (groupsDistinct : ((itemsAt config "proxy-groups").map (groupName id)).Nodup) (apart : Apart config) :
    "" ∉ coreNames config ∧ (coreNames config).Nodup := by
  unfold coreNames
  constructor
  · rw [List.mem_append, List.mem_append, not_or, not_or]
    exact ⟨⟨named, groupsNamed⟩, by decide⟩
  · rw [List.nodup_append, List.nodup_append]
    refine ⟨⟨distinct, groupsDistinct, ?_⟩, by decide, ?_⟩
    · rintro name proxy _ group rfl
      exact (apart.1 name proxy).1 group
    · rintro name mem _ builtin rfl
      rcases List.mem_append.mp mem with proxy | group
      · exact (apart.1 name proxy).2 builtin
      · exact apart.2 name group builtin

/-! ## Cycles -/

theorem refers_of_remote {proxies : List Document} {remote doc : Document} {a b : String}
    (names : proxyNames doc = proxies.filterMap (·.text "name"))
    (groups : itemsAt doc "proxy-groups" = if "PROXY" ∈ (itemsAt remote "proxy-groups").map (groupName id) then
      itemsAt remote "proxy-groups" else itemsAt remote "proxy-groups" ++ [selectGroup proxies])
    (apart : Apart doc) (refers : Refers id doc a b) :
    a ∈ (itemsAt remote "proxy-groups").map (groupName id) := by
  obtain ⟨value, mem, rfl, ⟨refs, found, ref, here, rfl⟩, there⟩ := refers
  have own : value ∈ itemsAt remote "proxy-groups" ∨ value = selectGroup proxies := by
    rw [groups] at mem
    split at mem
    · exact .inl mem
    · rcases List.mem_append.mp mem with remote | base
      · exact .inl remote
      · exact .inr (List.mem_singleton.mp base)
  rcases own with remote | rfl
  · exact List.mem_map_of_mem remote
  · rcases selectGroup_ref found here with proxy | direct
    · rw [← names] at proxy
      exact absurd there (apart.1 _ proxy).1
    · refine absurd ?_ (apart.2 _ there)
      rw [direct]
      decide +kernel

theorem remoteNames {proxies : List Document} {remote doc : Document} (named : "" ∉ proxies.filterMap (·.text "name"))
    (distinct : (proxies.filterMap (·.text "name")).Nodup) (names : proxyNames doc = proxies.filterMap (·.text "name"))
    (allNamed : Named (itemsAt doc "proxy-groups"))
    (groups : itemsAt doc "proxy-groups" = if "PROXY" ∈ (itemsAt remote "proxy-groups").map clashProxyGroupName then
      itemsAt remote "proxy-groups" else itemsAt remote "proxy-groups" ++ [selectGroup proxies])
    (resolves : Resolves trimSpace ruleTarget (known doc) doc) (unpadded : Unpadded doc) :
    RemoteNames proxies remote doc := by
  have own : ∀ group ∈ itemsAt remote "proxy-groups", group ∈ itemsAt doc "proxy-groups" := by
    intro group mem
    rw [groups]
    split
    · exact mem
    · exact List.mem_append_left _ mem
  have trims : (itemsAt doc "proxy-groups").map clashProxyGroupName =
      (itemsAt doc "proxy-groups").map (groupName id) := List.map_congr_left unpadded.groups
  rw [show (itemsAt remote "proxy-groups").map clashProxyGroupName = (itemsAt remote "proxy-groups").map (groupName id)
    from List.map_congr_left fun group mem => unpadded.groups group (own group mem)] at groups
  have groupsNamed : "" ∉ (itemsAt doc "proxy-groups").map (groupName id) := by
    rw [← trims]
    intro mem
    obtain ⟨group, here, empty⟩ := List.mem_map.mp mem
    exact allNamed.1 group here empty
  have groupsDistinct : ((itemsAt doc "proxy-groups").map (groupName id)).Nodup := trims ▸ allNamed.2
  refine ⟨groupsNamed, groupsDistinct, groups, unpadded.resolves_iff.mp resolves, ?_, ?_⟩
  · exact coreNames_distinct (names ▸ named) (names ▸ distinct) groupsNamed groupsDistinct
  · intro apart name cycle
    obtain ⟨next, refers, -⟩ := Relation.TransGen.head'_iff.mp cycle
    exact refers_of_remote names groups apart refers

theorem remotelyRouted {proxies : List Document} {remote doc : Document}
    (named : "" ∉ proxies.filterMap (·.text "name")) (distinct : (proxies.filterMap (·.text "name")).Nodup)
    (ok : mergeRemoteClashRules (baseConfig proxies) remote = .ok doc) : RemotelyRouted proxies remote doc := by
  unfold mergeRemoteClashRules at ok
  split at ok
  · cases ok
  rw [Except.bind_eq_ok] at ok
  obtain ⟨merged, ran, ok⟩ := ok
  rw [Except.bind_eq_ok] at ok
  obtain ⟨⟨⟩, valid, ok⟩ := ok
  obtain rfl := Except.pure_eq_ok.mp ok
  have given : clashProxyGroupName (selectGroup proxies) = "PROXY" := selectGroup_name proxies trimSpace
  have nonempty : clashProxyGroupName (selectGroup proxies) ≠ "" := by
    rw [given]
    decide
  obtain ⟨remoteNamed, groups⟩ := mergeRemote_groups ran (baseConfig_groups proxies) nonempty
  have others : ∀ key, remoteClashAllowedKey key = false → merged.get key = (baseConfig proxies).get key :=
    fun key other => mergeRemote_others ran other
  have names : proxyNames merged = proxies.filterMap (·.text "name") := proxyNames_of (others "proxies" (by decide))
  have allNamed : Named (itemsAt merged "proxy-groups") := groups ▸ named_merged nonempty remoteNamed
  rw [mergeClashProxyGroups_eq nonempty remoteNamed, given] at groups
  refine ⟨others, names, ruledBy ?_,
    remoteNames named distinct names allNamed groups ((validateClashRouteGraph_ok merged).mp valid)⟩
  rw [mergeRemote_rules ran, baseConfig_rules]
  rfl

/-! ## The document -/

/-- Each proxy keeps its values and its remark, with a number where an earlier proxy has the name; the names are not empty
and differ. -/
structure Renames (env : Env) (proxies proxies' : List Document) : Prop where
  length : proxies'.length = proxies.length
  each : ∀ i before after, proxies[i]? = some before → proxies'[i]? = some after →
    Renamed env ((proxies'.take i).filterMap (·.text "name")) i before after
  named : "" ∉ proxies'.filterMap (·.text "name")
  distinct : (proxies'.filterMap (·.text "name")).Nodup

theorem ensureUniqueProxyNames_renames (env : Env) (proxies : List Document) :
    Renames env proxies (ensureUniqueProxyNames env proxies) := by
  have renamed := ensureUnique_renamed env [] 0 proxies
  obtain ⟨distinct, names⟩ := renamed.names
  refine ⟨renamed.length_eq, fun i before after here there => ?_, fun mem => (names "" mem).1 rfl, distinct⟩
  obtain ⟨given, named, same⟩ := renamed.at here there
  rw [Nat.zero_add] at named
  exact named.congr fun name => (same name).trans (or_iff_left List.not_mem_nil)

def Unreserved (proxies : List Document) : Prop :=
  ∀ proxy ∈ proxies, ∀ remark, proxy.text "name" = some remark → remark ∉ reserved

/-- What is returned, by the source that is merged. -/
def Written (env : Env) (proxies : List Document) (doc : Document) : Option Routing → Prop
  | none => doc = baseConfig (ensureUniqueProxyNames env proxies) ∧ (Unreserved proxies → Loadable doc)
  | some ⟨content, none⟩ => LocallyRouted env (ensureUniqueProxyNames env proxies) content doc
  | some ⟨_, some remote⟩ => RemotelyRouted (ensureUniqueProxyNames env proxies) remote doc

theorem plain_loadable {env : Env} {proxies : List Document} (unreserved : Unreserved proxies) :
    Loadable (baseConfig (ensureUniqueProxyNames env proxies)) := by
  obtain ⟨-, -, named, distinct⟩ := ensureUniqueProxyNames_renames env proxies
  refine baseConfig_loadable named distinct fun name mem taken => ?_
  obtain ⟨proxy, here, remark, held, same⟩ := reserved_of_name mem taken
  exact unreserved proxy here remark same held

theorem getClash_written {env : Env} {proxies : List Document} {enableRouting : Bool} {resolved : Option Routing}
    {doc : Document} (returned : getClash env proxies enableRouting resolved = .ok (some doc)) :
    Written env proxies doc (routed enableRouting resolved) := by
  obtain ⟨-, -, named, distinct⟩ := ensureUniqueProxyNames_renames env proxies
  unfold getClash at returned
  split at returned
  · cases returned
  cases source : routed enableRouting resolved with
  | none =>
      rw [source] at returned
      obtain rfl := Option.some.inj (Except.ok.inj returned)
      exact ⟨rfl, plain_loadable⟩
  | some routing =>
      obtain ⟨content, remote⟩ := routing
      rw [source] at returned
      cases remote with
      | none =>
          obtain rfl := Option.some.inj (Except.ok.inj returned)
          have given : trimSpace content ≠ "" := by
            have kept := (Option.filter_eq_some_iff.mp source).2
            rw [Bool.and_eq_true, decide_eq_true_eq] at kept
            exact kept.2
          obtain ⟨keys, rules⟩ := mergeClashRulesYAML_spec env (baseConfig (ensureUniqueProxyNames env proxies)) given
          rw [baseConfig_rules] at rules
          exact ⟨keys, ruledBy rules⟩
      | some remote =>
          cases merged : mergeRemoteClashRules (baseConfig (ensureUniqueProxyNames env proxies)) remote with
          | error e =>
              simp only [merged] at returned
              cases returned
          | ok doc' =>
              simp only [merged] at returned
              obtain rfl := Option.some.inj (Except.ok.inj returned)
              exact remotelyRouted named distinct merged

/-- The returned document, and the documents that the validation of remote sources accepts. -/
theorem getClash_document (env : Env) (proxies : List Document) (enableRouting : Bool) (resolved : Option Routing) :
    Renames env proxies (ensureUniqueProxyNames env proxies) ∧
      (∀ doc, getClash env proxies enableRouting resolved = .ok (some doc) →
        Written env proxies doc (routed enableRouting resolved)) ∧
      ∀ config, Unpadded config →
        (validateClashRouteGraph config = .ok () ↔ Resolves id ruleTarget (usedNames config) config) :=
  ⟨ensureUniqueProxyNames_renames env proxies, fun _ returned => getClash_written returned,
    fun config unpadded => (validateClashRouteGraph_ok config).trans unpadded.resolves_iff⟩

/-! ## Documents that a core does not load -/

def vlessProxy : Document :=
  ⟨[("name", .str "a"), ("type", .str "vless"), ("server", .str "h"), ("port", .ofInt 443)], by decide⟩

def groupOf (name ref : String) : Json :=
  .obj [("name", .str name), ("type", .str "select"), ("proxies", .arr [.str ref])]

def listEnv : Env where
  unmarshal := fun _ => some (.arr [.str "DOMAIN,x.com,NOWHERE"])
  print := fun _ => "443"

def routedTo (remote : Document) : Except ClashError (Option Document) :=
  getClash listEnv [vlessProxy] true (some ⟨"remote", some remote⟩)

def cyclicRemote : Document := ⟨[("proxy-groups", .arr [groupOf "A" "B", groupOf "B" "A"])], by decide⟩

def earlyRemote : Document := ⟨[("rules", .arr [.str "MATCH,DIRECT", .str "DOMAIN,x.com,DIRECT"])], by decide⟩

def srcDocument : Document :=
  ⟨[("proxies", .arr [.obj [("name", .str "src")]]), ("rules", .arr [.str "MATCH,src"])], by decide⟩

theorem not_resolves {config : Document} {rule target : String} (mem : .str rule ∈ itemsAt config "rules")
    (found : coreTarget rule = some target) (unknown : target ∉ coreNames config) :
    ¬Resolves id coreTarget (coreNames config) config := by
  intro resolves
  obtain ⟨rule', same, ⟨name, known, target'⟩, -⟩ := resolves.rules _ mem
  obtain rfl := Json.str.inj same
  rw [found, Option.some.injEq] at target'
  exact unknown (target' ▸ known)

theorem local_dangles : ∃ doc, getClash listEnv [vlessProxy] true (some ⟨"- DOMAIN,x.com,NOWHERE", none⟩) = .ok (some doc) ∧
    ¬Resolves id coreTarget (coreNames doc) doc :=
  ⟨(baseConfig [vlessProxy]).set "rules" (.arr [.str "DOMAIN,x.com,NOWHERE", .str "MATCH,PROXY"]), by decide +kernel,
    (@not_resolves _ "DOMAIN,x.com,NOWHERE" "NOWHERE") (by decide +kernel) (by decide +kernel)
      (by decide +kernel)⟩

theorem groupOf_refers {config : Document} {a b c : String} (mem : groupOf a b ∈ itemsAt config "proxy-groups")
    (there : groupOf b c ∈ itemsAt config "proxy-groups") : Refers id config a b := by
  have name : ∀ a b, groupName id (groupOf a b) = a := by
    intro a b
    unfold groupName groupOf
    rw [asMap_text (threeKeys _ _ _ (by decide))]
    rfl
  refine ⟨groupOf a b, mem, name a b, ⟨.arr [.str b], ?_, b, List.mem_singleton_self _, rfl⟩,
    List.mem_map.mpr ⟨_, there, name b c⟩⟩
  unfold groupOf
  rw [asMap_get (threeKeys _ _ _ (by decide))]
  rfl

def cyclicDoc : Document :=
  (baseConfig [vlessProxy]).set "proxy-groups" (.arr [groupOf "A" "B", groupOf "B" "A", selectGroup [vlessProxy]])

theorem remote_cycles : routedTo cyclicRemote = .ok (some cyclicDoc) ∧
    ∃ name, Relation.TransGen (Refers id cyclicDoc) name name := by
  refine ⟨by decide +kernel, "A", ?_⟩
  have out : Refers id cyclicDoc "A" "B" := groupOf_refers (c := "A") (by decide +kernel) (by decide +kernel)
  have back : Refers id cyclicDoc "B" "A" := groupOf_refers (c := "B") (by decide +kernel) (by decide +kernel)
  exact .tail (.single out) back

theorem remote_matches_early : ∃ doc, routedTo earlyRemote = .ok (some doc) ∧ ¬EndsInMatch doc := by
  refine ⟨(baseConfig [vlessProxy]).set "rules" (.arr [.str "MATCH,DIRECT", .str "DOMAIN,x.com,DIRECT"]),
    by decide +kernel, ?_⟩
  rintro ⟨front, last, same, matched⟩
  rw [itemsAt_set_self] at same
  have final := congrArg List.getLast? same
  rw [List.getLast?_concat] at final
  obtain rfl := Option.some.inj final
  exact absurd matched (by decide +kernel)

theorem src_rejected : Resolves id coreTarget (coreNames srcDocument) srcDocument ∧
    validateClashRouteGraph srcDocument ≠ .ok () := by
  refine ⟨⟨?_, ?_, ?_⟩, by decide +kernel⟩
  · intro value mem
    cases mem
  · intro entry mem
    cases mem
  · intro value mem
    rw [List.mem_singleton.mp mem]
    exact ⟨_, rfl, ⟨"src", by decide +kernel, by decide +kernel⟩, fun set => absurd set (by decide +kernel)⟩

/-- A local rule may name nothing, remote groups may form a cycle, a remote rule that matches everything may come before
others, and a proxy named like an option is not found. -/
theorem documents_not_loadable :
    (∃ doc, getClash listEnv [vlessProxy] true (some ⟨"- DOMAIN,x.com,NOWHERE", none⟩) = .ok (some doc) ∧ ¬Loadable doc) ∧
    (∃ doc, routedTo cyclicRemote = .ok (some doc) ∧ ¬Loadable doc) ∧
    (∃ doc, routedTo earlyRemote = .ok (some doc) ∧ ¬Loadable doc) ∧
    Resolves id coreTarget (coreNames srcDocument) srcDocument ∧ validateClashRouteGraph srcDocument ≠ .ok () := by
  refine ⟨?_, ?_, ?_, src_rejected⟩
  · obtain ⟨doc, returned, dangles⟩ := local_dangles
    exact ⟨doc, returned, fun loads => dangles loads.resolves⟩
  · obtain ⟨returned, name, cycle⟩ := remote_cycles
    exact ⟨cyclicDoc, returned, fun loads => loads.acyclic name cycle⟩
  · obtain ⟨doc, returned, early⟩ := remote_matches_early
    exact ⟨doc, returned, fun loads => early loads.ends⟩

end ThreeXNode.Sub.Clash
