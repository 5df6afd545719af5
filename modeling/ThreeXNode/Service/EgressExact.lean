import ThreeXNode.Library.Fold
import ThreeXNode.Service.EgressLaws

namespace ThreeXNode.Service.Egress
open Library
open Ports (Inbound socksPortForInbound listenOverlaps)
open AmneziaWG (Netip Instance)

/-! ## What the added outbounds and rules are -/

theorem v6Peers_mem {net : Netip} {inbound : Inbound} {used : List String} {peers : List AmneziaWG.Peer} {e : V6Egress}
    (member : e ∈ (v6Peers net inbound used peers).1) : e.inboundTag = inbound.tag := by
  induction peers generalizing used with
  | nil => cases member
  | cons p peers ih =>
      rw [v6Peers] at member
      dsimp only at member
      split at member
      · exact ih member
      · rcases List.mem_cons.mp member with rfl | later
        · rfl
        · exact ih later

theorem v6Egresses_mem {net : Netip} {instanceFromInbound : Inbound → Option Instance} {live used : List String}
    {inbounds : List Inbound} {e : V6Egress} (member : e ∈ v6Egresses net instanceFromInbound live used inbounds) :
    e.inboundTag ∈ live ∧ ∃ inbound ∈ inbounds, localAmneziawg inbound = true ∧ e.inboundTag = inbound.tag := by
  induction inbounds generalizing used with
  | nil => cases member
  | cons inbound inbounds ih =>
      have rest {used : List String} (later : e ∈ v6Egresses net instanceFromInbound live used inbounds) :
          e.inboundTag ∈ live ∧ ∃ other ∈ inbound :: inbounds, localAmneziawg other = true ∧ e.inboundTag = other.tag := by
        obtain ⟨there, other, row, facts⟩ := ih later
        exact ⟨there, other, List.mem_cons_of_mem _ row, facts⟩
      rw [v6Egresses] at member
      split at member
      · exact rest member
      next relayed =>
        simp only [Bool.not_eq_true', not_or, Bool.not_eq_false, not_not] at relayed
        split at member
        · exact rest member
        · split at member
          · exact rest member
          · rcases List.mem_append.mp member with own | later
            · have tag := v6Peers_mem own
              exact ⟨tag ▸ relayed.2, inbound, List.mem_cons_self, relayed.1, tag⟩
            · exact rest later

def entryTag (out : Json) : Option String := out.asFields.bind fun o => Panel.member o "tag" Json.asText ""

theorem entryTag_v6 (e : V6Egress) : entryTag e.outbound = some e.tag := by
  have tagged : ((Std.ExtTreeMap.ofList [("protocol", Json.str "freedom"), ("sendThrough", Json.str e.sendThrough),
      ("settings", Json.obj []), ("tag", Json.str e.tag)] : Fields))["tag"]? = some (.str e.tag) := by
    simp [Std.ExtTreeMap.ofList_eq_insertMany_empty, Std.ExtTreeMap.insertMany_cons]
  rw [entryTag, V6Egress.outbound, Json.asFields, Option.bind_some, Panel.member, Fields.field?_of_get tagged]
  rfl

theorem outboundTagExists_with {outbounds : Option Json} {tag : String} (there : outboundTagExists outbounds tag = true)
    (own : List V6Egress) : outboundTagExists (outboundsWith outbounds own) tag = true := by
  rw [outboundTagExists, Bool.and_eq_true] at there
  obtain ⟨named, listed⟩ := there
  rw [outboundsWith]
  split
  · rw [outboundTagExists, named, listed]
    rfl
  rcases outbounds with _ | (_ | b | n | text | items | members)
  all_goals try (simp [Json.asList] at listed; done)
  rw [Option.bind_some, Json.asList] at listed
  cases decoded : items.mapM entryTag with
  | none =>
      have same : (items.mapM fun out => out.asFields.bind fun o => Panel.member o "tag" Json.asText "") = none := decoded
      rw [same] at listed
      cases listed
  | some tags =>
      have same : (items.mapM fun out => out.asFields.bind fun o => Panel.member o "tag" Json.asText "") = some tags := decoded
      rw [same] at listed
      have more : (own.map V6Egress.outbound).mapM entryTag = some (own.map (·.tag)) := by
        rw [List.mapM_map]
        exact mapM_of_some fun e _ => entryTag_v6 e
      have whole : (items ++ own.map V6Egress.outbound).mapM entryTag = some (tags ++ own.map (·.tag)) := by
        rw [List.mapM_append, decoded, more]
        rfl
      have read : readOutbounds (some (.arr items)) = some items := by
        have kept : items.mapM some = some (items.map id) := mapM_of_some fun _ _ => rfl
        rwa [List.map_id] at kept
      rw [read, outboundTagExists, named, Option.map_some, Option.bind_some, Json.asList]
      have same' : ((items ++ own.map V6Egress.outbound).mapM fun out =>
          out.asFields.bind fun o => Panel.member o "tag" Json.asText "") = some (tags ++ own.map (·.tag)) := whole
      rw [same']
      simp only [List.contains_eq_mem, decide_eq_true_eq] at listed
      simp [listed]

theorem probedPorts_length (net : Netip) (instanceFromInbound : Inbound → Option Instance) (inbounds : List Inbound)
    (panelOutbound : String) (nodes : List Node) (cfg : Config) :
    (probedPorts net instanceFromInbound inbounds panelOutbound nodes cfg).length =
      (probedBridges net instanceFromInbound inbounds panelOutbound nodes cfg).length := by
  rw [probedPorts, Probing.place_length, List.length_map]

section
variable {net : Netip} {instanceFromInbound : Inbound → Option Instance}
variable {inbounds : List Inbound} {panelOutbound : String} {nodes : List Node} {cfg : Config}

theorem fixed_routed {b : Bridge} (member : b ∈ fixedBridges instanceFromInbound inbounds cfg) {target : String}
    (routed : b.target = some target) :
    b.reachable cfg.readable cfg.outbounds ∧ ∃ inbound ∈ inbounds, localMtproto inbound = true ∧ b.tag = inbound.tag := by
  rcases List.mem_append.mp ((fresh_sublist _ _).subset member) with mtproto | relay
  · obtain ⟨made, reach⟩ := List.mem_filter.mp mtproto
    obtain ⟨inbound, row, made⟩ := List.mem_filterMap.mp made
    obtain ⟨row, isLocal⟩ := List.mem_filter.mp row
    simp only [mtprotoBridge, Option.bind_eq_some_iff, Option.ite_none_left_eq_some, Option.some.injEq] at made
    obtain ⟨parsed, -, -, rfl⟩ := made
    exact ⟨reach, inbound, row, isLocal, rfl⟩
  · obtain ⟨inbound, -, made⟩ := List.mem_filterMap.mp relay
    simp only [relayBridge, Option.ite_none_right_eq_some, Option.bind_eq_some_iff, Option.ite_none_left_eq_some,
      Option.some.injEq] at made
    obtain ⟨-, inst, -, -, rfl⟩ := made
    cases routed

theorem reachable_table {table : Fields} {routing : Option Fields} (read : routing = none ∨ routing = some table)
    {outbounds : Option Json} {b : Bridge} {target : String} (routed : b.target = some target)
    (reach : b.reachable routing outbounds = true) : routingTargetExists table outbounds target = true := by
  rw [Bridge.reachable, routed] at reach
  rcases read with rfl | rfl
  · cases reach
  · exact reach

theorem readable_table (cfg : Config) : cfg.readable = none ∨ cfg.readable = some cfg.table := by
  rw [Config.readable, Config.table]
  cases readRouting cfg.routing with
  | none => exact .inl rfl
  | some routing => exact .inr rfl

theorem placed_target {b : Bridge} (member : b ∈ placedBridges net instanceFromInbound inbounds panelOutbound nodes cfg)
    {target : String} (routed : b.target = some target) :
    routingTargetExists cfg.table (outboundsWith cfg.outbounds (ownEgresses net instanceFromInbound inbounds cfg)) target := by
  rcases List.mem_append.mp member with fixed | probed
  · have there := reachable_table (readable_table cfg) routed (fixed_routed fixed routed).1
    rw [routingTargetExists, Bool.or_eq_true] at there ⊢
    exact there.imp_right fun listed => outboundTagExists_with listed _
  · obtain ⟨asked, plan, -, same⟩ := mem_seated probed
    have reach := (List.mem_filter.mp ((fresh_sublist _ _).subset plan)).2
    exact reachable_table (readable_table cfg) (same ▸ routed) reach

theorem placed_tags :
    ((placedBridges net instanceFromInbound inbounds panelOutbound nodes cfg).map (·.tag)).Nodup ∧
      (∀ b ∈ placedBridges net instanceFromInbound inbounds panelOutbound nodes cfg, b.tag ∉ cfg.tags) ∧
      ∀ b ∈ seated (probedBridges net instanceFromInbound inbounds panelOutbound nodes cfg)
        (probedPorts net instanceFromInbound inbounds panelOutbound nodes cfg),
        b.tag ∉ cfg.tags ++ (fixedBridges instanceFromInbound inbounds cfg).map (·.tag) := by
  have fixed := fresh_tags cfg.tags (((inbounds.filter localMtproto).filterMap mtprotoBridge).filter
    (Bridge.reachable cfg.readable cfg.outbounds) ++ inbounds.filterMap (relayBridge instanceFromInbound))
  have probed := fresh_tags (cfg.tags ++ (fixedBridges instanceFromInbound inbounds cfg).map (·.tag))
    ((panelBridge panelOutbound ++ nodes.filterMap nodeBridge).filter
      (Bridge.reachable cfg.readable (outboundsWith cfg.outbounds (ownEgresses net instanceFromInbound inbounds cfg))))
  have later : ∀ b ∈ seated (probedBridges net instanceFromInbound inbounds panelOutbound nodes cfg)
      (probedPorts net instanceFromInbound inbounds panelOutbound nodes cfg),
      b.tag ∉ cfg.tags ++ (fixedBridges instanceFromInbound inbounds cfg).map (·.tag) := by
    intro b member
    obtain ⟨asked, plan, same, -⟩ := mem_seated member
    exact same ▸ probed.2 asked plan
  refine ⟨?_, ?_, later⟩
  · rw [placedBridges, List.map_append,
      seated_tags (probedPorts_length net instanceFromInbound inbounds panelOutbound nodes cfg), List.nodup_append]
    refine ⟨fixed.1, probed.1, ?_⟩
    intro tag first other second same
    obtain ⟨b, plan, rfl⟩ := List.mem_map.mp second
    exact probed.2 b plan (List.mem_append_right _ (same ▸ first))
  · intro b member
    rcases List.mem_append.mp member with first | second
    · exact fixed.2 b first
    · exact fun taken => later b second (List.mem_append_left _ taken)

theorem own_live {e : V6Egress} (member : e ∈ ownEgresses net instanceFromInbound inbounds cfg) :
    e.inboundTag ∈ cfg.tags ++ (fixedBridges instanceFromInbound inbounds cfg).map (·.tag) ∧
      ∃ inbound ∈ inbounds, localAmneziawg inbound = true ∧ e.inboundTag = inbound.tag := by
  rw [ownEgresses] at member
  split at member
  · obtain ⟨live, row⟩ := v6Egresses_mem member
    refine ⟨?_, row⟩
    rcases List.mem_append.mp live with socks | bridge
    · exact List.mem_append_left _ ((List.filter_sublist.map _).subset socks)
    · exact List.mem_append_right _ bridge
  · cases member

theorem own_names (distinct : (inbounds.map (·.tag)).Nodup) {e : V6Egress}
    (member : e ∈ ownEgresses net instanceFromInbound inbounds cfg) {b : Bridge}
    (placed : b ∈ placedBridges net instanceFromInbound inbounds panelOutbound nodes cfg) {target : String}
    (routed : b.target = some target) : e.inboundTag ≠ b.tag := by
  obtain ⟨there, relay, row, isLocal, tag⟩ := own_live member
  intro same
  rcases List.mem_append.mp placed with fixed | probed
  · -- Such a bridge is that of an MTProto inbound, and no two inbounds have one tag.
    obtain ⟨-, inbound, row', isMtproto, tag'⟩ := fixed_routed fixed routed
    obtain rfl := List.inj_on_of_nodup_map distinct row row' (tag ▸ same ▸ tag')
    simp only [localAmneziawg, localMtproto, Bool.and_eq_true, decide_eq_true_eq] at isLocal isMtproto
    exact absurd (isLocal.1.1.symm.trans isMtproto.1.1) (by decide)
  · exact placed_tags.2.2 b probed (same ▸ there)

/-! ## The laws, once the run is over -/

theorem rules_named {bridges : List Bridge} {table : Fields} (distinct : (bridges.map (·.tag)).Nodup) {b : Bridge}
    (member : b ∈ bridges) {target : String} (routed : b.target = some target) :
    (bridges.filterMap (Bridge.rule table)).filter (names b.tag) = [egressRule table b.tag target] := by
  have silent : ∀ rest : List Bridge, b.tag ∉ rest.map (·.tag) →
      (rest.filterMap (Bridge.rule table)).filter (names b.tag) = [] := by
    intro rest apart
    rw [List.filter_eq_nil_iff]
    intro rule listed
    obtain ⟨other, there, made⟩ := List.mem_filterMap.mp listed
    obtain ⟨target', -, rfl⟩ := Option.map_eq_some_iff.mp made
    rw [names, inboundTagsOf_egressRule]
    have ne : b.tag ≠ other.tag := fun same => apart (same ▸ List.mem_map_of_mem there)
    simpa using ne
  induction bridges with
  | nil => cases member
  | cons head rest ih =>
      rw [List.map_cons, List.nodup_cons] at distinct
      rw [List.filterMap_cons]
      rcases List.mem_cons.mp member with rfl | later
      · have rule : b.rule table = some (egressRule table b.tag target) := by rw [Bridge.rule, routed]; rfl
        have named : names b.tag (egressRule table b.tag target) = true := by simp [names, inboundTagsOf_egressRule]
        simp only [rule]
        rw [List.filter_cons_of_pos named, silent rest distinct.1]
      · have ne : b.tag ≠ head.tag := fun same => distinct.1 (same ▸ List.mem_map_of_mem later)
        have found := ih distinct.2 later
        cases made : head.rule table with
        | none => exact found
        | some rule =>
            obtain ⟨target', -, rfl⟩ := Option.map_eq_some_iff.mp made
            have other : names b.tag (egressRule table head.tag target') = false := by
              simpa [names, inboundTagsOf_egressRule] using ne
            simp only
            rw [List.filter_cons_of_neg (by simp [other]), found]

theorem rules_of_step (distinct : (inbounds.map (·.tag)).Nodup) {result : Config}
    (step : Step cfg (placedBridges net instanceFromInbound inbounds panelOutbound nodes cfg)
      ((ownEgresses net instanceFromInbound inbounds cfg).map V6Egress.rule) result)
    (outs : result.outbounds = outboundsWith cfg.outbounds (ownEgresses net instanceFromInbound inbounds cfg)) :
    ∃ injected, result.rules = injected ++ cfg.rules ∧
      (∀ b ∈ placedBridges net instanceFromInbound inbounds panelOutbound nodes cfg, ∀ target, b.target = some target →
        routingTargetExists result.table result.outbounds target ∧
          injected.filter (names b.tag) = [egressRule result.table b.tag target]) ∧
      ∀ rule ∈ injected, inboundTagsOf rule ≠ [] ∧ ∀ tag ∈ inboundTagsOf rule, tag ∈ result.tags := by
  obtain ⟨new, whole, perm⟩ := step.rules
  rw [← rule_congr step.table] at perm
  refine ⟨new, whole, ?_, ?_⟩
  · intro b member target routed
    refine ⟨?_, ?_⟩
    · rw [targetExists_congr step.table, outs]
      exact placed_target member routed
    · have own : ((ownEgresses net instanceFromInbound inbounds cfg).map V6Egress.rule).filter (names b.tag) = [] := by
        rw [List.filter_eq_nil_iff]
        intro rule listed
        obtain ⟨e, own, rfl⟩ := List.mem_map.mp listed
        have other := own_names distinct own member routed
        simpa [names, inboundTagsOf_v6Rule] using fun same => other same.symm
      have only : ((placedBridges net instanceFromInbound inbounds panelOutbound nodes cfg).filterMap
          (Bridge.rule result.table)).filter (names b.tag) = [egressRule result.table b.tag target] := by
        exact rules_named placed_tags.1 member routed
      have filtered := perm.filter (names b.tag)
      rw [List.filter_append, own, only, List.append_nil] at filtered
      exact List.perm_singleton.mp filtered
  · intro rule listed
    rcases List.mem_append.mp (perm.mem_iff.mp listed) with bridge | own
    · obtain ⟨b, member, made⟩ := List.mem_filterMap.mp bridge
      obtain ⟨target, routed, rfl⟩ := Option.map_eq_some_iff.mp made
      rw [inboundTagsOf_egressRule]
      refine ⟨by simp, fun tag named => ?_⟩
      rw [List.mem_singleton.mp named, step.tags]
      exact List.mem_append_right _ (List.mem_map_of_mem member)
    · obtain ⟨e, member, rfl⟩ := List.mem_map.mp own
      rw [inboundTagsOf_v6Rule]
      refine ⟨by simp, fun tag named => ?_⟩
      have there := (own_live member).1
      rw [List.mem_singleton.mp named, step.tags]
      rcases List.mem_append.mp there with base | fixed
      · exact List.mem_append_left _ base
      · rw [placedBridges, List.map_append]
        exact List.mem_append_right _ (List.mem_append_left _ fixed)

theorem placed_heads :
    (placedBridges net instanceFromInbound inbounds panelOutbound nodes cfg).map (fun b => (b.tag, b.target)) =
      (fixedBridges instanceFromInbound inbounds cfg ++
        probedBridges net instanceFromInbound inbounds panelOutbound nodes cfg).map fun b => (b.tag, b.target) := by
  rw [placedBridges, List.map_append, List.map_append]
  congr 1
  exact seated_heads (probedPorts_length net instanceFromInbound inbounds panelOutbound nodes cfg)

theorem placed_ports :
    (placedBridges net instanceFromInbound inbounds panelOutbound nodes cfg).map (·.port) =
      (fixedBridges instanceFromInbound inbounds cfg).map (·.port) ++
        probedPorts net instanceFromInbound inbounds panelOutbound nodes cfg := by
  rw [placedBridges, List.map_append,
    seated_ports (probedPorts_length net instanceFromInbound inbounds panelOutbound nodes cfg)]

theorem slots_of_step {bridges : List Bridge} {extra : List Json} {result : Config} (step : Step cfg bridges extra result) :
    result.inbounds.map InboundConfig.slot = cfg.inbounds.map InboundConfig.slot ++ bridges.map Bridge.slot := by
  obtain ⟨made, whole, slots⟩ := step.inbounds
  rw [whole, List.map_append, slots]

theorem placed_apart
    (apart : (cfg.inbounds.map InboundConfig.slot ++
      (fixedBridges instanceFromInbound inbounds cfg).map Bridge.slot).Pairwise Slot.Apart) :
    (cfg.inbounds.map InboundConfig.slot ++
      (placedBridges net instanceFromInbound inbounds panelOutbound nodes cfg).map Bridge.slot).Pairwise Slot.Apart := by
  have long := probedPorts_length net instanceFromInbound inbounds panelOutbound nodes cfg
  rw [placedBridges, List.map_append, ← List.append_assoc, List.pairwise_append]
  refine ⟨apart, ?_, ?_⟩
  · have ports := Probing.place_nodup (takenPorts instanceFromInbound inbounds cfg)
      ((probedBridges net instanceFromInbound inbounds panelOutbound nodes cfg).map (·.port))
    rw [← probedPorts, ← seated_ports long, List.Nodup, List.pairwise_map] at ports
    rw [List.pairwise_map]
    refine ports.imp fun {a b} differ => ?_
    exact fun _ => differ
  · intro slot before other after _ same
    obtain ⟨b, member, rfl⟩ := List.mem_map.mp after
    have got : b.port ∈ probedPorts net instanceFromInbound inbounds panelOutbound nodes cfg :=
      seated_ports long ▸ List.mem_map_of_mem member
    apply Probing.place_free _ _ _ got
    rw [takenPorts, List.mem_append]
    rcases List.mem_append.mp before with base | fixed
    · obtain ⟨i, there, rfl⟩ := List.mem_map.mp base
      exact .inl (List.mem_map.mpr ⟨i, there, same⟩)
    · obtain ⟨f, there, rfl⟩ := List.mem_map.mp fixed
      exact .inr (List.mem_map.mpr ⟨f, there, same⟩)

theorem probedPorts_low : ∀ port ∈ probedPorts net instanceFromInbound inbounds panelOutbound nodes cfg, 62790 ≤ port := by
  apply Probing.place_ge
  intro start asked
  obtain ⟨b, plan, rfl⟩ := List.mem_map.mp asked
  rcases List.mem_append.mp (List.mem_filter.mp ((fresh_sublist _ _).subset plan)).1 with panel | node
  · rw [panelBridge] at panel
    split at panel
    · cases panel
    · rw [List.mem_singleton.mp panel]
      exact le_rfl
  · obtain ⟨n, -, made⟩ := List.mem_filterMap.mp node
    rw [nodeBridge, Option.ite_none_left_eq_some, Option.some.injEq] at made
    rw [← made.2]
    show (62790 : Int) ≤ 62800 + n.id
    omega

theorem admissible_of_laws {result : Config}
    (step : Step cfg (placedBridges net instanceFromInbound inbounds panelOutbound nodes cfg)
      ((ownEgresses net instanceFromInbound inbounds cfg).map V6Egress.rule) result)
    (tags : result.tags.Nodup) (ports : ∀ port ∈ result.ports, 1 ≤ port ∧ port ≤ 65535)
    (apart : (result.inbounds.map InboundConfig.slot).Pairwise Slot.Apart) :
    Admissible cfg (fixedBridges instanceFromInbound inbounds cfg)
      (probedBridges net instanceFromInbound inbounds panelOutbound nodes cfg)
      (ownEgresses net instanceFromInbound inbounds cfg) := by
  rw [step.tags] at tags
  rw [step.ports, placed_ports, ← List.append_assoc] at ports
  rw [slots_of_step step, placedBridges, List.map_append, ← List.append_assoc] at apart
  refine ⟨tags.of_append_left, fun port given => ports port (List.mem_append_left _ given),
    (List.pairwise_append.mp apart).1, ?_, ?_⟩
  · rw [← Probing.place_le_iff]
    exact fun port got => (ports port (List.mem_append_right _ got)).2
  · intro null
    -- A nil map has no rules before or after, so none were to be written.
    have none' : ∀ c : Config, c.routing = some .null → c.rules = [] := by
      intro c null
      rw [Config.rules, Config.table, null]
      rfl
    obtain ⟨new, whole, perm⟩ := step.rules
    rw [none' result (step.null.mpr null), none' cfg null, List.append_nil] at whole
    rw [← whole, List.nil_perm, List.append_eq_nil_iff, List.map_eq_nil_iff] at perm
    refine ⟨perm.2, fun b asked => ?_⟩
    have head : (b.tag, b.target) ∈ (placedBridges net instanceFromInbound inbounds panelOutbound nodes cfg).map
        fun b => (b.tag, b.target) := by
      rw [placed_heads]
      exact List.mem_map_of_mem asked
    obtain ⟨b', member, same⟩ := List.mem_map.mp head
    have silent := List.filterMap_eq_nil_iff.mp perm.1 b' member
    rw [Bridge.rule, Option.map_eq_none_iff] at silent
    exact (Prod.mk.inj same).2 ▸ silent

theorem laws_of_admissible (distinct : (inbounds.map (·.tag)).Nodup) {result : Config}
    (step : Step cfg (placedBridges net instanceFromInbound inbounds panelOutbound nodes cfg)
      ((ownEgresses net instanceFromInbound inbounds cfg).map V6Egress.rule) result)
    (outs : result.outbounds = outboundsWith cfg.outbounds (ownEgresses net instanceFromInbound inbounds cfg))
    (ok : Admissible cfg (fixedBridges instanceFromInbound inbounds cfg)
      (probedBridges net instanceFromInbound inbounds panelOutbound nodes cfg)
      (ownEgresses net instanceFromInbound inbounds cfg)) :
    Laws cfg (fixedBridges instanceFromInbound inbounds cfg ++
      probedBridges net instanceFromInbound inbounds panelOutbound nodes cfg) result := by
  obtain ⟨apartTags, newTags, -⟩ := @placed_tags net instanceFromInbound inbounds panelOutbound nodes cfg
  constructor
  · rw [step.tags, List.nodup_append]
    refine ⟨ok.tags, apartTags, ?_⟩
    intro tag base other bridge same
    obtain ⟨b, member, rfl⟩ := List.mem_map.mp bridge
    exact newTags b member (same ▸ base)
  · rw [step.ports, placed_ports, ← List.append_assoc]
    intro port listed
    rcases List.mem_append.mp listed with given | got
    · exact ok.ports port given
    · have low := probedPorts_low port got
      have high := (Probing.place_le_iff _ _ _).mpr ok.room port got
      omega
  · rw [slots_of_step step]
    exact placed_apart ok.apart
  · obtain ⟨made, whole, slots⟩ := step.inbounds
    refine ⟨made, whole, ?_⟩
    have tags := congrArg (List.map Slot.tag) slots
    have heads := congrArg (List.map Prod.fst) (@placed_heads net instanceFromInbound inbounds panelOutbound nodes cfg)
    rw [List.map_map, List.map_map] at tags heads
    exact tags.trans heads
  · obtain ⟨injected, whole, routed, present⟩ := rules_of_step distinct step outs
    refine ⟨injected, whole, fun b asked target has => ?_, present⟩
    have head : (b.tag, b.target) ∈ (placedBridges net instanceFromInbound inbounds panelOutbound nodes cfg).map
        fun b => (b.tag, b.target) := by
      rw [placed_heads]
      exact List.mem_map_of_mem asked
    obtain ⟨b', member, same⟩ := List.mem_map.mp head
    obtain ⟨tag, same⟩ := Prod.mk.inj same
    have facts := routed b' member target (same.trans has)
    rwa [tag] at facts

end

theorem egresses_lawful (net : Netip) (instanceFromInbound : Inbound → Option Instance) (socksPassword : String)
    (inbounds : List Inbound) (panelOutbound : String) (nodes : List Node) (cfg : Config)
    (distinct : (inbounds.map (·.tag)).Nodup) :
    (∃ result, injectEgresses net instanceFromInbound socksPassword inbounds panelOutbound nodes cfg = some result ∧
        Laws cfg (fixedBridges instanceFromInbound inbounds cfg ++
          probedBridges net instanceFromInbound inbounds panelOutbound nodes cfg) result) ↔
      Admissible cfg (fixedBridges instanceFromInbound inbounds cfg)
        (probedBridges net instanceFromInbound inbounds panelOutbound nodes cfg)
        (ownEgresses net instanceFromInbound inbounds cfg) := by
  have done := injectEgresses_done net instanceFromInbound socksPassword inbounds panelOutbound nodes cfg
  constructor
  · intro ⟨result, ran, laws⟩
    rw [ran] at done
    exact admissible_of_laws done.1 laws.tags laws.ports laws.apart
  · intro ok
    cases ran : injectEgresses net instanceFromInbound socksPassword inbounds panelOutbound nodes cfg with
    | none =>
        -- The nil map: then there is nothing to write.
        rw [ran] at done
        obtain ⟨nothing, unrouted⟩ := ok.writable done.1
        rcases done.2 with own | ⟨b, member, routed⟩
        · exact absurd (by rw [nothing]; rfl) own
        · have head : (b.tag, b.target) ∈ (fixedBridges instanceFromInbound inbounds cfg ++
              probedBridges net instanceFromInbound inbounds panelOutbound nodes cfg).map fun b => (b.tag, b.target) := by
            rw [← placed_heads]
            exact List.mem_map_of_mem member
          obtain ⟨b', asked, same⟩ := List.mem_map.mp head
          exact absurd ((Prod.mk.inj same).2 ▸ unrouted b' asked) routed
    | some result =>
        rw [ran] at done
        exact ⟨result, rfl, laws_of_admissible distinct done.1 done.2 ok⟩

instance : DecidableRel Slot.Apart := fun a b =>
  inferInstanceAs (Decidable (listenOverlaps (listenText a.listen) (listenText b.listen) → a.port ≠ b.port))

def plainBase : Config where
  inbounds := [⟨some (.str "0.0.0.0"), 40000, "vless", none, "in-40000", none⟩]
  routing := some (.obj [("rules", .arr [.obj [("type", .str "field"), ("outboundTag", .str "direct")]])])
  outbounds := some (.arr [.obj [("tag", .str "direct")], .obj [("tag", .str "proxy")]])

def routedRow (port : Int) : Inbound :=
  ⟨3, none, true, "", "in-8443", "", 8443, .mtproto, none, some (.obj [("routeThroughXray", .bool true),
    ("routeXrayPort", Json.ofInt port), ("outboundTag", .str "proxy")])⟩

def relayedRow : Inbound := ⟨4, none, true, "", "in-51820", "", 51820, .amneziawg, none, none⟩

def onePeer (inbound : Inbound) : Option Instance :=
  if inbound.protocol = .amneziawg then
    some ⟨inbound.id, inbound.port, "key", ["10.8.1.1/24"], 1280, [⟨"alice", "peer", "", ["10.8.1.2/32"], ""⟩], "", false, ""⟩
  else none

def noAddresses : Netip := ⟨fun _ => none, fun _ => none⟩

theorem egresses_lawful_sample :
    ∃ result, injectEgresses noAddresses onePeer "secret" [routedRow 50000, relayedRow] "proxy" [⟨7, true, "direct"⟩] plainBase =
      some result ∧
        Laws plainBase (fixedBridges onePeer [routedRow 50000, relayedRow] plainBase ++
          probedBridges noAddresses onePeer [routedRow 50000, relayedRow] "proxy" [⟨7, true, "direct"⟩] plainBase) result :=
  (egresses_lawful noAddresses onePeer "secret" [routedRow 50000, relayedRow] "proxy" [⟨7, true, "direct"⟩] plainBase
    (by decide)).mpr
    { tags := by decide
      ports := by decide +kernel
      apart := by decide +kernel
      room := (Probing.place_le_iff _ _ _).mp (by decide +kernel)
      writable := fun null => by simp [plainBase] at null }

/-- The bridge of node 2736 gets a port that is none, and a sidecar's bridge one that an inbound has. -/
theorem egresses_unlawful :
    (¬∃ result, injectEgresses noAddresses onePeer "secret" [] "" [⟨2736, true, "direct"⟩] plainBase = some result ∧
      Laws plainBase (fixedBridges onePeer [] plainBase ++
        probedBridges noAddresses onePeer [] "" [⟨2736, true, "direct"⟩] plainBase) result) ∧
    ¬∃ result, injectEgresses noAddresses onePeer "secret" [routedRow 40000] "" [] plainBase = some result ∧
      Laws plainBase (fixedBridges onePeer [routedRow 40000] plainBase ++
        probedBridges noAddresses onePeer [routedRow 40000] "" [] plainBase) result := by
  constructor
  · intro ⟨result, ran, laws⟩
    have ports : (injectEgresses noAddresses onePeer "secret" [] "" [⟨2736, true, "direct"⟩] plainBase).map Config.ports =
        some [40000, 65536] := by decide +kernel
    rw [ran, Option.map_some, Option.some.injEq] at ports
    have bound := laws.ports 65536 (by rw [ports]; decide)
    omega
  · intro ⟨result, ran, laws⟩
    have clash : (injectEgresses noAddresses onePeer "secret" [routedRow 40000] "" [] plainBase).map
        (fun cfg => decide ((cfg.inbounds.map InboundConfig.slot).Pairwise Slot.Apart)) = some false := by decide +kernel
    rw [ran, Option.map_some, Option.some.injEq, decide_eq_false_iff_not] at clash
    exact clash laws.apart

end ThreeXNode.Service.Egress
