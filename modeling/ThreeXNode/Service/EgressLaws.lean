import ThreeXNode.Service.EgressSteps

namespace ThreeXNode.Service.Egress
open Library
open Ports (Inbound socksPortForInbound listenOverlaps)
open AmneziaWG (Netip Instance)

section
variable (net : Netip) (instanceFromInbound : Inbound → Option Instance) (socksPassword : String)
variable (inbounds : List Inbound) (panelOutbound : String) (nodes : List Node) (cfg : Config)

def fixedBridges : List Bridge :=
  fresh cfg.tags (((inbounds.filter localMtproto).filterMap mtprotoBridge).filter
      (Bridge.reachable cfg.readable cfg.outbounds) ++
    inbounds.filterMap (relayBridge instanceFromInbound))

def ownEgresses : List V6Egress :=
  match readOutbounds cfg.outbounds, readRouting cfg.routing with
  | some existing, some _ =>
      v6Egresses net instanceFromInbound
        (liveInboundTags cfg ++ (fixedBridges instanceFromInbound inbounds cfg).map (·.tag))
        (existing.filterMap outboundTag) inbounds
  | _, _ => []

def probedBridges : List Bridge :=
  fresh (cfg.tags ++ (fixedBridges instanceFromInbound inbounds cfg).map (·.tag))
    ((panelBridge panelOutbound ++ nodes.filterMap nodeBridge).filter
      (Bridge.reachable cfg.readable (outboundsWith cfg.outbounds (ownEgresses net instanceFromInbound inbounds cfg))))

def takenPorts : List Int := cfg.ports ++ (fixedBridges instanceFromInbound inbounds cfg).map (·.port)

def probedPorts : List Int :=
  Probing.place (takenPorts instanceFromInbound inbounds cfg)
    ((probedBridges net instanceFromInbound inbounds panelOutbound nodes cfg).map (·.port))

def placedBridges : List Bridge :=
  fixedBridges instanceFromInbound inbounds cfg ++
    seated (probedBridges net instanceFromInbound inbounds panelOutbound nodes cfg)
      (probedPorts net instanceFromInbound inbounds panelOutbound nodes cfg)

/-! ## The run -/

omit cfg in
theorem probes_append (tags : List String) (ports : List Int) (left right : List Bridge) :
    let first := seated (fresh tags left) (Probing.place ports ((fresh tags left).map (·.port)))
    let later := fresh (tags ++ first.map (·.tag)) right
    seated (fresh tags (left ++ right)) (Probing.place ports ((fresh tags (left ++ right)).map (·.port))) =
      first ++ seated later (Probing.place (ports ++ first.map (·.port)) (later.map (·.port))) := by
  intro first later
  have long : (Probing.place ports ((fresh tags left).map (·.port))).length = (fresh tags left).length := by
    rw [Probing.place_length, List.length_map]
  have both : fresh tags (left ++ right) = fresh tags left ++ later := by
    rw [fresh_append]
    dsimp only [later, first]
    rw [seated_tags long]
  have used : Probing.place (Probing.place ports ((fresh tags left).map (·.port)) ++ ports) (later.map (·.port)) =
      Probing.place (ports ++ first.map (·.port)) (later.map (·.port)) := by
    apply Probing.place_congr
    intro slot
    dsimp only [first]
    rw [seated_ports long, List.mem_append, List.mem_append, or_comm]
  rw [both, List.map_append, Probing.place_append, used, seated, List.zipWith_append long.symm]
  rfl

theorem fixed_done :
    Done cfg (fixedBridges instanceFromInbound inbounds cfg) [] cfg.outbounds
      (((inbounds.filter localMtproto).foldlM injectMtprotoEgress cfg).bind fun mid =>
        some (injectAmneziawgnetSocks instanceFromInbound socksPassword mid inbounds)) := by
  have both := (mtprotos_done cfg (inbounds.filter localMtproto)).bind fun mid step outs => by
    have relays := relays_done instanceFromInbound socksPassword mid inbounds
    rw [step.tags, outs] at relays
    exact relays
  rw [fixedBridges, fresh_append]
  exact both

variable {cfg} in
theorem live_after {bridges : List Bridge} {extra : List Json} {mid : Config} (step : Step cfg bridges extra mid) :
    liveInboundTags mid = liveInboundTags cfg ++ bridges.map (·.tag) := by
  obtain ⟨made, whole, slots⟩ := step.inbounds
  have live : ∀ l : List InboundConfig, (l.filter (·.protocol = "socks")).map (·.tag) =
      ((l.map InboundConfig.slot).filter (·.protocol = "socks")).map (·.tag) := by
    intro l
    rw [List.filter_map, List.map_map]
    rfl
  rw [liveInboundTags, liveInboundTags, whole, List.filter_append, List.map_append, live made, slots, List.filter_map,
    List.map_map]
  congr 1
  rw [List.filter_eq_self.mpr fun b _ => by simp [Bridge.slot]]
  rfl

variable {cfg} in
theorem own_after {mid : Config} (step : Step cfg (fixedBridges instanceFromInbound inbounds cfg) [] mid)
    (outs : mid.outbounds = cfg.outbounds) :
    amneziawgV6 net instanceFromInbound mid inbounds = ownEgresses net instanceFromInbound inbounds cfg := by
  have same := step.balancers
  rw [Config.balancers, Config.balancers] at same
  rw [amneziawgV6, ownEgresses, outs, live_after step]
  cases left : readRouting mid.routing <;> cases right : readRouting cfg.routing
  · rfl
  · simp [left, right] at same
  · simp [left, right] at same
  · cases readOutbounds cfg.outbounds <;> rfl

theorem injectEgresses_done :
    Done cfg (placedBridges net instanceFromInbound inbounds panelOutbound nodes cfg)
      ((ownEgresses net instanceFromInbound inbounds cfg).map V6Egress.rule)
      (outboundsWith cfg.outbounds (ownEgresses net instanceFromInbound inbounds cfg))
      (injectEgresses net instanceFromInbound socksPassword inbounds panelOutbound nodes cfg) := by
  have relayed := fixed_done instanceFromInbound socksPassword inbounds cfg
  have own := relayed.bind fun mid step outs => by
    have peers := v6_done net instanceFromInbound mid inbounds
    rw [own_after net instanceFromInbound inbounds step outs, outs] at peers
    exact peers
  have panel := own.bind fun mid step outs => by
    have bridged := panel_done mid panelOutbound
    dsimp only at bridged
    rw [step.tags, step.ports, outs, reachable_congr step.balancers] at bridged
    exact bridged
  have all := panel.bind fun mid step outs => by
    have bridged := nodes_done mid nodes
    dsimp only at bridged
    rw [step.tags, step.ports, outs, reachable_congr step.balancers] at bridged
    exact bridged
  have whole : injectEgresses net instanceFromInbound socksPassword inbounds panelOutbound nodes cfg =
      (((((inbounds.filter localMtproto).foldlM injectMtprotoEgress cfg).bind fun mid =>
        some (injectAmneziawgnetSocks instanceFromInbound socksPassword mid inbounds)).bind fun mid =>
          injectAmneziawgV6Egress net instanceFromInbound mid inbounds).bind fun mid =>
            if panelOutbound = "" then some mid else injectPanelEgress mid panelOutbound).bind fun mid =>
              injectNodeEgresses mid nodes := by
    rw [injectEgresses]
    cases (inbounds.filter localMtproto).foldlM injectMtprotoEgress cfg with
    | none => rfl
    | some mid =>
        change (injectAmneziawgV6Egress net instanceFromInbound
          (injectAmneziawgnetSocks instanceFromInbound socksPassword mid inbounds) inbounds).bind _ = _
        simp only [Option.bind_some]
        cases injectAmneziawgV6Egress net instanceFromInbound
          (injectAmneziawgnetSocks instanceFromInbound socksPassword mid inbounds) inbounds with
        | none => rfl
        | some mid =>
            rw [Option.bind_some, Option.bind_some]
            split <;> rfl
  rw [whole, placedBridges, probedPorts, probedBridges, List.filter_append, probes_append]
  simp only [List.append_nil, List.nil_append, List.map_append, ← List.append_assoc, takenPorts] at all ⊢
  exact all

end

/-! ## The laws of the generated config -/

def listenText : Option Json → String
  | some (.str text) => text
  | _ => ""

def Slot.Apart (a b : Slot) : Prop := listenOverlaps (listenText a.listen) (listenText b.listen) → a.port ≠ b.port

def inboundTagsOf (rule : Json) : List String :=
  match rule.asFields.bind (·["inboundTag"]?) with
  | some (.arr items) => items.filterMap fun item => match item with
      | .str tag => some tag
      | _ => none
  | some (.str tag) => [tag]
  | _ => []

def names (tag : String) (rule : Json) : Bool := (inboundTagsOf rule).contains tag

/-- What the generated config owes to the base and to the bridges. -/
structure Laws (cfg : Config) (bridges : List Bridge) (result : Config) : Prop where
  tags : result.tags.Nodup
  ports : ∀ port ∈ result.ports, 1 ≤ port ∧ port ≤ 65535
  apart : (result.inbounds.map InboundConfig.slot).Pairwise Slot.Apart
  inbounds : ∃ made, result.inbounds = cfg.inbounds ++ made ∧ made.map (·.tag) = bridges.map (·.tag)
  /-- Only the rule of a bridge names it among the rules in front of the base's. -/
  rules : ∃ injected, result.rules = injected ++ cfg.rules ∧
    (∀ b ∈ bridges, ∀ target, b.target = some target →
      routingTargetExists result.table result.outbounds target ∧
        injected.filter (names b.tag) = [egressRule result.table b.tag target]) ∧
    ∀ rule ∈ injected, inboundTagsOf rule ≠ [] ∧ ∀ tag ∈ inboundTagsOf rule, tag ∈ result.tags

/-- When the laws hold: a condition on the base and on what is asked for. -/
structure Admissible (cfg : Config) (fixed probed : List Bridge) (own : List V6Egress) : Prop where
  tags : cfg.tags.Nodup
  ports : ∀ port ∈ cfg.ports ++ fixed.map (·.port), 1 ≤ port ∧ port ≤ 65535
  apart : (cfg.inbounds.map InboundConfig.slot ++ fixed.map Bridge.slot).Pairwise Slot.Apart
  room : Probing.Fits 65535 (cfg.ports ++ fixed.map (·.port)) (probed.map (·.port))
  writable : cfg.routing = some .null → own = [] ∧ ∀ b ∈ fixed ++ probed, b.target = none

theorem inboundTagsOf_egressRule (table : Fields) (tag target : String) : inboundTagsOf (egressRule table tag target) = [tag] := by
  have named : ((Std.ExtTreeMap.ofList [("type", Json.str "field"), ("inboundTag", Json.arr [.str tag]),
      (if routingTagIsBalancer table target then "balancerTag" else "outboundTag", Json.str target)] : Fields))["inboundTag"]? =
        some (.arr [.str tag]) := by
    cases routingTagIsBalancer table target <;>
      simp [Std.ExtTreeMap.ofList_eq_insertMany_empty, Std.ExtTreeMap.insertMany_cons, Std.ExtTreeMap.getElem_insert]
  rw [inboundTagsOf, egressRule, Json.asFields_ofFields, Option.bind_some, named]
  rfl

theorem inboundTagsOf_v6Rule (e : V6Egress) : inboundTagsOf e.rule = [e.inboundTag] := by
  have named : ((Std.ExtTreeMap.ofList [("type", Json.str "field"), ("inboundTag", Json.arr [.str e.inboundTag]),
      ("user", Json.arr [.str e.email]), ("outboundTag", Json.str e.tag)] : Fields))["inboundTag"]? =
        some (.arr [.str e.inboundTag]) := by
    simp [Std.ExtTreeMap.ofList_eq_insertMany_empty, Std.ExtTreeMap.insertMany_cons, Std.ExtTreeMap.getElem_insert]
  rw [inboundTagsOf, V6Egress.rule, Json.asFields_ofFields, Option.bind_some, named]
  rfl

end ThreeXNode.Service.Egress
