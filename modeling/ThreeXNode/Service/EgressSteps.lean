import ThreeXNode.Service.EgressPlan

namespace ThreeXNode.Service.Egress
open Library
open Ports (Inbound socksPortForInbound)
open AmneziaWG (Netip Instance)

def Config.readable (cfg : Config) : Option Fields := (readRouting cfg.routing).map (·.getD ∅)

/-- What comes out of an injector: a panic needs the nil map and something to write. -/
def Done (cfg : Config) (bridges : List Bridge) (extra : List Json) (outbounds : Option Json) : Option Config → Prop
  | none => cfg.routing = some .null ∧ (extra ≠ [] ∨ ∃ b ∈ bridges, b.target ≠ none)
  | some cfg' => Step cfg bridges extra cfg' ∧ cfg'.outbounds = outbounds

theorem Step.null {cfg cfg' : Config} {bridges : List Bridge} {extra : List Json} (step : Step cfg bridges extra cfg') :
    cfg'.routing = some .null ↔ cfg.routing = some .null := by
  rw [null_iff, null_iff, step.balancers]

theorem reachable_congr {cfg cfg' : Config} (same : cfg'.balancers = cfg.balancers) (outbounds : Option Json) :
    Bridge.reachable cfg'.readable outbounds = Bridge.reachable cfg.readable outbounds := by
  funext b
  rw [Config.balancers, Config.balancers] at same
  simp only [Bridge.reachable, Config.readable]
  cases b.target with
  | none => rfl
  | some target =>
      cases left : readRouting cfg'.routing with
      | none =>
          cases right : readRouting cfg.routing with
          | none => rfl
          | some routing => simp [left, right] at same
      | some routing' =>
          cases right : readRouting cfg.routing with
          | none => simp [left, right] at same
          | some routing =>
              have balancers : (routing'.getD ∅)["balancers"]? = (routing.getD ∅)["balancers"]? := by
                cases routing' <;> cases routing <;> simp_all
              simp [targetExists_congr balancers outbounds target]

theorem Done.bind {cfg : Config} {bridges bridges' : List Bridge} {extra extra' : List Json}
    {outbounds outbounds' : Option Json} {result : Option Config} {next : Config → Option Config}
    (first : Done cfg bridges extra outbounds result)
    (second : ∀ mid, Step cfg bridges extra mid → mid.outbounds = outbounds → Done mid bridges' extra' outbounds' (next mid)) :
    Done cfg (bridges ++ bridges') (extra ++ extra') outbounds' (result.bind next) := by
  cases result with
  | none =>
      obtain ⟨null, written⟩ := first
      refine ⟨null, ?_⟩
      rcases written with some' | ⟨b, member, routed⟩
      · exact .inl fun empty => some' (List.append_eq_nil_iff.mp empty).1
      · exact .inr ⟨b, List.mem_append_left _ member, routed⟩
  | some mid =>
      obtain ⟨step, outs⟩ := first
      have rest := second mid step outs
      rw [Option.bind_some]
      cases out : next mid with
      | none =>
          rw [out] at rest
          obtain ⟨null, written⟩ := rest
          refine ⟨step.null.mp null, ?_⟩
          rcases written with some' | ⟨b, member, routed⟩
          · exact .inl fun empty => some' (List.append_eq_nil_iff.mp empty).2
          · exact .inr ⟨b, List.mem_append_right _ member, routed⟩
      | some cfg' =>
          rw [out] at rest
          exact ⟨step.trans rest.1, rest.2⟩

theorem Done.skipped (cfg : Config) : Done cfg [] [] cfg.outbounds (some cfg) := ⟨Step.refl cfg, rfl⟩

theorem readRouting_nil {section' : Option Json} (read : readRouting section' = some none) : section' = some .null := by
  rcases section' with _ | (_ | b | n | text | items | members) <;> simp [readRouting, Json.asFields] at read ⊢

theorem wrote_done {cfg : Config} {routing : Option Fields} (read : readRouting cfg.routing = some routing)
    {bridges : List Bridge} {extra new : List Json} {made : List InboundConfig}
    (slots : made.map InboundConfig.slot = bridges.map Bridge.slot)
    (rules : new.Perm (bridges.filterMap (Bridge.rule (routing.getD ∅)) ++ extra))
    (written : extra ≠ [] ∨ ∃ b ∈ bridges, b.target ≠ none) (outbounds : Option Json) :
    Done cfg bridges extra outbounds ((prependRules routing new).map fun newRouting =>
      ⟨cfg.inbounds ++ made, some newRouting, outbounds⟩) := by
  cases wrote : prependRules routing new with
  | none =>
      have nil : routing = none := by
        cases routing with
        | none => rfl
        | some m => cases wrote
      exact ⟨readRouting_nil (nil ▸ read), written⟩
  | some newRouting =>
      obtain ⟨whole, balancers⟩ := prependRules_some read wrote (cfg.inbounds ++ made) outbounds
      have table : cfg.table = routing.getD ∅ := by rw [Config.table, read]; rfl
      exact ⟨⟨⟨made, rfl, slots⟩, ⟨new, whole, table ▸ rules⟩, balancers⟩, rfl⟩

/-! ## Each injector -/

theorem fresh_claimed {taken : List String} {b : Bridge} (claimed : b.tag ∈ taken) (p : Bridge → Bool) :
    fresh taken ([b].filter p) = [] := by
  cases keep : p b <;> simp [keep, fresh, claimed]

theorem fresh_dropped (taken : List String) {b : Bridge} {p : Bridge → Bool} (drop : p b = false) :
    fresh taken ([b].filter p) = [] := by
  simp [drop, fresh]

theorem fresh_kept {taken : List String} {b : Bridge} (new : b.tag ∉ taken) {p : Bridge → Bool} (keep : p b = true) :
    fresh taken ([b].filter p) = [b] := by
  simp [keep, fresh, new]

theorem reachable_routed {cfg : Config} {routing : Option Fields} (read : readRouting cfg.routing = some routing)
    (outbounds : Option Json) {b : Bridge} {target : String} (routed : b.target = some target) :
    b.reachable cfg.readable outbounds = routingTargetExists (routing.getD ∅) outbounds target := by
  simp [Bridge.reachable, Config.readable, routed, read]

theorem unreadable_routed {cfg : Config} (read : readRouting cfg.routing = none) (outbounds : Option Json) {b : Bridge}
    {target : String} (routed : b.target = some target) : b.reachable cfg.readable outbounds = false := by
  simp [Bridge.reachable, Config.readable, routed, read]

theorem injectMtproto_done (cfg : Config) (inbound : Inbound) :
    Done cfg (fresh cfg.tags ((mtprotoBridge inbound).toList.filter (Bridge.reachable cfg.readable cfg.outbounds))) []
      cfg.outbounds (injectMtprotoEgress cfg inbound) := by
  rw [injectMtprotoEgress, mtprotoBridge]
  cases inbound.settings.bind MtprotoRoute.ofJson with
  | none => exact Done.skipped cfg
  | some parsed =>
      simp only [Option.bind_some]
      split
      · exact Done.skipped cfg
      rw [Option.toList_some]
      by_cases taken : inbound.tag ∈ cfg.tags
      · rw [if_pos taken, fresh_claimed taken]
        exact Done.skipped cfg
      rw [if_neg taken]
      by_cases unrouted : parsed.outboundTag = ""
      · simp only [if_pos unrouted]
        rw [fresh_kept taken rfl]
        exact ⟨⟨⟨_, rfl, rfl⟩, ⟨[], rfl, List.Perm.refl _⟩, rfl⟩, rfl⟩
      simp only [if_neg unrouted]
      cases read : readRouting cfg.routing with
      | none =>
          rw [fresh_dropped _ (unreadable_routed read _ rfl)]
          exact Done.skipped cfg
      | some routing =>
          cases there : routingTargetExists (routing.getD ∅) cfg.outbounds parsed.outboundTag with
          | false =>
              rw [fresh_dropped _ ((reachable_routed read _ rfl).trans there)]
              simpa [there] using Done.skipped cfg
          | true =>
              rw [fresh_kept taken ((reachable_routed read _ rfl).trans there)]
              simp only [there, Bool.not_true, Bool.false_eq_true, if_false]
              exact wrote_done read rfl (List.Perm.refl _) (.inr ⟨_, List.mem_singleton_self _, by simp⟩) cfg.outbounds

theorem mtprotos_done (cfg : Config) (inbounds : List Inbound) :
    Done cfg (fresh cfg.tags ((inbounds.filterMap mtprotoBridge).filter (Bridge.reachable cfg.readable cfg.outbounds))) []
      cfg.outbounds (inbounds.foldlM injectMtprotoEgress cfg) := by
  induction inbounds generalizing cfg with
  | nil => exact Done.skipped cfg
  | cons inbound inbounds ih =>
      have both := (injectMtproto_done cfg inbound).bind (fun mid step outs => by
        have rest := ih mid
        rw [step.tags, reachable_congr step.balancers, outs] at rest
        exact rest)
      have split' : (inbound :: inbounds).filterMap mtprotoBridge =
          (mtprotoBridge inbound).toList ++ inbounds.filterMap mtprotoBridge := by
        cases made : mtprotoBridge inbound <;> simp [made]
      rw [List.foldlM_cons, split', List.filter_append, fresh_append]
      exact both

theorem socks_slots (instanceFromInbound : Inbound → Option Instance) (password : String) (taken : List String)
    (inbounds : List Inbound) :
    (amneziawgnetSocks instanceFromInbound password taken inbounds).map InboundConfig.slot =
      (fresh taken (inbounds.filterMap (relayBridge instanceFromInbound))).map Bridge.slot := by
  induction inbounds generalizing taken with
  | nil => rfl
  | cons inbound inbounds ih =>
      rw [amneziawgnetSocks, List.filterMap_cons, relayBridge]
      cases isLocal : localAmneziawg inbound with
      | false => simpa using ih taken
      | true =>
          cases instanceFromInbound inbound with
          | none => simpa using ih taken
          | some inst =>
              by_cases nobody : peerEmails inst = []
              · simpa [nobody] using ih taken
              · by_cases claimed : inbound.tag ∈ taken
                · simpa [nobody, claimed, fresh] using ih taken
                · simpa [nobody, claimed, fresh, InboundConfig.slot, Bridge.slot] using ih (inbound.tag :: taken)

theorem relays_done (instanceFromInbound : Inbound → Option Instance) (password : String) (cfg : Config)
    (inbounds : List Inbound) :
    Done cfg (fresh cfg.tags (inbounds.filterMap (relayBridge instanceFromInbound))) [] cfg.outbounds
      (some (injectAmneziawgnetSocks instanceFromInbound password cfg inbounds)) := by
  have routed : (fresh cfg.tags (inbounds.filterMap (relayBridge instanceFromInbound))).filterMap (Bridge.rule cfg.table) = [] := by
    rw [List.filterMap_eq_nil_iff]
    intro b member
    obtain ⟨inbound, _, made⟩ := List.mem_filterMap.mp ((fresh_sublist _ _).subset member)
    simp only [relayBridge, Option.ite_none_right_eq_some, Option.bind_eq_some_iff, Option.ite_none_left_eq_some,
      Option.some.injEq] at made
    obtain ⟨-, inst, -, -, rfl⟩ := made
    rfl
  exact ⟨⟨⟨_, rfl, socks_slots instanceFromInbound password cfg.tags inbounds⟩, ⟨[], rfl, by rw [routed]; exact List.Perm.refl _⟩,
    rfl⟩, rfl⟩

def outboundsWith (outbounds : Option Json) (egresses : List V6Egress) : Option Json :=
  if egresses = [] then outbounds
  else (readOutbounds outbounds).map fun existing => .arr (existing ++ egresses.map V6Egress.outbound)

theorem v6_done (net : Netip) (instanceFromInbound : Inbound → Option Instance) (cfg : Config) (inbounds : List Inbound) :
    Done cfg [] ((amneziawgV6 net instanceFromInbound cfg inbounds).map V6Egress.rule)
      (outboundsWith cfg.outbounds (amneziawgV6 net instanceFromInbound cfg inbounds))
      (injectAmneziawgV6Egress net instanceFromInbound cfg inbounds) := by
  cases empty : amneziawgV6 net instanceFromInbound cfg inbounds with
  | nil =>
      have skipped : injectAmneziawgV6Egress net instanceFromInbound cfg inbounds = some cfg := by
        rw [injectAmneziawgV6Egress]
        split
        · simp only [empty, if_true]
        · rfl
      rw [skipped]
      simpa [outboundsWith] using Done.skipped cfg
  | cons e egresses =>
      cases outs : readOutbounds cfg.outbounds with
      | none => simp [amneziawgV6, outs] at empty
      | some existing =>
          cases read : readRouting cfg.routing with
          | none => simp [amneziawgV6, outs, read] at empty
          | some routing =>
              have wrote := @wrote_done cfg routing read [] _ _ [] rfl
                (List.Perm.refl ((e :: egresses).map V6Egress.rule)) (.inl (by simp))
                (outboundsWith cfg.outbounds (e :: egresses))
              simpa [injectAmneziawgV6Egress, outs, read, empty, outboundsWith] using wrote

theorem panel_done (cfg : Config) (panelOutbound : String) :
    let plan := fresh cfg.tags ((panelBridge panelOutbound).filter (Bridge.reachable cfg.readable cfg.outbounds))
    Done cfg (seated plan (Probing.place cfg.ports (plan.map (·.port)))) [] cfg.outbounds
      (if panelOutbound = "" then some cfg else injectPanelEgress cfg panelOutbound) := by
  intro plan
  by_cases off : panelOutbound = ""
  · simpa [plan, panelBridge, off, fresh, seated] using Done.skipped cfg
  rw [if_neg off]
  have bridges : panelBridge panelOutbound = [⟨panelEgressInboundTag, panelEgressBasePort, some panelOutbound⟩] := if_neg off
  dsimp only [plan]
  rw [injectPanelEgress, bridges]
  by_cases taken : panelEgressInboundTag ∈ cfg.tags
  · rw [if_pos taken, fresh_claimed taken]
    exact Done.skipped cfg
  rw [if_neg taken]
  cases read : readRouting cfg.routing with
  | none =>
      rw [fresh_dropped _ (unreadable_routed read _ rfl)]
      exact Done.skipped cfg
  | some routing =>
      cases there : routingTargetExists (routing.getD ∅) cfg.outbounds panelOutbound with
      | false =>
          rw [fresh_dropped _ ((reachable_routed read _ rfl).trans there)]
          simpa [there, seated] using Done.skipped cfg
      | true =>
          rw [fresh_kept taken ((reachable_routed read _ rfl).trans there)]
          simp only [there, Bool.not_true, Bool.false_eq_true, if_false]
          exact wrote_done read rfl (List.Perm.refl _) (.inr ⟨_, List.mem_singleton_self _, by simp⟩) cfg.outbounds

theorem nodeEgresses_eq (routing : Fields) (outbounds : Option Json) (used : List Int) (taken : List String)
    (nodes : List Node) :
    let plan := fresh taken ((nodes.filterMap nodeBridge).filter (Bridge.reachable (some routing) outbounds))
    nodeEgresses routing outbounds used taken nodes =
      (seated plan (Probing.place used (plan.map (·.port)))).map fun b =>
        (socksBridge b.tag b.port, egressRule routing b.tag (b.target.getD "")) := by
  induction nodes generalizing used taken with
  | nil => rfl
  | cons n nodes ih =>
      dsimp only at ih ⊢
      rw [nodeEgresses, List.filterMap_cons, nodeBridge]
      by_cases off : !n.enable ∨ n.outboundTag = ""
      · simpa only [if_pos off] using ih used taken
      simp only [if_neg off]
      have reach : Bridge.reachable (some routing) outbounds
          ⟨nodeEgressInboundTag n.id, nodeEgressBasePort + n.id, some n.outboundTag⟩ =
            routingTargetExists routing outbounds n.outboundTag := rfl
      cases there : routingTargetExists routing outbounds n.outboundTag with
      | false => simpa [reach, there] using ih used taken
      | true =>
          by_cases claimed : nodeEgressInboundTag n.id ∈ taken
          · simpa [reach, there, claimed, fresh] using ih used taken
          · have rest := ih (Probing.probe used (nodeEgressBasePort + n.id) :: used) (nodeEgressInboundTag n.id :: taken)
            simpa [reach, there, claimed, fresh, seated, Probing.place] using rest

theorem seated_done {cfg : Config} {routing : Option Fields} (read : readRouting cfg.routing = some routing)
    {placed : List Bridge} (targets : ∀ b ∈ placed, ∃ target, b.target = some target) :
    let made := placed.map fun b => (socksBridge b.tag b.port, egressRule (routing.getD ∅) b.tag (b.target.getD ""))
    Done cfg placed [] cfg.outbounds (if made = [] then some cfg
      else (prependRules routing (made.map (·.2))).map fun newRouting =>
        { cfg with routing := some newRouting, inbounds := cfg.inbounds ++ made.map (·.1) }) := by
  intro made
  by_cases empty : placed = []
  · subst empty
    exact Done.skipped cfg
  have some' : made ≠ [] := by simpa [made] using empty
  rw [if_neg some']
  have slots : (made.map (·.1)).map InboundConfig.slot = placed.map Bridge.slot := by
    rw [List.map_map, List.map_map]
    exact List.map_congr_left fun b _ => rfl
  have rules : made.map (·.2) = placed.filterMap (Bridge.rule (routing.getD ∅)) := by
    rw [List.map_map, ← List.filterMap_eq_map]
    apply List.filterMap_congr
    intro b member
    obtain ⟨target, routed⟩ := targets b member
    simp [Bridge.rule, routed]
  obtain ⟨b, member⟩ := List.exists_mem_of_ne_nil _ empty
  obtain ⟨target, routed⟩ := targets b member
  exact wrote_done read slots (by rw [rules, List.append_nil]) (.inr ⟨b, member, by simp [routed]⟩) cfg.outbounds

theorem nodeBridge_routed {nodes : List Node} {b : Bridge} (member : b ∈ nodes.filterMap nodeBridge) :
    ∃ target, b.target = some target := by
  obtain ⟨n, -, made⟩ := List.mem_filterMap.mp member
  rw [nodeBridge, Option.ite_none_left_eq_some, Option.some.injEq] at made
  exact ⟨n.outboundTag, made.2 ▸ rfl⟩

theorem nodes_done (cfg : Config) (nodes : List Node) :
    let plan := fresh cfg.tags ((nodes.filterMap nodeBridge).filter (Bridge.reachable cfg.readable cfg.outbounds))
    Done cfg (seated plan (Probing.place cfg.ports (plan.map (·.port)))) [] cfg.outbounds (injectNodeEgresses cfg nodes) := by
  intro plan
  cases read : readRouting cfg.routing with
  | none =>
      have unreachable : (nodes.filterMap nodeBridge).filter (Bridge.reachable cfg.readable cfg.outbounds) = [] := by
        rw [List.filter_eq_nil_iff]
        intro b member
        obtain ⟨target, routed⟩ := nodeBridge_routed member
        rw [unreadable_routed read _ routed]
        simp
      have dropped : plan = [] := by
        dsimp only [plan]
        rw [unreachable, fresh]
      rw [dropped, injectNodeEgresses, read]
      exact Done.skipped cfg
  | some routing =>
      have readable : cfg.readable = some (routing.getD ∅) := by rw [Config.readable, read]; rfl
      have made := nodeEgresses_eq (routing.getD ∅) cfg.outbounds cfg.ports cfg.tags nodes
      rw [← readable] at made
      dsimp only at made
      rw [injectNodeEgresses, read]
      dsimp only
      rw [made]
      refine seated_done read fun b member => ?_
      obtain ⟨asked, there, -, same⟩ := mem_seated member
      obtain ⟨target, routed⟩ := nodeBridge_routed (List.mem_filter.mp ((fresh_sublist _ _).subset there)).1
      exact ⟨target, same.trans routed⟩

end ThreeXNode.Service.Egress
