import ThreeXNode.Service.Egress

namespace ThreeXNode.Service.Egress
open Library
open Ports (Inbound socksPortForInbound)
open AmneziaWG (Netip Instance)

/-! ## The bridges that are asked for -/

/-- A loopback inbound: its port, or the first that is tried, and the outbound or balancer it is to go to. -/
structure Bridge where
  tag : String
  port : Int
  target : Option String

def mtprotoBridge (inbound : Inbound) : Option Bridge :=
  (inbound.settings.bind MtprotoRoute.ofJson).bind fun parsed =>
    if !parsed.routeThroughXray ∨ parsed.routeXrayPort ≤ 0 ∨ inbound.tag = "" then none
    else some ⟨inbound.tag, parsed.routeXrayPort, if parsed.outboundTag = "" then none else some parsed.outboundTag⟩

def relayBridge (instanceFromInbound : Inbound → Option Instance) (inbound : Inbound) : Option Bridge :=
  if localAmneziawg inbound then
    (instanceFromInbound inbound).bind fun inst =>
      if peerEmails inst = [] then none else some ⟨inbound.tag, socksPortForInbound inbound.id, none⟩
  else none

def panelBridge (panelOutbound : String) : List Bridge :=
  if panelOutbound = "" then [] else [⟨panelEgressInboundTag, panelEgressBasePort, some panelOutbound⟩]

def nodeBridge (n : Node) : Option Bridge :=
  if !n.enable ∨ n.outboundTag = "" then none
  else some ⟨nodeEgressInboundTag n.id, nodeEgressBasePort + n.id, some n.outboundTag⟩

def Bridge.reachable (table : Option Fields) (outbounds : Option Json) (b : Bridge) : Bool :=
  match b.target with
  | none => true
  | some target => table.any fun table => routingTargetExists table outbounds target

def fresh (taken : List String) : List Bridge → List Bridge
  | [] => []
  | b :: rest => if b.tag ∈ taken then fresh taken rest else b :: fresh (b.tag :: taken) rest

def Bridge.rule (table : Fields) (b : Bridge) : Option Json := b.target.map (egressRule table b.tag)

def seated (bridges : List Bridge) (ports : List Int) : List Bridge :=
  List.zipWith (fun b port => { b with port := port }) bridges ports

theorem fresh_congr {taken taken' : List String} (same : ∀ tag, tag ∈ taken ↔ tag ∈ taken') (bridges : List Bridge) :
    fresh taken bridges = fresh taken' bridges := by
  induction bridges generalizing taken taken' with
  | nil => rfl
  | cons b rest ih =>
      have later : ∀ tag, tag ∈ b.tag :: taken ↔ tag ∈ b.tag :: taken' := by
        intro tag
        rw [List.mem_cons, List.mem_cons, same]
      simp only [fresh, same, ih same, ih later]

theorem fresh_append (taken : List String) (left right : List Bridge) :
    fresh taken (left ++ right) = fresh taken left ++ fresh (taken ++ (fresh taken left).map (·.tag)) right := by
  induction left generalizing taken with
  | nil => rw [List.nil_append, fresh, List.map_nil, List.append_nil, List.nil_append]
  | cons b left ih =>
      simp only [List.cons_append, fresh]
      split
      · exact ih taken
      · rw [ih, List.cons_append, List.map_cons]
        congr 2
        apply fresh_congr
        intro tag
        simp only [List.mem_append, List.mem_cons]
        tauto

theorem fresh_tags (taken : List String) (bridges : List Bridge) :
    ((fresh taken bridges).map (·.tag)).Nodup ∧ ∀ b ∈ fresh taken bridges, b.tag ∉ taken := by
  induction bridges generalizing taken with
  | nil => exact ⟨List.nodup_nil, fun b member => by cases member⟩
  | cons b rest ih =>
      rw [fresh]
      split
      · exact ih taken
      next new =>
        obtain ⟨apart, unclaimed⟩ := ih (b.tag :: taken)
        constructor
        · refine List.nodup_cons.mpr ⟨?_, apart⟩
          intro again
          obtain ⟨other, member, same⟩ := List.mem_map.mp again
          exact unclaimed other member (same ▸ List.mem_cons_self)
        · intro other member
          rcases List.mem_cons.mp member with rfl | later
          · exact new
          · exact fun taken => unclaimed other later (List.mem_cons_of_mem _ taken)

theorem fresh_sublist (taken : List String) (bridges : List Bridge) : (fresh taken bridges).Sublist bridges := by
  induction bridges generalizing taken with
  | nil => exact List.Sublist.refl _
  | cons b rest ih =>
      rw [fresh]
      split
      · exact (ih taken).cons b
      · exact (ih _).cons_cons b

theorem seated_heads {bridges : List Bridge} {ports : List Int} (long : ports.length = bridges.length) :
    (seated bridges ports).map (fun b => (b.tag, b.target)) = bridges.map fun b => (b.tag, b.target) := by
  induction bridges generalizing ports with
  | nil => rfl
  | cons b bridges ih =>
      cases ports with
      | nil => cases long
      | cons port ports =>
          have rest := @ih ports (by simpa using long)
          simpa [seated] using rest

theorem seated_tags {bridges : List Bridge} {ports : List Int} (long : ports.length = bridges.length) :
    (seated bridges ports).map (·.tag) = bridges.map (·.tag) := by
  have tags := congrArg (List.map Prod.fst) (seated_heads long)
  rwa [List.map_map, List.map_map] at tags

theorem seated_ports {bridges : List Bridge} {ports : List Int} (long : ports.length = bridges.length) :
    (seated bridges ports).map (·.port) = ports := by
  induction bridges generalizing ports with
  | nil => cases ports with
      | nil => rfl
      | cons port ports => cases long
  | cons b bridges ih =>
      cases ports with
      | nil => cases long
      | cons port ports =>
          have rest := @ih ports (by simpa using long)
          simpa [seated] using rest

theorem mem_seated {bridges : List Bridge} {ports : List Int} {b : Bridge} (member : b ∈ seated bridges ports) :
    ∃ asked ∈ bridges, b.tag = asked.tag ∧ b.target = asked.target := by
  induction bridges generalizing ports with
  | nil => cases member
  | cons asked bridges ih =>
      cases ports with
      | nil => cases member
      | cons port ports =>
          rcases List.mem_cons.mp member with rfl | later
          · exact ⟨asked, List.mem_cons_self, rfl, rfl⟩
          · obtain ⟨other, there, same⟩ := ih later
            exact ⟨other, List.mem_cons_of_mem _ there, same⟩

/-! ## What one injector does -/

structure Slot where
  listen : Option Json
  port : Int
  protocol : String
  tag : String

def InboundConfig.slot (i : InboundConfig) : Slot := ⟨i.listen, i.port, i.protocol, i.tag⟩

def Bridge.slot (b : Bridge) : Slot := ⟨loopback, b.port, "socks", b.tag⟩

def Config.balancers (cfg : Config) : Option (Option (Option Json)) :=
  (readRouting cfg.routing).map fun routing => routing.map fun m => m["balancers"]?

/-- These bridges are there behind the inbounds, and their rules and some others in front of the rules. -/
structure Step (cfg : Config) (bridges : List Bridge) (extra : List Json) (cfg' : Config) : Prop where
  inbounds : ∃ made, cfg'.inbounds = cfg.inbounds ++ made ∧ made.map InboundConfig.slot = bridges.map Bridge.slot
  rules : ∃ new, cfg'.rules = new ++ cfg.rules ∧ new.Perm (bridges.filterMap (Bridge.rule cfg.table) ++ extra)
  balancers : cfg'.balancers = cfg.balancers

theorem Step.refl (cfg : Config) : Step cfg [] [] cfg where
  inbounds := ⟨[], (List.append_nil _).symm, rfl⟩
  rules := ⟨[], rfl, List.Perm.refl _⟩
  balancers := rfl

theorem table_balancers (cfg : Config) : cfg.table["balancers"]? = (cfg.balancers.bind id).bind id := by
  rw [Config.table, Config.balancers]
  rcases readRouting cfg.routing with _ | (_ | m)
  · simp
  · simp
  · rfl

theorem isBalancer_congr {t t' : Fields} (same : t["balancers"]? = t'["balancers"]?) (tag : String) :
    routingTagIsBalancer t tag = routingTagIsBalancer t' tag := by
  rw [routingTagIsBalancer, routingTagIsBalancer, same]

theorem targetExists_congr {t t' : Fields} (same : t["balancers"]? = t'["balancers"]?) (outbounds : Option Json)
    (tag : String) : routingTargetExists t outbounds tag = routingTargetExists t' outbounds tag := by
  rw [routingTargetExists, routingTargetExists, isBalancer_congr same]

theorem rule_congr {t t' : Fields} (same : t["balancers"]? = t'["balancers"]?) : Bridge.rule t = Bridge.rule t' := by
  funext b
  rw [Bridge.rule, Bridge.rule]
  congr 1
  funext target
  rw [egressRule, egressRule, isBalancer_congr same]

theorem Step.tags {cfg cfg' : Config} {bridges : List Bridge} {extra : List Json} (step : Step cfg bridges extra cfg') :
    cfg'.tags = cfg.tags ++ bridges.map (·.tag) := by
  obtain ⟨made, whole, slots⟩ := step.inbounds
  have tags := congrArg (List.map Slot.tag) slots
  rw [List.map_map, List.map_map] at tags
  rw [Config.tags, whole, List.map_append]
  exact congrArg _ tags

theorem Step.ports {cfg cfg' : Config} {bridges : List Bridge} {extra : List Json} (step : Step cfg bridges extra cfg') :
    cfg'.ports = cfg.ports ++ bridges.map (·.port) := by
  obtain ⟨made, whole, slots⟩ := step.inbounds
  have ports := congrArg (List.map Slot.port) slots
  rw [List.map_map, List.map_map] at ports
  rw [Config.ports, whole, List.map_append]
  exact congrArg _ ports

theorem Step.table {cfg cfg' : Config} {bridges : List Bridge} {extra : List Json} (step : Step cfg bridges extra cfg') :
    cfg'.table["balancers"]? = cfg.table["balancers"]? := by
  rw [table_balancers, table_balancers, step.balancers]

theorem null_iff (cfg : Config) : cfg.routing = some .null ↔ cfg.balancers = some none := by
  rw [Config.balancers]
  rcases cfg.routing with _ | (_ | b | n | text | items | members) <;> simp [readRouting, Json.asFields]

theorem Step.trans {cfg mid cfg' : Config} {bridges bridges' : List Bridge} {extra extra' : List Json}
    (first : Step cfg bridges extra mid) (second : Step mid bridges' extra' cfg') :
    Step cfg (bridges ++ bridges') (extra ++ extra') cfg' where
  inbounds := by
    obtain ⟨made, whole, slots⟩ := first.inbounds
    obtain ⟨made', whole', slots'⟩ := second.inbounds
    refine ⟨made ++ made', ?_, ?_⟩
    · rw [whole', whole, List.append_assoc]
    · rw [List.map_append, List.map_append, slots, slots']
  rules := by
    obtain ⟨new, whole, perm⟩ := first.rules
    obtain ⟨new', whole', perm'⟩ := second.rules
    refine ⟨new' ++ new, ?_, ?_⟩
    · rw [whole', whole, List.append_assoc]
    · rw [rule_congr first.table] at perm'
      rw [List.filterMap_append]
      have both := perm'.append perm
      apply both.trans
      -- Both sides hold the same four lists.
      rw [← Multiset.coe_eq_coe]
      simp only [← Multiset.coe_add]
      abel
  balancers := second.balancers.trans first.balancers

theorem prependRules_some {cfg : Config} {routing : Option Fields} (read : readRouting cfg.routing = some routing)
    {newRules : List Json} {newRouting : Json} (wrote : prependRules routing newRules = some newRouting)
    (inbounds : List InboundConfig) (outbounds : Option Json) :
    (Config.mk inbounds (some newRouting) outbounds).rules = newRules ++ cfg.rules ∧
      (Config.mk inbounds (some newRouting) outbounds).balancers = cfg.balancers := by
  cases routing with
  | none => cases wrote
  | some m =>
      obtain rfl : Json.ofFields (m.insert "rules" (.arr (newRules ++ rulesOf m))) = newRouting := by
        simpa [prependRules] using wrote
      have reads : readRouting (some (Json.ofFields (m.insert "rules" (.arr (newRules ++ rulesOf m))))) =
          some (some (m.insert "rules" (.arr (newRules ++ rulesOf m)))) := by
        have decoded := Json.asFields_ofFields (m.insert "rules" (.arr (newRules ++ rulesOf m)))
        rw [Json.ofFields] at decoded ⊢
        simp only [readRouting, decoded, Option.map_some]
      constructor
      · rw [Config.rules, Config.rules, Config.table, Config.table, reads, read]
        simp [rulesOf]
      · rw [Config.balancers, Config.balancers, reads, read]
        simp [Std.ExtTreeMap.getElem?_insert]

end ThreeXNode.Service.Egress
