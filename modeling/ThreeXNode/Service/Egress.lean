import ThreeXNode.AmneziaWG.Instance
import ThreeXNode.Library.Probing
import ThreeXNode.Panel.Links

namespace ThreeXNode.Service.Egress
open Library
open Ports (Inbound socksPortForInbound)
open AmneziaWG (Netip Instance)

/-! ## The generated config -/

structure InboundConfig where
  listen : Option Json
  port : Int
  protocol : String
  settings : Option Json
  tag : String
  sniffing : Option Json

/-- A section is `none` where it is empty. -/
structure Config where
  inbounds : List InboundConfig
  routing : Option Json
  outbounds : Option Json

structure Node where
  id : Nat
  enable : Bool
  outboundTag : String

def Config.tags (cfg : Config) : List String := cfg.inbounds.map (·.tag)

def Config.ports (cfg : Config) : List Int := cfg.inbounds.map (·.port)

/-- The routing section read into a map: `none` where it is no object, and `some none` the nil map that `null` gives. -/
def readRouting : Option Json → Option (Option Fields)
  | none => some (some ∅)
  | some .null => some none
  | some section' => section'.asFields.map some

def rulesOf (routing : Fields) : List Json :=
  match routing["rules"]? with
  | some (.arr rules) => rules
  | _ => []

def Config.table (cfg : Config) : Fields := ((readRouting cfg.routing).bind id).getD ∅

def Config.rules (cfg : Config) : List Json := rulesOf cfg.table

def routingTagIsBalancer (routing : Fields) (tag : String) : Bool :=
  tag ≠ "" && match routing["balancers"]? with
    | some (.arr balancers) => balancers.any fun b => match b with
        | .obj members => (Std.ExtTreeMap.ofList members : Fields)["tag"]? == some (.str tag)
        | _ => false
    | _ => false

def outboundTagExists (outbounds : Option Json) (tag : String) : Bool :=
  tag ≠ "" && match outbounds.bind (Json.asList fun out => out.asFields.bind fun o => Panel.member o "tag" Json.asText "") with
    | some tags => tags.contains tag
    | none => false

def routingTargetExists (routing : Fields) (outbounds : Option Json) (tag : String) : Bool :=
  routingTagIsBalancer routing tag || outboundTagExists outbounds tag

def egressRule (routing : Fields) (tag target : String) : Json :=
  .ofFields (.ofList [("type", Json.str "field"), ("inboundTag", Json.arr [.str tag]),
    (if routingTagIsBalancer routing target then "balancerTag" else "outboundTag", Json.str target)])

/-- The section with more rules in front, `none` where the map is nil: assigning to it panics. -/
def prependRules (routing : Option Fields) (newRules : List Json) : Option Json :=
  routing.map fun m => .ofFields (m.insert "rules" (.arr (newRules ++ rulesOf m)))

def loopback : Option Json := some (.str "127.0.0.1")

def noauthSettings : Json := .obj [("auth", .str "noauth"), ("udp", .bool false)]

def socksBridge (tag : String) (port : Int) : InboundConfig where
  listen := loopback
  port := port
  protocol := "socks"
  settings := some noauthSettings
  tag := tag
  sniffing := none

/-! ## MTProto inbounds -/

structure MtprotoRoute where
  routeThroughXray : Bool
  routeXrayPort : Int
  outboundTag : String

def MtprotoRoute.ofJson (settings : Json) : Option MtprotoRoute := do
  let o ← settings.asFields
  return {
    routeThroughXray := ← Panel.member o "routeThroughXray" Json.asBool false
    routeXrayPort := ← Panel.member o "routeXrayPort" Json.asInt64 0
    outboundTag := ← Panel.member o "outboundTag" Json.asText "" }

/-- `none` where the code panics, here and below. -/
def injectMtprotoEgress (cfg : Config) (inbound : Inbound) : Option Config :=
  match inbound.settings.bind MtprotoRoute.ofJson with
  | none => some cfg
  | some parsed =>
      if !parsed.routeThroughXray ∨ parsed.routeXrayPort ≤ 0 ∨ inbound.tag = "" then some cfg
      else if inbound.tag ∈ cfg.tags then some cfg
      else
        let bridge := socksBridge inbound.tag parsed.routeXrayPort
        if parsed.outboundTag = "" then some { cfg with inbounds := cfg.inbounds ++ [bridge] }
        else match readRouting cfg.routing with
          | none => some cfg
          | some routing =>
              if !routingTargetExists (routing.getD ∅) cfg.outbounds parsed.outboundTag then some cfg
              else (prependRules routing [egressRule (routing.getD ∅) inbound.tag parsed.outboundTag]).map fun newRouting =>
                { cfg with routing := some newRouting, inbounds := cfg.inbounds ++ [bridge] }

/-! ## AmneziaWG inbounds -/

section
variable (net : Netip) (instanceFromInbound : Inbound → Option Instance) (socksPassword : String)

def amneziawgEgressSniffingSettings : Json :=
  .obj [("enabled", .bool true), ("destOverride", .arr [.str "http", .str "tls", .str "quic", .str "fakedns"])]

def socksInboundSettings (emails : List String) (password : String) : Json :=
  .obj [("auth", .str "password"), ("udp", .bool true),
    ("accounts", .arr (emails.map fun email => .obj [("user", .str email), ("pass", .str password)]))]

def localAmneziawg (inbound : Inbound) : Bool :=
  inbound.protocol = .amneziawg && inbound.enable && inbound.nodeId.isNone

def peerEmails (inst : Instance) : List String := (inst.peers.map (·.email)).filter (· ≠ "")

def amneziawgnetSocks (existingTags : List String) : List Inbound → List InboundConfig
  | [] => []
  | inbound :: rest =>
      if !localAmneziawg inbound then amneziawgnetSocks existingTags rest
      else match instanceFromInbound inbound with
        | none => amneziawgnetSocks existingTags rest
        | some inst =>
            if inbound.tag ∈ existingTags ∨ peerEmails inst = [] then amneziawgnetSocks existingTags rest
            else {
                listen := loopback
                port := socksPortForInbound inbound.id
                protocol := "socks"
                settings := some (socksInboundSettings (peerEmails inst) socksPassword)
                tag := inbound.tag
                sniffing := some amneziawgEgressSniffingSettings } ::
              amneziawgnetSocks (inbound.tag :: existingTags) rest

def injectAmneziawgnetSocks (cfg : Config) (inbounds : List Inbound) : Config :=
  { cfg with inbounds := cfg.inbounds ++ amneziawgnetSocks instanceFromInbound socksPassword cfg.tags inbounds }

structure V6Egress where
  tag : String
  sendThrough : String
  inboundTag : String
  email : String

def amneziawgV6EgressTag (inboundId : Nat) (email : String) : String :=
  "amneziawg-v6-" ++ toString inboundId ++ "-" ++ email

/-- The peers of one inbound, and the tags used after them. -/
def v6Peers (inbound : Inbound) : List String → List AmneziaWG.Peer → List V6Egress × List String
  | used, [] => ([], used)
  | used, p :: rest =>
      let v6 := AmneziaWG.firstIPv6 net p.allowedIPs
      let tag := amneziawgV6EgressTag inbound.id p.email
      if p.email = "" ∨ v6 = "" ∨ tag ∈ used then v6Peers inbound used rest
      else
        let (egresses, used) := v6Peers inbound (tag :: used) rest
        (⟨tag, v6, inbound.tag, p.email⟩ :: egresses, used)

def v6Egresses (liveInboundTags : List String) : List String → List Inbound → List V6Egress
  | _, [] => []
  | used, inbound :: rest =>
      if !localAmneziawg inbound ∨ inbound.tag ∉ liveInboundTags then v6Egresses liveInboundTags used rest
      else match instanceFromInbound inbound with
        | none => v6Egresses liveInboundTags used rest
        | some inst =>
            if !AmneziaWG.v6AliasesActive inst then v6Egresses liveInboundTags used rest
            else
              let (egresses, used) := v6Peers net inbound used inst.peers
              egresses ++ v6Egresses liveInboundTags used rest

def V6Egress.outbound (e : V6Egress) : Json :=
  .obj [("protocol", .str "freedom"), ("sendThrough", .str e.sendThrough), ("settings", .obj []), ("tag", .str e.tag)]

def V6Egress.rule (e : V6Egress) : Json :=
  .ofFields (.ofList [("type", Json.str "field"), ("inboundTag", Json.arr [.str e.inboundTag]),
    ("user", Json.arr [.str e.email]), ("outboundTag", Json.str e.tag)])

def readOutbounds : Option Json → Option (List Json)
  | none => some []
  | some outbounds => Json.asList some outbounds

def outboundTag : Json → Option String
  | .obj members => match (Std.ExtTreeMap.ofList members : Fields)["tag"]? with
      | some (.str tag) => some tag
      | _ => none
  | _ => none

def liveInboundTags (cfg : Config) : List String := (cfg.inbounds.filter (·.protocol = "socks")).map (·.tag)

def amneziawgV6 (cfg : Config) (inbounds : List Inbound) : List V6Egress :=
  match readOutbounds cfg.outbounds, readRouting cfg.routing with
  | some existing, some _ =>
      v6Egresses net instanceFromInbound (liveInboundTags cfg) (existing.filterMap outboundTag) inbounds
  | _, _ => []

def injectAmneziawgV6Egress (cfg : Config) (inbounds : List Inbound) : Option Config :=
  match readOutbounds cfg.outbounds, readRouting cfg.routing with
  | some existing, some routing =>
      let egresses := amneziawgV6 net instanceFromInbound cfg inbounds
      if egresses = [] then some cfg
      else (prependRules routing (egresses.map V6Egress.rule)).map fun newRouting =>
        { cfg with outbounds := some (.arr (existing ++ egresses.map V6Egress.outbound)), routing := some newRouting }
  | _, _ => some cfg

end

/-! ## The panel and the nodes -/

def panelEgressInboundTag : String := "panel-egress"

def panelEgressBasePort : Int := 62790

def injectPanelEgress (cfg : Config) (outboundTag : String) : Option Config :=
  if panelEgressInboundTag ∈ cfg.tags then some cfg
  else match readRouting cfg.routing with
    | none => some cfg
    | some routing =>
        if !routingTargetExists (routing.getD ∅) cfg.outbounds outboundTag then some cfg
        else (prependRules routing [egressRule (routing.getD ∅) panelEgressInboundTag outboundTag]).map fun newRouting =>
          let port := Probing.probe cfg.ports panelEgressBasePort
          { cfg with routing := some newRouting, inbounds := cfg.inbounds ++ [socksBridge panelEgressInboundTag port] }

def nodeEgressInboundTag (nodeId : Nat) : String := "node-egress-" ++ toString nodeId

def nodeEgressBasePort : Int := 62800

def nodeEgresses (routing : Fields) (outbounds : Option Json) :
    List Int → List String → List Node → List (InboundConfig × Json)
  | _, _, [] => []
  | used, usedTags, n :: rest =>
      let tag := nodeEgressInboundTag n.id
      if !n.enable ∨ n.outboundTag = "" then nodeEgresses routing outbounds used usedTags rest
      else if !routingTargetExists routing outbounds n.outboundTag then nodeEgresses routing outbounds used usedTags rest
      else if tag ∈ usedTags then nodeEgresses routing outbounds used usedTags rest
      else
        let port := Probing.probe used (nodeEgressBasePort + n.id)
        (socksBridge tag port, egressRule routing tag n.outboundTag) ::
          nodeEgresses routing outbounds (port :: used) (tag :: usedTags) rest

def injectNodeEgresses (cfg : Config) (nodes : List Node) : Option Config :=
  match readRouting cfg.routing with
  | none => some cfg
  | some routing =>
      let made := nodeEgresses (routing.getD ∅) cfg.outbounds cfg.ports cfg.tags nodes
      if made = [] then some cfg
      else (prependRules routing (made.map (·.2))).map fun newRouting =>
        { cfg with routing := some newRouting, inbounds := cfg.inbounds ++ made.map (·.1) }

/-! ## The end of `GetXrayConfig` -/

def localMtproto (inbound : Inbound) : Bool :=
  inbound.protocol = .mtproto && inbound.enable && inbound.nodeId.isNone

def injectEgresses (net : Netip) (instanceFromInbound : Inbound → Option Instance) (socksPassword : String)
    (inbounds : List Inbound) (panelOutbound : String) (nodes : List Node) (cfg : Config) : Option Config := do
  let cfg ← (inbounds.filter localMtproto).foldlM injectMtprotoEgress cfg
  let cfg := injectAmneziawgnetSocks instanceFromInbound socksPassword cfg inbounds
  let cfg ← injectAmneziawgV6Egress net instanceFromInbound cfg inbounds
  let cfg ← if panelOutbound = "" then some cfg else injectPanelEgress cfg panelOutbound
  injectNodeEgresses cfg nodes

end ThreeXNode.Service.Egress
