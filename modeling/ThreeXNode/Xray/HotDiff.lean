import ThreeXNode.Library.Slots
import ThreeXNode.Xray.Account

namespace ThreeXNode.Xray
open Library

/-! ## Sections of a config -/

mutual

/-- The members of objects sorted, and of several with one key only the last. -/
def canon : Json → Json
  | .arr items => .arr (canonItems items)
  | .obj members => .ofFields (.ofList (canonMembers members))
  | .null => .null
  | .bool b => .bool b
  | .num n => .num n
  | .str s => .str s

def canonItems : List Json → List Json
  | [] => []
  | j :: items => canon j :: canonItems items

def canonMembers : List (String × Json) → List (String × Json)
  | [] => []
  | (key, j) :: members => (key, canon j) :: canonMembers members

end

/-- A section as it was written, and what it says. -/
structure Written where
  spelling : String
  value : Json
  deriving DecidableEq

/-- A raw section, `none` where it is empty. -/
abbrev RawMessage := Option Written

def canonicalJSON : RawMessage → Option Json
  | none => none
  | some w => if w.value = .null then none else some (canon w.value)

def rawEqualNormalized (a b : RawMessage) : Bool := a = b || canonicalJSON a = canonicalJSON b

structure InboundConfig where
  listen : RawMessage
  port : Int
  protocol : String
  settings : RawMessage
  streamSettings : RawMessage
  tag : String
  sniffing : RawMessage
  deriving DecidableEq

structure Config where
  log : RawMessage
  routing : RawMessage
  dns : RawMessage
  inbounds : List InboundConfig
  outbounds : RawMessage
  transport : RawMessage
  policy : RawMessage
  api : RawMessage
  stats : RawMessage
  reverse : RawMessage
  fakedns : RawMessage
  observatory : RawMessage
  burstObservatory : RawMessage
  metrics : RawMessage
  geodata : RawMessage
  env : RawMessage
  deriving DecidableEq

def Config.static (c : Config) : List RawMessage :=
  [c.log, c.dns, c.transport, c.policy, c.api, c.stats, c.reverse, c.fakedns, c.observatory, c.burstObservatory,
    c.metrics, c.geodata, c.env]

def inboundEqualNormalized (a b : InboundConfig) : Bool :=
  a.port = b.port && a.protocol = b.protocol && a.tag = b.tag && rawEqualNormalized a.listen b.listen &&
    rawEqualNormalized a.settings b.settings && rawEqualNormalized a.streamSettings b.streamSettings &&
    rawEqualNormalized a.sniffing b.sniffing

def fieldsOf (raw : RawMessage) : Option Fields := raw.bind fun w => (canon w.value).asFields

/-! ## The operations of a diff -/

structure UserOp where
  tag : String
  protocol : String
  email : String
  user : Option Fields

structure HotDiff where
  removedInboundTags : List String
  addedInbounds : List InboundConfig
  removedUsers : List UserOp
  addedUsers : List UserOp
  removedOutboundTags : List String
  addedOutbounds : List (String × Json)
  routingConfig : Option Written

namespace HotDiff

def none : HotDiff := ⟨[], [], [], [], [], [], .none⟩

def append (d e : HotDiff) : HotDiff where
  removedInboundTags := d.removedInboundTags ++ e.removedInboundTags
  addedInbounds := d.addedInbounds ++ e.addedInbounds
  removedUsers := d.removedUsers ++ e.removedUsers
  addedUsers := d.addedUsers ++ e.addedUsers
  removedOutboundTags := d.removedOutboundTags ++ e.removedOutboundTags
  addedOutbounds := d.addedOutbounds ++ e.addedOutbounds
  routingConfig := e.routingConfig.or d.routingConfig

end HotDiff

/-! ## Inbounds -/

/-- `none` when a tag is empty or occurs twice. -/
def inboundsByTag (inbounds : List InboundConfig) : Bool :=
  inbounds.all (·.tag ≠ "") && (inbounds.map (·.tag)).Nodup

def findTag (inbounds : List InboundConfig) (tag : String) : Option InboundConfig := inbounds.find? (·.tag = tag)

def apiTagFromConfig (api : RawMessage) : String :=
  match (fieldsOf api).map (·.text "tag") with
  | some tag => if tag = "" then "api" else tag
  | none => "api"

def inboundUsesReality (ib : InboundConfig) : Bool :=
  match fieldsOf ib.streamSettings with
  | some stream => stream.text "security" = "reality"
  | none => false

def inboundUsesTproxy (ib : InboundConfig) : Bool :=
  match (fieldsOf ib.streamSettings).bind fun stream => (stream["sockopt"]?.getD .null).asFields with
  | some sockopt => sockopt.text "tproxy" ≠ "" ∧ sockopt.text "tproxy" ≠ "off"
  | none => false

def inboundUsesSocksAccounts (ib : InboundConfig) : Bool :=
  ib.protocol = "socks" && match fieldsOf ib.settings with
    | some settings => settings.text "auth" = "password"
    | none => false

def inboundHasReverseClient (ib : InboundConfig) : Bool :=
  match (fieldsOf ib.settings).bind fun settings => (settings["clients"]?.getD .null).asList Json.asFields with
  | some clients => clients.any fun client => (client["reverse"]?.getD .null) ≠ .null
  | none => false

def userDiffableProtocols : List String := ["vless", "vmess", "trojan"]

def indexClients : List (String × Fields) → List Json → Option (List (String × Fields))
  | seen, [] => some seen
  | seen, .obj members :: rest =>
      let client : Fields := .ofList members
      let email := client.text "email"
      if email = "" ∨ email ∈ seen.map (·.1) then none else indexClients (seen ++ [(email, client)]) rest
  | _, _ :: _ => none

def splitSettings (settings : Fields) : Option (List (String × Fields) × Fields) :=
  match settings["clients"]? with
  | some (.arr items) => (indexClients [] items).map fun clients => (clients, settings.erase "clients")
  | _ => none

def splitSettingsClients (raw : RawMessage) : Option (List (String × Fields) × Fields) :=
  (fieldsOf raw).bind splitSettings

def diffInboundUsers (old new : InboundConfig) : Option HotDiff :=
  if old.port ≠ new.port ∨ old.protocol ≠ new.protocol ∨ old.tag ≠ new.tag ∨ old.protocol ∉ userDiffableProtocols ∨
      !rawEqualNormalized old.listen new.listen ∨ !rawEqualNormalized old.streamSettings new.streamSettings ∨
      !rawEqualNormalized old.sniffing new.sniffing then none
  else do
    let (oldClients, oldRest) ← splitSettingsClients old.settings
    let (newClients, newRest) ← splitSettingsClients new.settings
    if oldRest ≠ newRest then none
    else
      return { HotDiff.none with
        removedUsers := (lost oldClients newClients).map fun client => ⟨old.tag, old.protocol, client.1, none⟩
        addedUsers := (gained oldClients newClients).map fun client => ⟨old.tag, old.protocol, client.1, some client.2⟩ }

def diffOldInbound (apiTag : String) (newInbounds : List InboundConfig) (old : InboundConfig) : Except Unit HotDiff :=
  match findTag newInbounds old.tag with
  | none =>
      if old.tag = apiTag ∨ old.tag = "api" then .error ()
      else .ok { HotDiff.none with removedInboundTags := [old.tag] }
  | some new =>
      if inboundEqualNormalized old new then .ok .none
      else if old.tag = apiTag ∨ old.tag = "api" then .error ()
      else if inboundHasReverseClient old ∨ inboundHasReverseClient new then .error ()
      else match diffInboundUsers old new with
        | some piece => .ok piece
        | none =>
            if inboundUsesReality old ∨ inboundUsesReality new then .error ()
            else if inboundUsesTproxy old ∨ inboundUsesTproxy new then .error ()
            else if inboundUsesSocksAccounts old ∨ inboundUsesSocksAccounts new then .error ()
            else .ok { HotDiff.none with removedInboundTags := [old.tag], addedInbounds := [new] }

def diffNewInbound (apiTag : String) (oldInbounds : List InboundConfig) (new : InboundConfig) : Except Unit HotDiff :=
  match findTag oldInbounds new.tag with
  | some _ => .ok .none
  | none =>
      if new.tag = apiTag ∨ new.tag = "api" then .error ()
      else if inboundUsesTproxy new then .error ()
      else if inboundUsesSocksAccounts new then .error ()
      else .ok { HotDiff.none with addedInbounds := [new] }

def gather (piece : InboundConfig → Except Unit HotDiff) (d : HotDiff) (ib : InboundConfig) :
    Except Unit HotDiff := do
  return d.append (← piece ib)

def diffInbounds (old new : Config) (d : HotDiff) : Except Unit HotDiff := do
  require (inboundsByTag old.inbounds) ()
  require (inboundsByTag new.inbounds) ()
  let apiTag := apiTagFromConfig new.api
  let d ← old.inbounds.foldlM (gather (diffOldInbound apiTag new.inbounds)) d
  new.inbounds.foldlM (gather (diffNewInbound apiTag old.inbounds)) d

/-! ## Outbounds and routing -/

def indexOutbounds : List (String × Json) → List Json → Option (List (String × Json))
  | seen, [] => some seen
  | seen, elem :: rest => do
      let fields ← elem.asFields
      let tag ← (fields["tag"]?.getD .null).asText
      if tag = "" ∨ tag ∈ seen.map (·.1) then none else indexOutbounds (seen ++ [(tag, elem)]) rest

def parseOutbounds (raw : RawMessage) : Option (List (String × Json)) :=
  match raw with
  | none => some []
  | some w => match canon w.value with
      | .null => some []
      | .arr items => indexOutbounds [] items
      | _ => none

def diffOutbounds (old new : Config) (d : HotDiff) : Except Unit HotDiff :=
  match parseOutbounds old.outbounds, parseOutbounds new.outbounds with
  | some oldOut, some newOut =>
      if oldOut.head? ≠ newOut.head? then .error ()
      else
        .ok (d.append { HotDiff.none with
          removedOutboundTags := (lost oldOut newOut).map (·.1), addedOutbounds := gained oldOut newOut })
  | _, _ => .error ()

def routingWithoutReloadable (w : Written) : Option Json :=
  match canon w.value with
  | .null => some .null
  | .obj members => some (.ofFields (((Std.ExtTreeMap.ofList members : Fields).erase "rules").erase "balancers"))
  | _ => none

def diffRouting (old new : Config) (d : HotDiff) : Except Unit HotDiff :=
  if old.routing = new.routing then .ok d
  else match old.routing, new.routing with
    | some oldRouting, some newRouting =>
        match routingWithoutReloadable oldRouting, routingWithoutReloadable newRouting with
        | some oldRest, some newRest =>
            if oldRest = newRest then .ok { d with routingConfig := some newRouting }
            else .error ()
        | _, _ => .error ()
    | _, _ => .error ()

def computeHotDiff (old new : Config) : Except Unit HotDiff := do
  require ((old.static.zip new.static).all fun (a, b) => rawEqualNormalized a b) ()
  let d ← diffInbounds old new .none
  let d ← diffOutbounds old new d
  diffRouting old new d

end ThreeXNode.Xray
