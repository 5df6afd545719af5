import ThreeXNode.Xray.HotDiff

namespace ThreeXNode.Xray
open Library

structure Frame where
  listen : Option Json
  port : Int
  protocol : String
  settings : Option Json
  streamSettings : Option Json
  sniffing : Option Json
  deriving DecidableEq

structure Routing where
  rest : Json
  rules : Option Json
  balancers : Option Json
  deriving DecidableEq

/-- A running core: its inbound handlers and their users, its outbounds and which of them is the default, its router,
and what it was started with in the other sections. -/
structure Core where
  handlers : String → Option Frame
  users : String × String → Option User
  outbounds : String → Option Json
  first : Option String
  routing : Option Routing
  sections : List (Option Json)

/-- How the core treats what it is given: which emails it takes for the same, and the user it makes of a client. -/
structure Loader where
  fold : String → String
  user : String → Fields → User

section
variable (l : Loader)

def clientsOf (ib : InboundConfig) : List (String × Fields) :=
  if ib.protocol ∈ userDiffableProtocols then ((splitSettingsClients ib.settings).map (·.1)).getD [] else []

def settingsOf (ib : InboundConfig) : Option Json :=
  match (if ib.protocol ∈ userDiffableProtocols then splitSettingsClients ib.settings else none) with
  | some (_, rest) => some (.ofFields rest)
  | none => canonicalJSON ib.settings

def frameOf (ib : InboundConfig) : Frame where
  listen := canonicalJSON ib.listen
  port := ib.port
  protocol := ib.protocol
  settings := settingsOf ib
  streamSettings := canonicalJSON ib.streamSettings
  sniffing := canonicalJSON ib.sniffing

/-- The users a core loads for an inbound, under the names it knows them by. -/
def usersOf (ib : InboundConfig) : List (String × User) :=
  (clientsOf ib).map fun client => (l.fold client.1, l.user ib.protocol client.2)

def member (j : Json) (key : String) : Option Json := (j.asFields).bind (·[key]?)

def routingOf (w : Written) : Routing where
  rest := (routingWithoutReloadable w).getD (canon w.value)
  rules := member (canon w.value) "rules"
  balancers := member (canon w.value) "balancers"

def start (cfg : Config) : Core where
  handlers tag := (findTag cfg.inbounds tag).map frameOf
  users k := (findTag cfg.inbounds k.1).bind fun ib => entryAt (usersOf l ib) k.2
  outbounds tag := entryAt ((parseOutbounds cfg.outbounds).getD []) tag
  first := ((parseOutbounds cfg.outbounds).getD []).head?.map (·.1)
  routing := cfg.routing.map routingOf
  sections := cfg.static.map canonicalJSON

/-- The core refuses to start with two users of one name in an inbound. -/
def Startable (cfg : Config) : Prop := ∀ ib ∈ cfg.inbounds, ((usersOf l ib).map (·.1)).Nodup

/-! ## The API of a running core -/

namespace Core

def removeUser (c : Core) (op : UserOp) : Except Fault Core :=
  if (c.handlers op.tag).isNone then .error .missing
  else do return { c with users := ← take c.users (op.tag, l.fold op.email) }

def removeInbound (c : Core) (tag : String) : Except Fault Core := do
  return { c with handlers := ← take c.handlers tag, users := fun k => if k.1 = tag then none else c.users k }

def removeOutbound (c : Core) (tag : String) : Except Fault Core := do
  return { c with outbounds := ← take c.outbounds tag, first := if c.first = some tag then none else c.first }

def addOutbound (c : Core) (entry : String × Json) : Except Fault Core := do
  return { c with outbounds := ← put c.outbounds entry, first := c.first.or (some entry.1) }

def addInbound (c : Core) (ib : InboundConfig) : Except Fault Core := do
  return { c with
    handlers := ← put c.handlers (ib.tag, frameOf ib)
    users := fun k => if k.1 = ib.tag then entryAt (usersOf l ib) k.2 else c.users k }

/-- `XrayAPI.AddUser` with the client's decoded JSON, in which numbers are still text. -/
def addUser (c : Core) (op : UserOp) : Except Fault Core :=
  match apiUser (fun _ => none) op.protocol (op.user.getD ∅) with
  | .ok (some user) =>
      if (c.handlers op.tag).isNone then .error .missing
      else do return { c with users := ← put c.users ((op.tag, l.fold op.email), user) }
  | .ok none => .ok c
  | .error _ => .error .refused

def applyRouting (c : Core) (routing : Option Written) : Core :=
  match routing with
  | some w => { c with routing := c.routing.map fun r =>
      { r with rules := (routingOf w).rules, balancers := (routingOf w).balancers } }
  | none => c

def hotApply (d : HotDiff) (c : Core) : Except Fault Core := do
  let c ← d.removedUsers.foldlM (removeUser l) c
  let c ← d.removedInboundTags.foldlM removeInbound c
  let c ← d.removedOutboundTags.foldlM removeOutbound c
  let c ← d.addedOutbounds.foldlM addOutbound c
  let c ← d.addedInbounds.foldlM (addInbound l) c
  let c ← d.addedUsers.foldlM (addUser l) c
  return c.applyRouting d.routingConfig

end Core

end

end ThreeXNode.Xray
