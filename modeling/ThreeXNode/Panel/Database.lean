import ThreeXNode.Library.Json
import ThreeXNode.Library.Fold
import ThreeXNode.Library.Texts
import ThreeXNode.Service.Ports

namespace ThreeXNode.Panel
open Library
open Service (Protocol)

structure Counter where
  up : Int
  down : Int
  deriving DecidableEq

structure ClientTraffic where
  inboundId : Nat
  enable : Bool
  email : String
  up : Int
  down : Int
  expiryTime : Int
  total : Int
  reset : Int
  resetDay : Int
  resetMax : Int
  resetCount : Int
  lastOnline : Int
  deriving DecidableEq

/-- A row of `inbounds`, and an inbound as a node reports it; `settings` is `none` where the text is no object. -/
structure Inbound where
  id : Nat
  nodeId : Option Nat
  originNodeGuid : String
  tag : String
  listen : String
  port : Int
  protocol : Protocol
  settings : Option Fields
  streamSettings : Option Fields
  sniffing : String
  trafficReset : String
  trafficResetDay : Int
  lastTrafficResetTime : Int
  enable : Bool
  remark : String
  subSortIndex : Int
  total : Int
  expiryTime : Int
  up : Int
  down : Int
  disableFlow : Bool
  clientStats : List ClientTraffic

structure ClientRecord where
  id : Nat
  email : String
  subID : String
  uuid : String
  password : String
  auth : String
  flow : String
  security : String
  reverse : Option String
  privateKey : String
  publicKey : String
  allowedIPs : String
  preSharedKey : String
  keepAlive : Int
  forwardedPorts : String
  secret : String
  adTag : String
  limitIP : Int
  totalGB : Int
  expiryTime : Int
  enable : Bool
  tgID : Int
  group : String
  comment : String
  reset : Int
  resetDay : Int
  resetMax : Int
  trafficReset : String
  trafficResetDay : Int
  createdAt : Int
  updatedAt : Int
  syncOrphanedAt : Int

structure ClientInbound where
  clientId : Nat
  inboundId : Nat
  flowOverride : String
  deriving DecidableEq

structure NodeClientTraffic where
  nodeId : Nat
  email : String
  up : Int
  down : Int
  deriving DecidableEq

structure ClientGlobalTraffic where
  masterGuid : String
  email : String
  up : Int
  down : Int
  deriving DecidableEq

structure Node where
  id : Nat
  guid : String
  configDirty : Bool
  inboundSyncMode : String
  inboundTags : List String

structure Database where
  panelGuid : String
  nodes : List Node
  inbounds : List Inbound
  /-- The id the next inserted inbound gets. -/
  nextInboundId : Nat
  clients : List ClientRecord
  nextClientId : Nat
  clientInbounds : List ClientInbound
  clientTraffics : List ClientTraffic
  nodeClientTraffics : List NodeClientTraffic
  clientGlobalTraffics : List ClientGlobalTraffic

def trafficMax : Int := 9000000000000000000

def clampedAdd (stored delta : Int) : Int := min (stored + delta) trafficMax

def normalizeSubSortIndex (v : Int) : Int := if v < 1 then 1 else v

def normalizeTrafficResetDay (day : Int) : Int := if day < 1 then 1 else min day 31

def toLower (s : String) : String := s.map lowerRune

def trimSpace (s : String) : String := String.ofList (Service.Ports.trimSpace s.toList)

def jsonString : Option Json → String
  | some (.str s) => s
  | _ => ""

def jsonBool : Option Json → Bool
  | some (.bool b) => b
  | _ => false

def settingsClients (settings : Fields) : Option (List Json) :=
  match settings["clients"]? with
  | some (.arr clients) => some clients
  | _ => none

def entryEmail : Json → String
  | .obj members => jsonString (Std.ExtTreeMap.ofList members : Fields)["email"]?
  | _ => ""

/-! ## Tags of a node -/

def cutPrefix (lead s : String) : Option String :=
  if lead.toList <+: s.toList then some (String.ofList (s.toList.drop lead.length)) else none

def nodeTagPrefix (nodeId : Nat) : String := "n" ++ toString nodeId ++ "-"

/-- The tag without the prefix of the node where it has it, and with it where it has not. -/
def flipTag (nodeId : Nat) (tag : String) : String :=
  (cutPrefix (nodeTagPrefix nodeId) tag).getD (nodeTagPrefix nodeId ++ tag)

/-- The tags a node's selection allows; `none` where the node is not in selected mode. -/
def nodeSelectedTagSet (node : Node) : Option (List String) :=
  if node.inboundSyncMode = "selected" then some (node.inboundTags.flatMap fun tag => [tag, flipTag node.id tag])
  else none

def unmanagedTag (node : Node) (tag : String) : Bool :=
  match nodeSelectedTagSet node with
  | none => false
  | some managed => tag ∉ managed

def synthNodeGuid (nodeId : Nat) : String := "node:" ++ toString nodeId

def effectiveNodeKey (db : Database) (node : Node) : String :=
  if node.guid = "" then synthNodeGuid node.id
  else if db.nodes.countP (fun n => n.guid = node.guid) > 1 ∨ node.guid = db.panelGuid then synthNodeGuid node.id
  else node.guid

end ThreeXNode.Panel
