import ThreeXNode.Library.Json
import ThreeXNode.Library.Net
import ThreeXNode.Library.Transition

namespace ThreeXNode.Service
open Library

inductive Protocol where
  | vmess
  | vless
  | tunnel
  | http
  | trojan
  | shadowsocks
  | mixed
  | tun
  | wireguard
  | hysteria
  | mtproto
  | amneziawg
  deriving DecidableEq

namespace Ports

/-- A row of the table of inbounds; a text is `none` where it is empty or not JSON. -/
structure Inbound where
  id : Nat
  nodeId : Option Nat
  enable : Bool
  remark : String
  tag : String
  listen : String
  port : Int
  protocol : Protocol
  streamSettings : Option Json
  settings : Option Json

structure Transports where
  tcp : Bool
  udp : Bool
  deriving DecidableEq

def Transports.and (a b : Transports) : Transports := ⟨a.tcp && b.tcp, a.udp && b.udp⟩

def Transports.or (a b : Transports) : Transports := ⟨a.tcp || b.tcp, a.udp || b.udp⟩

def noTransport : Transports := ⟨false, false⟩
def transportTCP : Transports := ⟨true, false⟩
def transportUDP : Transports := ⟨false, true⟩

/-! ## Transports -/

def isSpace (ch : Char) : Bool :=
  ch.toNat ∈ [9, 10, 11, 12, 13, 32, 0x85, 0xA0, 0x1680, 0x2028, 0x2029, 0x202F, 0x205F, 0x3000] ||
    (0x2000 ≤ ch.toNat && ch.toNat ≤ 0x200A)

def trimSpace (cs : List Char) : List Char := ((cs.dropWhile isSpace).reverse.dropWhile isSpace).reverse

def textAt (j : Option Json) (key : String) : String :=
  match (j.bind Json.asFields).bind (·[key]?) with
  | some (.str s) => s
  | _ => ""

def flagAt (j : Option Json) (key : String) : Bool :=
  match (j.bind Json.asFields).bind (·[key]?) with
  | some (.bool b) => b
  | _ => false

def networkTransports (networks : String) : Transports :=
  (Net.splitOnChar ',' networks.toList).foldl (fun bits part =>
    if String.ofList (trimSpace part) = "tcp" then bits.or transportTCP
    else if String.ofList (trimSpace part) = "udp" then bits.or transportUDP
    else bits) noTransport

def inboundTransports (protocol : Protocol) (streamSettings settings : Option Json) : Transports :=
  match protocol with
  | .hysteria | .wireguard | .amneziawg => transportUDP
  | .mtproto => transportTCP
  | _ =>
      let stream := if textAt streamSettings "network" ∈ ["kcp", "quic"] then transportUDP else transportTCP
      let bits := match protocol with
        | .shadowsocks | .tunnel =>
            let networks := textAt settings (if protocol = .tunnel then "allowedNetwork" else "network")
            if networks = "" then stream else networkTransports networks
        | .mixed => if flagAt settings "udp" then stream.or transportUDP else stream
        | _ => stream
      if bits = noTransport then transportTCP else bits

def Inbound.transports (ib : Inbound) : Transports := inboundTransports ib.protocol ib.streamSettings ib.settings

/-! ## The checks -/

def isAnyListen (s : String) : Bool := s ∈ ["", "0.0.0.0", "::", "::0"]

def listenOverlaps (a b : String) : Bool := isAnyListen a || isAnyListen b || a = b

structure PortConflictDetail where
  inboundId : Nat := 0
  remark : String := ""
  tag : String
  listen : String
  port : Int
  transports : Transports

def socksBasePort : Int := 65100

def socksPortForInbound (inboundId : Nat) : Int := socksBasePort + inboundId

def others (rows : List Inbound) (ignoreId : Nat) : List Inbound :=
  if ignoreId > 0 then rows.filter (·.id ≠ ignoreId) else rows

def Inbound.conflict (c : Inbound) (listen : String) (port : Int) (transports : Transports) : PortConflictDetail where
  inboundId := c.id
  remark := c.remark
  tag := c.tag
  listen := listen
  port := port
  transports := transports

section
-- `reservedAPIPort`, and whether `amneziawg.InstanceFromInbound` finds an instance in the settings.
variable (apiPort : Int) (instanceFromInbound : Option Json → Bool)

/-- Whether the inbound gets a relay in the generated config. -/
def Inbound.relayed (ib : Inbound) : Bool :=
  ib.protocol = .amneziawg && ib.enable && ib.nodeId.isNone && instanceFromInbound ib.settings

def checkAmneziawgnetSocksConflict (rows : List Inbound) (inbound : Inbound) (ignoreId : Nat) (newBits : Transports) :
    Option PortConflictDetail :=
  ((others rows ignoreId).find? fun c => c.relayed instanceFromInbound && socksPortForInbound c.id = inbound.port).map
    fun c => c.conflict "127.0.0.1" inbound.port newBits

def checkAmneziawgnetSocksReverseConflict (rows : List Inbound) (id : Nat) : Option PortConflictDetail :=
  (rows.find? fun c => c.port = socksPortForInbound id && c.nodeId.isNone && c.id ≠ id &&
    listenOverlaps "127.0.0.1" c.listen).map fun c => c.conflict c.listen (socksPortForInbound id) transportTCP

def checkPortConflictTx (rows : List Inbound) (inbound : Inbound) (ignoreId : Nat) : Option PortConflictDetail :=
  let newBits := inbound.transports
  if inbound.nodeId.isNone && inbound.port = apiPort && newBits.tcp && listenOverlaps "127.0.0.1" inbound.listen then
    some { tag := "api", listen := "127.0.0.1", port := inbound.port, transports := transportTCP }
  else
    let relay :=
      if inbound.nodeId.isNone && listenOverlaps "127.0.0.1" inbound.listen then
        checkAmneziawgnetSocksConflict instanceFromInbound rows inbound ignoreId newBits
      else none
    let reverse :=
      if inbound.protocol = .amneziawg && ignoreId > 0 then checkAmneziawgnetSocksReverseConflict rows ignoreId
      else none
    let candidate := ((others rows ignoreId).find? fun c => c.port = inbound.port && c.nodeId = inbound.nodeId &&
      listenOverlaps c.listen inbound.listen && (c.transports.and newBits) ≠ noTransport).map
        fun c => c.conflict c.listen c.port (c.transports.and newBits)
    relay.or (reverse.or candidate)

/-! ## The operations -/

def normalizeStreamSettings (inbound : Inbound) : Inbound :=
  if inbound.protocol ∈ [.vmess, .vless, .trojan, .shadowsocks, .hysteria, .wireguard, .tunnel] then
    match (inbound.streamSettings.bind Json.asFields) with
    | some stream => match stream["method"]? with
      | some (.str method) =>
          let renamed := Json.ofFields ((stream.insert "network" (.str method)).erase "method")
          if method = "" then inbound else { inbound with streamSettings := some renamed }
      | _ => inbound
    | none => inbound
  else { inbound with streamSettings := none }

def withClients (settings : Option Json) (clients : Option Json) : Option Json :=
  match settings.bind Json.asFields, clients with
  | some fields, some clients => some (.ofFields (fields.insert "clients" clients))
  | _, _ => settings

inductive Op where
  | addInbound (inbound : Inbound) (id : Nat) (clients : Option Json)
  | updateInbound (inbound : Inbound) (clients : Option Json)
  | setInboundEnable (id : Nat) (enable : Bool)

def added (inbound : Inbound) (id : Nat) (clients : Option Json) : Inbound :=
  let inbound := normalizeStreamSettings inbound
  { inbound with id, settings := withClients inbound.settings clients }

def addInbound (rows : List Inbound) (inbound : Inbound) (id : Nat) (clients : Option Json) : Option (List Inbound) :=
  if id = 0 ∨ id ∈ rows.map (·.id) then none
  else
    let row := added inbound id clients
    if (checkPortConflictTx apiPort instanceFromInbound rows { row with id := 0 } 0).isSome then none
    else if row.protocol = .amneziawg ∧ (socksPortForInbound id > 65535 ∨
        (checkAmneziawgnetSocksReverseConflict (rows ++ [row]) id).isSome) then none
    else some (rows ++ [row])

def updated (old inbound : Inbound) (clients : Option Json) : Inbound :=
  let inbound := normalizeStreamSettings inbound
  { inbound with id := old.id, nodeId := old.nodeId, settings := withClients inbound.settings clients }

def updateInbound (rows : List Inbound) (inbound : Inbound) (clients : Option Json) : Option (List Inbound) := do
  let old ← rows.find? (·.id = inbound.id)
  let checked := { normalizeStreamSettings inbound with nodeId := old.nodeId }
  if (checkPortConflictTx apiPort instanceFromInbound rows checked inbound.id).isSome then none
  else return rows.map fun r => if r.id = inbound.id then updated old inbound clients else r

def setInboundEnable (rows : List Inbound) (id : Nat) (enable : Bool) : Option (List Inbound) := do
  let old ← rows.find? (·.id = id)
  if old.enable = enable then return rows
  else return rows.map fun r => if r.id = id then { r with enable } else r

/-- The table of inbounds, under operations that are accepted. -/
def table : System (List Inbound) Op where
  next rows
    | .addInbound inbound id clients => addInbound apiPort instanceFromInbound rows inbound id clients
    | .updateInbound inbound clients => updateInbound apiPort instanceFromInbound rows inbound clients
    | .setInboundEnable id enable => setInboundEnable rows id enable

/-! ## What listens -/

structure Listener where
  listen : String
  port : Int
  transports : Transports

def Overlap (a b : String) : Bool :=
  let any s := s = "" || Net.ipValue s = Net.ipValue "0.0.0.0" || Net.ipValue s = Net.ipValue "::"
  any a || any b || ((Net.ipValue a).isSome && Net.ipValue a = Net.ipValue b)

def Listener.Clash (a b : Listener) : Bool :=
  a.port = b.port && a.transports.and b.transports ≠ noTransport && Overlap a.listen b.listen

def apiListener : Listener := ⟨"127.0.0.1", apiPort, transportTCP⟩

def Inbound.relay (ib : Inbound) : Listener := ⟨"127.0.0.1", socksPortForInbound ib.id, ⟨true, true⟩⟩

def Inbound.listeners (ib : Inbound) : List Listener :=
  if ib.enable && ib.nodeId.isNone then
    ⟨ib.listen, ib.port, ib.transports⟩ :: if ib.relayed instanceFromInbound then [ib.relay] else []
  else []

def listeners (rows : List Inbound) : List Listener :=
  apiListener apiPort :: rows.flatMap (·.listeners instanceFromInbound)

end

end Ports

end ThreeXNode.Service
