import ThreeXNode.AmneziaWG.ForwardedPorts

namespace ThreeXNode.AmneziaWG
open Library

structure Peer where
  email : String
  publicKey : String
  presharedKey : String
  allowedIPs : List String
  forwardedPorts : String

structure Instance where
  id : Nat
  listenPort : Int
  privateKey : String
  address : List String
  mtu : Int
  peers : List Peer
  externalInterface : String
  ipv6Enabled : Bool
  ipv6ExternalInterface : String

/-! ## Addresses -/

/-- A parsed address: its canonical text and its family, where an IPv4 address written as IPv6 is of neither. -/
structure Addr where
  text : String
  is4 : Bool
  is6 : Bool

/-- `netip.ParsePrefix`, of which only the address is used, and `netip.ParseAddr`. -/
structure Netip where
  parsePrefix : String → Option Addr
  parseAddr : String → Option Addr

/-- The text of the first entry of one family; an entry that is a prefix is not read as an address. -/
def firstOf (net : Netip) (family : Addr → Bool) : List String → String
  | [] => ""
  | entry :: rest =>
      match net.parsePrefix entry with
      | some addr => if family addr then addr.text else firstOf net family rest
      | none =>
          match net.parseAddr entry with
          | some addr => if family addr then addr.text else firstOf net family rest
          | none => firstOf net family rest

def firstIPv4 (net : Netip) (allowedIPs : List String) : String := firstOf net Addr.is4 allowedIPs

def firstIPv6 (net : Netip) (allowedIPs : List String) : String := firstOf net Addr.is6 allowedIPs

/-! ## What an instance wants on the host -/

structure V6Alias where
  addr : String
  iface : String
  deriving DecidableEq

def effectiveIPv6ExternalInterface (inst : Instance) : String :=
  if inst.ipv6ExternalInterface ≠ "" then inst.ipv6ExternalInterface else inst.externalInterface

def v6AliasesActive (inst : Instance) : Bool := inst.ipv6Enabled && effectiveIPv6ExternalInterface inst ≠ ""

/-- By email; of several peers with one email the last that has an address counts. -/
def desiredV6Aliases (net : Netip) (inst : Instance) : Std.ExtTreeMap String V6Alias :=
  if v6AliasesActive inst then
    inst.peers.foldl (fun out p =>
      if p.email = "" ∨ firstIPv6 net p.allowedIPs = "" then out
      else out.insert p.email ⟨firstIPv6 net p.allowedIPs, effectiveIPv6ExternalInterface inst⟩) ∅
  else ∅

def diffV6Aliases (oldSet newSet : Std.ExtTreeMap String V6Alias) : List V6Alias × List V6Alias :=
  ((newSet.toList.filter fun e => oldSet[e.1]? ≠ some e.2).map (·.2),
    (oldSet.toList.filter fun e => newSet[e.1]? ≠ some e.2).map (·.2))

def applyV6Aliases (host : Finset V6Alias) (diff : List V6Alias × List V6Alias) : Finset V6Alias :=
  (host ∪ diff.1.toFinset) \ diff.2.toFinset

inductive PortForwardProto where
  | tcpForward
  | udpForward
  deriving DecidableEq

structure PortForwardKey where
  email : String
  port : Int
  proto : PortForwardProto
  deriving DecidableEq

def hasTarget (net : Netip) (inst : Instance) (email : String) : Bool :=
  inst.peers.any fun p => p.email = email && p.email ≠ "" &&
    let raw := if firstIPv4 net p.allowedIPs = "" && inst.ipv6Enabled then firstIPv6 net p.allowedIPs
      else firstIPv4 net p.allowedIPs
    raw ≠ "" && (net.parseAddr raw).isSome

def desiredPortForwardKeys (net : Netip) (inst : Instance) : Finset PortForwardKey :=
  (inst.peers.flatMap fun p =>
    if p.email = "" ∨ p.forwardedPorts = "" ∨ !hasTarget net inst p.email then []
    else (expandForwardedPorts p.forwardedPorts.toList).flatMap fun port =>
      [⟨p.email, port, .tcpForward⟩, ⟨p.email, port, .udpForward⟩]).toFinset

end ThreeXNode.AmneziaWG
