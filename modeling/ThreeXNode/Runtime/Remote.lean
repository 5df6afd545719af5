import ThreeXNode.Library.Transition
import ThreeXNode.Service.Ports

namespace ThreeXNode.Runtime
open Library
open Service.Ports (trimSpace)

/-! ## The inbounds of a node -/

variable {β : Type*}

/-- What is pushed of an inbound; `body` is all of it that no decision looks at. -/
structure Wire (β : Type*) where
  tag : String
  listen : String
  port : Int
  protocol : String
  body : β
  deriving DecidableEq

/-- An inbound of the central panel; the flag says that it was adopted from the node itself. -/
structure Inbound (β : Type*) where
  tag : String
  listen : String
  port : Int
  protocol : String
  originated : Bool
  body : β

structure RemoteInbound (β : Type*) where
  id : Nat
  wire : Wire β
  deriving DecidableEq

abbrev Listing (β : Type*) := List (RemoteInbound β)

namespace Listing

def Lists (node : Listing β) (id : Nat) (tag : String) : Prop := ∃ ib ∈ node, ib.id = id ∧ ib.wire.tag = tag

def add (node : Listing β) (id : Nat) (wire : Wire β) : Listing β := node ++ [⟨id, wire⟩]

def del (node : Listing β) (id : Nat) : Listing β := node.filter (·.id ≠ id)

def update (node : Listing β) (id : Nat) (wire : Wire β) : Listing β :=
  node.map fun ib => if ib.id = id then ⟨id, wire⟩ else ib

def edit (node : Listing β) (id : Nat) (effect : β → β) : Listing β :=
  node.map fun ib => if ib.id = id then { ib with wire := { ib.wire with body := effect ib.wire.body } } else ib

end Listing

/-! ## Tags -/

def cutPrefix (lead tag : String) : Option String :=
  if lead.toList.isPrefixOf tag.toList then some (.ofList (tag.toList.drop lead.toList.length)) else none

def nodeInboundTagPrefix (nodeID : Nat) : String := "n" ++ toString nodeID ++ "-"

def stripNodeInboundTagPrefix (nodeID : Nat) (tag : String) : String :=
  (cutPrefix (nodeInboundTagPrefix nodeID) tag).getD tag

def flipped (nodeID : Nat) (tag : String) : String :=
  (cutPrefix (nodeInboundTagPrefix nodeID) tag).getD (nodeInboundTagPrefix nodeID ++ tag)

def wireInbound (nodeID : Nat) (ib : Inbound β) : Wire β where
  tag := stripNodeInboundTagPrefix nodeID ib.tag
  listen := ib.listen
  port := ib.port
  protocol := ib.protocol
  body := ib.body

/-! ## The remote -/

/-- The fingerprint of a payload is the payload itself. -/
structure Remote (β : Type*) where
  remoteIDByTag : String → Option Nat := fun _ => none
  adoptedAliases : List (String × String) := []
  pushedFP : String → Option (Wire β) := fun _ => none

namespace Remote

variable (nodeID : Nat)

def cacheGetTag (r : Remote β) (tag : String) : Option Nat :=
  (r.remoteIDByTag tag).or (r.remoteIDByTag (flipped nodeID tag))

def cacheSet (r : Remote β) (tag : String) (id : Nat) : Remote β :=
  { r with remoteIDByTag := Function.update r.remoteIDByTag tag (some id) }

def cacheDel (r : Remote β) (tag : String) : Remote β :=
  { r with
    remoteIDByTag := Function.update r.remoteIDByTag tag none
    pushedFP := Function.update r.pushedFP tag none }

/-- Of several inbounds with one tag the last is kept; an empty tag is not. -/
def reported (node : Listing β) : String → Option Nat :=
  node.foldl (fun next ib =>
    if ib.wire.tag = "" then next else Function.update next ib.wire.tag (some ib.id)) fun _ => none

/-- An alias fills the gap for a central tag that the node does not report itself. -/
def fillAlias (next : String → Option Nat) (entry : String × String) : String → Option Nat :=
  match next entry.1, next entry.2 with
  | none, some found => Function.update next entry.1 (some found)
  | _, _ => next

def refreshRemoteIDs (r : Remote β) (node : Listing β) : Remote β :=
  { r with remoteIDByTag := r.adoptedAliases.foldl fillAlias (reported node) }

def recordPushedInbound (r : Remote β) (ib : Inbound β) : Remote β :=
  { r with pushedFP := Function.update r.pushedFP ib.tag (some (wireInbound nodeID ib)) }

def adoptInboundAlias (r : Remote β) (ib : Inbound β) (remote : RemoteInbound β) : Remote β :=
  { remoteIDByTag := Function.update (Function.update r.remoteIDByTag remote.wire.tag (some remote.id)) ib.tag (some remote.id)
    adoptedAliases := (ib.tag, remote.wire.tag) :: r.adoptedAliases.filter (·.1 ≠ ib.tag)
    pushedFP := Function.update r.pushedFP ib.tag (some (wireInbound nodeID ib)) }

def advancePushedInbound [DecidableEq β] (r : Remote β) (prevIb ib : Inbound β) : Remote β :=
  if r.pushedFP ib.tag = some (wireInbound nodeID prevIb) then r.recordPushedInbound nodeID ib else r

end Remote

/-! ## The reconcile pass -/

structure NodeConfig where
  id : Nat
  guid : Bool
  inboundsAdopted : Bool
  inboundTags : Option (List String)

def nodeSelectedTagSet (n : NodeConfig) : Option (List String) :=
  n.inboundTags.map fun tags => tags.flatMap fun tag => [tag, flipped n.id tag]

/-- What a reconcile pass does in turn; a sweep comes with the tags it spares and those it is confined to. -/
inductive Planned (β : Type*) where
  | adopt (ib : Inbound β) (remote : RemoteInbound β)
  | reconcile (ib : Inbound β) (existsOnNode : Bool)
  | sweep (tag : String) (desiredTags : List String) (selected : Option (List String))

section
variable (n : NodeConfig) (remoteInbounds : Listing β)

def existsOnNode (ib : Inbound β) : Bool :=
  remoteInbounds.any fun remote => remote.wire.tag = ib.tag || remote.wire.tag = flipped n.id ib.tag

def compatible (ib : Inbound β) : Listing β :=
  if !existsOnNode n remoteInbounds ib && n.guid && ib.originated then
    remoteInbounds.filter fun remote => remote.wire.port = ib.port && remote.wire.protocol = ib.protocol &&
      trimSpace remote.wire.listen.toList = trimSpace ib.listen.toList
  else []

def desiredTags (inbounds : List (Inbound β)) : List String :=
  inbounds.flatMap fun ib => [ib.tag, flipped n.id ib.tag] ++ (compatible n remoteInbounds ib).map (·.wire.tag)

def plannedFor (ib : Inbound β) : List (Planned β) :=
  if existsOnNode n remoteInbounds ib then [.reconcile ib true]
  else match compatible n remoteInbounds ib with
    | [] => [.reconcile ib false]
    | [candidate] => [.adopt ib candidate, .reconcile ib true]
    | _ => []

def reconcileNode (inbounds : List (Inbound β)) : List (Planned β) :=
  let desired := desiredTags n remoteInbounds inbounds
  let selected := nodeSelectedTagSet n
  inbounds.flatMap (plannedFor n remoteInbounds) ++
    if n.inboundsAdopted then
      ((remoteInbounds.map (·.wire.tag)).filter fun tag => tag ∉ desired ∧ ∀ tags ∈ selected, tag ∈ tags).map
        fun tag => .sweep tag desired selected
    else []

end

end ThreeXNode.Runtime
