import ThreeXNode.Runtime.Remote

namespace ThreeXNode.Runtime
open Library

variable {β : Type*}

/-! ## Calls to the node -/

/-- Whether a call takes effect on the node, and whether its reply says so. -/
inductive Reply where
  | done
  | lost
  | refused
  deriving DecidableEq

/-- What a call meets: whether a listing it asks for is read, what the node lists once it is read, and the reply to the
call itself. The node gives an added inbound its id, and an added or updated one its tag, which is another than the one
sent where that is empty or taken; `told` says whether the reply to an addition names them. -/
structure Rpc (β : Type*) where
  listed : Bool
  between : Option (Listing β)
  reply : Reply
  newId : Nat
  newTag : String
  told : Bool

structure World (β : Type*) where
  node : Listing β
  remote : Remote β

namespace World

variable (nodeID : Nat)

def send (w : World β) (reply : Reply) (effect : Listing β → Listing β) : World β :=
  if reply = .refused then w else { w with node := effect w.node }

def refresh (w : World β) (rpc : Rpc β) : World β :=
  if rpc.listed then { node := rpc.between.getD w.node, remote := w.remote.refreshRemoteIDs w.node } else w

def resolveRemoteID (w : World β) (rpc : Rpc β) (tag : String) : World β × Option Nat :=
  match w.remote.cacheGetTag nodeID tag with
  | some id => (w, some id)
  | none => if rpc.listed then (w.refresh rpc, (w.refresh rpc).remote.cacheGetTag nodeID tag) else (w, none)

/-- The flag says whether `nil` is returned. -/
def addInbound (w : World β) (rpc : Rpc β) (ib : Inbound β) : World β × Bool :=
  let w := w.send rpc.reply (·.add rpc.newId { wireInbound nodeID ib with tag := rpc.newTag })
  if rpc.reply = .done then
    let r := if rpc.told ∧ rpc.newId > 0 ∧ rpc.newTag ≠ "" then w.remote.cacheSet rpc.newTag rpc.newId else w.remote
    ({ w with remote := r.recordPushedInbound nodeID ib }, true)
  else (w, false)

def delInbound (w : World β) (rpc : Rpc β) (tag : String) : World β × Bool :=
  match w.resolveRemoteID nodeID rpc tag with
  | (w, none) => (w, true)
  | (w, some id) =>
      let w := w.send rpc.reply (·.del id)
      if rpc.reply = .done then ({ w with remote := w.remote.cacheDel tag }, true) else (w, false)

def replyFor (w : World β) (rpc : Rpc β) (id : Nat) : Reply := if w.node.any (·.id = id) then rpc.reply else .refused

def updateInbound (w : World β) (rpc : Rpc β) (oldTag : String) (ib : Inbound β) : World β × Bool :=
  match w.resolveRemoteID nodeID rpc oldTag with
  | (w, none) => w.addInbound nodeID rpc ib
  | (w, some id) =>
      let reply := w.replyFor rpc id
      let w := w.send reply (·.update id { wireInbound nodeID ib with tag := rpc.newTag })
      if reply = .done then
        let r := if oldTag ≠ ib.tag then w.remote.cacheDel oldTag else w.remote
        ({ w with remote := (r.cacheSet ib.tag id).recordPushedInbound nodeID ib }, true)
      else (w, false)

/-- The calls about one client and about the place in subscriptions: all that they change on the node is in the inbound
with the id they carry. -/
def narrowCall (w : World β) (rpc : Rpc β) (tag : String) (effect : β → β) : World β × Bool :=
  match w.resolveRemoteID nodeID rpc tag with
  | (w, none) => (w, false)
  | (w, some id) =>
      let reply := w.replyFor rpc id
      (w.send reply (·.edit id effect), reply = .done)

def reconcileInbound [DecidableEq β] (w : World β) (rpc : Rpc β) (ib : Inbound β) (existsOnNode : Bool) : World β × Bool :=
  if !existsOnNode then { w with remote := w.remote.cacheDel ib.tag }.addInbound nodeID rpc ib
  else if w.remote.pushedFP ib.tag = some (wireInbound nodeID ib) then (w, true)
  else w.updateInbound nodeID rpc ib.tag ib

def carryOut [DecidableEq β] (w : World β) (rpc : Rpc β) : Planned β → World β × Bool
  | .adopt ib remote => ({ w with remote := w.remote.adoptInboundAlias nodeID ib remote }, true)
  | .reconcile ib existsOnNode => w.reconcileInbound nodeID rpc ib existsOnNode
  | .sweep tag _ _ => w.delInbound nodeID rpc tag

end World

/-! ## A panel and its node -/

structure Sync (β : Type*) where
  world : World β
  todo : List (Planned β) := []

inductive Push (β : Type*) where
  | change (node : Listing β)
  | addInbound (rpc : Rpc β) (ib : Inbound β)
  | delInbound (rpc : Rpc β) (tag : String)
  | updateInbound (rpc : Rpc β) (oldTag : String) (ib : Inbound β)
  | narrowCall (rpc : Rpc β) (tag : String) (effect : β → β)
  | listRemoteTags (rpc : Rpc β)
  | recordAdoptedInbound (ib : Inbound β)
  | advancePushedInbound (prevIb ib : Inbound β)
  | reconcileNode (n : NodeConfig) (inbounds : List (Inbound β))
  | carryOut (rpc : Rpc β)

/-- The operations of the panel on a node whose list may change at any time. A reconcile pass takes its decisions from the
list as it is when it starts. -/
def pushes [DecidableEq β] (nodeID : Nat) : System (Sync β) (Push β) where
  next s
    | .change node => some { s with world := { s.world with node := node } }
    | .addInbound rpc ib => some { s with world := (s.world.addInbound nodeID rpc ib).1 }
    | .delInbound rpc tag => some { s with world := (s.world.delInbound nodeID rpc tag).1 }
    | .updateInbound rpc oldTag ib => some { s with world := (s.world.updateInbound nodeID rpc oldTag ib).1 }
    | .narrowCall rpc tag effect => some { s with world := (s.world.narrowCall nodeID rpc tag effect).1 }
    | .listRemoteTags rpc => some { s with world := s.world.refresh rpc }
    | .recordAdoptedInbound ib =>
        some { s with world := { s.world with remote := s.world.remote.recordPushedInbound nodeID ib } }
    | .advancePushedInbound prevIb ib =>
        some { s with world := { s.world with remote := s.world.remote.advancePushedInbound nodeID prevIb ib } }
    | .reconcileNode n inbounds =>
        if n.id = nodeID ∧ s.todo.isEmpty then some { s with todo := reconcileNode n s.world.node inbounds } else none
    | .carryOut rpc => match s.todo with
        | step :: todo => some { world := (s.world.carryOut nodeID rpc step).1, todo := todo }
        | [] => none

def Sync.about [DecidableEq β] (nodeID : Nat) (s : Sync β) : Push β → Option (Rpc β × String)
  | .delInbound rpc tag => some (rpc, tag)
  | .updateInbound rpc oldTag _ => some (rpc, oldTag)
  | .narrowCall rpc tag _ => some (rpc, tag)
  | .carryOut rpc => match s.todo with
      | .reconcile ib true :: _ =>
          if s.world.remote.pushedFP ib.tag = some (wireInbound nodeID ib) then none else some (rpc, ib.tag)
      | .sweep tag _ _ :: _ => some (rpc, tag)
      | _ => none
  | _ => none

def Sync.sent [DecidableEq β] (nodeID : Nat) (s : Sync β) (a : Push β) : Option (String × Nat × Listing β) :=
  (s.about nodeID a).bind fun (rpc, tag) => match s.world.resolveRemoteID nodeID rpc tag with
    | (w, some id) => some (tag, id, w.node)
    | (_, none) => none

end ThreeXNode.Runtime
