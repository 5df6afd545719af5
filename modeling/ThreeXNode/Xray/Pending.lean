import ThreeXNode.Library.Transition
import ThreeXNode.Xray.Edits

namespace ThreeXNode.Xray
open Library

/-! ## What a core serves -/

structure Inbounds where
  handlers : String → Option Frame
  users : String × String → Option User

/-- A loader that also knows the users of the protocols whose clients are not told apart by a diff. -/
structure Reader extends Loader where
  rest : String → Option Json → Option Json
  peers : String → Option Json → List (String × User)

variable (r : Reader)

def handlerOf (ib : InboundConfig) : Frame :=
  if ib.protocol ∈ userDiffableProtocols then frameOf ib
  else { frameOf ib with settings := r.rest ib.protocol (canonicalJSON ib.settings) }

def loaded (ib : InboundConfig) : List (String × User) :=
  if ib.protocol ∈ userDiffableProtocols then usersOf r.toLoader ib
  else r.peers ib.protocol (canonicalJSON ib.settings)

def serving (cfg : Config) : Inbounds where
  handlers tag := (findTag cfg.inbounds tag).map (handlerOf r)
  users k := (findTag cfg.inbounds k.1).bind fun ib => entryAt (loaded r ib) k.2

/-- The core refuses to start with two users of one name in an inbound. -/
def Starts (cfg : Config) : Prop := ∀ ib ∈ cfg.inbounds, ((loaded r ib).map (·.1)).Nodup

instance (cfg : Config) : Decidable (Starts r cfg) := by
  unfold Starts
  infer_instance

/-- A handler with its users, or one user. -/
inductive Spot where
  | handler (tag : String)
  | user (tag name : String)
  deriving DecidableEq

def Call.spot : Call → Spot
  | .addUser tag name _ | .removeUser tag name => .user tag name
  | .addInbound ib => .handler ib.tag
  | .delInbound tag => .handler tag

def Spot.covers : Spot → Spot → Bool
  | .handler tag, .handler other | .handler tag, .user other _ => tag = other
  | .user tag name, .user other name' => tag = other && name = name'
  | .user _ _, .handler _ => false

def track (failed : List Spot) (calls : List (Call × Bool)) : List Spot :=
  calls.foldl (fun failed call =>
    if call.2 then failed.filter (!call.1.spot.covers ·) else call.1.spot :: failed) failed

namespace Inbounds

def setUser (c : Inbounds) (tag name : String) (user : User) : Inbounds :=
  { c with users := Function.update c.users (tag, name) (some user) }

def dropUser (c : Inbounds) (tag name : String) : Inbounds :=
  { c with users := Function.update c.users (tag, name) none }

def setInbound (c : Inbounds) (ib : InboundConfig) : Inbounds where
  handlers := Function.update c.handlers ib.tag (some (handlerOf r ib))
  users k := if k.1 = ib.tag then entryAt (loaded r ib) k.2 else c.users k

def dropInbound (c : Inbounds) (tag : String) : Inbounds where
  handlers := Function.update c.handlers tag none
  users k := if k.1 = tag then none else c.users k

def perform (c : Inbounds) : Call → Inbounds
  | .addUser tag name user => if (c.handlers tag).isSome then c.setUser tag name user else c
  | .removeUser tag name => c.dropUser tag name
  | .addInbound ib => c.setInbound r ib
  | .delInbound tag => c.dropInbound tag

def lacks (c : Inbounds) : Call → Bool
  | .removeUser tag name => (c.users (tag, name)).isNone
  | .delInbound tag | .addUser tag _ _ => (c.handlers tag).isNone
  | .addInbound _ => false

/-- `none` where the core does not answer so. -/
def answering (c : Inbounds) : List (Call × Answer) → Option Inbounds
  | [] => some c
  | call :: rest =>
      match call.2 with
      | .done => (c.perform r call.1).answering rest
      | .missing => if c.lacks call.1 then c.answering rest else none
      | .failed => c.answering rest

/-! ## Applying a diff to a core that may have moved -/

def removeUser (c : Inbounds) (op : UserOp) : Inbounds :=
  if (c.handlers op.tag).isSome then c.dropUser op.tag (r.fold op.email) else c

def delInbound (c : Inbounds) (tag : String) : Inbounds :=
  if (c.handlers tag).isSome then c.dropInbound tag else c

def addInboundReconciling (c : Inbounds) (ib : InboundConfig) : Inbounds :=
  if (c.handlers ib.tag).isSome then (c.delInbound ib.tag).setInbound r ib else c.setInbound r ib

def addUserReconciling (c : Inbounds) (op : UserOp) : Option Inbounds :=
  match apiUser (fun _ => none) op.protocol (op.user.getD ∅) with
  | .ok (some user) =>
      if (c.handlers op.tag).isNone then none
      else if (c.users (op.tag, r.fold op.email)).isSome then
        some ((c.removeUser r op).setUser op.tag (r.fold op.email) user)
      else some (c.setUser op.tag (r.fold op.email) user)
  | .ok none => some c
  | .error _ => none

/-- The operations of a diff on inbounds and users, in the order of `tryHotApply`. -/
def reconcile (d : HotDiff) (c : Inbounds) : Option Inbounds :=
  let c := d.removedUsers.foldl (removeUser r) c
  let c := d.removedInboundTags.foldl delInbound c
  let c := d.addedInbounds.foldl (addInboundReconciling r) c
  d.addedUsers.foldlM (addUserReconciling r) c

end Inbounds

def HotDiff.empty (d : HotDiff) : Bool :=
  d.removedInboundTags.isEmpty && d.addedInbounds.isEmpty && d.removedUsers.isEmpty && d.addedUsers.isEmpty &&
    d.removedOutboundTags.isEmpty && d.addedOutbounds.isEmpty && d.routingConfig.isNone

def HotDiff.touches (d : HotDiff) : Spot → Bool
  | .handler tag => tag ∈ d.removedInboundTags || d.addedInbounds.any (·.tag = tag)
  | .user tag name => tag ∈ d.removedInboundTags || d.addedInbounds.any (·.tag = tag) ||
      (d.removedUsers ++ d.addedUsers).any fun op =>
        (key r.toLoader op).1 = tag && (key r.toLoader op).2 = name

def leaves (old new : Config) (failed : List Spot) : List Spot :=
  match computeHotDiff old new with
  | .ok d => failed.filter (!d.touches r ·)
  | .error _ => failed

/-- `none` where a restart is needed; `api` says whether all calls but those on users that cannot be added succeed. -/
def tryHotApply (old new : Config) (c : Inbounds) (api : Bool) : Option Inbounds :=
  match computeHotDiff old new with
  | .error _ => none
  | .ok d => if d.empty then some c else if api then c.reconcile r d else none

/-! ## The service around the core -/

/-- The core, where one runs; the config its process remembers; the config of the database as it is now; and the flags.
`failed` is what the edits have left behind since the core was started: the handlers and users whose last call failed, or
that changed without one. -/
structure XrayService where
  live : Option Inbounds
  snapshot : Config
  desired : Config
  needRestart : Bool
  stopped : Bool
  failed : List Spot := []

/-- Whether the config can be read, the calls of a hot apply succeed, and a new process starts. -/
structure Fortune where
  config : Bool
  api : Bool
  starts : Bool

namespace XrayService

def launch (p : XrayService) (luck : Fortune) : XrayService × Bool :=
  if luck.starts ∧ Starts r p.desired then
    ({ p with live := some (serving r p.desired), snapshot := p.desired, failed := [] }, true)
  else ({ p with live := none, snapshot := p.desired }, false)

def restartXray (p : XrayService) (isForce : Bool) (luck : Fortune) : XrayService × Bool :=
  if !isForce ∧ p.stopped then (p, true)
  else
    let p := { p with stopped := false }
    if !luck.config then (p, false)
    else match p.live with
      | some c =>
          if !isForce ∧ p.snapshot = p.desired ∧ !p.needRestart then (p, true)
          else if !isForce ∧ p.snapshot ≠ p.desired then
            match tryHotApply r p.snapshot p.desired c luck.api with
            | some c =>
                ({ p with live := some c, snapshot := p.desired, failed := leaves r p.snapshot p.desired p.failed }, true)
            | none => p.launch r luck
          else p.launch r luck
      | none => p.launch r luck

def applyPendingRestart (p : XrayService) (luck : Fortune) : XrayService :=
  if !p.needRestart then p
  else
    let (p, done) := { p with needRestart := false }.restartXray r false luck
    if done then p else { p with needRestart := true }

def settledBy (calls : List (Call × Answer)) : List (Call × Bool) := calls.map fun call => (call.1, call.1.settled call.2)

/-- A request that changes the database: its edits, and the handlers and users of the config that it changes without a
call for them. -/
def request (p : XrayService) (desired : Config) (uncalled : List Spot) (runs : List Run) : Option XrayService :=
  let calls := runs.flatMap (·.calls r.fold)
  let after (live : Option Inbounds) : XrayService := { p with
    desired := desired
    live := live
    needRestart := p.needRestart || runs.any (·.asks r.fold)
    failed := uncalled ++ track p.failed (settledBy calls) }
  if !runs.all (·.answered r.fold) then none
  else match p.live with
    | some c => (c.answering r calls).map fun c => after (some c)
    | none => if calls.all (·.2 = .failed) then some (after none) else none

end XrayService

inductive Action where
  | request (desired : Config) (uncalled : List Spot) (runs : List Run)
  | applyPendingRestart (luck : Fortune)
  | restartXray (isForce : Bool) (luck : Fortune)
  | stopXray
  | crash

def xrayService : System XrayService Action where
  next p
    | .request desired uncalled runs => p.request r desired uncalled runs
    | .applyPendingRestart luck => some (p.applyPendingRestart r luck)
    | .restartXray isForce luck => some (p.restartXray r isForce luck).1
    | .stopXray => some { p with live := none, stopped := true }
    | .crash => some { p with live := none }

end ThreeXNode.Xray
