import ThreeXNode.Library.Transition
import ThreeXNode.AmneziaWG.Instance

namespace ThreeXNode.AmneziaWG
open Library

variable {Opt : Type}

structure Desired (Opt : Type) where
  inst : Instance
  opts : Opt

/-- A running interface. `failed` are the listeners whose bind failed when they were last opened. -/
structure Managed where
  inst : Instance
  structFP : String
  uapiConfig : String
  listeners : Finset PortForwardKey
  failed : Finset PortForwardKey

/-- The managed interfaces by inbound, and the addresses the manager has put on the host. -/
structure Manager where
  ifaces : Std.ExtTreeMap Nat Managed
  host : Finset V6Alias

/-- What is not the manager's own: address parsing, and the text of a device's configuration, `none` where a key does not
decode. -/
structure Env (Opt : Type) where
  net : Netip
  buildUAPIConfig : Instance → Opt → Option String

structure Luck where
  newDevice : Bool
  configure : Bool
  ipcSet : Bool
  binds : PortForwardKey → Bool

def addressFingerprint (inst : Instance) : String := toString inst.mtu ++ "|" ++ ",".intercalate inst.address

variable (env : Env Opt)

namespace Managed

def reconcilePorts (cur : Managed) (luck : Luck) (inst : Instance) : Managed :=
  let wantKeys := desiredPortForwardKeys env.net inst
  let toOpen := wantKeys \ cur.listeners
  { cur with
    listeners := (cur.listeners ∩ wantKeys) ∪ toOpen.filter (luck.binds ·)
    failed := toOpen.filter (!luck.binds ·) }

end Managed

namespace Manager

def aliasesOf (cur : Option Managed) : Std.ExtTreeMap String V6Alias :=
  match cur with
  | some cur => desiredV6Aliases env.net cur.inst
  | none => ∅

def put (m : Manager) (id : Nat) (next : Managed) : Manager :=
  { ifaces := m.ifaces.insert id next
    host := applyV6Aliases m.host (diffV6Aliases (aliasesOf env m.ifaces[id]?) (desiredV6Aliases env.net next.inst)) }

/-- Whether the call succeeds is the second part. An interface whose address or MTU changes is closed before its
successor is built. -/
def ensureLocked (m : Manager) (luck : Luck) (d : Desired Opt) : Manager × Bool :=
  let inst := d.inst
  let structFP := addressFingerprint inst
  let conf := env.buildUAPIConfig inst d.opts
  match (m.ifaces[inst.id]?).filter (·.structFP = structFP), conf with
  | some _, none => (m, false)
  | some cur, some conf =>
      if conf = cur.uapiConfig ∨ luck.ipcSet then
        (m.put env inst.id ({ cur with inst := inst, uapiConfig := conf }.reconcilePorts env luck inst), true)
      else (m, false)
  | none, conf =>
      match luck.newDevice, luck.configure, conf with
      | true, true, some conf =>
          (m.put env inst.id (Managed.reconcilePorts env ⟨inst, structFP, conf, ∅, ∅⟩ luck inst), true)
      | _, _, _ => ({ m with ifaces := m.ifaces.erase inst.id }, false)

def remove (m : Manager) (id : Nat) : Manager :=
  match m.ifaces[id]? with
  | some _ =>
      { ifaces := m.ifaces.erase id
        host := applyV6Aliases m.host (diffV6Aliases (aliasesOf env m.ifaces[id]?) ∅) }
  | none => m

def removeAll (m : Manager) (ids : List Nat) : Manager := ids.foldl (remove env) m

def ensureAll (m : Manager) (desired : List (Desired Opt × Luck)) : Manager :=
  desired.foldl (fun m d => (m.ensureLocked env d.2 d.1).1) m

def unwanted (m : Manager) (desired : List (Desired Opt × Luck)) : List Nat :=
  m.ifaces.keys.filter fun id => id ∉ desired.map (·.1.inst.id)

end Manager

inductive Call (Opt : Type) where
  | ensure (d : Desired Opt) (luck : Luck)
  | reconcile (desired : List (Desired Opt × Luck)) (stops : List Nat)
  | remove (id : Nat)
  | stopAll (stops : List Nat)

def calls : System Manager (Call Opt) where
  next m
    | .ensure d luck => some (m.ensureLocked env luck d).1
    | .reconcile desired stops =>
        if stops.Perm (m.unwanted desired) then some ((m.removeAll env stops).ensureAll env desired) else none
    | .remove id => some (m.remove env id)
    | .stopAll stops => if stops.Perm m.ifaces.keys then some (m.removeAll env stops) else none

def start : Manager := ⟨∅, ∅⟩

end ThreeXNode.AmneziaWG
