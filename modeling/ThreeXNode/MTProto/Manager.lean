import ThreeXNode.Library.Transition
import ThreeXNode.MTProto.Document

namespace ThreeXNode.MTProto
open Library
open Library.Toml (Text)

/-- A managed process: what it runs with, `none` where its file does not parse, and the instance last applied to it. -/
structure Managed where
  running : Bool
  tag : String
  structuralFP : String
  secretsFP : String
  apiPort : Nat
  apiToken : String
  config : Option Config
  inst : Instance

/-- The processes by inbound, and the files their configurations are written to. -/
structure Manager where
  procs : Std.ExtTreeMap Nat Managed := ∅
  files : Nat → Text := fun _ => []

/-- Which parts of one call succeed; a write that fails leaves some text behind. -/
structure Luck where
  rewrite : Option Text
  applied : Bool
  freePort : Option Nat
  random : Option (List (Fin 256))
  write : Option Text
  start : Bool

inductive EnsureAction where
  | noop
  | reload
  | restart

def ensureActionFor (running : Bool) (curStructFP curSecretsFP newStructFP newSecretsFP : String) : EnsureAction :=
  if !running ∨ curStructFP ≠ newStructFP then .restart
  else if curSecretsFP ≠ newSecretsFP then .reload
  else .noop

def encodeToString (bytes : List (Fin 256)) : String := String.ofList (bytes.flatMap fun b => hexDigits 2 b)

variable (isPrint : Char → Bool)

namespace Manager

def writeConfig (m : Manager) (inst : Instance) (apiPort : Nat) (apiToken : String) (failed : Option Text) : Manager :=
  { m with files := Function.update m.files inst.id (failed.getD (renderConfig isPrint inst apiPort apiToken)) }

/-- The process replaces its secrets where it answers with 200. -/
def applySecrets (cur : Managed) (inst : Instance) (luck : Luck) : Option Managed :=
  match cur.config with
  | some config =>
      if luck.applied ∧ cur.running then some { cur with config := some { config with secrets := secretsPayload inst } }
      else none
  | none => none

def newManaged (inst : Instance) (apiPort : Nat) (apiToken : String) (file : Text) : Managed where
  running := true
  tag := inst.tag
  structuralFP := inst.structuralFingerprint
  secretsFP := inst.secretsFingerprint
  apiPort := apiPort
  apiToken := apiToken
  config := (Toml.parse file).map readConfig
  inst := inst

def forget (m : Manager) (id : Nat) : Manager := { m with procs := m.procs.erase id }

def startProcess (m : Manager) (inst : Instance) (luck : Luck) : Manager × Bool :=
  match luck.freePort, luck.random with
  | some apiPort, some bytes =>
      let apiToken := encodeToString bytes
      let m := m.writeConfig isPrint inst apiPort apiToken luck.write
      if luck.write.isSome ∨ !luck.start then (m, false)
      else ({ m with procs := m.procs.insert inst.id (newManaged inst apiPort apiToken (m.files inst.id)) }, true)
  | _, _ => (m, false)

/-- The flag says whether `nil` is returned. -/
def ensureLocked (m : Manager) (inst : Instance) (luck : Luck) : Manager × Bool :=
  match m.procs[inst.id]? with
  | some cur =>
      match ensureActionFor cur.running cur.structuralFP cur.secretsFP inst.structuralFingerprint
          inst.secretsFingerprint with
      | .noop => ({ m with procs := m.procs.insert inst.id { cur with tag := inst.tag } }, true)
      | .reload =>
          let m := m.writeConfig isPrint inst cur.apiPort cur.apiToken luck.rewrite
          if luck.rewrite.isSome then (m, false)
          else
            match applySecrets cur inst luck with
            | some cur =>
                ({ m with
                    procs := m.procs.insert inst.id
                      { cur with tag := inst.tag, secretsFP := inst.secretsFingerprint, inst := inst } }, true)
            | none => (m.forget inst.id).startProcess isPrint inst luck
      | .restart => (m.forget inst.id).startProcess isPrint inst luck
  | none => m.startProcess isPrint inst luck

def remove (m : Manager) (id : Nat) : Manager :=
  if m.procs[id]?.isSome then { m.forget id with files := Function.update m.files id [] } else m

def crash (m : Manager) (id : Nat) : Manager :=
  match m.procs[id]? with
  | some cur => { m with procs := m.procs.insert id { cur with running := false } }
  | none => m

def reconcile (m : Manager) (desired : List (Instance × Luck)) : Manager :=
  let unwanted := m.procs.keys.filter fun id => id ∉ desired.map (·.1.id)
  desired.foldl (fun m (inst, luck) => (m.ensureLocked isPrint inst luck).1) (unwanted.foldl remove m)

end Manager

inductive Action where
  | ensure (inst : Instance) (luck : Luck)
  | remove (id : Nat)
  | crash (id : Nat)

def manager : System Manager Action where
  next m
    | .ensure inst luck => some (m.ensureLocked isPrint inst luck).1
    | .remove id => some (m.remove id)
    | .crash id => some (m.crash id)

end ThreeXNode.MTProto
