import ThreeXNode.Panel.Links
import ThreeXNode.Panel.NodeMerge

namespace ThreeXNode.Panel
open Library

/-! ## Lifecycle values in the adopted settings -/

/-- The entry with the lifecycle of its traffic row, and whether anything changed. -/
def liftEntry (floatInt : NumLit → Int) (trafficByEmail : String → Option ClientTraffic) (entry : Json) : Json × Bool :=
  match entry with
  | .obj members =>
      let cm : Fields := .ofList members
      let email := jsonString cm["email"]?
      if email = "" then (entry, false)
      else match trafficByEmail email, jsonClientInt64 floatInt cm["expiryTime"]? with
        | some tr, some nodeExpiry =>
            let merged := mergeActivationExpiry tr.expiryTime nodeExpiry
            let moved := decide (merged ≠ nodeExpiry)
            let switched := jsonBool cm["enable"]? != tr.enable
            let cm := if moved then cm.insert "expiryTime" (.ofInt merged) else cm
            let cm := if switched then cm.insert "enable" (.bool tr.enable) else cm
            if moved || switched then (.ofFields cm, true) else (entry, false)
        | _, _ => (entry, false)
  | _ => (entry, false)

def liftClientLifecycleInSettings (floatInt : NumLit → Int) (settings : Option Fields)
    (trafficByEmail : String → Option ClientTraffic) : Option Fields × Bool :=
  match settings, settings.bind settingsClients with
  | some o, some clients =>
      let lifted := clients.map (liftEntry floatInt trafficByEmail)
      if lifted.any (·.2) then (some (o.insert "clients" (.arr (lifted.map (·.1)))), true) else (settings, false)
  | _, _ => (settings, false)

def sameSettings (a b : Option Fields) : Bool := decide (a.map Json.ofFields = b.map Json.ofFields)

def adoptSettings (tick : Tick) (trafficByEmail : String → Option ClientTraffic) (db : Database) (p : PendingAdopt) : Database :=
  let adopted := (liftClientLifecycleInSettings tick.floatInt p.wireSettings trafficByEmail).1
  if sameSettings p.central.settings adopted then db
  else updateInbound db p.central.id fun ib => { ib with settings := adopted }

/-! ## Client records from the snapshot -/

def applyMasterClientLifecycle (c : Client) (master cs : Option ClientTraffic) : Client :=
  match master with
  | none => if cs.any (!·.enable) then { c with enable := false } else c
  | some master => { c with expiryTime := mergeActivationExpiry master.expiryTime c.expiryTime, enable := master.enable }

def snapshotClients (tick : Tick) (trafficByEmail : String → Option ClientTraffic) (snapIb : Inbound) (clients : List Client) :
    List Client :=
  (clients.filter fun c => !tick.tombstoned c.email).map fun c =>
    applyMasterClientLifecycle c (trafficByEmail c.email) ((snapIb.clientStats.filter (·.email = c.email)).getLast?)

def keepComment (db : Database) (c : Client) : Client :=
  match db.clients.find? (·.email = c.email) with
  | some rec => if c.email = "" then c else { c with comment := rec.comment }
  | none => c

def attachedTo (db : Database) (email : String) (scope : Inbound → Bool) : Bool :=
  db.clients.any fun rec => rec.email = email && db.clientInbounds.any fun link => link.clientId = rec.id &&
    db.inbounds.any fun ib => ib.id = link.inboundId && scope ib

/-- `clientEmailsOwnedElsewhere`: attached to inbounds, but to none of this node. -/
def ownedElsewhere (db : Database) (nodeId : Nat) (email : String) : Bool :=
  attachedTo db email (fun _ => true) && !attachedTo db email fun ib => ib.nodeId = some nodeId

def linkedEmails (db : Database) (inboundId : Nat) : List String :=
  (db.clients.filter fun rec => db.clientInbounds.any fun link => link.clientId = rec.id && link.inboundId = inboundId).map (·.email)

/-- One inbound of the snapshot: records and links of its clients. The emails linked to it before are kept for the sweep. -/
def syncSnapshotInbound (nodeId : Nat) (tick : Tick) (trafficByEmail : String → Option ClientTraffic)
    (tagToCentral : String → Option Inbound) (st : Database × List String) (snapIb : Inbound) : Database × List String :=
  match tagToCentral snapIb.tag with
  | none => st
  | some c =>
      let old := st.2 ++ linkedEmails st.1 c.id
      match getClients snapIb.settings with
      | none => (st.1, old)
      | some clients =>
          let filtered := (snapshotClients tick trafficByEmail snapIb clients).map (keepComment st.1)
          let kept := filtered.filter fun client => !(client.email ≠ "" && ownedElsewhere st.1 nodeId client.email)
          (syncInbound st.1 tick.now c.id kept, old)

def isLinked (db : Database) (rec : ClientRecord) : Bool := db.clientInbounds.any fun link => link.clientId = rec.id

/-- The clients that a merge has left without an inbound are marked, and those that are attached again lose the mark. -/
def markOrphans (now : Int) (old : List String) (db : Database) : Database :=
  { db with clients := db.clients.map fun rec =>
      if isLinked db rec then { rec with syncOrphanedAt := 0 }
      else if rec.email ∈ old ∧ rec.email ≠ "" ∧ rec.syncOrphanedAt = 0 then { rec with syncOrphanedAt := now }
      else rec }

/-- A record that still holds a duration takes the deadline of its traffic row. -/
def liftActivatedClientRecordExpiries (db : Database) : Database :=
  { db with clients := db.clients.map fun rec =>
      match db.clientTraffics.find? fun r => r.email = rec.email && r.expiryTime > 0 with
      | some r => if rec.expiryTime < 0 then { rec with expiryTime := r.expiryTime } else rec
      | none => rec }

def markNodeDirty (db : Database) (nodeId : Nat) : Database :=
  { db with nodes := db.nodes.map fun n => if n.id = nodeId then { n with configDirty := true } else n }

def mergedTables (adopted : Adoption) (st : Merge) : Database :=
  { adopted.db with
    clientTraffics := st.clientTraffics
    nodeClientTraffics := st.nodeClientTraffics
    clientGlobalTraffics := st.clientGlobalTraffics }

def adoptClients (nodeId : Nat) (tick : Tick) (adopted : Adoption) (st : Merge) (db : Database) : Database :=
  let settled := adopted.pendingAdopts.foldl (adoptSettings tick st.centralCSByEmail) db
  let (synced, old) :=
    tick.inbounds.foldl (syncSnapshotInbound nodeId tick st.centralCSByEmail adopted.tagToCentral) (settled, [])
  markOrphans tick.now old synced

def setRemoteTraffic (db : Database) (tick : Tick) (nodeId : Nat) : Except String Database := do
  let (adopted, st) ← mergeTraffic db tick nodeId
  let dirty := mergeDirty db tick nodeId
  let merged := mergedTables adopted st
  let synced := if dirty then markOrphans tick.now [] merged else adoptClients nodeId tick adopted st merged
  let lifted := adopted.pendingAdopts.any fun p =>
    (liftClientLifecycleInSettings tick.floatInt p.wireSettings st.centralCSByEmail).2
  let done := liftActivatedClientRecordExpiries synced
  return if lifted && !dirty then markNodeDirty done nodeId else done

/-! ## The tables the later passes leave alone -/

def trafficTables (db : Database) : List ClientTraffic × List NodeClientTraffic := (db.clientTraffics, db.nodeClientTraffics)

theorem adoptSettings_traffic (tick : Tick) (byEmail : String → Option ClientTraffic) (db : Database) (p : PendingAdopt) :
    trafficTables (adoptSettings tick byEmail db p) = trafficTables db := by
  simp only [adoptSettings, updateInbound]
  split <;> rfl

theorem syncSnapshotInbound_traffic (nodeId : Nat) (tick : Tick) (byEmail : String → Option ClientTraffic)
    (tagToCentral : String → Option Inbound) (st : Database × List String) (snapIb : Inbound) :
    trafficTables (syncSnapshotInbound nodeId tick byEmail tagToCentral st snapIb).1 = trafficTables st.1 := by
  unfold syncSnapshotInbound
  split
  · rfl
  · split <;> rfl

theorem adoptClients_traffic (nodeId : Nat) (tick : Tick) (adopted : Adoption) (st : Merge) (db : Database) :
    trafficTables (adoptClients nodeId tick adopted st db) = trafficTables db := by
  have settled : trafficTables (adopted.pendingAdopts.foldl (adoptSettings tick st.centralCSByEmail) db) = trafficTables db :=
    foldl_frame trafficTables fun d p _ => adoptSettings_traffic tick st.centralCSByEmail d p
  have synced (start : Database × List String) :
      trafficTables (tick.inbounds.foldl
        (syncSnapshotInbound nodeId tick st.centralCSByEmail adopted.tagToCentral) start).1 = trafficTables start.1 :=
    foldl_frame (fun s : Database × List String => trafficTables s.1) fun s ib _ =>
      syncSnapshotInbound_traffic nodeId tick st.centralCSByEmail adopted.tagToCentral s ib
  exact (synced _).trans settled

theorem setRemoteTraffic_ok {db db' : Database} {tick : Tick} {nodeId : Nat} (h : setRemoteTraffic db tick nodeId = .ok db') :
    ∃ adopted st, mergeTraffic db tick nodeId = .ok (adopted, st) ∧
      trafficTables db' = (st.clientTraffics, st.nodeClientTraffics) := by
  simp only [setRemoteTraffic, Except.bind_eq_ok, Except.pure_eq_ok] at h
  obtain ⟨⟨adopted, st⟩, merged, rfl⟩ := h
  refine ⟨adopted, st, merged, ?_⟩
  have synced : trafficTables (if mergeDirty db tick nodeId = true
      then markOrphans tick.now [] (mergedTables adopted st)
      else adoptClients nodeId tick adopted st (mergedTables adopted st)) = (st.clientTraffics, st.nodeClientTraffics) := by
    split
    · rfl
    · rw [adoptClients_traffic]
      rfl
  split <;> exact synced

end ThreeXNode.Panel
