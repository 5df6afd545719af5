import ThreeXNode.Panel.RowEdits
import ThreeXNode.Library.Int64

namespace ThreeXNode.Panel
open Library

/-- A pass over an inbound fails while it reads the inbound or, `atSave`, when it saves what it has changed. -/
structure PassFailure where
  reason : String
  atSave : Bool

/-- What a bulk edit meets: the clock at each inbound, the inbounds whose pass fails, the emails whose traffic row cannot
be updated, and the order in which a map is walked. Every number in the settings is taken to be one that a float holds. -/
structure Passes where
  now : Nat → Int
  now_fits : ∀ id, InInt64 (now id)
  fails : Nat → Option PassFailure
  rowFails : String → Option String
  order : List Nat → List Nat
  order_perm : ∀ ids, (order ids).Perm ids

def Passes.unread (p : Passes) (id : Nat) : Option PassFailure := (p.fails id).filter (!·.atSave)

structure Adjustment where
  addDays : Int
  addBytes : Int
  flow : String

structure BulkReport where
  email : String
  reason : String
  deriving DecidableEq

structure BulkAdjustResult where
  adjusted : List String
  skipped : List BulkReport
  deriving DecidableEq

structure BulkSetEnableResult where
  changed : List String
  skipped : List BulkReport
  deriving DecidableEq

/-! ## The plan -/

def bulkFlowAllowed : List String := ["", bulkFlowClear, "xtls-rprx-vision", "xtls-rprx-vision-udp443"]

def Adjustment.directive (a : Adjustment) : String :=
  let flow := trimSpace a.flow
  if flow ∈ bulkFlowAllowed then flow else ""

def Adjustment.addExpiryMs (a : Adjustment) : Int := wrap64 (a.addDays * 24 * 60 * 60 * 1000)

def planExpiry (a : Adjustment) (expiry : Int) : Option Int × Option String :=
  if a.addDays = 0 then (none, none)
  else if expiry = 0 then (none, some "unlimited expiry")
  else if 0 < expiry then
    let next := wrap64 (expiry + a.addExpiryMs)
    if next ≤ 0 then (none, some "reduction exceeds remaining time") else (some next, none)
  else
    let next := wrap64 (expiry - a.addExpiryMs)
    if 0 ≤ next then (none, some "reduction exceeds delay window") else (some next, none)

def planTotal (a : Adjustment) (total : Int) : Option Int × Option String :=
  if a.addBytes = 0 then (none, none)
  else if total = 0 then (none, some "unlimited traffic")
  else
    let next := wrap64 (total + a.addBytes)
    if next ≤ 0 then (none, some "reduction exceeds remaining quota") else (some next, none)

def planEntry (a : Adjustment) (rec : ClientRecord) : BulkAdjustEntry :=
  ⟨(planExpiry a rec.expiryTime).1, (planTotal a rec.totalGB).1⟩

def BulkAdjustEntry.changes (entry : BulkAdjustEntry) : Bool := entry.newExpiry.isSome || entry.newTotal.isSome

def isPlanned (a : Adjustment) (rec : ClientRecord) : Bool :=
  (planEntry a rec).changes || a.directive ≠ ""

def planReason (a : Adjustment) (rec : ClientRecord) : Option String :=
  (planExpiry a rec.expiryTime).2.or (planTotal a rec.totalGB).2

def cleanEmails (emails : List String) : List String := ((emails.map trimSpace).filter (· ≠ "")).dedup

def recordOf (db : Database) (email : String) : Option ClientRecord := db.clients.find? (·.email = email)

def isAttached (db : Database) (rec : ClientRecord) (id : Nat) : Bool :=
  db.clientInbounds.any fun link => link.clientId = rec.id && link.inboundId = id

/-- `emailsByInbound`: its keys, and the emails at one. -/
def inboundsOf (db : Database) (records : List ClientRecord) : List Nat :=
  ((db.clientInbounds.filter fun link => link.clientId ∈ records.map (·.id)).map (·.inboundId)).dedup

def emailsAt (db : Database) (records : List ClientRecord) (id : Nat) : List String :=
  (records.filter (isAttached db · id)).map (·.email)

/-! ## One inbound -/

def foundEmails (ib : Inbound) (wanted : List String) : List String :=
  wanted.filter fun email => (clientEntries ib.settings).any (wantedEntry [email])

def reasonsFor (reason : String) (emails : List String) : List (String × String) := emails.map fun email => (email, reason)

/-- The first reason counts. -/
def failReason (failed : List (String × String)) (email : String) : Option String :=
  (failed.find? (·.1 = email)).map (·.2)

structure Adjusting where
  db : Database
  failed : List (String × String)
  honored : List String
  ineligible : List String

def adjustInbound (p : Passes) (flow : String) (plan : List (String × BulkAdjustEntry)) (wanted : List String) (st : Adjusting)
    (id : Nat) : Adjusting :=
  match p.unread id, rowAt st.db id with
  | some failure, _ => { st with failed := st.failed ++ reasonsFor failure.reason wanted }
  | none, none => { st with failed := st.failed ++ reasonsFor "record not found" wanted }
  | none, some ib =>
      if ib.settings = none then { st with failed := st.failed ++ reasonsFor "invalid settings" wanted }
      else
        let found := foundEmails ib wanted
        let missing := reasonsFor "Client Not Found In Inbound" (wanted.filter (· ∉ found))
        let edit := Edit.bulkAdjustInboundClients (plan.filter (·.1 ∈ wanted)) flow (p.now id)
        let honored := if flow ≠ "" ∧ flowEligible flow ib then found else []
        let ineligible := if flow ≠ "" ∧ ¬ flowEligible flow ib then found else []
        match edit.newSettings some (knownEmail st.db) ib with
        | none => { st with failed := st.failed ++ missing }
        | some settings =>
            match p.fails id, edit.commit st.db (p.now id) ib { ib with settings := some settings } with
            | some failure, _ => ⟨st.db, st.failed ++ missing ++ reasonsFor failure.reason found, st.honored ++ honored,
                st.ineligible ++ ineligible⟩
            | none, some db => ⟨db, st.failed ++ missing, st.honored ++ honored, st.ineligible ++ ineligible⟩
            | none, none => ⟨st.db, st.failed ++ missing ++ reasonsFor "invalid clients" found, st.honored ++ honored,
                st.ineligible ++ ineligible⟩

structure Enabling where
  db : Database
  failed : List (String × String)

def enableInbound (p : Passes) (enable : Bool) (wanted : List String) (st : Enabling) (id : Nat) : Enabling :=
  match p.unread id, rowAt st.db id with
  | some failure, _ => { st with failed := st.failed ++ reasonsFor failure.reason wanted }
  | none, none => { st with failed := st.failed ++ reasonsFor "record not found" wanted }
  | none, some ib =>
      if ib.settings = none then { st with failed := st.failed ++ reasonsFor "invalid settings" wanted }
      else
        let missing := reasonsFor "Client Not Found In Inbound" (wanted.filter (· ∉ foundEmails ib wanted))
        let changed := wanted.filter fun email =>
          (clientEntries ib.settings).any fun entry => wantedEntry [email] entry && enableDiffers enable entry
        let edit := Edit.bulkSetEnableInboundClients wanted enable (p.now id)
        match edit.newSettings some (knownEmail st.db) ib with
        | none => { st with failed := st.failed ++ missing }
        | some settings =>
            match p.fails id, edit.commit st.db (p.now id) ib { ib with settings := some settings } with
            | some failure, _ => ⟨st.db, st.failed ++ missing ++ reasonsFor failure.reason changed⟩
            | none, some db => ⟨db, st.failed ++ missing⟩
            | none, none => ⟨st.db, st.failed ++ missing ++ reasonsFor "invalid clients" changed⟩

/-! ## The whole call -/

def bulkSetEnable (p : Passes) (emails : List String) (enable : Bool) (now : Int) (db : Database) :
    Database × BulkSetEnableResult :=
  let clean := cleanEmails emails
  let records := clean.filterMap (recordOf db)
  let st : Enabling := (p.order (inboundsOf db records)).foldl
    (fun st id => enableInbound p enable (emailsAt db records id) st id) ⟨db, []⟩
  let reason := fun email => if (recordOf db email).isNone then some "client not found" else
    failReason st.failed email
  let success := clean.filter fun email => (reason email).isNone
  ({ st.db with
      clientTraffics := st.db.clientTraffics.map fun row =>
        if row.email ∈ success then { row with enable := enable } else row
      clients := st.db.clients.map fun rec =>
        if rec.email ∈ success then { rec with enable := enable, updatedAt := now } else rec },
    ⟨success, clean.filterMap fun email => (reason email).map (⟨email, ·⟩)⟩)

def BulkAdjustEntry.update (entry : BulkAdjustEntry) (row : ClientTraffic) : ClientTraffic :=
  { row with expiryTime := entry.newExpiry.getD row.expiryTime, total := entry.newTotal.getD row.total }

def Passes.refused (p : Passes) (entry : String × BulkAdjustEntry) : Option String :=
  if entry.2.changes then p.rowFails entry.1 else none

/-- The refusal is the only error; `p` and `enabling` are the passes of the adjustment and of the re-enabling. -/
def bulkAdjust (p enabling : Passes) (clock : Clock) (a : Adjustment) (emails : List String) (db : Database) :
    Except String (Database × BulkAdjustResult) :=
  let clean := cleanEmails emails
  if emails = [] then .ok (db, ⟨[], []⟩)
  else if a.addDays = 0 ∧ a.addBytes = 0 ∧ a.directive = "" then .error "no adjustment specified"
  else
    let planned := (clean.filterMap (recordOf db)).filter (isPlanned a)
    let plan := planned.map fun rec => (rec.email, planEntry a rec)
    let st : Adjusting := (p.order (inboundsOf db planned)).foldl
      (fun st id => adjustInbound p a.directive plan (emailsAt db planned id) st id) ⟨db, [], [], []⟩
    let candidates := (plan.filter (·.2.changes)).map (·.1)
    let wasDisabledDepleted := ((st.db.clientTraffics.filter fun row =>
      depleted st.db clock row && row.enable = false && row.email ∈ candidates)).map (·.email)
    let live := plan.filter fun entry => entry.1 ∉ st.failed.map Prod.fst
    let updated := live.filter fun entry => (p.refused entry).isNone
    let written := { st.db with
      clientTraffics := st.db.clientTraffics.map fun row =>
        match updated.find? (·.1 = row.email) with
        | some entry => entry.2.update row
        | none => row }
    let adjusted := (updated.filter fun entry => entry.2.changes || entry.1 ∈ st.honored).map (·.1)
    let reason := fun email =>
      match recordOf db email with
      | none => some "client not found"
      | some rec => ((planReason a rec).or (failReason st.failed email)).or
          ((live.find? fun entry => decide (Prod.fst entry = email)).bind p.refused)
    let unsupported := clean.filter fun email =>
      email ∈ st.ineligible && email ∉ st.honored && (reason email).isNone
    let skipped := (clean.filterMap fun email => (reason email).map (⟨email, ·⟩)) ++
      unsupported.map (⟨·, "flow not supported on inbound"⟩)
    let stillDepleted := (written.clientTraffics.filter fun row =>
      depleted written clock row && row.email ∈ wasDisabledDepleted).map (·.email)
    let reEnable := wasDisabledDepleted.filter (· ∉ stillDepleted)
    let final := if reEnable = [] then written else (bulkSetEnable enabling reEnable true clock.now written).1
    .ok (final, ⟨adjusted, skipped⟩)

end ThreeXNode.Panel
