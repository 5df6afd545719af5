import ThreeXNode.Panel.Traffic

namespace ThreeXNode.Panel
open Library

/-! # Groups of clients and what they used -/

structure ClientGroup where
  name : String
  reset : Int × Int
  deriving DecidableEq

structure GroupDb where
  db : Database
  groups : List ClientGroup

structure GroupSummary where
  name : String
  clientCount : Nat
  trafficUsed : Int
  up : Int
  down : Int
  deriving DecidableEq

/-! ## Queries -/

def sqlInChunk : Nat := 400

def chunkStrings (emails : List String) (size : Nat) : List (List String) :=
  (List.range ((emails.length + size - 1) / size)).map fun i => (emails.drop (i * size)).take size

def memberUse (db : Database) (rec : ClientRecord) : Int × Int :=
  ((db.clientTraffics.filter (·.email = rec.email)).map fun row => (row.up, row.down)).sum

def hasTraffic (db : Database) (rec : ClientRecord) : Bool := db.clientTraffics.any (·.email = rec.email)

def sumUse (db : Database) (select : ClientRecord → Bool) : Int × Int := ((db.clients.filter select).map (memberUse db)).sum

/-- `COUNT(*)` of a left join: a client without a traffic row counts once. -/
def countJoined (db : Database) (name : String) : Nat :=
  ((db.clients.filter (·.group = name)).map fun rec =>
    max (db.clientTraffics.filter (·.email = rec.email)).length 1).sum

def baseline (groups : List ClientGroup) (name : String) : Int × Int :=
  ((groups.find? (·.name = name)).map (·.reset)).getD 0

/-- `order` is the order in which the map of groups is walked. -/
def listGroups (order : List String → List String) (s : GroupDb) : List GroupSummary :=
  let derived := ((s.db.clients.filter (·.group ≠ "")).map (·.group)).dedup
  let names := (s.groups.map (·.name) ++ derived).dedup
  ((order names).map fun name =>
    let used := if name ∈ derived then sumUse s.db (·.group = name) else 0
    let count := if name ∈ derived then countJoined s.db name else 0
    let up := max (used.1 - (baseline s.groups name).1) 0
    let down := max (used.2 - (baseline s.groups name).2) 0
    (⟨name, count, up + down, up, down⟩ : GroupSummary)).insertionSort fun a b => toLower a.name ≤ toLower b.name

/-! ## Baselines -/

def batchTotals (db : Database) (batch : List String) : List (String × (Int × Int)) :=
  let names := ((db.clients.filter fun rec => rec.group ≠ "" && rec.email ∈ batch && hasTraffic db rec).map (·.group)).dedup
  names.map fun name => (name, sumUse db fun rec => rec.group = name && rec.email ∈ batch)

def addTotal (totals : List (String × (Int × Int))) (part : String × (Int × Int)) : List (String × (Int × Int)) :=
  if totals.any (·.1 = part.1) then totals.map fun agg => if agg.1 = part.1 then (agg.1, agg.2 + part.2) else agg
  else totals ++ [part]

def removedTotals (db : Database) (emails : List String) : List (String × (Int × Int)) :=
  ((chunkStrings emails sqlInChunk).flatMap (batchTotals db)).foldl addTotal []

def shiftBaseline (groups : List ClientGroup) (total : String × (Int × Int)) : List ClientGroup :=
  if total.2.1 = 0 ∧ total.2.2 = 0 then groups
  else if groups.any (·.name = total.1) then
    groups.map fun row => if row.name = total.1 then { row with reset := row.reset - total.2 } else row
  else groups ++ [⟨total.1, -total.2⟩]

def adjustGroupBaselinesForRemovedTraffic (s : GroupDb) (emails : List String) : GroupDb :=
  { s with groups := (removedTotals s.db emails).foldl shiftBaseline s.groups }

/-! ## Operations -/

def zeroCounters (db : Database) (emails : List String) : Database :=
  { db with
    clientTraffics := db.clientTraffics.map fun row =>
      if row.email ∈ emails then { row with enable := true, up := 0, down := 0 } else row }

def deleteTraffics (db : Database) (emails : List String) : Database :=
  { db with clientTraffics := db.clientTraffics.filter (·.email ∉ emails) }

def deleteNodeTraffics (db : Database) (emails : List String) : Database :=
  { db with nodeClientTraffics := db.nodeClientTraffics.filter (·.email ∉ emails) }

def deleteRecords (db : Database) (emails : List String) : Database :=
  let ids := (db.clients.filter (·.email ∈ emails)).map (·.id)
  { db with
    clients := db.clients.filter (·.email ∉ emails)
    clientInbounds := db.clientInbounds.filter (·.clientId ∉ ids) }

def trimmedEmails (emails : List String) : List String := ((emails.map trimSpace).filter (· ≠ "")).dedup

def bulkResetTraffic (s : GroupDb) (emails : List String) : GroupDb :=
  let clean := trimmedEmails emails
  let s := adjustGroupBaselinesForRemovedTraffic s clean
  { s with db := deleteNodeTraffics (clearGlobalTraffic (zeroCounters s.db clean) clean) clean }

/-- `none` stands for the id -1: all inbounds. -/
def resetAllClientTraffics (s : GroupDb) (id : Option Nat) (now : Int) : GroupDb :=
  let emails := match id with
    | none => s.db.clientTraffics.map (·.email)
    | some id => (s.db.clientInbounds.filter (·.inboundId = id)).flatMap fun link =>
        (s.db.clients.filter (·.id = link.clientId)).map (·.email)
  if emails = [] then s
  else
    let s := adjustGroupBaselinesForRemovedTraffic s emails
    let db := deleteNodeTraffics (clearGlobalTraffic (zeroCounters s.db emails) emails) emails
    { s with
      db := { db with
        inbounds := db.inbounds.map fun ib =>
          if id.all (ib.id = ·) then { ib with lastTrafficResetTime := now } else ib } }

def resetClientTrafficByEmail (s : GroupDb) (email : String) : GroupDb :=
  let s := adjustGroupBaselinesForRemovedTraffic s [email]
  { s with db := deleteNodeTraffics (zeroCounters (clearGlobalTraffic s.db [email]) [email]) [email] }

def delClientStat (s : GroupDb) (email : String) : GroupDb :=
  let s := adjustGroupBaselinesForRemovedTraffic s [email]
  { s with db := deleteNodeTraffics (clearGlobalTraffic (deleteTraffics s.db [email]) [email]) [email] }

/-- The emails come from the keys of a map. -/
def delClientStatsByEmails (s : GroupDb) (emails : List String) : GroupDb :=
  let s := adjustGroupBaselinesForRemovedTraffic s emails
  { s with db := deleteNodeTraffics (clearGlobalTraffic (deleteTraffics s.db emails) emails) emails }

def deleteClient (s : GroupDb) (email : String) (keepTraffic : Bool) : GroupDb :=
  let s := adjustGroupBaselinesForRemovedTraffic s [email]
  let db := if keepTraffic then s.db
    else deleteNodeTraffics (clearGlobalTraffic (deleteTraffics s.db [email]) [email]) [email]
  { s with db := deleteRecords db [email] }

/-- The transaction of `BulkDelete`; `skipped` are the clients that some inbound failed to release. -/
def bulkDelete (s : GroupDb) (emails : List String) (skipped : String → Bool) (keepTraffic : Bool) : GroupDb :=
  let successEmails := (trimmedEmails emails).filter fun email => s.db.clients.any (·.email = email) && !skipped email
  let s := adjustGroupBaselinesForRemovedTraffic s successEmails
  { s with db := deleteRecords (if keepTraffic then s.db else deleteTraffics s.db successEmails) successEmails }

def resetAllTraffics (s : GroupDb) : GroupDb :=
  { s with
    db := { s.db with
      clientTraffics := s.db.clientTraffics.map fun row => { row with enable := true, up := 0, down := 0 }
      clientGlobalTraffics := []
      nodeClientTraffics := [] } }

def resetGroupTraffic (s : GroupDb) (name : String) : Except String GroupDb :=
  let name := trimSpace name
  if name = "" then .error "group name is required"
  else
    let agg := sumUse s.db (·.group = name)
    if s.groups.any (·.name = name) then
      .ok { s with groups := s.groups.map fun row => if row.name = name then { row with reset := agg } else row }
    else .ok { s with groups := s.groups ++ [⟨name, agg⟩] }

def createGroup (s : GroupDb) (name : String) : Except String GroupDb :=
  let name := trimSpace name
  if name = "" then .error "group name is required"
  else if s.groups.any (·.name = name) then .error "group already exists"
  else .ok { s with groups := s.groups ++ [⟨name, 0⟩] }

def setGroups (db : Database) (select : ClientRecord → Bool) (group : String) : Database :=
  { db with clients := db.clients.map fun rec => if select rec then { rec with group := group } else rec }

/-- The tables of `replaceGroupValue`. A new name that is stored already breaks the unique index. -/
def replaceGroupTables (s : GroupDb) (oldName newName : String) : Except String GroupDb :=
  if newName = "" then
    .ok ⟨setGroups s.db (·.group = oldName) "", s.groups.filter (·.name ≠ oldName)⟩
  else if s.groups.any (·.name = oldName) ∧ s.groups.any (·.name = newName) then .error "UNIQUE constraint failed"
  else .ok ⟨setGroups s.db (·.group = oldName) newName,
    s.groups.map fun row => if row.name = oldName then { row with name := newName } else row⟩

def renameGroup (s : GroupDb) (oldName newName : String) : Except String GroupDb :=
  let oldName := trimSpace oldName
  let newName := trimSpace newName
  if oldName = "" then .error "old group name is required"
  else if newName = "" then .error "new group name is required"
  else if oldName = newName then .ok s
  else replaceGroupTables s oldName newName

def deleteGroup (s : GroupDb) (name : String) : Except String GroupDb :=
  let name := trimSpace name
  if name = "" then .error "group name is required" else replaceGroupTables s name ""

/-- The tables of `AddToGroup`, with no group for `RemoveFromGroup`. -/
def addToGroupTables (s : GroupDb) (emails : List String) (group : String) : GroupDb :=
  let group := trimSpace group
  if emails = [] then s
  else
    let groups := if group ≠ "" ∧ ¬s.groups.any (·.name = group) ∧ ¬s.db.clients.any (·.group = group) then
      s.groups ++ [⟨group, 0⟩] else s.groups
    ⟨setGroups s.db (fun rec => rec.email ∈ emails && rec.group ≠ group) group, groups⟩

end ThreeXNode.Panel
