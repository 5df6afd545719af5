import ThreeXNode.Library.Int64
import ThreeXNode.Panel.Database

namespace ThreeXNode.Panel
open Library

/-! ## Rules of the lifecycle -/

def mergeActivationExpiry (existing node : Int) : Int := if existing > 0 then existing else node

def masterLimitsAllowClient (master : ClientTraffic) (now deltaUp deltaDown : Int) : Bool :=
  if master.expiryTime > 0 ∧ master.expiryTime ≤ now then false
  else if master.total > 0 ∧ wrap64 (master.up + deltaUp + master.down + deltaDown) ≥ master.total then false
  else true

def nodeDisableIsStale (master node : ClientTraffic) (now deltaUp deltaDown : Int) : Bool :=
  if node.expiryTime = master.expiryTime ∧ node.total = master.total then false
  else masterLimitsAllowClient master now deltaUp deltaDown

def clampTrafficCounter (v : Int) : Int := if v > trafficMax then trafficMax else if v < 0 then 0 else v

def nodeClientRenewed (existing cs : ClientTraffic) (canon base : Counter) : Bool :=
  if (cs.reset ≤ 0 ∧ cs.resetDay ≤ 0) ∨ cs.expiryTime ≤ 0 ∨ existing.expiryTime ≤ 0 then false
  else if cs.expiryTime ≤ existing.expiryTime then false
  else if cs.resetCount > existing.resetCount then true
  else canon.up < base.up || canon.down < base.down

/-- `ClientTrafficEnableMergeExpr`; sums beyond 64 bits are computed in floating point and compare as they are. -/
def enableMerge (row cs : ClientTraffic) (now deltaUp deltaDown : Int) : Bool :=
  if cs.enable then row.enable
  else if (row.expiryTime ≠ cs.expiryTime ∨ row.total ≠ cs.total) ∧
      (row.expiryTime ≤ 0 ∨ row.expiryTime > now) ∧
      (row.total ≤ 0 ∨ row.up + deltaUp + row.down + deltaDown < row.total) then row.enable
  else false

/-! ## What a snapshot reports -/

/-- What one merge is given besides the database: the snapshot and its flags, the clock, the emails whose
tombstone is alive, and the conversion of a number literal to a 64-bit integer through a float. -/
structure Tick where
  inbounds : List Inbound
  dirty : Bool
  justPushed : Bool
  now : Int
  tombstoned : String → Bool
  floatInt : NumLit → Int

/-- Each field is the maximum of what the copies of the email report. -/
def nodeEmailTotals (snap : List Inbound) (email : String) : Counter :=
  (snap.flatMap (·.clientStats)).foldl (fun cur cs =>
    if cs.email = email then
      ⟨if cs.up > cur.up then cs.up else cur.up, if cs.down > cur.down then cs.down else cur.down⟩
    else cur) ⟨0, 0⟩

def snapEmails (ib : Inbound) : List String := ib.clientStats.map (·.email)

def snapEmailsAll (snap : List Inbound) : List String := snap.flatMap snapEmails

def jsonClientInt64 (floatInt : NumLit → Int) : Option Json → Option Int
  | some (.num n) => some (floatInt n)
  | _ => none

/-- The absolute `expiryTime` the settings give an email; the last of several entries counts. -/
def settingsClientAbsoluteExpiries (floatInt : NumLit → Int) (settings : Option Fields) (email : String) : Option Int :=
  (((settings.bind settingsClients).getD []).filterMap fun entry =>
    match entry with
    | .obj members =>
        let cm : Fields := .ofList members
        if jsonString cm["email"]? = email ∧ email ≠ "" then
          (jsonClientInt64 floatInt cm["expiryTime"]?).filter (· > 0)
        else none
    | _ => none).getLast?

/-- `stripTombstonedClients` and `dedupeSettingsClients`: an entry is dropped by the first, and of several entries
whose emails differ in case only the second keeps the first. -/
def stripTombstonedClients (tombstoned : String → Bool) (settings : Option Fields) : Option Fields :=
  settings.map fun o =>
    match settingsClients o with
    | some clients => o.insert "clients" (.arr (clients.filter fun entry =>
        !(entryEmail entry ≠ "" && tombstoned (entryEmail entry))))
    | none => o

def dedupeEntries : List String → List Json → List Json
  | _, [] => []
  | seen, entry :: rest =>
      if entryEmail entry = "" then entry :: dedupeEntries seen rest
      else if toLower (entryEmail entry) ∈ seen then dedupeEntries seen rest
      else entry :: dedupeEntries (toLower (entryEmail entry) :: seen) rest

def dedupeSettingsClients (settings : Option Fields) : Option Fields :=
  settings.map fun o =>
    match settingsClients o with
    | some clients => o.insert "clients" (.arr (dedupeEntries [] clients))
    | none => o

/-! ## Matching the inbounds of the snapshot with those of the database -/

structure PendingAdopt where
  central : Inbound
  snapIb : Inbound
  wireSettings : Option Fields

structure Adoption where
  db : Database
  tagToCentral : String → Option Inbound
  snapTags : List String
  newInboundIDs : List Nat
  pendingAdopts : List PendingAdopt

def centralInbounds (db : Database) (nodeId : Nat) : List Inbound :=
  db.inbounds.filter fun ib => ib.nodeId = some nodeId

def originGuidFor (db : Database) (node : Node) (snapIb : Inbound) : String :=
  if snapIb.originNodeGuid ≠ "" ∧ snapIb.originNodeGuid ≠ node.guid then snapIb.originNodeGuid
  else effectiveNodeKey db node

def compatibleCentral (db : Database) (node : Node) (snapIb : Inbound) : List Inbound :=
  (centralInbounds db node.id).filter fun candidate =>
    candidate.originNodeGuid = originGuidFor db node snapIb && candidate.port = snapIb.port &&
      candidate.protocol = snapIb.protocol && trimSpace candidate.listen = trimSpace snapIb.listen

/-- `""` where both forms of the tag are taken. -/
def pickFreeTag (inbounds : List Inbound) (nodeId : Nat) (tag : String) : String :=
  let candidates := tag :: if (cutPrefix (nodeTagPrefix nodeId) tag).isNone then [nodeTagPrefix nodeId ++ tag] else []
  (candidates.find? fun t => inbounds.all (·.tag ≠ t)).getD ""

def resetGracePeriodMs : Int := 30000

def adoptColumns (ib snapIb : Inbound) : Inbound :=
  { ib with
    enable := snapIb.enable
    remark := snapIb.remark
    subSortIndex := normalizeSubSortIndex snapIb.subSortIndex
    listen := snapIb.listen
    port := snapIb.port
    protocol := snapIb.protocol
    total := snapIb.total
    expiryTime := snapIb.expiryTime
    streamSettings := snapIb.streamSettings
    sniffing := snapIb.sniffing
    trafficReset := snapIb.trafficReset
    trafficResetDay := normalizeTrafficResetDay snapIb.trafficResetDay
    lastTrafficResetTime := snapIb.lastTrafficResetTime }

def updateInbound (db : Database) (id : Nat) (f : Inbound → Inbound) : Database :=
  { db with inbounds := db.inbounds.map fun ib => if ib.id = id then f ib else ib }

variable (db : Database) (node : Node) (tick : Tick) (dirty : Bool)

def adoptedInbound (st : Adoption) (snapIb : Inbound) (chosenTag : String) : Inbound :=
  { snapIb with
    id := st.db.nextInboundId
    nodeId := some node.id
    originNodeGuid := originGuidFor db node snapIb
    tag := chosenTag
    trafficResetDay := normalizeTrafficResetDay snapIb.trafficResetDay
    subSortIndex := normalizeSubSortIndex snapIb.subSortIndex
    clientStats := [] }

def adoptKnown (st : Adoption) (snapIb c : Inbound) : Adoption :=
  let inGrace := c.lastTrafficResetTime > 0 && tick.now - c.lastTrafficResetTime < resetGracePeriodMs
  let wireSettings := dedupeSettingsClients (stripTombstonedClients tick.tombstoned snapIb.settings)
  { st with
    db := updateInbound st.db c.id fun row =>
      let row := if dirty then row else adoptColumns row snapIb
      let row :=
        if !inGrace || wrap64 (snapIb.up + snapIb.down) ≤ wrap64 (c.up + c.down) then
          { row with up := snapIb.up, down := snapIb.down }
        else row
      if c.originNodeGuid = originGuidFor db node snapIb then row
      else { row with originNodeGuid := originGuidFor db node snapIb }
    pendingAdopts := if dirty then st.pendingAdopts else st.pendingAdopts ++ [⟨c, snapIb, wireSettings⟩] }

def adoptUnknown (st : Adoption) (snapIb : Inbound) : Adoption :=
  if dirty then st
  else
    let chosenTag := pickFreeTag st.db.inbounds node.id snapIb.tag
    if chosenTag = "" then st
    else
      let newIb := adoptedInbound db node st snapIb chosenTag
      { st with
        db := { st.db with inbounds := st.db.inbounds ++ [newIb], nextInboundId := st.db.nextInboundId + 1 }
        tagToCentral := Function.update (Function.update st.tagToCentral snapIb.tag (some newIb)) newIb.tag (some newIb)
        newInboundIDs := newIb.id :: st.newInboundIDs }

def adoptInbound (st : Adoption) (snapIb : Inbound) : Except String Adoption :=
  let st := { st with snapTags := snapIb.tag :: flipTag node.id snapIb.tag :: st.snapTags }
  match st.tagToCentral snapIb.tag with
  | some c => .ok (adoptKnown db node tick dirty st snapIb c)
  | none =>
      match compatibleCentral db node snapIb with
      | [] => .ok (adoptUnknown db node dirty st snapIb)
      | [c] =>
          let st := { st with tagToCentral := Function.update st.tagToCentral snapIb.tag (some c), snapTags := c.tag :: st.snapTags }
          .ok (adoptKnown db node tick dirty st snapIb c)
      | _ => .error ("setRemoteTraffic: inbound " ++ snapIb.tag ++ " has ambiguous compatible central aliases")

/-- Both forms of the tag of each inbound of the node; a later inbound takes a form from an earlier one. -/
def indexCentral : String → Option Inbound :=
  (centralInbounds db node.id).foldl (fun index ib =>
    Function.update (Function.update index ib.tag (some ib)) (flipTag node.id ib.tag) (some ib)) fun _ => none

def adoptInbounds : Except String Adoption :=
  tick.inbounds.foldlM (adoptInbound db node tick dirty) ⟨db, indexCentral db node, [], [], []⟩

/-! ## Inbounds the node no longer reports -/

/-- `emailUsedByOtherInbounds`: whether a client of that email, in any case, is linked to another inbound. -/
def emailUsedByOtherInbounds (email : String) (exceptInboundId : Nat) : Bool :=
  db.clientInbounds.any fun link => link.inboundId ≠ exceptInboundId &&
    db.clients.any fun c => c.id = link.clientId && toLower c.email = toLower (trimSpace email) && trimSpace email ≠ ""

def sweptInbound (st : Adoption) (c : Inbound) : Bool :=
  !dirty && c.enable && !st.snapTags.isEmpty && c.tag ∉ st.snapTags && !unmanagedTag node c.tag

/-- The inbound goes with its links, the traffic rows no other inbound uses and the baselines of the emails the
snapshot reports nowhere. -/
def sweepInbound (st : Adoption) (c : Inbound) : Adoption :=
  if sweptInbound node dirty st c then
    let goneEmails := (st.db.clientTraffics.filter (·.inboundId = c.id)).map (·.email)
    { st with
      db := { st.db with
        nodeClientTraffics := st.db.nodeClientTraffics.filter fun b =>
          !(b.nodeId = node.id && b.email ∈ goneEmails && b.email ∉ snapEmailsAll tick.inbounds)
        clientTraffics := st.db.clientTraffics.filter fun r =>
          !(r.inboundId = c.id && !emailUsedByOtherInbounds db r.email c.id)
        clientInbounds := st.db.clientInbounds.filter (·.inboundId ≠ c.id)
        inbounds := st.db.inbounds.filter (·.id ≠ c.id) }
      tagToCentral := Function.update st.tagToCentral c.tag none }
  else st

def sweepInbounds (st : Adoption) : Adoption :=
  (centralInbounds db node.id).foldl (sweepInbound db node tick dirty) st

/-! ## The traffic of the clients -/

/-- The tables and maps of the second loop. `added` and `overwritten` are history: what the merge has added to the
row of an email, and what the renewal branch has passed over. -/
structure Merge where
  clientTraffics : List ClientTraffic
  nodeClientTraffics : List NodeClientTraffic
  clientGlobalTraffics : List ClientGlobalTraffic
  centralCS : List (Nat × String)
  centralCSByEmail : String → Option ClientTraffic
  existingEmails : List String
  nodeBaselines : String → Option Counter
  added : String → Counter
  overwritten : String → Counter

def updateTraffic (rows : List ClientTraffic) (email : String) (f : ClientTraffic → ClientTraffic) : List ClientTraffic :=
  rows.map fun r => if r.email = email then f r else r

def gain (rows : List ClientTraffic) (email : String) (f : ClientTraffic → ClientTraffic) : Counter :=
  ((rows.filter (·.email = email)).map fun r => (⟨(f r).up - r.up, (f r).down - r.down⟩ : Counter)).foldl
    (fun a b => ⟨a.up + b.up, a.down + b.down⟩) ⟨0, 0⟩

def Counter.add (a b : Counter) : Counter := ⟨a.up + b.up, a.down + b.down⟩

/-- What the node's counter has gained since the baseline; a drop counts as nothing, and so does a first sight. -/
def counterDelta (base : Option Counter) (canon : Counter) : Counter :=
  match base with
  | none => ⟨0, 0⟩
  | some base => ⟨max (canon.up - base.up) 0, max (canon.down - base.down) 0⟩

def upsertNodeBaseline (rows : List NodeClientTraffic) (nodeId : Nat) (email : String) (c : Counter) : List NodeClientTraffic :=
  if rows.any fun b => b.nodeId = nodeId && b.email = email then
    rows.map fun b => if b.nodeId = nodeId ∧ b.email = email then { b with up := c.up, down := c.down } else b
  else rows ++ [⟨nodeId, email, c.up, c.down⟩]

def Merge.setBaseline (st : Merge) (nodeId : Nat) (email : String) (canon : Counter) : Merge :=
  { st with
    nodeClientTraffics := upsertNodeBaseline st.nodeClientTraffics nodeId email canon
    nodeBaselines := Function.update st.nodeBaselines email (some canon) }

def Merge.setExisting (st : Merge) (email : String) (f : ClientTraffic → ClientTraffic) : Merge :=
  { st with centralCSByEmail := Function.update st.centralCSByEmail email ((st.centralCSByEmail email).map f) }

def createRow (c : Inbound) (isNew : Bool) (cs : ClientTraffic) (canon : Counter) (st : Merge) : Merge :=
  if dirty || (!isNew && tick.tombstoned cs.email) then st
  else
    let seed : Counter := if isNew && !tick.tombstoned cs.email then canon else ⟨0, 0⟩
    let row : ClientTraffic :=
      { cs with inboundId := c.id, up := seed.up, down := seed.down, resetMax := 0, resetCount := 0 }
    let st := { st with
      clientTraffics := if st.clientTraffics.any (·.email = cs.email) then st.clientTraffics else st.clientTraffics ++ [row]
      centralCS := (c.id, cs.email) :: st.centralCS
      centralCSByEmail := Function.update st.centralCSByEmail cs.email (some row)
      existingEmails := cs.email :: st.existingEmails }
    st.setBaseline node.id cs.email canon

def renewed (frozen : Bool) (snapIb : Inbound) (cs : ClientTraffic) (canon : Counter) (st : Merge) : Bool :=
  match st.nodeBaselines cs.email, st.centralCSByEmail cs.email with
  | some base, some existing =>
      !frozen && nodeClientRenewed existing cs canon base &&
        !((settingsClientAbsoluteExpiries tick.floatInt snapIb.settings cs.email).any (· ≤ existing.expiryTime))
  | _, _ => false

def renewRow (cs : ClientTraffic) (canon : Counter) (r : ClientTraffic) : ClientTraffic :=
  { r with
    up := canon.up
    down := canon.down
    enable := cs.enable
    total := cs.total
    expiryTime := cs.expiryTime
    reset := cs.reset
    resetDay := cs.resetDay
    resetCount := cs.resetCount
    lastOnline := max r.lastOnline cs.lastOnline }

def frozenRow (cs : ClientTraffic) (delta : Counter) (r : ClientTraffic) : ClientTraffic :=
  { r with
    up := clampedAdd r.up delta.up
    down := clampedAdd r.down delta.down
    lastOnline := max r.lastOnline cs.lastOnline }

def mergeRow (now : Int) (cs : ClientTraffic) (delta : Counter) (r : ClientTraffic) : ClientTraffic :=
  { r with
    up := clampedAdd r.up delta.up
    down := clampedAdd r.down delta.down
    enable := enableMerge r cs now delta.up delta.down
    total := cs.total
    expiryTime := mergeActivationExpiry r.expiryTime cs.expiryTime
    reset := cs.reset
    resetDay := cs.resetDay
    lastOnline := max r.lastOnline cs.lastOnline }

/-- The row in memory follows the table, its sums in 64 bits. -/
def frozenExisting (delta : Counter) (r : ClientTraffic) : ClientTraffic :=
  { r with
    up := clampTrafficCounter (wrap64 (r.up + delta.up))
    down := clampTrafficCounter (wrap64 (r.down + delta.down)) }

def mergeExisting (now : Int) (cs : ClientTraffic) (delta : Counter) (r : ClientTraffic) : ClientTraffic :=
  { r with
    enable := if !cs.enable && !nodeDisableIsStale r cs now delta.up delta.down then false else r.enable
    expiryTime := mergeActivationExpiry r.expiryTime cs.expiryTime
    up := clampTrafficCounter (wrap64 (r.up + delta.up))
    down := clampTrafficCounter (wrap64 (r.down + delta.down))
    total := cs.total
    reset := cs.reset }

def Merge.addTraffic (st : Merge) (email : String) (f : ClientTraffic → ClientTraffic) : Merge :=
  { st with
    clientTraffics := updateTraffic st.clientTraffics email f
    added := Function.update st.added email ((st.added email).add (gain st.clientTraffics email f)) }

def mergeRowOf (frozen : Bool) (snapIb : Inbound) (cs : ClientTraffic) (canon : Counter) (st : Merge) : Merge :=
  let delta := counterDelta (st.nodeBaselines cs.email) canon
  if renewed tick frozen snapIb cs canon st then
    { st with
      clientTraffics := updateTraffic st.clientTraffics cs.email (renewRow cs canon)
      clientGlobalTraffics := st.clientGlobalTraffics.filter (·.email ≠ cs.email)
      overwritten := Function.update st.overwritten cs.email ((st.overwritten cs.email).add delta) }.setExisting cs.email
        (fun r => { r with up := canon.up, down := canon.down, enable := cs.enable, total := cs.total,
                           expiryTime := cs.expiryTime, reset := cs.reset, resetCount := cs.resetCount })
  else if frozen then (st.addTraffic cs.email (frozenRow cs delta)).setExisting cs.email (frozenExisting delta)
  else (st.addTraffic cs.email (mergeRow tick.now cs delta)).setExisting cs.email (mergeExisting tick.now cs delta)

def dipped (base : Option Counter) (canon : Counter) : Bool :=
  base.any fun base => canon.up < base.up || canon.down < base.down

def mergeClientStat (frozen : Bool) (newInboundIDs : List Nat) (c snapIb : Inbound) (st : Merge) (cs : ClientTraffic) : Merge :=
  let canon := nodeEmailTotals tick.inbounds cs.email
  if cs.email ∉ st.existingEmails then
    createRow node tick dirty c (decide (c.id ∈ newInboundIDs)) cs canon st
  else
    let st' := mergeRowOf tick frozen snapIb cs canon st
    if frozen && dipped (st.nodeBaselines cs.email) canon then st'
    else st'.setBaseline node.id cs.email canon

def dropUnreported (c : Inbound) (st : Merge) (k : Nat × String) : Merge :=
  if dirty || k.1 ≠ c.id || k.2 ∈ snapEmailsAll tick.inbounds then st
  else
    { st with
      nodeClientTraffics := st.nodeClientTraffics.filter fun b => !(b.nodeId = node.id && b.email = k.2)
      clientTraffics :=
        if !emailUsedByOtherInbounds db k.2 c.id && db.clients.all (·.email ≠ k.2) then
          st.clientTraffics.filter fun r => !(r.inboundId = c.id && r.email = k.2)
        else st.clientTraffics }

def mergeInbound (frozen : Bool) (adopted : Adoption) (st : Merge) (snapIb : Inbound) : Merge :=
  match adopted.tagToCentral snapIb.tag with
  | none => st
  | some c =>
      let st := snapIb.clientStats.foldl (mergeClientStat node tick dirty frozen adopted.newInboundIDs c snapIb) st
      st.centralCS.foldl (dropUnreported db node tick dirty c) st

def storedBaseline (rows : List NodeClientTraffic) (nodeId : Nat) (email : String) : Option Counter :=
  ((rows.filter fun b => b.nodeId = nodeId ∧ b.email = email).getLast?).map fun b => ⟨b.up, b.down⟩

def startMerge (adopted : Adoption) : Merge :=
  let central := (centralInbounds db node.id).map (·.id)
  let stats := db.clientTraffics.filter (·.inboundId ∈ central)
  { clientTraffics := adopted.db.clientTraffics
    nodeClientTraffics := adopted.db.nodeClientTraffics
    clientGlobalTraffics := adopted.db.clientGlobalTraffics
    centralCS := stats.map fun r => (r.inboundId, r.email)
    centralCSByEmail := fun email => (stats.filter (·.email = email)).getLast?
    existingEmails := (db.clientTraffics.map (·.email)).filter (· ∈ snapEmailsAll tick.inbounds)
    nodeBaselines := storedBaseline db.nodeClientTraffics node.id
    added := fun _ => ⟨0, 0⟩
    overwritten := fun _ => ⟨0, 0⟩ }

/-- The row of a node that does not exist reads as zero values. -/
def nodeRow (nodeId : Nat) : Node :=
  (db.nodes.find? (·.id = nodeId)).getD ⟨nodeId, "", false, "", []⟩

@[simp] theorem nodeRow_id (nodeId : Nat) : (nodeRow db nodeId).id = nodeId := by
  unfold nodeRow
  cases found : db.nodes.find? (·.id = nodeId) with
  | none => rfl
  | some node => simpa using List.find?_some found

def mergeDirty (nodeId : Nat) : Bool := tick.dirty || (nodeRow db nodeId).configDirty

def lifecycleFrozen (nodeId : Nat) : Bool := mergeDirty db tick nodeId || tick.justPushed

def mergeTraffic (nodeId : Nat) : Except String (Adoption × Merge) := do
  let node := nodeRow db nodeId
  let dirty := mergeDirty db tick nodeId
  let adopted ← adoptInbounds db node tick dirty
  let adopted := sweepInbounds db node tick dirty adopted
  .ok (adopted, tick.inbounds.foldl (mergeInbound db node tick dirty (lifecycleFrozen db tick nodeId) adopted)
    (startMerge db node tick adopted))

end ThreeXNode.Panel
