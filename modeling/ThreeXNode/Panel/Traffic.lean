import ThreeXNode.Panel.Links
import ThreeXNode.Library.Int64

namespace ThreeXNode.Panel
open Library

/-! ## What a poll of the core reports -/

structure Traffic where
  isInbound : Bool
  tag : String
  up : Int
  down : Int

structure ClientUse where
  email : String
  up : Int
  down : Int

/-- What one pass of the writer is given besides the reports: the clock in milliseconds and cut to seconds, the
cross-panel rows a master still refreshes, and the next renewal on a day of the month, in the panel's zone. -/
structure Clock where
  now : Int
  nowSeconds : Int
  fresh : ClientGlobalTraffic → Bool
  nextCalendarRenewal : Int → Int → Int

def addInboundTraffic (db : Database) (traffics : List Traffic) : Database :=
  traffics.foldl (fun db traffic =>
    if traffic.isInbound then
      { db with
        inbounds := db.inbounds.map fun ib =>
          if ib.tag = traffic.tag ∧ ib.nodeId = none then
            { ib with up := clampedAdd ib.up traffic.up, down := clampedAdd ib.down traffic.down }
          else ib }
    else db) db

/-! ## Entries of the settings -/

def mapEntry (change : Fields → Option Fields) (entry : Json) : Json :=
  match entry with
  | .obj members => ((change (.ofList members)).map .ofFields).getD entry
  | _ => entry

def isEntry : Json → Bool
  | .obj _ => true
  | _ => false

def clientEntries (settings : Option Fields) : List Json := (settings.bind settingsClients).getD []

def setClients (settings : Fields) (clients : List Json) : Fields := settings.insert "clients" (.arr clients)

def linkedInboundIds (db : Database) (emails : List String) : List Nat :=
  let ids := (db.clients.filter (·.email ∈ emails)).map (·.id)
  ((db.clientInbounds.filter (·.clientId ∈ ids)).map (·.inboundId)).dedup

/-- The full sync of an inbound with its own settings, which is skipped where they do not decode. -/
def syncOwnClients (now : Int) (db : Database) (ib : Inbound) : Database :=
  match getClients ib.settings with
  | some clients => syncInbound db now ib.id clients
  | none => db

/-! ## Counting and activation -/

def newExpiryByEmail (rows : List ClientTraffic) (now : Int) (email : String) : Option Int :=
  ((rows.find? (·.email = email)).filter (·.expiryTime < 0)).map fun row => now - row.expiryTime

def orInsert (o : Fields) (key : String) (j : Json) : Fields := if o[key]?.isSome then o else o.insert key j

def activateEntry (newExpiry : String → Option Int) (now : Int) (entry : Fields) : Option Fields :=
  match newExpiry (jsonString entry["email"]?) with
  | some expiry =>
      some (orInsert ((entry.insert "expiryTime" (.ofInt expiry)).insert "updated_at" (.ofInt now)) "created_at" (.ofInt now))
  | none =>
      if entry["created_at"]?.isSome ∧ entry["updated_at"]?.isSome then none
      else some (orInsert (orInsert entry "created_at" (.ofInt now)) "updated_at" (.ofInt now))

/-- An entry that is no object makes the loop panic; the list of no clients is written as `null`. -/
def activateSettings (newExpiry : String → Option Int) (now : Int) (settings : Option Fields) : Option (Option Fields) :=
  match settings.bind settingsClients, settings with
  | some clients, some o =>
      if clients.all isEntry then
        if clients = [] then some (some (o.insert "clients" .null))
        else some (some (setClients o (clients.map (mapEntry (activateEntry newExpiry now)))))
      else none
  | _, _ => some settings

/-- The tables after the activation, and the deadlines that are still to be stored. -/
def adjustTraffics (db : Database) (rows : List ClientTraffic) (now : Int) :
    Option (Database × (String → Option Int)) :=
  let delayed := (rows.filter (·.expiryTime < 0)).map (·.email)
  let ids := linkedInboundIds db delayed
  if delayed = [] ∨ ids = [] then some (db, fun _ => none)
  else do
    let inbounds ← (db.inbounds.filter (·.id ∈ ids)).mapM fun ib =>
      (activateSettings (newExpiryByEmail rows now) now ib.settings).map fun settings => { ib with settings := settings }
    let saved := { db with
      inbounds := db.inbounds.map fun ib => (inbounds.find? (·.id = ib.id)).getD ib }
    return (inbounds.foldl (syncOwnClients now) saved, newExpiryByEmail rows now)

def lastUse (traffics : List ClientUse) (email : String) : Option ClientUse := traffics.reverse.find? (·.email = email)

/-- `none` where the transaction panics and is rolled back. -/
def addClientTraffic (db : Database) (traffics : List ClientUse) (now : Int) : Option Database :=
  let polled := db.clientTraffics.filter (·.email ∈ traffics.map (·.email))
  if polled = [] then some db
  else do
    let (db, converted) ← adjustTraffics db polled now
    return { db with
      clientTraffics := db.clientTraffics.map fun row =>
        let row := match lastUse traffics row.email with
          | some t =>
              if t.up = 0 ∧ t.down = 0 then row
              else { row with
                up := clampedAdd row.up t.up
                down := clampedAdd row.down t.down
                lastOnline := max row.lastOnline now }
          | none => row
        match converted row.email with
        | some expiry => if row.expiryTime < 0 then { row with expiryTime := expiry } else row
        | none => row }

/-! ## Renewal -/

def hasLocalInbound (db : Database) (email : String) : Bool :=
  (linkedInboundIds db [email]).any fun id => db.inbounds.any fun ib => ib.id = id && ib.nodeId.isNone

def renewable (db : Database) (now : Int) (row : ClientTraffic) : Bool :=
  (row.reset > 0 || row.resetDay > 0) && (row.expiryTime > 0 && row.expiryTime ≤ now) &&
    (row.resetMax ≤ 0 || row.resetCount < row.resetMax) && hasLocalInbound db row.email

def dayMillis : Int := 86400000

/-- The loop that catches up on missed periods: the deadline, and the number of renewals. Where every pass moves the deadline
on, a pass for each millisecond is enough. -/
def catchUp (clock : Clock) (row : ClientTraffic) : Nat → Int → Int → Int × Int
  | 0, expiry, renewals => (expiry, renewals)
  | fuel + 1, expiry, renewals =>
      if expiry < clock.nowSeconds then
        if row.resetMax > 0 ∧ row.resetCount + renewals ≥ row.resetMax then (expiry, renewals)
        else if row.resetDay > 0 then catchUp clock row fuel (clock.nextCalendarRenewal expiry row.resetDay) (renewals + 1)
        else catchUp clock row fuel (wrap64 (expiry + wrap64 (row.reset * dayMillis))) (renewals + 1)
      else (expiry, renewals)

def renewals (clock : Clock) (row : ClientTraffic) : Int × Int :=
  catchUp clock row (clock.nowSeconds - row.expiryTime).toNat row.expiryTime 0

structure Renewing where
  traffics : List ClientTraffic
  renewedEmails : List String

/-- One entry of the settings: the client's row, and with it the entry, moves to the next deadline, and unless that
has passed too the row starts a fresh quota. -/
def renewEntry (clock : Clock) (wasEnabled : String → Bool) (st : Renewing) (entry : Json) : Renewing × Json :=
  let email := entryEmail entry
  match st.traffics.find? (·.email = email) with
  | none => (st, entry)
  | some row =>
      let (expiry, count) := renewals clock row
      let moved := if count > 0 then { row with expiryTime := expiry, resetCount := row.resetCount + count } else row
      let put := fun fresh : ClientTraffic => st.traffics.map fun r => if r.email = email then fresh else r
      if moved.expiryTime ≤ clock.nowSeconds then
        ({ st with traffics := put moved },
          mapEntry (fun cm => some (cm.insert "expiryTime" (.ofInt moved.expiryTime))) entry)
      else
        let fresh := if count > 0 then { moved with up := 0, down := 0 } else moved
        ({ traffics := put (if wasEnabled email then fresh else { fresh with enable := true })
           renewedEmails := if count > 0 then st.renewedEmails ++ [email] else st.renewedEmails },
          mapEntry (fun cm =>
            let cm := cm.insert "expiryTime" (.ofInt moved.expiryTime)
            some (if wasEnabled email then cm else cm.insert "enable" (.bool true))) entry)

def renewEntries (clock : Clock) (wasEnabled : String → Bool) : Renewing → List Json → Option (Renewing × List Json)
  | st, [] => some (st, [])
  | st, entry :: rest =>
      if isEntry entry then
        let (st, entry) := renewEntry clock wasEnabled st entry
        (renewEntries clock wasEnabled st rest).map fun (st, rest) => (st, entry :: rest)
      else none

def renewInbound (clock : Clock) (wasEnabled : String → Bool) (st : Renewing) (ib : Inbound) : Option (Renewing × Inbound) :=
  match ib.settings with
  | some o =>
      if clientEntries (some o) = [] then some (st, ib)
      else (renewEntries clock wasEnabled st (clientEntries (some o))).map fun (st, clients) =>
        (st, { ib with settings := some (setClients o clients) })
  | none => some (st, ib)

def renewInbounds (clock : Clock) (wasEnabled : String → Bool) : Renewing → List Inbound →
    Option (Renewing × List Inbound)
  | st, [] => some (st, [])
  | st, ib :: rest => do
      let (st, ib) ← renewInbound clock wasEnabled st ib
      let (st, rest) ← renewInbounds clock wasEnabled st rest
      return (st, ib :: rest)

def clearGlobalTraffic (db : Database) (emails : List String) : Database :=
  { db with clientGlobalTraffics := db.clientGlobalTraffics.filter (·.email ∉ emails) }

def autoRenewClients (db : Database) (clock : Clock) : Option Database :=
  let traffics := db.clientTraffics.filter (renewable db clock.nowSeconds)
  if traffics = [] then some db
  else do
    let ids := linkedInboundIds db (traffics.map (·.email))
    let wasEnabled := fun email => traffics.any fun row => row.email = email && row.enable
    let (st, inbounds) ← renewInbounds clock wasEnabled ⟨traffics, []⟩ (db.inbounds.filter (·.id ∈ ids))
    let saved := { db with
      inbounds := db.inbounds.map fun ib => (inbounds.find? (·.id = ib.id)).getD ib }
    let synced := inbounds.foldl (syncOwnClients clock.nowSeconds) saved
    let written := { synced with
      clientTraffics := synced.clientTraffics.map fun row => (st.traffics.find? (·.email = row.email)).getD row }
    return clearGlobalTraffic written st.renewedEmails

/-! ## Quotas -/

def depleted (db : Database) (clock : Clock) (row : ClientTraffic) : Bool :=
  (row.total > 0 && row.up + row.down ≥ row.total) || (row.expiryTime > 0 && row.expiryTime ≤ clock.now) ||
    (row.total > 0 && db.clientGlobalTraffics.any fun g => g.email = row.email && clock.fresh g && g.up + g.down ≥ row.total)

def disableEntry (emails : List String) (nowSeconds : Int) (entry : Fields) : Option Fields :=
  if jsonString entry["email"]? ∈ emails ∧ jsonBool entry["enable"]? then
    some ((entry.insert "enable" (.bool false)).insert "updated_at" (.ofInt nowSeconds))
  else none

/-- `none` where the settings do not decode, or name no array of clients to look through. -/
def markClientsDisabledInSettings (emails : List String) (nowSeconds : Int) (ib : Inbound) : Option Inbound :=
  ib.settings.map fun o =>
    match settingsClients o with
    | some clients => { ib with settings := some (setClients o (clients.map (mapEntry (disableEntry emails nowSeconds)))) }
    | none => ib

def disableInvalidClients (db : Database) (clock : Clock) : Option Database :=
  let rows := db.clientTraffics.filter fun row => depleted db clock row && row.enable
  if rows = [] then some db
  else do
    let emails := (rows.map (·.email)).filter (· ≠ "")
    let inbounds ← db.inbounds.mapM fun ib =>
      let ids := (db.clientInbounds.filter (·.inboundId = ib.id)).map (·.clientId)
      let here := (db.clients.filter fun rec => rec.id ∈ ids ∧ rec.email ∈ emails).map (·.email)
      if here = [] then some ib else markClientsDisabledInSettings here clock.nowSeconds ib
    return { db with
      inbounds := inbounds
      clientTraffics := db.clientTraffics.map fun row =>
        if row.email ∈ rows.map (·.email) then { row with enable := false } else row
      clients := db.clients.map fun rec =>
        if rec.email ∈ emails then { rec with enable := false, updatedAt := clock.now } else rec }

def disableInvalidInbounds (db : Database) (clock : Clock) : Database :=
  { db with
    inbounds := db.inbounds.map fun ib =>
      if ((ib.total > 0 ∧ ib.up + ib.down ≥ ib.total) ∨ (ib.expiryTime > 0 ∧ ib.expiryTime ≤ clock.nowSeconds)) ∧
          ib.nodeId = none then
        { ib with enable := false }
      else ib }

/-! ## The two transactions of a poll -/

def countTraffic (db : Database) (traffics : List Traffic) (clientTraffics : List ClientUse) (clock : Clock) :
    Option Database :=
  addClientTraffic (addInboundTraffic db traffics) clientTraffics clock.now

def maintain (db : Database) (clock : Clock) : Option Database := do
  let db ← autoRenewClients db clock
  let db ← disableInvalidClients db clock
  return disableInvalidInbounds db clock

end ThreeXNode.Panel
