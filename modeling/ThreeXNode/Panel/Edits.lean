import ThreeXNode.Library.Reencode
import ThreeXNode.Panel.Traffic

namespace ThreeXNode.Panel
open Library
open Service (Protocol)

/-! ## Entries by email -/

def emailMember : Json → Option String
  | .obj members =>
      match (Std.ExtTreeMap.ofList members : Fields)["email"]? with
      | some (.str s) => some s
      | _ => none
  | _ => none

def knownEmail (db : Database) (email : String) : Bool := db.clients.any (·.email = email)

/-- `compactOrphans`: entries whose client has no record are dropped; `known` are the emails that have one. -/
def compactOrphans (known : String → Bool) (clients : List Json) : List Json :=
  let emails := (clients.map entryEmail).filter (· ≠ "")
  let existing := (emails.filter (known ·)).dedup
  if existing.length = emails.length then clients
  else clients.filter fun entry => entryEmail entry = "" || known (entryEmail entry)

def equalFold (a b : String) : Bool := toLower a = toLower b

/-! ## The settings each edit writes

`known` are the emails with a client record when the edit looks, and `settings` those of the row as a map of type
`map[string]any` holds them. An edit that ends without saving is `none`. -/

/-- `float64` is what a number literal is once a float has held it. -/
def decodedSettings (float64 : NumLit → Option NumLit) (ib : Inbound) : Option Fields :=
  ib.settings.bind (Json.reencodeFields float64)

def applyShadowsocksClientMethod (method : String) (entry : Json) : Json :=
  if (cutPrefix "2022-blake3-" method).isSome then
    mapEntry (fun cm => if cm["method"]?.isSome then some (cm.erase "method") else none) entry
  else if method = "" then entry
  else mapEntry (fun cm => if jsonString cm["method"]? = "" then some (cm.insert "method" (.str method)) else none) entry

def withMethod (ib : Inbound) (settings : Fields) (entries : List Json) : List Json :=
  if ib.protocol = .shadowsocks then entries.map (applyShadowsocksClientMethod (jsonString settings["method"]?)) else entries

def keptEntries (existing : List Client) (interfaceClients : List Json) : List Json :=
  let existingEmails := (existing.filter (·.email ≠ "")).map fun c => toLower c.email
  interfaceClients.filter fun entry => entryEmail entry = "" || toLower (entryEmail entry) ∉ existingEmails

def addedEntries (interfaceClients : List Json) (ib : Inbound) (settings : Fields) : Option (List Json) := do
  let existing ← getClients ib.settings
  let kept := keptEntries existing interfaceClients
  if existing ≠ [] ∧ interfaceClients ≠ [] ∧ kept = [] then none
  else some (withMethod ib settings kept)

def addInboundClient (known : String → Bool) (interfaceClients : List Json) (ib : Inbound) (settings : Fields) :
    Option Fields := do
  let added ← addedEntries interfaceClients ib settings
  return setClients settings (compactOrphans known (clientEntries (some settings)) ++ added)

def clientIndex (oldEmail : String) (ib : Inbound) : Option Nat := do
  let oldClients ← getClients ib.settings
  oldClients.findIdx? fun c => equalFold c.email oldEmail

def visionFlow : String := "xtls-rprx-vision"

def hasVisionFlow (clients : List Json) : Bool :=
  clients.any fun entry =>
    match entry with
    | .obj members => jsonString (Std.ExtTreeMap.ofList members : Fields)["flow"]? = visionFlow
    | _ => false

/-- An index past the entries ends the edit in a panic. -/
def updateInboundClient (oldEmail : String) (interfaceClient : Json) (ib : Inbound) (settings : Fields) :
    Option Fields := do
  let index ← clientIndex oldEmail ib
  let clients := clientEntries (some settings)
  if index < clients.length then
    let replaced := clients.set index ((withMethod ib settings [interfaceClient]).headD interfaceClient)
    let saved := setClients settings replaced
    some (if ib.protocol = .vless ∧ !hasVisionFlow replaced then saved.erase "testseed" else saved)
  else none

/-- Entries that are no objects go with the client. -/
def delInboundClientByEmail (known : String → Bool) (email : String) (settings : Fields) : Option Fields := do
  let interfaceClients ← settingsClients settings
  if interfaceClients.any fun entry => emailMember entry = some email then
    some (setClients settings (compactOrphans known
      (interfaceClients.filter fun entry => isEntry entry && emailMember entry ≠ some email)))
  else none

def wantedEntry (wanted : List String) (entry : Json) : Bool :=
  isEntry entry && entryEmail entry ≠ "" && entryEmail entry ∈ wanted

def delInboundClients (known : String → Bool) (wanted : List String) (settings : Fields) : Option Fields := do
  let interfaceClients ← settingsClients settings
  if interfaceClients.any (wantedEntry wanted) then
    some (setClients settings (compactOrphans known (interfaceClients.filter fun entry => !wantedEntry wanted entry)))
  else none

/-- Saves also where none of the clients is on the inbound. -/
def bulkDelInboundClients (known : String → Bool) (wanted : List String) (settings : Fields) : Option Fields :=
  some (setClients settings (compactOrphans known
    ((clientEntries (some settings)).filter fun entry => !wantedEntry wanted entry)))

/-- Every entry `select` admits is changed; nothing is saved where there is none. -/
def changeEntries (select : Json → Bool) (change : Fields → Option Fields) (settings : Fields) : Option Fields := do
  let clients ← settingsClients settings
  if clients.any select then
    some (setClients settings (clients.map fun entry => if select entry then mapEntry change entry else entry))
  else none

structure BulkAdjustEntry where
  newExpiry : Option Int
  newTotal : Option Int

def bulkFlowClear : String := "none"

def vlessEncValueSet (v : String) : Bool := v ≠ "" && v ≠ "none"

def vlessEncryptionEnabled (settings : Option Fields) : Bool :=
  match settings with
  | some o =>
      match member o "encryption" Json.asText "", member o "decryption" Json.asText "" with
      | some encryption, some decryption => vlessEncValueSet encryption || vlessEncValueSet decryption
      | _, _ => false
  | none => false

def inboundCanEnableTlsFlow (ib : Inbound) : Bool :=
  ib.protocol = .vless &&
    match ib.streamSettings with
    | some stream =>
        match member stream "network" Json.asText "", member stream "security" Json.asText "" with
        | some network, some security =>
            if network = "tcp" then security = "tls" || security = "reality"
            else network = "xhttp" && vlessEncryptionEnabled ib.settings
        | _, _ => false
    | none => false

def flowEligible (flow : String) (ib : Inbound) : Bool :=
  flow = bulkFlowClear || (!ib.disableFlow && inboundCanEnableTlsFlow ib)

def adjustEntry (entry : BulkAdjustEntry) (flow : String) (eligible : Bool) (now : Int) (cm : Fields) : Fields :=
  let cm := match entry.newExpiry with
    | some expiry => cm.insert "expiryTime" (.ofInt expiry)
    | none => cm
  let cm := match entry.newTotal with
    | some total => cm.insert "totalGB" (.ofInt total)
    | none => cm
  let wantFlow := if flow = bulkFlowClear then "" else flow
  let cm :=
    if flow ≠ "" ∧ eligible ∧ jsonString cm["flow"]? ≠ wantFlow then cm.insert "flow" (.str wantFlow) else cm
  cm.insert "updated_at" (.ofInt now)

def bulkAdjustInboundClients (plan : List (String × BulkAdjustEntry)) (flow : String) (now : Int) (ib : Inbound)
    (settings : Fields) : Option Fields :=
  changeEntries (wantedEntry (plan.map (·.1))) (fun cm =>
    (plan.find? (·.1 = jsonString cm["email"]?)).map fun planned =>
      adjustEntry planned.2 flow (flowEligible flow ib) now cm) settings

def enableDiffers (enable : Bool) : Json → Bool
  | .obj members => jsonBool (Std.ExtTreeMap.ofList members : Fields)["enable"]? != enable
  | _ => false

def bulkSetEnableInboundClients (wanted : List String) (enable : Bool) (now : Int) (settings : Fields) : Option Fields :=
  changeEntries (fun entry => wantedEntry wanted entry && enableDiffers enable entry) (fun cm =>
    some ((cm.insert "enable" (.bool enable)).insert "updated_at" (.ofInt now))) settings

def setGroup (group : String) (cm : Fields) : Fields :=
  if group = "" then cm.erase "group" else cm.insert "group" (.str group)

def addToGroup (emailSet : List String) (group : String) (settings : Fields) : Option Fields :=
  changeEntries (fun entry => isEntry entry && entryEmail entry ∈ emailSet) (fun cm => some (setGroup group cm)) settings

def inGroup (name : String) : Json → Bool
  | .obj members =>
      match (Std.ExtTreeMap.ofList members : Fields)["group"]? with
      | some (.str g) => g = name
      | _ => false
  | _ => false

def replaceGroupValue (oldName newName : String) (settings : Fields) : Option Fields :=
  changeEntries (inGroup oldName) (fun cm => some (setGroup newName cm)) settings

/-! ## Edits as one type -/

/-- An edit with what it was called with; the entries of an add or an update as they are stamped for storage. -/
inductive Edit where
  | addInboundClient (interfaceClients : List Json)
  | updateInboundClient (oldEmail : String) (interfaceClient : Json)
  | delInboundClientByEmail (email : String)
  | delInboundClients (wanted : List String)
  | bulkDelInboundClients (wanted : List String)
  | bulkAdjustInboundClients (plan : List (String × BulkAdjustEntry)) (flow : String) (now : Int)
  | bulkSetEnableInboundClients (wanted : List String) (enable : Bool) (now : Int)
  | addToGroup (emailSet : List String) (group : String)
  | replaceGroupValue (oldName newName : String)

namespace Edit

/-- `lockInbound` is taken by every edit but those of groups. -/
def locks : Edit → Bool
  | .addToGroup .. | .replaceGroupValue .. => false
  | _ => true

def compacts : Edit → Bool
  | .addInboundClient _ | .delInboundClientByEmail _ | .delInboundClients _ | .bulkDelInboundClients _ => true
  | _ => false

def rewritten (known : String → Bool) (ib : Inbound) (settings : Fields) : Edit → Option Fields
  | .addInboundClient interfaceClients => Panel.addInboundClient known interfaceClients ib settings
  | .updateInboundClient oldEmail interfaceClient => Panel.updateInboundClient oldEmail interfaceClient ib settings
  | .delInboundClientByEmail email => Panel.delInboundClientByEmail known email settings
  | .delInboundClients wanted => Panel.delInboundClients known wanted settings
  | .bulkDelInboundClients wanted => Panel.bulkDelInboundClients known wanted settings
  | .bulkAdjustInboundClients plan flow now => Panel.bulkAdjustInboundClients plan flow now ib settings
  | .bulkSetEnableInboundClients wanted enable now => Panel.bulkSetEnableInboundClients wanted enable now settings
  | .addToGroup emailSet group => Panel.addToGroup emailSet group settings
  | .replaceGroupValue oldName newName => Panel.replaceGroupValue oldName newName settings

def newSettings (float64 : NumLit → Option NumLit) (known : String → Bool) (ib : Inbound) (edit : Edit) : Option Fields :=
  (decodedSettings float64 ib).bind fun settings => edit.rewritten known ib settings

/-- The clients an edit of `ib` is about, by their emails. -/
def touches (ib : Inbound) (email : String) : Edit → Bool
  | .addInboundClient interfaceClients => email ∈ interfaceClients.map entryEmail
  | .updateInboundClient oldEmail interfaceClient => equalFold email oldEmail || email = entryEmail interfaceClient
  | .delInboundClientByEmail removed => email = removed
  | .delInboundClients wanted | .bulkDelInboundClients wanted => email ∈ wanted
  | .bulkAdjustInboundClients plan _ _ => email ∈ plan.map (·.1)
  | .bulkSetEnableInboundClients wanted _ _ => email ∈ wanted
  | .addToGroup emailSet _ => email ∈ emailSet
  | .replaceGroupValue oldName _ => (clientEntries ib.settings).any fun entry => inGroup oldName entry && entryEmail entry = email

end Edit

/-! ## Saving -/

def rowAt (db : Database) (id : Nat) : Option Inbound := db.inbounds.find? (·.id = id)

theorem rowAt_id {db : Database} {id : Nat} {ib : Inbound} (found : rowAt db id = some ib) : ib.id = id := by
  have same := List.find?_some found
  exact of_decide_eq_true same

/-- `Save` of a row: all columns are written, and a row that is gone is inserted again. -/
def saveInbound (db : Database) (ib : Inbound) : Database :=
  if db.inbounds.any (·.id = ib.id) then
    { db with inbounds := db.inbounds.map fun row => if row.id = ib.id then ib else row }
  else { db with inbounds := db.inbounds ++ [ib] }

/-- The record follows a renamed client unless the new email has one already. -/
def renameRecord (db : Database) (oldEmail newEmail : String) : Database :=
  if db.clients.any (·.email = newEmail) then db
  else { db with clients := db.clients.map fun rec => if rec.email = oldEmail then { rec with email := newEmail } else rec }

/-- What the transaction of an edit of `row` does to records and links after it has saved the row; `none` where the
entries do not decode, and the transaction is rolled back. -/
def Edit.sync (db : Database) (now : Int) (row saved : Inbound) : Edit → Option Database
  | .addInboundClient interfaceClients => do
      let settings ← row.settings
      let changed ← (← addedEntries interfaceClients row settings).mapM Client.ofJson
      return applyInboundClientDelta db now row.id changed []
  | .updateInboundClient oldEmail interfaceClient => do
      let index ← clientIndex oldEmail row
      let old := ((clientEntries row.settings).map entryEmail).getD index ""
      let changed ← Client.ofJson ((clientEntries saved.settings).getD index interfaceClient)
      let renamed := if old ≠ "" ∧ old ≠ changed.email then renameRecord db old changed.email else db
      return applyInboundClientDelta renamed now row.id [changed] (if old ≠ "" ∧ old ≠ changed.email then [old] else [])
  | .delInboundClientByEmail email => some (applyInboundClientDelta db now row.id [] [email])
  | .delInboundClients wanted =>
      let targets := ((clientEntries row.settings).filter (wantedEntry wanted)).map entryEmail
      some (applyInboundClientDelta db now row.id [] targets)
  | .bulkDelInboundClients _ | .bulkAdjustInboundClients .. | .bulkSetEnableInboundClients .. => do
      let clients ← getClients saved.settings
      return syncInbound db now row.id clients
  | .addToGroup emailSet group =>
      some { db with clients := db.clients.map fun rec => if rec.email ∈ emailSet then { rec with group := group } else rec }
  | .replaceGroupValue oldName newName =>
      some { db with clients := db.clients.map fun rec => if rec.group = oldName then { rec with group := newName } else rec }

def Edit.commit (db : Database) (now : Int) (row saved : Inbound) (edit : Edit) : Option Database :=
  edit.sync (saveInbound db saved) now row saved

end ThreeXNode.Panel
