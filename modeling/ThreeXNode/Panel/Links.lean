import ThreeXNode.Library.Spellings
import ThreeXNode.Panel.Database

namespace ThreeXNode.Panel
open Library

/-! ## Clients in the settings of an inbound -/

structure Client where
  id : String
  security : String
  password : String
  flow : String
  reverse : Option String
  auth : String
  privateKey : String
  publicKey : String
  allowedIPs : List String
  preSharedKey : String
  keepAlive : Int
  forwardedPorts : String
  secret : String
  adTag : String
  email : String
  limitIP : Int
  totalGB : Int
  expiryTime : Int
  enable : Bool
  tgID : Int
  subID : String
  group : String
  comment : String
  reset : Int
  resetDay : Int
  resetMax : Int
  trafficReset : String
  trafficResetDay : Int
  createdAt : Int
  updatedAt : Int

/-- A member decoded into a typed field: the zero value where it is missing, `none` where it has the wrong type. -/
def member (o : Fields) (key : String) (decode : Json → Option α) (zero : α) : Option α :=
  match Fields.field? o key with
  | none => some zero
  | some j => decode j

def asReverse : Json → Option (Option String)
  | .null => some none
  | .obj members => (member (.ofList members) "tag" Json.asText "").map some
  | _ => none

def Client.ofJson (entry : Json) : Option Client := do
  let o ← entry.asFields
  return {
    id := ← member o "id" Json.asText ""
    security := ← member o "security" Json.asText ""
    password := ← member o "password" Json.asText ""
    flow := ← member o "flow" Json.asText ""
    reverse := ← member o "reverse" asReverse none
    auth := ← member o "auth" Json.asText ""
    privateKey := ← member o "privateKey" Json.asText ""
    publicKey := ← member o "publicKey" Json.asText ""
    allowedIPs := ← member o "allowedIPs" (Json.asList Json.asText) []
    preSharedKey := ← member o "preSharedKey" Json.asText ""
    keepAlive := ← member o "keepAlive" Json.asInt64 0
    forwardedPorts := ← member o "forwardedPorts" Json.asText ""
    secret := ← member o "secret" Json.asText ""
    adTag := ← member o "adTag" Json.asText ""
    email := ← member o "email" Json.asText ""
    limitIP := ← member o "limitIp" Json.asInt64 0
    totalGB := ← member o "totalGB" Json.asInt64 0
    expiryTime := ← member o "expiryTime" Json.asInt64 0
    enable := ← member o "enable" Json.asBool false
    tgID := ← member o "tgId" Json.asInt64 0
    subID := ← member o "subId" Json.asText ""
    group := ← member o "group" Json.asText ""
    comment := ← member o "comment" Json.asText ""
    reset := ← member o "reset" Json.asInt64 0
    resetDay := ← member o "resetDay" Json.asInt64 0
    resetMax := ← member o "resetMax" Json.asInt64 0
    trafficReset := ← member o "trafficReset" Json.asText ""
    trafficResetDay := ← member o "trafficResetDay" Json.asInt64 0
    createdAt := ← member o "created_at" Json.asInt64 0
    updatedAt := ← member o "updated_at" Json.asInt64 0 }

def getClients (settings : Option Fields) : Option (List Client) := do
  let o ← settings
  member o "clients" (Json.asList Client.ofJson) []

def Client.toRecord (c : Client) : ClientRecord where
  id := 0
  email := c.email
  subID := c.subID
  uuid := c.id
  password := c.password
  auth := c.auth
  flow := c.flow
  security := c.security
  reverse := c.reverse
  privateKey := c.privateKey
  publicKey := c.publicKey
  allowedIPs := ",".intercalate c.allowedIPs
  preSharedKey := c.preSharedKey
  keepAlive := c.keepAlive
  forwardedPorts := c.forwardedPorts
  secret := c.secret
  adTag := c.adTag
  limitIP := c.limitIP
  totalGB := c.totalGB
  expiryTime := c.expiryTime
  enable := c.enable
  tgID := c.tgID
  group := c.group
  comment := c.comment
  reset := c.reset
  resetDay := c.resetDay
  resetMax := c.resetMax
  trafficReset := c.trafficReset
  trafficResetDay := c.trafficResetDay
  createdAt := c.createdAt
  updatedAt := c.updatedAt
  syncOrphanedAt := 0

/-! ## Records -/

def nonEmptyOr (incoming stored : String) : String := if incoming ≠ "" then incoming else stored

def applyClientRecordMerge (row incoming : ClientRecord) : ClientRecord :=
  { row with
    uuid := nonEmptyOr incoming.uuid row.uuid
    password := nonEmptyOr incoming.password row.password
    auth := nonEmptyOr incoming.auth row.auth
    secret := nonEmptyOr incoming.secret row.secret
    adTag := nonEmptyOr incoming.adTag row.adTag
    flow := incoming.flow
    security := nonEmptyOr incoming.security row.security
    reverse := incoming.reverse.or row.reverse
    privateKey := nonEmptyOr incoming.privateKey row.privateKey
    publicKey := nonEmptyOr incoming.publicKey row.publicKey
    allowedIPs := nonEmptyOr incoming.allowedIPs row.allowedIPs
    preSharedKey := incoming.preSharedKey
    keepAlive := incoming.keepAlive
    subID := incoming.subID
    limitIP := incoming.limitIP
    totalGB := incoming.totalGB
    expiryTime := incoming.expiryTime
    enable := incoming.enable
    tgID := incoming.tgID
    group := nonEmptyOr incoming.group row.group
    comment := incoming.comment
    reset := incoming.reset
    resetDay := incoming.resetDay
    resetMax := incoming.resetMax
    trafficReset := nonEmptyOr incoming.trafficReset row.trafficReset
    trafficResetDay := if incoming.trafficResetDay > 0 then incoming.trafficResetDay else row.trafficResetDay
    createdAt :=
      if incoming.createdAt > 0 ∧ (row.createdAt = 0 ∨ incoming.createdAt < row.createdAt) then incoming.createdAt
      else row.createdAt }

/-- What an insert stores: a column with a default takes it where the field has the zero value, so `enable` is always
true. -/
def insertDefaults (now : Int) (id : Nat) (rec : ClientRecord) : ClientRecord :=
  { rec with
    id := id
    enable := true
    trafficReset := nonEmptyOr rec.trafficReset "never"
    trafficResetDay := if rec.trafficResetDay = 0 then 1 else rec.trafficResetDay
    createdAt := if rec.createdAt = 0 then now else rec.createdAt
    updatedAt := if rec.updatedAt = 0 then now else rec.updatedAt }

structure Synced where
  clients : List ClientRecord
  toCreate : List ClientRecord

def incomingRecord (c : Client) : ClientRecord := { c.toRecord with email := trimSpace c.email }

def mergeRecord (incoming row : ClientRecord) : ClientRecord :=
  { applyClientRecordMerge row incoming with updatedAt := max incoming.updatedAt row.updatedAt }

def syncClient (st : Synced) (c : Client) : Synced :=
  let incoming := incomingRecord c
  if incoming.email = "" then st
  else if st.clients.any (·.email = incoming.email) then
    { st with clients := st.clients.map fun row => if row.email = incoming.email then mergeRecord incoming row else row }
  else if st.toCreate.any (·.email = incoming.email) then st
  else { st with toCreate := st.toCreate ++ [incoming] }

def syncRecords (db : Database) (now : Int) (clients : List Client) : Database :=
  let synced := clients.foldl syncClient ⟨db.clients, []⟩
  { db with
    clients := synced.clients ++ synced.toCreate.zipIdx.map fun (rec, i) => insertDefaults now (db.nextClientId + i) rec
    nextClientId := db.nextClientId + synced.toCreate.length }

/-! ## Links -/

def idOfEmail (db : Database) (email : String) : Option Nat := (db.clients.find? (·.email = email)).map (·.id)

/-- `wantedFlow` in the order of `wantedIds`: the flow of the first client with a record. -/
def wantedFlows (db : Database) (clients : List Client) : List (Nat × String) :=
  clients.foldl (fun wanted c =>
    if trimSpace c.email = "" then wanted
    else match idOfEmail db (trimSpace c.email) with
      | none => wanted
      | some id => if id ∈ wanted.map (·.1) then wanted else wanted ++ [(id, c.flow)]) []

def wantedFlow (wanted : List (Nat × String)) (id : Nat) : Option String := (wanted.find? (·.1 = id)).map (·.2)

def reconcileInboundLinks (db : Database) (inboundId : Nat) (wanted : List (Nat × String)) (detachEmails : List String)
    (prune : Bool) : Database :=
  let linked := (db.clientInbounds.filter (·.inboundId = inboundId)).map (·.clientId)
  let detached := (db.clients.filter (·.email ∈ detachEmails)).map (·.id)
  let deleted := fun id => (wantedFlow wanted id).isNone && (prune || id ∈ detached)
  { db with
    clientInbounds :=
      (db.clientInbounds.filter fun link => !(link.inboundId = inboundId && deleted link.clientId)).map (fun link =>
        if link.inboundId = inboundId then { link with flowOverride := (wantedFlow wanted link.clientId).getD link.flowOverride }
        else link) ++
      (wanted.filter (·.1 ∉ linked)).map fun (id, flow) => ⟨id, inboundId, flow⟩ }

def syncInboundClients (db : Database) (now : Int) (inboundId : Nat) (clients : List Client) (detachEmails : List String)
    (prune : Bool) : Database :=
  let db := syncRecords db now clients
  reconcileInboundLinks db inboundId (wantedFlows db clients) detachEmails prune

def syncInbound (db : Database) (now : Int) (inboundId : Nat) (clients : List Client) : Database :=
  syncInboundClients db now inboundId clients [] true

def applyInboundClientDelta (db : Database) (now : Int) (inboundId : Nat) (changed : List Client)
    (detachEmails : List String) : Database :=
  syncInboundClients db now inboundId changed detachEmails false

end ThreeXNode.Panel
