import ThreeXNode.Leaf.Validate

namespace ThreeXNode.Leaf
open Library

structure Config where
  apiPort : Int
  defaultClientUUID : String
  defaultClientEmail : String

def Config.defaultClient (cfg : Config) : Client :=
  ((((((∅ : Client).insert "id" (.str cfg.defaultClientUUID)).insert "email" (.str cfg.defaultClientEmail)).insert
    "enable" (.bool true)).insert "flow" (.str "")).insert "totalGB" (.ofInt 0)).insert "expiryTime" (.ofInt 0)

inductive Reply where
  | nothing
  | inbound (ib : Inbound)
  | affected (n : Nat)

namespace State

def setField (email key : String) (v : Json) (c : Client) : Client :=
  if c.text "email" = email then c.insert key v else c

def setClientField (s : State) (email key : String) (v : Json) : State :=
  let inbounds := s.inbounds.map fun ib => ib.setClients (ib.clientsOrNil.map (setField email key v))
  { s with inbounds }

end State

def injectDefaultClient (cfg : Config) (ib : Inbound) : Except String Inbound :=
  if ib.protocol ≠ "vless" ∨ cfg.defaultClientUUID = "" then .ok ib
  else do
    let clients ← ib.clients
    return if clients ≠ [] then ib else ib.setClients [cfg.defaultClient]

def normalizeInbound (ib : Inbound) : Except String Inbound :=
  if ib.protocol = "vless" then do
    let clients ← ib.clients
    let clients ← clients.mapM normalizeVLESSClient
    return ib.setClients clients
  else .ok ib

/-- `id` 0 addresses the inbound with the payload's tag, and a new one when there is none. -/
def targetID (s : State) (ib : Inbound) (id : Int) : Int :=
  if id = 0 then ((s.inbounds.find? (·.tag == ib.tag)).map (·.id)).getD 0 else id

def replaceInbound (ib : Inbound) (id : Int) (s : State) : Except String (State × Reply) :=
  match s.find id with
  | none => .error "inbound not found"
  | some old =>
      let ib := { ib with id, up := old.up, down := old.down }
      .ok ({ s with inbounds := updateFirst (·.id == id) (fun _ => ib) s.inbounds }, .inbound ib)

def appendInbound (ib : Inbound) (s : State) : State × Reply :=
  let ib := { ib with id := s.nextID, up := 0, down := 0 }
  ({ s with nextID := s.nextID + 1, inbounds := s.inbounds ++ [ib] }, .inbound ib)

def putInbound (cfg : Config) (ib : Inbound) (id : Int) (s : State) : Except String (State × Reply) := do
  let ib ← normalizeInbound ib
  let ib ← injectDefaultClient cfg ib
  if targetID s ib id > 0 then replaceInbound ib (targetID s ib id) s else return appendInbound ib s

def deleteInbound (id : Int) (s : State) : Except String (State × Reply) :=
  .ok ({ s with inbounds := s.inbounds.eraseP (·.id == id) }, .nothing)

inductive ClientOp where
  | add
  | update
  | delete
  | detach
  deriving DecidableEq

def matchesEntry (oldEmail : String) (c : Client) (op : ClientOp) (prev : Client) : Bool :=
  prev.text "email" == oldEmail || (op == .add && prev.text "email" == c.text "email")

def changeEntry (oldEmail : String) (c : Client) (op : ClientOp) (selected : Bool) (prev : Client) : List Client :=
  if matchesEntry oldEmail c op prev then
    match op with
    | .delete => []
    | .detach => if selected then [] else [prev]
    | .update => [c]
    | .add => if selected then [c] else [prev]
  else [prev]

def changeInbound (oldEmail : String) (c : Client) (ids : List Int) (op : ClientOp) (ib : Inbound) : Inbound :=
  let selected := ids.isEmpty || ids.contains ib.id
  let cs := ib.clientsOrNil
  let out := cs.flatMap (changeEntry oldEmail c op selected)
  let found := cs.any (matchesEntry oldEmail c op)
  ib.setClients (if op = .add ∧ selected ∧ ¬found then out ++ [c] else out)

def renameTraffic (oldEmail email : String) (s : State) : Except String State := do
  require (email ∉ s.traffic) "client email already exists"
  match s.traffic[oldEmail]? with
  | none => return s
  | some t => return { s with traffic := (s.traffic.erase oldEmail).insert email { t with email } }.clearGlobals oldEmail

def storedClient (op : ClientOp) (c : Client) : Except String Client :=
  if op = .add ∨ op = .update then normalizeVLESSClient c else .ok c

def moveTraffic (op : ClientOp) (oldEmail email : String) (s : State) : Except String State :=
  if op = .update ∧ email ≠ oldEmail then renameTraffic oldEmail email s else .ok s

def changeClient (oldEmail : String) (c : Client) (ids : List Int) (op : ClientOp) (s : State) :
    Except String (State × Reply) := do
  let c ← storedClient op c
  require (¬((op = .add ∨ op = .detach) ∧ ids = [])) "inboundIds required"
  ids.forM fun id => require ((s.find id).isSome) "inbound not found"
  require (op = .update → oldEmail ∈ s.traffic) "client not found"
  let s ← moveTraffic op oldEmail (c.text "email") s
  return ({ s with inbounds := s.inbounds.map (changeInbound oldEmail c ids op) }, .nothing)

def resetClient (s : State) (email : String) : State :=
  match s.traffic[email]? with
  | none => s
  | some t =>
      ({ s with traffic := s.traffic.insert email { t with up := 0, down := 0, enable := true } }.clearGlobals
        email).setClientField email "enable" (.bool true)

def resetTraffic (email : String) (id : Int) (s : State) : Except String (State × Reply) := do
  require (email = "" ∨ email ∈ s.traffic) "client not found"
  require (¬(id > 0 ∧ (s.find id).isNone)) "inbound not found"
  if email = "" then
    return ({ s with inbounds := s.inbounds.map fun ib =>
      if id = 0 ∨ ib.id = id then { ib with up := 0, down := 0 } else ib }, .nothing)
  else if s.inbounds.any fun ib => (id == 0 || id == ib.id) && ib.clientsOrNil.any (·.text "email" == email) then
    return (resetClient s email, .nothing)
  else return (s, .nothing)

def resetClientTraffics (emails : List String) (s : State) : Except String (State × Reply) :=
  let (s, affected) := emails.foldl (fun (s, affected) email =>
    if email ∈ s.traffic then (resetClient s email, affected + 1) else (s, affected)) (s, 0)
  .ok (s, .affected affected)

/-- One row of a master's push: the email with the counters the master knows, and by how much the clock has moved on
when the row is met. -/
structure PushedRow where
  email : String
  up : Int
  down : Int
  passed : Int

def pushRow (master : String) (now : Int) (s : State) (t : PushedRow) : Except String State := do
  require (0 ≤ t.up ∧ 0 ≤ t.down) "negative traffic"
  if t.email ∈ s.traffic then
    let rows := (s.globals[master]?).getD ∅
    return { s with globals := s.globals.insert master (rows.insert t.email ⟨t.up, t.down, now + t.passed⟩) }
  else return s

def pushGlobals (master : String) (rows : List PushedRow) (now : Int) (s : State) :
    Except String (State × Reply) := do
  require (master ≠ "" ∧ master.utf8ByteSize ≤ 128) "invalid masterGuid"
  require (¬(s.globals.size ≥ 8 ∧ master ∉ s.globals)) "too many master identities"
  let s := if master ∈ s.globals then s else { s with globals := s.globals.insert master ∅ }
  let s ← rows.foldlM (pushRow master now) s
  return (s, .nothing)

def subSortIndex (id index : Int) (s : State) : Except String (State × Reply) := do
  require ((s.find id).isSome) "inbound not found"
  return ({ s with inbounds := updateFirst (·.id == id) (fun ib => { ib with subSortIndex := index }) s.inbounds }, .nothing)

inductive Request where
  | putInbound (ib : Inbound) (id : Int)
  | deleteInbound (id : Int)
  | changeClient (oldEmail : String) (c : Client) (ids : List Int) (op : ClientOp)
  | resetTraffic (email : String) (id : Int)
  | resetClientTraffics (emails : List String)
  | pushGlobals (master : String) (rows : List PushedRow)
  | subSortIndex (id index : Int)

def Request.edit (cfg : Config) (now : Int) : Request → State → Except String (State × Reply)
  | .putInbound ib id => Leaf.putInbound cfg ib id
  | .deleteInbound id => Leaf.deleteInbound id
  | .changeClient oldEmail c ids op => Leaf.changeClient oldEmail c ids op
  | .resetTraffic email id => Leaf.resetTraffic email id
  | .resetClientTraffics emails => Leaf.resetClientTraffics emails
  | .pushGlobals master rows => Leaf.pushGlobals master rows now
  | .subSortIndex id index => Leaf.subSortIndex id index

/-! ## What a transaction checks before it applies the new state -/

def checkInbounds (cfg : Config) : List Int → List String → List Inbound → Except String Unit
  | _, _, [] => .ok ()
  | ports, tags, ib :: rest => do
      validateInbound ib
      require (ib.port ≠ cfg.apiPort) "inbound conflicts with private Xray API port"
      require (ib.port ∉ ports ∧ ib.tag ∉ tags) "duplicate inbound port or tag"
      checkInbounds cfg (ib.port :: ports) (ib.tag :: tags) rest

def check (cfg : Config) (next : State) : Except String State := do
  require (next.inbounds.length ≤ maxInbounds) "node supports at most 8 inbounds"
  checkInbounds cfg [] [] next.inbounds
  next.syncClients

def Request.next (cfg : Config) (now : Int) (r : Request) (s : State) : Except String (State × Reply) := do
  let (next, obj) ← r.edit cfg now s
  let next ← check cfg next
  return (next, obj)

end ThreeXNode.Leaf
