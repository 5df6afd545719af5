import ThreeXNode.Library.Fold
import ThreeXNode.Library.Int64
import ThreeXNode.Library.Json

namespace ThreeXNode.Leaf
open Library

def maxInbounds : Nat := 8
def maxClients : Nat := 64

abbrev Client := Fields

structure Inbound where
  id : Int
  up : Int
  down : Int
  total : Int
  remark : String
  subSortIndex : Int
  enable : Bool
  expiryTime : Int
  trafficReset : String
  trafficResetDay : Int
  listen : String
  port : Int
  protocol : String
  settings : Fields
  streamSettings : Fields
  sniffing : Fields
  tag : String
  shareAddrStrategy : String
  shareAddr : String
  disableFlow : Bool
  excludeFromSub : Bool
  deriving DecidableEq

namespace Inbound

def clients (i : Inbound) : Except String (List Client) :=
  match i.settings["clients"]? with
  | none => .ok []
  | some raw => match raw.asList Json.asFields with
    | some cs => .ok cs
    | none => .error "json: cannot unmarshal clients"

def clientsOrNil (i : Inbound) : List Client :=
  match i.clients with
  | .ok cs => cs
  | .error _ => []

def setClients (i : Inbound) (cs : List Client) : Inbound :=
  { i with settings := i.settings.insert "clients" (.arr (cs.map .ofFields)) }

private theorem mapM_asFields (cs : List Client) :
    cs.mapM (Json.asFields ∘ Json.ofFields) = some cs := by
  have kept : cs.mapM (Json.asFields ∘ Json.ofFields) = some (cs.map fun o => o) :=
    mapM_of_some fun o _ => Json.asFields_ofFields o
  rwa [List.map_id'] at kept

@[simp] theorem clients_setClients (i : Inbound) (cs : List Client) : (i.setClients cs).clients = .ok cs := by
  simp [clients, setClients, Json.asList, mapM_asFields]

@[simp] theorem clientsOrNil_setClients (i : Inbound) (cs : List Client) :
    (i.setClients cs).clientsOrNil = cs := by
  simp [clientsOrNil]

theorem clientsOrNil_eq {i : Inbound} {cs : List Client} (h : i.clients = .ok cs) : i.clientsOrNil = cs := by
  simp [clientsOrNil, h]

end Inbound

structure Traffic where
  id : Int
  inboundID : Int
  email : String
  uuid : String
  subID : String
  enable : Bool
  up : Int
  down : Int
  total : Int
  expiryTime : Int
  lastOnline : Int
  deriving DecidableEq

structure Global where
  up : Int
  down : Int
  updatedAt : Int
  deriving DecidableEq

abbrev Rows := Std.ExtTreeMap String Global

structure State where
  running : Bool
  checkpointAt : Int
  schema : Int
  guid : String
  nextID : Int
  nextClientID : Int
  inbounds : List Inbound
  traffic : Std.ExtTreeMap String Traffic
  globals : Std.ExtTreeMap String Rows
  deriving DecidableEq

def updateFirst (p : Inbound → Bool) (f : Inbound → Inbound) : List Inbound → List Inbound
  | [] => []
  | ib :: rest => if p ib then f ib :: rest else ib :: updateFirst p f rest

theorem mem_updateFirst {p : Inbound → Bool} {f : Inbound → Inbound} {l : List Inbound} {x : Inbound}
    (h : x ∈ updateFirst p f l) : x ∈ l ∨ ∃ ib ∈ l, p ib = true ∧ x = f ib := by
  induction l with
  | nil => cases h
  | cons ib rest ih =>
      unfold updateFirst at h
      split at h
      · rename_i found
        rcases List.mem_cons.mp h with rfl | h
        · exact .inr ⟨ib, List.mem_cons_self, found, rfl⟩
        · exact .inl (List.mem_cons_of_mem _ h)
      · rcases List.mem_cons.mp h with rfl | h
        · exact .inl List.mem_cons_self
        · rcases ih h with h | ⟨old, mem, found, eq⟩
          · exact .inl (List.mem_cons_of_mem _ h)
          · exact .inr ⟨old, List.mem_cons_of_mem _ mem, found, eq⟩

theorem map_updateFirst {α : Type*} (g : Inbound → α) {p : Inbound → Bool} {f : Inbound → Inbound}
    {l : List Inbound} (same : ∀ ib ∈ l, p ib = true → g (f ib) = g ib) :
    (updateFirst p f l).map g = l.map g := by
  induction l with
  | nil => rfl
  | cons ib rest ih =>
      unfold updateFirst
      split
      · rename_i found
        simp [same ib List.mem_cons_self found]
      · simp [ih fun x hx => same x (List.mem_cons_of_mem _ hx)]

namespace State

def find (s : State) (id : Int) : Option Inbound := s.inbounds.find? (·.id == id)

def clearGlobals (s : State) (email : String) : State :=
  { s with globals := s.globals.map fun _ rows => rows.erase email }

/-- A day in milliseconds, how long a row pushed by a master counts. -/
def globalLifetime : Int := 86400000

def exhausted (s : State) (t : Traffic) (now : Int) : Bool :=
  if t.expiryTime > 0 ∧ t.expiryTime ≤ now then true
  else if t.total ≤ 0 then false
  else if t.up ≥ wrap64 (t.total - t.down) then true
  else s.globals.toList.any fun (_, rows) =>
    let g := (rows[t.email]?).getD ⟨0, 0, 0⟩
    decide (g.updatedAt ≥ wrap64 (now - globalLifetime) ∧ g.up ≥ wrap64 (t.total - g.down))

structure Sync where
  seen : Std.ExtTreeMap String Client
  traffic : Std.ExtTreeMap String Traffic
  nextClientID : Int

/-- Whether two entries of one shared client may stand side by side. -/
def sharedWith (prev c : Client) : Prop :=
  prev.text "id" = c.text "id" ∧ prev.number "totalGB" = c.number "totalGB" ∧
    prev.number "expiryTime" = c.number "expiryTime" ∧ prev.enabled "enable" = c.enabled "enable"

instance (prev c : Client) : Decidable (sharedWith prev c) := by unfold sharedWith; infer_instance

def syncRow (ib : Int) (t : Traffic) (c : Client) : Traffic :=
  { t with inboundID := ib, uuid := c.text "id", subID := c.text "subId", enable := c.enabled "enable",
           total := c.number "totalGB", expiryTime := c.number "expiryTime" }

def newTraffic (id : Int) (email : String) : Traffic :=
  { id, inboundID := 0, email, uuid := "", subID := "", enable := false, up := 0, down := 0,
    total := 0, expiryTime := 0, lastOnline := 0 }

def syncClient (ib : Int) (w : Sync) (c : Client) : Except String Sync :=
  let email := c.text "email"
  if ∃ prev ∈ w.seen[email]?, ¬sharedWith prev c then
    .error ("inconsistent shared client \"" ++ email ++ "\"")
  else
    let seen := w.seen.insert email c
    match w.traffic[email]? with
    | some t => .ok ⟨seen, w.traffic.insert email (syncRow ib t c), w.nextClientID⟩
    | none => .ok ⟨seen, w.traffic.insert email (syncRow ib (newTraffic w.nextClientID email) c),
        w.nextClientID + 1⟩

def syncInbound (w : Sync) (ib : Inbound) : Except String Sync := do
  let cs ← ib.clients
  cs.foldlM (syncClient ib.id) w

def dropClient (s : State) (email : String) : State :=
  { s with traffic := s.traffic.erase email }.clearGlobals email

def syncClients (s : State) : Except String State := do
  let w ← s.inbounds.foldlM syncInbound ⟨∅, s.traffic, s.nextClientID⟩
  require (w.seen.size ≤ maxClients) "node supports at most 64 clients"
  let s := { s with traffic := w.traffic, nextClientID := w.nextClientID }
  return (s.traffic.keys.filter (¬· ∈ w.seen)).foldl dropClient s

end State

end ThreeXNode.Leaf
