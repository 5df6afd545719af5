import ThreeXNode.Leaf.Sample
import ThreeXNode.Library.Nesting
import ThreeXNode.Library.Transition

namespace ThreeXNode.Leaf
open Library

def maxBody : Nat := 1048576

/-- The nesting from which on `encoding/json` refuses to decode. -/
def maxNesting : Nat := 10000

def Inbound.nesting (ib : Inbound) : Nat :=
  max ib.settings.nesting (max ib.streamSettings.nesting ib.sniffing.nesting) + 1

/-- The nesting of a state's JSON form: what masters pushed nests three deep in it, an inbound is two deep in it. -/
def State.nesting (s : State) : Nat := max 4 ((s.inbounds.map Inbound.nesting).foldr max 0 + 2)

/-- The state of a node that has no state file yet; `guid` is the random identity it takes. -/
def fresh (guid : String) : State where
  running := false
  checkpointAt := 0
  schema := 1
  guid
  nextID := 1
  nextClientID := 1
  inbounds := []
  traffic := ∅
  globals := ∅

def checkIdentities (nextID : Int) : List Int → List Int → List String → List Inbound → Except String Unit
  | _, _, _, [] => .ok ()
  | ids, ports, tags, ib :: rest => do
      require (¬(ib.id < 1 ∨ ib.id ≥ nextID ∨ ib.id ∈ ids ∨ ib.port ∈ ports ∨ ib.tag ∈ tags))
        "invalid stored inbound identity"
      (validateInbound ib).mapError ("invalid stored inbound: " ++ ·)
      checkIdentities nextID (ib.id :: ids) (ib.port :: ports) (ib.tag :: tags) rest

def checkTraffic (nextClientID : Int) (row : String × Traffic) : Except String Unit :=
  require (¬(row.2.email ≠ row.1 ∨ row.2.up < 0 ∨ row.2.down < 0 ∨ row.2.id < 1 ∨ row.2.id ≥ nextClientID))
    "invalid stored traffic"

def checkRows (rows : Rows) : Except String Unit := do
  require (rows.size ≤ maxClients) "stored global traffic exceeds limit"
  rows.toList.forM fun row => require (¬(row.2.up < 0 ∨ row.2.down < 0)) "invalid stored global traffic"

def checkStored (s : State) : Except String Unit := do
  require (¬(s.schema ≠ 1 ∨ s.guid = "" ∨ s.nextID < 1 ∨ s.nextClientID < 1)) "invalid state schema"
  require (¬(s.inbounds.length > maxInbounds ∨ s.traffic.size > maxClients ∨ s.globals.size > 8))
    "stored state exceeds limits"
  checkIdentities s.nextID [] [] [] s.inbounds
  s.traffic.toList.forM (checkTraffic s.nextClientID)
  s.globals.toList.forM fun master => checkRows master.2

section file

-- The length of a state's JSON form.
variable (length : State → Nat)

def saveState (now : Int) (s : State) : Except String State := do
  let s := { s with checkpointAt := now }
  require (length s ≤ 4 * maxBody) "state exceeds size limit"
  return s

def loadState (guid : String) : Option State → Except String State
  | none => .ok (fresh guid)
  | some s => do
      require (length s ≤ 4 * maxBody) "state exceeds size limit"
      require (s.nesting ≤ maxNesting) "invalid state; previous snapshot retained: exceeded max depth"
      checkStored s
      return s

end file

inductive Event where
  | request (now : Int) (r : Request)
  | sample (baseline : Baseline) (values : Values) (now : Int)
  | mark (running : Bool) (checkpointAt : Int)

def store (cfg : Config) : System State Event where
  next s e := match e with
    | .request now r => match r.next cfg now s with
        | .ok (next, _) => some next
        | .error _ => none
    | .sample baseline values now => some (s.sampled baseline values now)
    | .mark running checkpointAt => some { s with running, checkpointAt }

theorem store_request {cfg : Config} {s t : State} {now : Int} {r : Request}
    (h : (store cfg).next s (.request now r) = some t) : ∃ obj, r.next cfg now s = .ok (t, obj) := by
  simp only [store] at h
  cases step : r.next cfg now s with
  | error e => simp [step] at h
  | ok pair =>
      obtain ⟨next, obj⟩ := pair
      simp only [step, Option.some.injEq] at h
      exact ⟨obj, by rw [h]⟩

theorem next_parts {cfg : Config} {s t : State} {now : Int} {r : Request} {obj : Reply}
    (h : r.next cfg now s = .ok (t, obj)) :
    ∃ mid, r.edit cfg now s = .ok (mid, obj) ∧ mid.inbounds.length ≤ maxInbounds ∧
      checkInbounds cfg [] [] mid.inbounds = .ok () ∧ mid.syncClients = .ok t := by
  simp only [Request.next, check, Except.bind_eq_ok, require_eq_ok, Except.pure_eq_ok, Prod.mk.injEq] at h
  obtain ⟨⟨mid, out⟩, edited, next, ⟨_, few, _, checked, synced⟩, rfl, rfl⟩ := h
  exact ⟨mid, edited, few, checked, synced⟩

/-! ## A node with one plain inbound, for concrete runs -/

def plainConfig : Config where
  apiPort := 62789
  defaultClientUUID := ""
  defaultClientEmail := ""

def plainClient (email : String) : Client :=
  Std.ExtTreeMap.ofList [("email", Json.str email), ("enable", Json.bool true),
    ("id", Json.str "11111111-1111-1111-1111-111111111111")]

def plainInbound (clients : List Client) : Inbound where
  id := 0
  up := 0
  down := 0
  total := 0
  remark := ""
  subSortIndex := 0
  enable := true
  expiryTime := 0
  trafficReset := ""
  trafficResetDay := 0
  listen := ""
  port := 443
  protocol := "vless"
  settings := Std.ExtTreeMap.ofList [("clients", Json.arr (clients.map .ofFields)), ("decryption", Json.str "none")]
  streamSettings := Std.ExtTreeMap.ofList [("network", Json.str "tcp")]
  sniffing := ∅
  tag := "in"
  shareAddrStrategy := ""
  shareAddr := ""
  disableFlow := false
  excludeFromSub := false

def aliceEvent : Event := .request 0 (.putInbound (plainInbound [plainClient "alice"]) 0)

def aliceState : State := ((store plainConfig).next (fresh "node") aliceEvent).getD (fresh "node")

theorem aliceState_next : (store plainConfig).next (fresh "node") aliceEvent = some aliceState := by
  have possible : ((store plainConfig).next (fresh "node") aliceEvent).isSome = true := by decide +kernel
  obtain ⟨s, step⟩ := Option.isSome_iff_exists.mp possible
  simp [aliceState, step]

end ThreeXNode.Leaf
