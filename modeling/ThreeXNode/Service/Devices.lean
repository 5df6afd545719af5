import Mathlib
import ThreeXNode.Library.Transition
import ThreeXNode.Service.Ports

namespace ThreeXNode.Service.Devices
open Library

structure Client where
  id : Nat
  email : String
  subID : String
  enable : Bool
  limitHwid : Int
  deriving DecidableEq

/-- A row of `client_hwids`; the pair of subscription and hash is unique. -/
structure ClientHwid where
  id : Nat
  subID : String
  hwidHash : String
  lastSeen : Int
  deriving DecidableEq

structure HwidGateResult where
  allowed : Bool := false
  active : Bool := false
  notSupported : Bool := false
  maxDevicesReached : Bool := false
  limitReached : Bool := false
  limit : Int := 0
  registered : Nat := 0
  deriving DecidableEq

def minHwidLength : Nat := 6

def trimSpace (s : String) : String := String.ofList (Ports.trimSpace s.toList)

def effectiveHwidLimitForSubID (clients : List Client) (subID : String) : Int :=
  (((clients.filter fun rec => rec.subID = subID && rec.enable).map (·.limitHwid)).max?).getD 0

def devicesOf (hwids : List ClientHwid) (subID : String) : List ClientHwid := hwids.filter (·.subID = subID)

/-- The first `limit` rows by last use, the newest first. -/
def latest (hwids : List ClientHwid) (subID : String) (limit : Int) : List Nat :=
  (((devicesOf hwids subID).mergeSort fun a b => a.lastSeen > b.lastSeen || (a.lastSeen = b.lastSeen && a.id ≥ b.id)).map
    (·.id)).take limit.toNat

/-- Where a call of `EnforceHwidForSubID` is; what its transaction has written is not yet visible to others. -/
inductive Enforcing where
  | unchecked
  | begun
  | limited (limit : Int)
  | found (limit : Int) (id : Nat)
  | touched (limit : Int) (id : Nat) (lastSeen : Int)
  | absent (limit : Int)
  | counted (limit : Int) (count : Nat)
  | inserted (limit : Int) (count : Nat) (row : ClientHwid)
  deriving DecidableEq

/-- A call for a device. `throughout` says that the device has been registered ever since the call began. -/
structure Enforce where
  subID : String
  hwid : String
  phase : Enforcing
  throughout : Bool

inductive Limiting where
  | unread
  | read (id : Nat) (subID : String)
  | written (subID : String)
  | limited (subID : String) (effective : Int)
  | kept (subID : String) (effective : Int) (keep : List Nat)
  deriving DecidableEq

/-- `stood` is the subscription in which the write of the limit found the client, if there was one. -/
structure LimitChange where
  email : String
  limit : Int
  phase : Limiting
  stood : Option String := none

/-- How a call ends; an insert that meets a row with its key fails. -/
structure Answer where
  call : Enforce
  result : HwidGateResult
  failed : Bool

structure State where
  clients : List Client
  hwids : List ClientHwid
  nextId : Nat
  calls : List Enforce
  changes : List LimitChange
  answers : List Answer

inductive Action where
  | enforce (subID hwid : String)
  | advance (n : Nat) (now : Int)
  | setLimit (email : String) (limit : Int)
  | advanceLimit (n : Nat)
  | setClients (clients : List Client)
  | forget (ids : List Nat)

variable (hashHwid : String → String)

def isRegistered (hwids : List ClientHwid) (subID hwid : String) : Bool :=
  hwids.any fun row => row.subID = subID && row.hwidHash = hashHwid hwid

namespace State

def note (s : State) : State :=
  { s with calls := s.calls.map fun e => { e with throughout := e.throughout && isRegistered hashHwid s.hwids e.subID e.hwid } }

def goOn (s : State) (n : Nat) (e : Enforce) (phase : Enforcing) : State :=
  { s with calls := s.calls.set n { e with phase := phase } }

def answer (s : State) (n : Nat) (e : Enforce) (result : HwidGateResult) : State :=
  { s with calls := s.calls.eraseIdx n, answers := s.answers ++ [⟨e, result, false⟩] }

def limitOf (s : State) (subID : String) : Int := effectiveHwidLimitForSubID s.clients subID

def countOf (s : State) (subID : String) : Nat := (devicesOf s.hwids subID).length

/-- One statement of `EnforceHwidForSubID`. An insert waits for another transaction that has inserted its key. -/
def enforceStep (s : State) (n : Nat) (e : Enforce) (now : Int) : Option State :=
  match e.phase with
  | .unchecked =>
      if e.subID = "" ∨ s.limitOf e.subID ≤ 0 then some (s.answer n e { allowed := true })
      else if e.hwid.utf8ByteSize < minHwidLength then
        some (s.answer n e { active := true, limit := s.limitOf e.subID, notSupported := true })
      else some (s.goOn n e .begun)
  | .begun =>
      if s.limitOf e.subID ≤ 0 then some (s.answer n e { allowed := true })
      else some (s.goOn n e (.limited (s.limitOf e.subID)))
  | .limited limit =>
      match s.hwids.find? fun row => row.subID = e.subID && row.hwidHash = hashHwid e.hwid with
      | some row => some (s.goOn n e (.found limit row.id))
      | none => some (s.goOn n e (.absent limit))
  | .found limit id => some (s.goOn n e (.touched limit id now))
  | .touched limit id lastSeen =>
      let count := s.countOf e.subID
      some (({ s with
        hwids := s.hwids.map fun row : ClientHwid => if row.id = id then { row with lastSeen := lastSeen } else row }).answer n e
          { allowed := true, active := true, limit := limit, registered := count, limitReached := (count : Int) ≥ limit })
  | .absent limit =>
      let count := s.countOf e.subID
      if (count : Int) ≥ limit then
        some (s.answer n e
          { active := true, limit := limit, registered := count, maxDevicesReached := true, limitReached := true })
      else some (s.goOn n e (.counted limit count))
  | .counted limit count =>
      if isRegistered hashHwid s.hwids e.subID e.hwid then
        some { s with
          calls := s.calls.eraseIdx n
          answers := s.answers ++ [⟨e, { active := true, limit := limit, registered := count }, true⟩] }
      else if s.calls.any fun o =>
          match o.phase with
          | .inserted _ _ row => row.subID = e.subID && row.hwidHash = hashHwid e.hwid
          | _ => false then none
      else some { s.goOn n e (.inserted limit count ⟨s.nextId, e.subID, hashHwid e.hwid, now⟩) with nextId := s.nextId + 1 }
  | .inserted limit count row =>
      some (({ s with hwids := s.hwids ++ [row] }).answer n e
        { allowed := true, active := true, limit := limit, registered := count + 1, limitReached := (count : Int) + 1 ≥ limit })

def changeOn (s : State) (n : Nat) (c : LimitChange) (phase : Limiting) : State :=
  { s with changes := s.changes.set n { c with phase := phase } }

def changed (s : State) (n : Nat) : State := { s with changes := s.changes.eraseIdx n }

def writeLimit (clients : List Client) (id : Nat) (limit : Int) : List Client :=
  clients.map fun rec => if rec.id = id then { rec with limitHwid := max limit 0 } else rec

def standing (clients : List Client) (id : Nat) : Option String :=
  ((clients.find? (·.id = id)).map (·.subID)).filter (· ≠ "")

def limitStep (s : State) (n : Nat) (c : LimitChange) : State :=
  match c.phase with
  | .unread =>
      match s.clients.find? (·.email = c.email) with
      | some rec => s.changeOn n c (.read rec.id rec.subID)
      | none => s.changed n
  | .read id subID =>
      { s with clients := writeLimit s.clients id c.limit }.changeOn n { c with stood := standing s.clients id }
        (.written (trimSpace subID))
  | .written subID =>
      if subID = "" ∨ s.limitOf subID ≤ 0 then s.changed n else s.changeOn n c (.limited subID (s.limitOf subID))
  | .limited subID effective => s.changeOn n c (.kept subID effective (latest s.hwids subID effective))
  | .kept subID _ keep =>
      { s with hwids := s.hwids.filter fun row => !(row.subID = subID && row.id ∉ keep) }.changed n

end State

def gate : System State Action where
  next s
    | .enforce subID hwid =>
        some (State.note hashHwid { s with calls := s.calls ++ [⟨trimSpace subID, trimSpace hwid, .unchecked, true⟩] })
    | .advance n now => do
        let e ← s.calls[n]?
        let t ← s.enforceStep hashHwid n e now
        return t.note hashHwid
    | .setLimit email limit => some { s with changes := s.changes ++ [⟨email, limit, .unread, none⟩] }
    | .advanceLimit n => do
        let c ← s.changes[n]?
        return (s.limitStep n c).note hashHwid
    | .setClients clients => some { s with clients := clients }
    | .forget ids => some (State.note hashHwid { s with hwids := s.hwids.filter (·.id ∉ ids) })

def start (clients : List Client) : State := ⟨clients, [], 0, [], [], []⟩

end ThreeXNode.Service.Devices
