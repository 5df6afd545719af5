import ThreeXNode.Leaf.Operations
import ThreeXNode.Library.Split

namespace ThreeXNode.Leaf
open Library

abbrev Values := List (String × Int)

abbrev Baseline := Std.ExtTreeMap String Int

inductive Direction where
  | uplink
  | downlink
  deriving DecidableEq

def Direction.ofName (name : List Char) : Option Direction :=
  if name = "uplink".toList then some .uplink
  else if name = "downlink".toList then some .downlink
  else none

namespace Traffic

def add (t : Traffic) (delta : Int) : Direction → Traffic
  | .uplink => { t with up := wrap64 (t.up + delta) }
  | .downlink => { t with down := wrap64 (t.down + delta) }

end Traffic

namespace Inbound

def add (ib : Inbound) (delta : Int) : Direction → Inbound
  | .uplink => { ib with up := wrap64 (ib.up + delta) }
  | .downlink => { ib with down := wrap64 (ib.down + delta) }

def spent (ib : Inbound) (now : Int) : Prop :=
  (ib.total > 0 ∧ ib.up ≥ wrap64 (ib.total - ib.down)) ∨ (ib.expiryTime > 0 ∧ ib.expiryTime ≤ now)

instance (ib : Inbound) (now : Int) : Decidable (ib.spent now) := by unfold spent; infer_instance

end Inbound

namespace State

def creditUser (now : Int) (email : String) (dir : Direction) (delta : Int) (s : State) : State :=
  match s.traffic[email]? with
  | none => s
  | some t =>
      let t := { t.add delta dir with lastOnline := now }
      if t.expiryTime < 0 then
        -- The first traffic of a delayed-start client turns its duration into a deadline.
        let deadline := wrap64 (now - t.expiryTime)
        { s with traffic := s.traffic.insert email { t with expiryTime := deadline } }.setClientField
          t.email "expiryTime" (.ofInt deadline)
      else { s with traffic := s.traffic.insert email t }

def creditInbound (tag : String) (dir : Direction) (delta : Int) (s : State) : State :=
  { s with inbounds := s.inbounds.map fun ib => if ib.tag = tag then ib.add delta dir else ib }

/-- What a value adds to the one the baseline remembers; a smaller value is a counter that started again. -/
def growth (baseline : Baseline) (key : String) (value : Int) : Int :=
  let delta := wrap64 (value - (baseline[key]?).getD 0)
  if delta < 0 then value else delta

/-- The owner of a counter: `true` for a user, its name, and the direction. -/
def parseKey (key : String) : Option (Bool × String × Direction) :=
  match splitOn sep key.toList with
  | [kind, name, word, dir] =>
      if word ≠ "traffic".toList then none
      else (Direction.ofName dir).bind fun dir =>
        if kind = "user".toList then some (true, .ofList name, dir)
        else if kind = "inbound".toList then some (false, .ofList name, dir)
        else none
  | _ => none

def credit (now : Int) (baseline : Baseline) (s : State) (entry : String × Int) : State :=
  let (key, value) := entry
  if value < 0 then s
  else
    let delta := growth baseline key value
    if delta = 0 then s
    else match parseKey key with
      | some (true, email, dir) => s.creditUser now email dir delta
      | some (false, tag, dir) => s.creditInbound tag dir delta
      | none => s

def disableClient (s : State) (email : String) (t : Traffic) : State :=
  { s with traffic := s.traffic.insert email { t with enable := false } }.setClientField email "enable" (.bool false)

def disableExhausted (now : Int) (s : State) (email : String) : State :=
  match s.traffic[email]? with
  | some t => if t.enable ∧ s.exhausted t now then s.disableClient email t else s
  | none => s

def stopSpent (now : Int) (s : State) : State :=
  { s with inbounds := s.inbounds.map fun ib => if ib.spent now then { ib with enable := false } else ib }

def purgeGlobals (now : Int) (s : State) : State :=
  { s with globals := s.globals.filterMap fun _ rows =>
      let rows := rows.filter fun _ g => !decide (g.updatedAt < wrap64 (now - globalLifetime))
      if rows.isEmpty then none else some rows }

def sampled (s : State) (baseline : Baseline) (values : Values) (now : Int) : State :=
  let s := values.foldl (credit now baseline) s
  let s := s.traffic.keys.foldl (disableExhausted now) s
  (s.stopSpent now).purgeGlobals now

end State

end ThreeXNode.Leaf
