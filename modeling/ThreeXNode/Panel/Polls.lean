import ThreeXNode.Library.Transition
import ThreeXNode.Panel.Traffic

namespace ThreeXNode.Panel
open Library

/-! ## The names of the core's counters -/

def findSubmatch (here : List Char → Option α) : List Char → Option α
  | [] => here []
  | c :: text => (here (c :: text)).or (findSubmatch here text)

def dropLead (lead text : List Char) : Option (List Char) :=
  if lead <+: text then some (text.drop lead.length) else none

def readDirection (text : List Char) : Option Bool :=
  if (dropLead "downlink".toList text).isSome then some true
  else if (dropLead "uplink".toList text).isSome then some false
  else none

/-- `([^>]+)>>>traffic>>>(downlink|uplink)`: whose traffic it is, and whether it is down. -/
def readSubject (text : List Char) : Option (String × Bool) := do
  let subject := text.takeWhile (· ≠ '>')
  let rest ← dropLead ">>>traffic>>>".toList (text.dropWhile (· ≠ '>'))
  let isDown ← readDirection rest
  if subject = [] then none else some (String.ofList subject, isDown)

def trafficRegex (text : List Char) : Option (Bool × String × Bool) :=
  match dropLead "inbound>>>".toList text with
  | some rest => (readSubject rest).map (true, ·)
  | none => ((dropLead "outbound>>>".toList text).bind readSubject).map (false, ·)

def clientTrafficRegex (text : List Char) : Option (String × Bool) :=
  (dropLead "user>>>".toList text).bind readSubject

/-! ## A query -/

abbrev Counters := Std.ExtTreeMap String Int

structure Reading where
  statsLastValues : Counters
  tagTrafficMap : Std.ExtTreeMap String Traffic := ∅
  emailTrafficMap : Std.ExtTreeMap String ClientUse := ∅

def processTraffic (isInbound : Bool) (tag : String) (isDown : Bool) (value : Int)
    (trafficMap : Std.ExtTreeMap String Traffic) : Std.ExtTreeMap String Traffic :=
  if tag = "api" then trafficMap
  else
    let traffic := trafficMap[tag]?.getD ⟨isInbound, tag, 0, 0⟩
    trafficMap.insert tag (if isDown then { traffic with down := value } else { traffic with up := value })

def processClientTraffic (email : String) (isDown : Bool) (value : Int)
    (clientTrafficMap : Std.ExtTreeMap String ClientUse) : Std.ExtTreeMap String ClientUse :=
  let traffic := clientTrafficMap[email]?.getD ⟨email, 0, 0⟩
  clientTrafficMap.insert email (if isDown then { traffic with down := value } else { traffic with up := value })

def accrued (lastValue : Option Int) (value : Int) : Int :=
  match lastValue with
  | some last => if value < last then value else value - last
  | none => value

def readStat (baselinePass : Bool) (st : Reading) (stat : String × Int) : Reading :=
  let value := accrued st.statsLastValues[stat.1]? stat.2
  let st := { st with statsLastValues := st.statsLastValues.insert stat.1 stat.2 }
  if baselinePass then st
  else
    match findSubmatch trafficRegex stat.1.toList with
    | some (isInbound, tag, isDown) =>
        { st with tagTrafficMap := processTraffic isInbound tag isDown value st.tagTrafficMap }
    | none =>
        match findSubmatch clientTrafficRegex stat.1.toList with
        | some (email, isDown) =>
            { st with emailTrafficMap := processClientTraffic email isDown value st.emailTrafficMap }
        | none => st

/-- The values of the counters that still exist, once the map holds more than twice as many. -/
def pruned (last : Counters) (stats : List (String × Int)) : Counters :=
  if 0 < stats.length ∧ 2 * stats.length < last.size then
    stats.foldl (fun kept stat => kept.insert stat.1 (last[stat.1]?.getD 0)) ∅
  else last

def readStats (last : Counters) (stats : List (String × Int)) : Reading :=
  stats.foldl (readStat last.isEmpty) { statsLastValues := last }

def getTraffic (last : Counters) (stats : List (String × Int)) : Counters × List Traffic × List ClientUse :=
  let reading := readStats last stats
  (pruned reading.statsLastValues stats, reading.tagTrafficMap.toList.map (·.2),
    reading.emailTrafficMap.toList.map (·.2))

/-! ## Runs of `XrayTrafficJob` -/

/-- How far the traffic of an answered query gets: the submission to the writer, the transaction, and in it the updates of
single rows, whose errors are only logged. -/
inductive Fate where
  | refused
  | rolledBack
  | counted (skipped : List String) (maintained : Bool)

def skipUpdate (skipped : List String) (before : Database) (row : ClientTraffic) : ClientTraffic :=
  if row.email ∈ skipped then
    match before.clientTraffics.find? (·.email = row.email) with
    | some old => { row with up := old.up, down := old.down, lastOnline := old.lastOnline }
    | none => row
  else row

def skipUpdates (skipped : List String) (before after : Database) : Database :=
  { after with clientTraffics := after.clientTraffics.map (skipUpdate skipped before) }

theorem skipUpdate_email (skipped : List String) (before : Database) (row : ClientTraffic) :
    (skipUpdate skipped before row).email = row.email := by
  unfold skipUpdate
  split
  · split <;> rfl
  · rfl

def commitTraffic (db : Database) (traffics : List Traffic) (clientTraffics : List ClientUse) (clock : Clock) :
    Fate → Option Database
  | .counted skipped _ => (countTraffic db traffics clientTraffics clock).map (skipUpdates skipped db)
  | _ => none

def Fate.maintained : Fate → Bool
  | .counted _ maintained => maintained
  | _ => false

def addTraffic (db : Database) (traffics : List Traffic) (clientTraffics : List ClientUse) (clock : Clock) (fate : Fate) :
    Database :=
  match commitTraffic db traffics clientTraffics clock fate with
  | some committed => if fate.maintained then (maintain committed clock).getD committed else committed
  | none => db

/-- The counters of the core, the values the job's own `XrayService` last read of them and the database. `read` is what
was read of the core that runs now, `base` the database at the first query that was answered, and `made` what each counter
gained since then. -/
structure Polled where
  stats : Counters
  last : Counters := ∅
  read : Counters := ∅
  db : Database
  base : Option Database := none
  made : String → Int := fun _ => 0

/-- `RestartXray` is called by the job itself or through the `XrayService` of another component, or the core comes up again
after a crash. A query is answered with the counters in any order. -/
inductive PollAction where
  | use (name : String) (amount : Nat)
  | restart (byJob : Bool)
  | edit (db : Database)
  | unanswered
  | run (answer : List (String × Int)) (fate : Fate) (clock : Clock)

def Polled.commit (s : Polled) (answer : List (String × Int)) (fate : Fate) (clock : Clock) : Option Database :=
  let (_, traffics, clientTraffics) := getTraffic s.last answer
  commitTraffic s.db traffics clientTraffics clock fate

def Polled.addTraffic (s : Polled) (answer : List (String × Int)) (fate : Fate) (clock : Clock) : Database :=
  let (_, traffics, clientTraffics) := getTraffic s.last answer
  Panel.addTraffic s.db traffics clientTraffics clock fate

def Polled.next (s : Polled) : PollAction → Option Polled
  | .use name amount =>
      some { s with
        stats := s.stats.insert name (s.stats[name]?.getD 0 + amount)
        made := if s.base.isSome then Function.update s.made name (s.made name + amount) else s.made }
  | .restart byJob =>
      -- the service that restarts the core clears its own last values and no others
      some { s with stats := ∅, last := if byJob then ∅ else s.last, read := ∅ }
  | .edit db => some { s with db := db }
  | .unanswered => some s
  | .run answer fate clock =>
      if answer.isPerm s.stats.toList then
        some { s with
          last := (getTraffic s.last answer).1
          read := s.stats
          db := s.addTraffic answer fate clock
          base := s.base.or (some s.db) }
      else none

def polls : System Polled PollAction where
  next := Polled.next

end ThreeXNode.Panel
