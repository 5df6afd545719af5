import ThreeXNode.Leaf.Core
import ThreeXNode.Leaf.Store

namespace ThreeXNode.Leaf
open Library State

structure Stats where
  entries : Values
  distinct : (entries.map (·.1)).Nodup

def Stats.baseline (v : Stats) : Baseline := .ofList v.entries

/-- Where the loop of `Run` stands: at its `select`, in the wait before a recovery, or returned. -/
inductive Phase where
  | watching
  | waiting
  | returned
  deriving DecidableEq

/-- How a `SaveState` goes; `unsure` is `ErrDurability`. -/
inductive SaveOutcome where
  | saved
  | lost
  | unsure
  deriving DecidableEq

structure Node where
  state : State
  core : Core
  baseline : Baseline
  generation : Nat
  halted : Bool
  phase : Phase
  backoff : Nat
  /-- The clock of the last sample or `Apply` that succeeded. Only proofs read this field and the two below. -/
  asOf : Int
  /-- The `Stats` calls that succeeded with the generations they were made in, the latest first. -/
  readings : List (Nat × Stats)
  applied : Nat

structure SampleWeather where
  stats : Option Stats
  now : Int
  applyAt : Int
  apply : ApplyWeather
  save : SaveOutcome
  savedAt : Int

structure TransactionWeather where
  sample : SampleWeather
  now : Int
  oldAt : Int
  nextAt : Int
  apply : ApplyWeather
  save : SaveOutcome
  savedAt : Int
  rollback : ApplyWeather

structure RestartWeather where
  sample : SampleWeather
  now : Int
  apply : ApplyWeather

structure ShutdownWeather where
  sample : SampleWeather
  savedAt : Int

namespace Node

def running (n : Node) : Bool := n.core.served.isSome

@[irreducible] def resetGeneration (n : Node) : Node :=
  if n.core.generation ≠ n.generation then { n with generation := n.core.generation, baseline := ∅ } else n

def engineApply (w : ApplyWeather) (live : Live) (n : Node) : Node × Except String Unit :=
  let (core, result) := n.core.apply w live
  ({ n with core, applied := n.applied + 1 }, result)

def engineStop (n : Node) : Node := { n with core := n.core.stop }

def read (v : Stats) (n : Node) : Node :=
  let n := n.resetGeneration
  { n with readings := (n.core.generation, v) :: n.readings }

def sample (w : SampleWeather) (n : Node) : Node × Except String Unit :=
  match w.stats with
  | none => (n.resetGeneration, .error "Xray is not running")
  | some values =>
      let n := n.read values
      let next := n.state.sampled n.baseline values.entries w.now
      if next = n.state then ({ n with baseline := values.baseline, asOf := w.now }.resetGeneration, .ok ())
      else match n.engineApply w.apply (desired next w.applyAt) with
        | (n, .error e) => (n, .error e)
        | (n, .ok _) => match w.save with
            | .saved =>
                let state := { next with checkpointAt := w.savedAt }
                ({ n with state, baseline := values.baseline, asOf := w.applyAt }.resetGeneration, .ok ())
            | _ => ({ n with halted := true }.engineStop,
                .error "traffic checkpoint failed; stopped to avoid unaccounted traffic")

def commit (w : TransactionWeather) (next : State) (obj : Reply) (n : Node) : Node × Except String Reply :=
  let oldLive := desired n.state w.oldAt
  match n.engineApply w.apply (desired next w.nextAt) with
  | (n, .error e) => (n.resetGeneration, .error e)
  | (n, .ok _) =>
      let n := n.resetGeneration
      match w.save with
      | .saved => ({ n with state := { next with checkpointAt := w.savedAt }, asOf := w.nextAt }, .ok obj)
      | .unsure => ({ n with halted := true }.engineStop,
          .error "replacement completed but directory durability is uncertain")
      | .lost => match n.engineApply w.rollback oldLive with
          | (n, .error _) => (n.engineStop, .error "state write and rollback failed; core stopped")
          | (n, .ok _) => ({ n with asOf := w.oldAt }.resetGeneration, .error "state write failed; runtime restored")

def settle (w : SampleWeather) (n : Node) : Node × Except String Unit :=
  if n.running then n.sample w else (n, .ok ())

def transaction (cfg : Config) (w : TransactionWeather) (r : Request) (n : Node) : Node × Except String Reply :=
  if n.halted then (n, .error "node stopped after storage failure; repair storage and restart")
  else match n.settle w.sample with
    | (n, .error e) => (n, .error e)
    | (n, .ok _) => match r.next cfg w.now n.state with
        | .error e => (n, .error e)
        | .ok (next, obj) => if next = n.state then (n, .ok obj) else n.commit w next obj

def restart (w : RestartWeather) (n : Node) : Node × Except String Reply :=
  if n.halted then (n, .error "repair storage and restart the node service")
  else match n.settle w.sample with
    | (n, .error e) => (n, .error e)
    | (n, .ok _) => match n.engineStop.engineApply w.apply (desired n.state w.now) with
        | (n, .error e) => (n.resetGeneration, .error e)
        | (n, .ok _) => ({ n with asOf := w.now }.resetGeneration, .ok .nothing)

def tick (w : SampleWeather) (n : Node) : Node :=
  if n.halted then n
  else if n.running then (n.sample w).1
  else { n with phase := .waiting }

def recover (w : ApplyWeather) (now : Int) (n : Node) : Node :=
  match { n with phase := .watching }.engineApply w (desired n.state now) with
  | (n, .error _) => { n with backoff := min (n.backoff * 2) 60 }
  | (n, .ok _) => { n with backoff := 1, asOf := now }.resetGeneration

def shutdown (w : ShutdownWeather) (n : Node) : Node :=
  let n := (n.settle w.sample).1.engineStop
  let n := { n with phase := .returned }
  if n.halted then n
  else { n with state := { n.state with running := false, checkpointAt := w.savedAt } }

def new (s : State) (save : SaveOutcome) (savedAt now : Int) (w : ApplyWeather) : Except String Node :=
  let s := { s with running := true, checkpointAt := savedAt }
  if save ≠ .saved then .error "state write failed"
  else
    let n : Node :=
      { state := s, core := ⟨none, [], 0⟩, baseline := ∅, generation := 0, halted := false, phase := .watching,
        backoff := 1, asOf := now, readings := [], applied := 0 }
    match n.engineApply w (desired s now) with
    | (_, .error e) => .error e
    | (n, .ok _) => .ok n.resetGeneration

end Node

inductive Action where
  | transaction (w : TransactionWeather) (r : Request)
  | restart (w : RestartWeather)
  | tick (w : SampleWeather)
  | recover (w : ApplyWeather) (now : Int)
  | cancelWait
  | shutdown (w : ShutdownWeather)
  | exit

def node (cfg : Config) : System Node Action where
  next n a := match a with
    | .transaction w r => some (n.transaction cfg w r).1
    | .restart w => some (n.restart w).1
    | .tick w => if n.phase = .watching then some (n.tick w) else none
    | .recover w now => if n.phase = .waiting then some (n.recover w now) else none
    | .cancelWait => if n.phase = .waiting then some { n with phase := .watching } else none
    | .shutdown w => if n.phase = .watching then some (n.shutdown w) else none
    | .exit => some n.engineStop

/-- The nodes `New` makes from a state an earlier node wrote, or from none. -/
def Started (cfg : Config) (n : Node) : Prop :=
  ∃ guid s save savedAt now w, (store cfg).Reaches (fresh guid) s ∧ Node.new s save savedAt now w = .ok n

/-! ## Weather in which nothing fails -/

def ApplyWeather.fair : ApplyWeather where
  exited := false
  orders := []
  rpcs := []
  first := .ready
  second := .ready

def SampleWeather.fair (values : Stats) : SampleWeather where
  stats := some values
  now := 0
  applyAt := 0
  apply := .fair
  save := .saved
  savedAt := 0

def TransactionWeather.fair (values : Stats) : TransactionWeather where
  sample := .fair values
  now := 0
  oldAt := 0
  nextAt := 0
  apply := .fair
  save := .saved
  savedAt := 0
  rollback := .fair

def Stats.none : Stats := ⟨[], by simp⟩

def firstNode : Node :=
  match Node.new (fresh "node") .saved 0 0 .fair with
  | .ok n => n
  | .error _ => ⟨fresh "node", ⟨none, [], 0⟩, ∅, 0, false, .watching, 1, 0, [], 0⟩

theorem firstNode_started : Started plainConfig firstNode := by
  refine ⟨"node", fresh "node", .saved, 0, 0, .fair, .refl, ?_⟩
  unfold firstNode
  cases made : Node.new (fresh "node") .saved 0 0 .fair with
  | ok n => rfl
  | error e =>
      have up : (Node.new (fresh "node") .saved 0 0 .fair).toBool = true := by decide +kernel
      rw [made] at up
      cases up

def aliceArrives : Action := .transaction (.fair .none) (.putInbound (plainInbound [plainClient "alice"]) 0)

def Node.after (n : Node) (actions : List Action) : Node := ((node plainConfig).run n actions).getD n

theorem Node.after_next {n : Node} {a : Action} (possible : ((node plainConfig).next n a).isSome = true) :
    (node plainConfig).next n a = some (n.after [a]) := by
  obtain ⟨m, step⟩ := Option.isSome_iff_exists.mp possible
  simp [Node.after, System.run, step]

theorem Node.after_reaches {n : Node} {actions : List Action}
    (possible : ((node plainConfig).run n actions).isSome = true) : (node plainConfig).Reaches n (n.after actions) := by
  obtain ⟨m, ran⟩ := Option.isSome_iff_exists.mp possible
  have same : n.after actions = m := by simp [Node.after, ran]
  rw [same]
  exact System.run_reaches ran

end ThreeXNode.Leaf
