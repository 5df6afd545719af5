import Mathlib
import ThreeXNode.Library.Transition

namespace ThreeXNode.Service.TrafficWriter
open Library

def trafficWriterQueueSize : Nat := 256

inductive Ending where
  | returned (err : Option String)
  | panicked (text : String)

def safeApply : Ending → Option String
  | .returned err => err
  | .panicked text => some ("traffic writer panic: " ++ text)

/-- Where the goroutine of a writer is; `drains` once it has seen that its context is cancelled. Its `done` is closed
when it is gone. -/
inductive Loop where
  | serving
  | draining
  | applying (req : Nat) (drains : Bool)
  | replying (req : Nat) (err : Option String) (drains : Bool)
  | gone
  deriving DecidableEq

structure Writer where
  queue : List Nat := []
  cancelled : Bool := false
  loop : Loop := .serving

inductive Outcome where
  | result (err : Option String)
  | queueFull
  | stopped
  deriving DecidableEq

inductive Submit where
  | idle
  | looking
  | leaving
  | inlining
  | applying
  | offering (queue done : Nat)
  | offered (done : Nat)
  | refused
  | waiting (done : Nat)
  | closing (done : Nat)
  | returned (outcome : Outcome)
  deriving DecidableEq

inductive Start where
  | idle
  | looking
  | spawning
  | leaving
  | returned
  deriving DecidableEq

inductive Stop where
  | idle
  | looking
  | releasing (done : Nat)
  | waiting (done : Nat)
  | relocking (done : Nat)
  | clearing (done : Nat)
  | leaving
  | returned
  deriving DecidableEq

inductive Call where
  | submit (id : Nat)
  | start (id : Nat)
  | stop (id : Nat)
  deriving DecidableEq

/-- The package variables, each naming a writer whose queue, context or `done` it holds. -/
structure Globals where
  twQueue : Option Nat := none
  twCtx : Option Nat := none
  twCancel : Option Nat := none
  twDone : Option Nat := none

/-- `runs` and `results` record how often each call's function was begun and what it returned; `replies` holds the
buffered `done` channels of the requests. -/
structure State where
  twMu : Option Call := none
  globals : Globals := {}
  made : Nat := 0
  writers : Nat → Writer := fun _ => {}
  submits : Nat → Submit := fun _ => .idle
  starts : Nat → Start := fun _ => .idle
  stops : Nat → Stop := fun _ => .idle
  replies : Nat → Option (Option String) := fun _ => none
  runs : Nat → Nat := fun _ => 0
  results : Nat → List (Option String) := fun _ => []

namespace State

def setSubmit (s : State) (id : Nat) (phase : Submit) : State := { s with submits := Function.update s.submits id phase }

def setStart (s : State) (id : Nat) (phase : Start) : State := { s with starts := Function.update s.starts id phase }

def setStop (s : State) (id : Nat) (phase : Stop) : State := { s with stops := Function.update s.stops id phase }

def setWriter (s : State) (w : Nat) (writer : Writer) : State := { s with writers := Function.update s.writers w writer }

def unlock (s : State) : State := { s with twMu := none }

def begin (s : State) (req : Nat) : State := { s with runs := Function.update s.runs req (s.runs req + 1) }

def finish (s : State) (req : Nat) (err : Option String) : State :=
  { s with results := Function.update s.results req (s.results req ++ [err]) }

def clearTrafficWriterState (s : State) : State := { s with globals := {} }

end State

inductive SubmitStep where
  | lock
  | look
  | unlock
  | apply
  | finish (ending : Ending)
  | send
  | timeout
  | receive
  | notice
  | giveUp

def submitTrafficWrite (s : State) (id : Nat) : SubmitStep → Option State
  | .lock =>
      if s.submits id = .idle ∧ s.twMu = none then some { s.setSubmit id .looking with twMu := some (.submit id) }
      else none
  | .look =>
      if s.submits id = .looking then
        match s.globals.twQueue, s.globals.twCtx, s.globals.twDone with
        | some queue, some ctx, some done =>
            if (s.writers ctx).cancelled then some (s.setSubmit id .leaving)
            else some (s.setSubmit id (.offering queue done))
        | _, _, _ => some (s.setSubmit id .leaving)
      else none
  | .unlock =>
      match s.submits id with
      | .leaving => some (s.unlock.setSubmit id .inlining)
      | .offered done => some (s.unlock.setSubmit id (.waiting done))
      | .refused => some (s.unlock.setSubmit id (.returned .queueFull))
      | _ => none
  | .apply => if s.submits id = .inlining then some ((s.begin id).setSubmit id .applying) else none
  | .finish ending =>
      if s.submits id = .applying then
        some ((s.finish id (safeApply ending)).setSubmit id (.returned (.result (safeApply ending))))
      else none
  | .send =>
      match s.submits id with
      | .offering queue done =>
          let writer := s.writers queue
          if writer.queue.length < trafficWriterQueueSize then
            some ((s.setWriter queue { writer with queue := writer.queue ++ [id] }).setSubmit id (.offered done))
          else none
      | _ => none
  | .timeout =>
      match s.submits id with
      | .offering _ _ => some (s.setSubmit id .refused)
      | _ => none
  | .receive =>
      match s.submits id, s.replies id with
      | .waiting _, some err | .closing _, some err =>
          some { s.setSubmit id (.returned (.result err)) with replies := Function.update s.replies id none }
      | _, _ => none
  | .notice =>
      match s.submits id with
      | .waiting done => if (s.writers done).loop = .gone then some (s.setSubmit id (.closing done)) else none
      | _ => none
  | .giveUp =>
      match s.submits id, s.replies id with
      | .closing _, none => some (s.setSubmit id (.returned .stopped))
      | _, _ => none

inductive StartStep where
  | lock
  | look
  | spawn
  | unlock

def startTrafficWriter (s : State) (id : Nat) : StartStep → Option State
  | .lock =>
      if s.starts id = .idle ∧ s.twMu = none then some { s.setStart id .looking with twMu := some (.start id) }
      else none
  | .look =>
      if s.starts id = .looking then
        match s.globals.twCancel, s.globals.twDone with
        | some _, some done =>
            if (s.writers done).loop = .gone then some (s.clearTrafficWriterState.setStart id .spawning)
            else some (s.setStart id .leaving)
        | _, _ => some (s.setStart id .spawning)
      else none
  | .spawn =>
      if s.starts id = .spawning then
        some { (s.setWriter s.made {}).setStart id .leaving with
          globals := ⟨some s.made, some s.made, some s.made, some s.made⟩, made := s.made + 1 }
      else none
  | .unlock => if s.starts id = .leaving then some (s.unlock.setStart id .returned) else none

inductive StopStep where
  | lock
  | look
  | unlock
  | wake
  | relock
  | clear

def stopTrafficWriter (s : State) (id : Nat) : StopStep → Option State
  | .lock =>
      if s.stops id = .idle ∧ s.twMu = none then some { s.setStop id .looking with twMu := some (.stop id) }
      else none
  | .look =>
      if s.stops id = .looking then
        match s.globals.twCancel, s.globals.twDone with
        | some ctx, some done =>
            some ((s.setWriter ctx { s.writers ctx with cancelled := true }).setStop id (.releasing done))
        | _, _ => some (s.setStop id .leaving)
      else none
  | .unlock =>
      match s.stops id with
      | .releasing done => some (s.unlock.setStop id (.waiting done))
      | .leaving => some (s.unlock.setStop id .returned)
      | _ => none
  | .wake =>
      match s.stops id with
      | .waiting done => if (s.writers done).loop = .gone then some (s.setStop id (.relocking done)) else none
      | _ => none
  | .relock =>
      match s.stops id with
      | .relocking done =>
          if s.twMu = none then some { s.setStop id (.clearing done) with twMu := some (.stop id) } else none
      | _ => none
  | .clear =>
      match s.stops id with
      | .clearing done =>
          if s.globals.twDone = some done then some (s.clearTrafficWriterState.setStop id .leaving)
          else some (s.setStop id .leaving)
      | _ => none

inductive WriterStep where
  | take
  | drain
  | finish (ending : Ending)
  | reply
  | exit

def runTrafficWriter (s : State) (w : Nat) (step : WriterStep) : Option State :=
  let writer := s.writers w
  if w < s.made then
    match step, writer.loop with
    | .take, .serving =>
        match writer.queue with
        | req :: rest => some ((s.begin req).setWriter w { writer with queue := rest, loop := .applying req false })
        | [] => none
    | .drain, .serving => if writer.cancelled then some (s.setWriter w { writer with loop := .draining }) else none
    | .take, .draining =>
        match writer.queue with
        | req :: rest => some ((s.begin req).setWriter w { writer with queue := rest, loop := .applying req true })
        | [] => none
    | .exit, .draining => if writer.queue = [] then some (s.setWriter w { writer with loop := .gone }) else none
    | .finish ending, .applying req drains =>
        some ((s.finish req (safeApply ending)).setWriter w
          { writer with loop := .replying req (safeApply ending) drains })
    | .reply, .replying req err drains =>
        if s.replies req = none then
          some { s.setWriter w { writer with loop := if drains then .draining else .serving } with
            replies := Function.update s.replies req (some err) }
        else none
    | _, _ => none
  else none

inductive Action where
  | submit (id : Nat) (step : SubmitStep)
  | start (id : Nat) (step : StartStep)
  | stop (id : Nat) (step : StopStep)
  | writer (w : Nat) (step : WriterStep)

/-- Any number of calls and the goroutines they start, one step of one of them at a time. -/
def system : System State Action where
  next s
    | .submit id step => submitTrafficWrite s id step
    | .start id step => startTrafficWriter s id step
    | .stop id step => stopTrafficWriter s id step
    | .writer w step => runTrafficWriter s w step

end ThreeXNode.Service.TrafficWriter
