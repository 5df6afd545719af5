import ThreeXNode.Leaf.Node
import ThreeXNode.Leaf.Settled

namespace ThreeXNode.Leaf
open Library State

namespace Node

variable {n : Node}

@[simp] theorem resetGeneration_state (n : Node) : n.resetGeneration.state = n.state := by
  unfold resetGeneration
  split <;> rfl

@[simp] theorem resetGeneration_core (n : Node) : n.resetGeneration.core = n.core := by
  unfold resetGeneration
  split <;> rfl

@[simp] theorem resetGeneration_halted (n : Node) : n.resetGeneration.halted = n.halted := by
  unfold resetGeneration
  split <;> rfl

@[simp] theorem resetGeneration_phase (n : Node) : n.resetGeneration.phase = n.phase := by
  unfold resetGeneration
  split <;> rfl

@[simp] theorem resetGeneration_asOf (n : Node) : n.resetGeneration.asOf = n.asOf := by
  unfold resetGeneration
  split <;> rfl

@[simp] theorem resetGeneration_readings (n : Node) : n.resetGeneration.readings = n.readings := by
  unfold resetGeneration
  split <;> rfl

@[simp] theorem resetGeneration_applied (n : Node) : n.resetGeneration.applied = n.applied := by
  unfold resetGeneration
  split <;> rfl

@[simp] theorem read_state (v : Stats) (n : Node) : (n.read v).state = n.state := n.resetGeneration_state

@[simp] theorem read_core (v : Stats) (n : Node) : (n.read v).core = n.core := n.resetGeneration_core

@[simp] theorem read_halted (v : Stats) (n : Node) : (n.read v).halted = n.halted := n.resetGeneration_halted

@[simp] theorem read_phase (v : Stats) (n : Node) : (n.read v).phase = n.phase := n.resetGeneration_phase

@[simp] theorem read_asOf (v : Stats) (n : Node) : (n.read v).asOf = n.asOf := n.resetGeneration_asOf

@[simp] theorem read_applied (v : Stats) (n : Node) : (n.read v).applied = n.applied := n.resetGeneration_applied

@[simp] theorem read_readings (v : Stats) (n : Node) :
    (n.read v).readings = (n.core.generation, v) :: n.readings := by
  simp [read]

def withCore (d : Core) (n : Node) : Node := { n with core := d, applied := n.applied + 1 }

@[simp] theorem withCore_state (d : Core) (n : Node) : (n.withCore d).state = n.state := rfl

@[simp] theorem withCore_core (d : Core) (n : Node) : (n.withCore d).core = d := rfl

@[simp] theorem withCore_halted (d : Core) (n : Node) : (n.withCore d).halted = n.halted := rfl

@[simp] theorem withCore_phase (d : Core) (n : Node) : (n.withCore d).phase = n.phase := rfl

@[simp] theorem withCore_asOf (d : Core) (n : Node) : (n.withCore d).asOf = n.asOf := rfl

@[simp] theorem withCore_readings (d : Core) (n : Node) : (n.withCore d).readings = n.readings := rfl

@[simp] theorem withCore_applied (d : Core) (n : Node) : (n.withCore d).applied = n.applied + 1 := rfl

def nextState (w : SampleWeather) (v : Stats) (n : Node) : State :=
  (n.read v).state.sampled (n.read v).baseline v.entries w.now

inductive Sampling (w : SampleWeather) (n : Node) : Node → Except String Unit → Prop where
  | silent (e : String) (noStats : w.stats = none) : Sampling w n n.resetGeneration (.error e)
  | unchanged (v : Stats) (stats : w.stats = some v) (same : n.nextState w v = (n.read v).state) :
      Sampling w n { n.read v with baseline := v.baseline, asOf := w.now }.resetGeneration (.ok ())
  | refused (v : Stats) (d : Core) (e : String) (stats : w.stats = some v) (changed : n.nextState w v ≠ (n.read v).state)
      (applied : (n.read v).core.apply w.apply (desired (n.nextState w v) w.applyAt) = (d, .error e)) :
      Sampling w n ((n.read v).withCore d) (.error e)
  | taken (v : Stats) (d : Core) (stats : w.stats = some v) (changed : n.nextState w v ≠ (n.read v).state)
      (applied : (n.read v).core.apply w.apply (desired (n.nextState w v) w.applyAt) = (d, .ok ())) (saved : w.save = .saved) :
      Sampling w n ({ (n.read v).withCore d with
        state := { n.nextState w v with checkpointAt := w.savedAt }, baseline := v.baseline,
        asOf := w.applyAt } : Node).resetGeneration (.ok ())
  | halted (v : Stats) (d : Core) (e : String) (stats : w.stats = some v) (changed : n.nextState w v ≠ (n.read v).state)
      (applied : (n.read v).core.apply w.apply (desired (n.nextState w v) w.applyAt) = (d, .ok ())) (unsaved : w.save ≠ .saved) :
      Sampling w n ({ (n.read v).withCore d with halted := true } : Node).engineStop (.error e)

theorem sample_cases (w : SampleWeather) (n : Node) : Sampling w n (n.sample w).1 (n.sample w).2 := by
  unfold sample
  cases stats : w.stats with
  | none => exact .silent _ stats
  | some v =>
      simp only
      split
      · rename_i same
        exact .unchanged v stats same
      · rename_i changed
        unfold engineApply
        cases applied : (n.read v).core.apply w.apply (desired (n.nextState w v) w.applyAt) with
        | mk d result =>
            have applied' := applied
            unfold nextState at applied'
            rw [applied']
            cases result with
            | error e => exact .refused v d e stats changed applied
            | ok u =>
                cases save : w.save with
                | saved => exact .taken v d stats changed applied save
                | lost => exact .halted v d _ stats changed applied (by simp [save])
                | unsure => exact .halted v d _ stats changed applied (by simp [save])

inductive Committing (w : TransactionWeather) (next : State) (obj : Reply) (n : Node) :
    Node → Except String Reply → Prop where
  | refused (d : Core) (e : String) (applied : n.core.apply w.apply (desired next w.nextAt) = (d, .error e)) :
      Committing w next obj n (n.withCore d).resetGeneration (.error e)
  | saved (d : Core) (applied : n.core.apply w.apply (desired next w.nextAt) = (d, .ok ())) (save : w.save = .saved) :
      Committing w next obj n { (n.withCore d).resetGeneration with
        state := { next with checkpointAt := w.savedAt }, asOf := w.nextAt } (.ok obj)
  | halted (d : Core) (e : String) (applied : n.core.apply w.apply (desired next w.nextAt) = (d, .ok ()))
      (save : w.save = .unsure) :
      Committing w next obj n ({ (n.withCore d).resetGeneration with halted := true } : Node).engineStop (.error e)
  | restored (d d' : Core) (e : String) (applied : n.core.apply w.apply (desired next w.nextAt) = (d, .ok ()))
      (save : w.save = .lost) (rolledBack : d.apply w.rollback (desired n.state w.oldAt) = (d', .ok ())) :
      Committing w next obj n
        ({ (n.withCore d).resetGeneration.withCore d' with asOf := w.oldAt } : Node).resetGeneration (.error e)
  | stopped (d d' : Core) (e e' : String) (applied : n.core.apply w.apply (desired next w.nextAt) = (d, .ok ()))
      (save : w.save = .lost) (stuck : d.apply w.rollback (desired n.state w.oldAt) = (d', .error e)) :
      Committing w next obj n ((n.withCore d).resetGeneration.withCore d').engineStop (.error e')

theorem commit_cases (w : TransactionWeather) (next : State) (obj : Reply) (n : Node) :
    Committing w next obj n (n.commit w next obj).1 (n.commit w next obj).2 := by
  unfold commit engineApply
  cases applied : n.core.apply w.apply (desired next w.nextAt) with
  | mk d result =>
      cases result with
      | error e => exact .refused d e applied
      | ok u =>
          cases save : w.save with
          | saved => exact .saved d applied save
          | unsure => exact .halted d _ applied save
          | lost =>
              have core : (n.withCore d).resetGeneration.core = d := resetGeneration_core _
              cases rolledBack : d.apply w.rollback (desired n.state w.oldAt) with
              | mk d' result =>
                  have again := rolledBack
                  rw [← core] at again
                  unfold withCore at again
                  simp only
                  rw [again]
                  cases result with
                  | error e => exact .stopped d d' e _ applied save rolledBack
                  | ok u => exact .restored d d' _ applied save rolledBack

theorem transaction_keeps {cfg : Config} {w : TransactionWeather} {r : Request} (P : Node → Prop) (start : P n)
    (sampled : n.halted = false → n.running = true → P (n.sample w.sample).1)
    (committed : ∀ m next obj, n.halted = false → n.settle w.sample = (m, .ok ()) → P m →
      r.next cfg w.now m.state = .ok (next, obj) → (n.transaction cfg w r).1 = (m.commit w next obj).1 →
      P (m.commit w next obj).1) :
    P (n.transaction cfg w r).1 := by
  unfold transaction
  cases halted : n.halted with
  | true => exact start
  | false =>
      have settled : P (n.settle w.sample).1 := by
        unfold settle
        split
        · rename_i running
          exact sampled halted running
        · exact start
      simp only [Bool.false_eq_true, ↓reduceIte]
      cases first : n.settle w.sample with
      | mk m result =>
          rw [first] at settled
          cases result with
          | error e => exact settled
          | ok u =>
              simp only
              cases edited : r.next cfg w.now m.state with
              | error e => exact settled
              | ok pair =>
                  obtain ⟨next, obj⟩ := pair
                  simp only
                  split
                  · exact settled
                  · rename_i changed
                    refine committed m next obj halted first settled edited ?_
                    simp [transaction, halted, first, edited, changed]

theorem restart_keeps {w : RestartWeather} (P : Node → Prop) (start : P n)
    (sampled : n.halted = false → n.running = true → P (n.sample w.sample).1)
    (refused : ∀ m d e, n.halted = false → n.settle w.sample = (m, .ok ()) → P m →
      m.core.stop.apply w.apply (desired m.state w.now) = (d, .error e) →
      P (m.withCore d).resetGeneration)
    (restarted : ∀ m d, n.halted = false → n.settle w.sample = (m, .ok ()) → P m →
      m.core.stop.apply w.apply (desired m.state w.now) = (d, .ok ()) →
      P ({ m.withCore d with asOf := w.now } : Node).resetGeneration) :
    P (n.restart w).1 := by
  unfold restart
  cases halted : n.halted with
  | true => exact start
  | false =>
      have settled : P (n.settle w.sample).1 := by
        unfold settle
        split
        · rename_i running
          exact sampled halted running
        · exact start
      simp only [Bool.false_eq_true, ↓reduceIte]
      cases first : n.settle w.sample with
      | mk m result =>
          rw [first] at settled
          cases result with
          | error e => exact settled
          | ok u =>
              simp only [engineApply, engineStop]
              cases applied : m.core.stop.apply w.apply (desired m.state w.now) with
              | mk d result =>
                  cases result with
                  | error e => exact refused m d e halted first settled applied
                  | ok u => exact restarted m d halted first settled applied

theorem recover_cases {w : ApplyWeather} {now : Int} (P : Node → Prop)
    (refused : ∀ d e, n.core.apply w (desired n.state now) = (d, .error e) →
      P { n.withCore d with phase := .watching, backoff := min (n.backoff * 2) 60 })
    (recovered : ∀ d, n.core.apply w (desired n.state now) = (d, .ok ()) →
      P ({ n.withCore d with phase := .watching, backoff := 1, asOf := now } : Node).resetGeneration) : P (n.recover w now) := by
  unfold recover engineApply
  cases applied : n.core.apply w (desired n.state now) with
  | mk d result =>
      cases result with
      | error e => exact refused d e applied
      | ok u => exact recovered d applied

end Node

def Action.takes (n : Node) : Action → Option SampleWeather
  | .transaction w _ => if n.halted = false ∧ n.running = true then some w.sample else none
  | .restart w => if n.halted = false ∧ n.running = true then some w.sample else none
  | .tick w => if n.halted = false ∧ n.running = true then some w else none
  | .shutdown w => if n.running = true then some w.sample else none
  | _ => none

theorem Action.running_of_takes {n : Node} {a : Action} {w : SampleWeather} (takes : a.takes n = some w) :
    n.running = true := by
  cases a <;> simp_all [Action.takes]

theorem next_keeps {cfg : Config} {n m : Node} {a : Action} (P : Node → Prop)
    (step : (node cfg).next n a = some m) (start : P n)
    (framed : ∀ k phase running checkpointAt, P k →
      P { k with phase, state := { k.state with running, checkpointAt } })
    (sampled : ∀ w, a.takes n = some w → P (n.sample w).1)
    (committed : ∀ w r k next obj, a = .transaction w r → n.halted = false → n.settle w.sample = (k, .ok ()) → P k →
      r.next cfg w.now k.state = .ok (next, obj) → m = (k.commit w next obj).1 → P m)
    (refused : ∀ w k d e, a = .restart w → n.halted = false → n.settle w.sample = (k, .ok ()) → P k →
      k.core.stop.apply w.apply (desired k.state w.now) = (d, .error e) → P (k.withCore d).resetGeneration)
    (restarted : ∀ w k d, a = .restart w → n.halted = false → n.settle w.sample = (k, .ok ()) → P k →
      k.core.stop.apply w.apply (desired k.state w.now) = (d, .ok ()) →
      P ({ k.withCore d with asOf := w.now } : Node).resetGeneration)
    (stuck : ∀ w now d e, a = .recover w now → n.core.apply w (desired n.state now) = (d, .error e) →
      P { n.withCore d with phase := .watching, backoff := min (n.backoff * 2) 60 })
    (recovered : ∀ w now d, a = .recover w now → n.core.apply w (desired n.state now) = (d, .ok ()) →
      P ({ n.withCore d with phase := .watching, backoff := 1, asOf := now } : Node).resetGeneration)
    (stopped : ∀ k, P k → P k.engineStop) : P m := by
  cases a with
  | transaction w r =>
      cases step
      exact Node.transaction_keeps P start (fun going running => sampled w.sample (by simp [Action.takes, going, running]))
        fun k next obj going first kept edited same => same ▸ committed w r k next obj rfl going first kept edited same
  | restart w =>
      cases step
      exact Node.restart_keeps P start (fun going running => sampled w.sample (by simp [Action.takes, going, running]))
        (fun k d e => refused w k d e rfl) fun k d => restarted w k d rfl
  | tick w =>
      simp only [node, Option.ite_none_right_eq_some, Option.some.injEq] at step
      obtain ⟨_, rfl⟩ := step
      unfold Node.tick
      split
      · exact start
      · rename_i going
        split
        · rename_i running
          exact sampled w (by simp [Action.takes, going, running])
        · exact framed n .waiting n.state.running n.state.checkpointAt start
  | recover w now =>
      simp only [node, Option.ite_none_right_eq_some, Option.some.injEq] at step
      obtain ⟨_, rfl⟩ := step
      exact Node.recover_cases P (fun d e => stuck w now d e rfl) fun d => recovered w now d rfl
  | cancelWait =>
      simp only [node, Option.ite_none_right_eq_some, Option.some.injEq] at step
      obtain ⟨_, rfl⟩ := step
      exact framed n .watching n.state.running n.state.checkpointAt start
  | shutdown w =>
      simp only [node, Option.ite_none_right_eq_some, Option.some.injEq] at step
      obtain ⟨_, rfl⟩ := step
      have settled : P (n.settle w.sample).1 := by
        unfold Node.settle
        split
        · rename_i running
          exact sampled w.sample (by simp [Action.takes, running])
        · exact start
      have down := stopped _ settled
      unfold Node.shutdown
      simp only
      split
      · exact framed _ .returned _ _ down
      · exact framed _ .returned false w.savedAt down
  | exit =>
      cases step
      exact stopped n start

end ThreeXNode.Leaf
