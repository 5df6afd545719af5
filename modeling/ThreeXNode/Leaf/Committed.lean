import ThreeXNode.Leaf.Reload
import ThreeXNode.Leaf.Steps

namespace ThreeXNode.Leaf
open Library State

/-! ## The committed state of a node is a state of the store -/

theorem store_marked {cfg : Config} {guid : String} {s : State} (reached : (store cfg).Reaches (fresh guid) s)
    (running : Bool) (checkpointAt : Int) : (store cfg).Reaches (fresh guid) { s with running, checkpointAt } :=
  reached.tail trivial (show (store cfg).next s (.mark running checkpointAt) = _ from rfl)

theorem store_sampled {cfg : Config} {guid : String} {s : State} (reached : (store cfg).Reaches (fresh guid) s)
    (baseline : Baseline) (values : Values) (now : Int) :
    (store cfg).Reaches (fresh guid) (s.sampled baseline values now) :=
  reached.tail trivial (show (store cfg).next s (.sample baseline values now) = _ from rfl)

theorem store_requested {cfg : Config} {guid : String} {s t : State} {now : Int} {r : Request} {obj : Reply}
    (reached : (store cfg).Reaches (fresh guid) s) (h : r.next cfg now s = .ok (t, obj)) :
    (store cfg).Reaches (fresh guid) t :=
  reached.tail trivial (show (store cfg).next s (.request now r) = some t by simp [store, h])

theorem store_tags {cfg : Config} {guid : String} {s : State} (reached : (store cfg).Reaches (fresh guid) s) :
    (s.inbounds.map (·.tag)).Nodup := by
  refine reached.invariant (fun s => (s.inbounds.map (·.tag)).Nodup) (by simp [fresh]) ?_
  intro t e u distinct _ step
  cases e with
  | request now r =>
      obtain ⟨obj, step⟩ := store_request step
      exact request_tags step
  | sample baseline values now =>
      cases step
      obtain ⟨f, grown, inbounds⟩ := (sampled_grows t baseline values now).inbounds
      rw [inbounds, List.map_map]
      exact (List.map_congr_left fun ib _ => grown.tag ib) ▸ distinct
  | mark running checkpointAt =>
      cases step
      exact distinct

theorem desired_tags {s : State} (distinct : (s.inbounds.map (·.tag)).Nodup) (now : Int) :
    ((s.desired now).map (·.tag)).Nodup := by
  refine distinct.sublist ?_
  unfold State.desired
  rw [List.map_filterMap]
  induction s.inbounds with
  | nil => exact .slnil
  | cons ib rest ih =>
      by_cases off : ib.enable = false ∨ ib.spent now
      · simpa [off] using ih.cons ib.tag
      · simpa [off, liveInbound] using ih

/-- What every step of a node keeps: its committed state is one of the store, and where there is a process the node
remembers what it serves. -/
structure Stored (cfg : Config) (n : Node) : Prop where
  reached : ∃ guid, (store cfg).Reaches (fresh guid) n.state
  agrees : n.core.Agrees

variable {cfg : Config} {n m : Node}

theorem Stored.of_state (stored : Stored cfg n) (same : m.state = n.state) (agrees : m.core.Agrees) : Stored cfg m :=
  ⟨same ▸ stored.reached, agrees⟩

theorem Stored.mirrored (stored : Stored cfg n) : n.state.Mirrored := by
  obtain ⟨guid, reached⟩ := stored.reached
  exact store_mirrored reached

theorem applied_desired {w : ApplyWeather} {s : State} {now : Int} {c d : Core} (agrees : c.Agrees)
    (reached : ∃ guid, (store cfg).Reaches (fresh guid) s) (applied : c.apply w (s.desired now) = (d, .ok ())) :
    d.Agrees ∧ d.served = some (s.desired now) ∧
      ((d.generation = c.generation ∧ c.served.isSome) ∨ d.generation = c.generation + 1) := by
  obtain ⟨guid, reached⟩ := reached
  obtain ⟨served, live, generation⟩ := Core.apply_ok agrees (desired_tags (store_tags reached) now) applied
  exact ⟨.of_served served live, served, generation⟩

theorem Stored.nextState (stored : Stored cfg n) (w : SampleWeather) (v : Stats) :
    ∃ guid, (store cfg).Reaches (fresh guid) (n.nextState w v) := by
  obtain ⟨guid, reached⟩ := stored.reached
  exact ⟨guid, store_sampled (by simpa using reached) ..⟩

theorem Stored.sample (stored : Stored cfg n) (w : SampleWeather) : Stored cfg (n.sample w).1 := by
  have way := Node.sample_cases w n
  generalize (n.sample w).1 = m, (n.sample w).2 = result at way
  cases way with
  | silent e noStats => exact stored.of_state (by simp) (by simpa using stored.agrees)
  | unchanged v stats same => exact stored.of_state (by simp) (by simpa using stored.agrees)
  | refused v d e stats changed applied => exact stored.of_state (by simp) (.of_error applied)
  | taken v d stats changed applied saved =>
      rw [Node.read_core] at applied
      have next := stored.nextState w v
      have agrees := (applied_desired stored.agrees next applied).1
      obtain ⟨guid, next⟩ := next
      exact ⟨⟨guid, by simpa using store_marked next (n.nextState w v).running w.savedAt⟩, by simpa using agrees⟩
  | halted v d e stats changed applied unsaved => exact stored.of_state (by simp [Node.engineStop]) (.of_stopped rfl)

theorem Stored.request {r : Request} {next : State} {obj : Reply} {now : Int} (stored : Stored cfg n)
    (edited : r.next cfg now n.state = .ok (next, obj)) : ∃ guid, (store cfg).Reaches (fresh guid) next := by
  obtain ⟨guid, reached⟩ := stored.reached
  exact ⟨guid, store_requested reached edited⟩

theorem Stored.commit {w : TransactionWeather} {r : Request} {next : State} {obj : Reply} {now : Int}
    (stored : Stored cfg n) (edited : r.next cfg now n.state = .ok (next, obj)) :
    Stored cfg (n.commit w next obj).1 := by
  have way := Node.commit_cases w next obj n
  generalize (n.commit w next obj).1 = m, (n.commit w next obj).2 = result at way
  cases way with
  | refused d e applied => exact stored.of_state (by simp) (by simpa using Core.Agrees.of_error applied)
  | saved d applied save =>
      have agrees := (applied_desired stored.agrees (stored.request edited) applied).1
      obtain ⟨guid, reached⟩ := stored.request edited
      exact ⟨⟨guid, store_marked reached next.running w.savedAt⟩, by simpa using agrees⟩
  | halted d e applied save => exact stored.of_state (by simp [Node.engineStop]) (.of_stopped rfl)
  | restored d d' e applied save rolledBack =>
      have agrees := (applied_desired stored.agrees (stored.request edited) applied).1
      exact stored.of_state (by simp) (by simpa using (applied_desired agrees stored.reached rolledBack).1)
  | stopped d d' e e' applied save stuck => exact stored.of_state (by simp [Node.engineStop]) (.of_stopped rfl)

theorem Stored.framed (stored : Stored cfg n) (phase : Phase) (running : Bool) (checkpointAt : Int) :
    Stored cfg { n with phase, state := { n.state with running, checkpointAt } } := by
  obtain ⟨guid, reached⟩ := stored.reached
  exact ⟨⟨guid, store_marked reached running checkpointAt⟩, stored.agrees⟩

theorem Stored.keeps {a : Action} (P : Node → Prop) (stored : Stored cfg n) (step : (node cfg).next n a = some m)
    (start : P n)
    (framed : ∀ k phase running checkpointAt, P k →
      P { k with phase, state := { k.state with running, checkpointAt } })
    (sampled : ∀ w, a.takes n = some w → P (n.sample w).1)
    (committed : ∀ w r k next obj, a = .transaction w r → n.halted = false → n.settle w.sample = (k, .ok ()) →
      Stored cfg k → P k → r.next cfg w.now k.state = .ok (next, obj) → m = (k.commit w next obj).1 → P m)
    (refused : ∀ w k d e, a = .restart w → n.halted = false → n.settle w.sample = (k, .ok ()) → Stored cfg k → P k →
      k.core.stop.apply w.apply (desired k.state w.now) = (d, .error e) → P (k.withCore d).resetGeneration)
    (restarted : ∀ w k d, a = .restart w → n.halted = false → n.settle w.sample = (k, .ok ()) → Stored cfg k → P k →
      k.core.stop.apply w.apply (desired k.state w.now) = (d, .ok ()) →
      P ({ k.withCore d with asOf := w.now } : Node).resetGeneration)
    (stuck : ∀ w now d e, a = .recover w now → n.core.apply w (desired n.state now) = (d, .error e) →
      P { n.withCore d with phase := .watching, backoff := min (n.backoff * 2) 60 })
    (recovered : ∀ w now d, a = .recover w now → n.core.apply w (desired n.state now) = (d, .ok ()) →
      P ({ n.withCore d with phase := .watching, backoff := 1, asOf := now } : Node).resetGeneration)
    (stopped : ∀ k, P k → P k.engineStop) : P m ∧ Stored cfg m := by
  refine next_keeps (fun k => P k ∧ Stored cfg k) step ⟨start, stored⟩ ?_ ?_ ?_ ?_ ?_ ?_ ?_ ?_
  · exact fun k phase running checkpointAt held =>
      ⟨framed k phase running checkpointAt held.1, held.2.framed phase running checkpointAt⟩
  · exact fun w takes => ⟨sampled w takes, stored.sample w⟩
  · intro w r k next obj is going first held edited same
    exact ⟨committed w r k next obj is going first held.2 held.1 edited same, same ▸ held.2.commit edited⟩
  · intro w k d e is going first held applied
    exact ⟨refused w k d e is going first held.2 held.1 applied,
      held.2.of_state (by simp) (by simpa using Core.Agrees.of_error applied)⟩
  · intro w k d is going first held applied
    exact ⟨restarted w k d is going first held.2 held.1 applied,
      held.2.of_state (by simp) (by simpa using (applied_desired (.of_stopped rfl) held.2.reached applied).1)⟩
  · exact fun w now d e is applied => ⟨stuck w now d e is applied, stored.of_state rfl (.of_error applied)⟩
  · intro w now d is applied
    exact ⟨recovered w now d is applied,
      stored.of_state (by simp) (by simpa using (applied_desired stored.agrees stored.reached applied).1)⟩
  · exact fun k held => ⟨stopped k held.1, held.2.of_state rfl (.of_stopped rfl)⟩

theorem Stored.next {a : Action} (stored : Stored cfg n) (step : (node cfg).next n a = some m) : Stored cfg m := by
  refine (stored.keeps (fun _ => True) step ?_ ?_ ?_ ?_ ?_ ?_ ?_ ?_ ?_).2
  all_goals intros; trivial

theorem new_cases {s : State} {save : SaveOutcome} {savedAt now : Int} {w : ApplyWeather}
    (made : Node.new s save savedAt now w = .ok n) : ∃ d : Core,
      Core.apply w (State.desired { s with running := true, checkpointAt := savedAt } now) ⟨none, [], 0⟩ = (d, .ok ()) ∧
        n = Node.resetGeneration
          { state := { s with running := true, checkpointAt := savedAt }, core := d, baseline := ∅, generation := 0,
            halted := false, phase := .watching, backoff := 1, asOf := now, readings := [], applied := 1 } := by
  unfold Node.new Node.engineApply at made
  simp only at made
  split at made
  · cases made
  · cases applied : Core.apply w (State.desired { s with running := true, checkpointAt := savedAt } now)
        ⟨none, [], 0⟩ with
    | mk d result =>
        cases result with
        | error e => simp [applied] at made
        | ok u =>
            simp only [applied, Except.ok.injEq] at made
            exact ⟨d, rfl, made.symm⟩

theorem Started.stored (started : Started cfg n) : Stored cfg n := by
  obtain ⟨guid, s, save, savedAt, now, w, reached, made⟩ := started
  obtain ⟨d, applied, rfl⟩ := new_cases made
  have marked := store_marked reached true savedAt
  exact ⟨⟨guid, by simpa using marked⟩, by simpa using (applied_desired (.of_stopped rfl) ⟨guid, marked⟩ applied).1⟩

theorem node_stored {start : Node} (started : Started cfg start) (reached : (node cfg).Reaches start n) :
    Stored cfg n :=
  reached.invariant (Stored cfg) started.stored fun _ _ _ held _ step => held.next step

end ThreeXNode.Leaf
