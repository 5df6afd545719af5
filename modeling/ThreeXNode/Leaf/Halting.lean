import ThreeXNode.Leaf.Serving

namespace ThreeXNode.Leaf
open Library State

variable {cfg : Config} {n m : Node}

/-- The end of the wait before a recovery, the one step that does not ask whether the node has halted. -/
def Action.recovers : Action → Bool
  | .recover _ _ => true
  | _ => false

def Down (n : Node) : Prop := n.halted = true → n.core.served = none

/-! ## A sample and a commit halt only by stopping the process -/

theorem sample_applied (w : SampleWeather) (n : Node) : n.applied ≤ (n.sample w).1.applied := by
  have way := Node.sample_cases w n
  generalize (n.sample w).1 = m, (n.sample w).2 = result at way
  cases way <;> simp [Node.engineStop]

theorem commit_applied (w : TransactionWeather) (next : State) (obj : Reply) (n : Node) :
    n.applied ≤ (n.commit w next obj).1.applied := by
  have way := Node.commit_cases w next obj n
  generalize (n.commit w next obj).1 = m, (n.commit w next obj).2 = result at way
  cases way <;> simp [Node.engineStop] <;> omega

theorem sample_down (w : SampleWeather) (going : n.halted = false) : Down (n.sample w).1 := by
  have way := Node.sample_cases w n
  generalize (n.sample w).1 = m, (n.sample w).2 = result at way
  cases way with
  | silent e noStats => simp [Down, going]
  | unchanged v stats same => simp [Down, going]
  | refused v d e stats changed applied => simp [Down, going]
  | taken v d stats changed applied saved => simp [Down, going]
  | halted v d e stats changed applied unsaved => exact fun _ => rfl

theorem commit_down (w : TransactionWeather) (next : State) (obj : Reply) (going : n.halted = false) :
    Down (n.commit w next obj).1 := by
  have way := Node.commit_cases w next obj n
  generalize (n.commit w next obj).1 = m, (n.commit w next obj).2 = result at way
  cases way with
  | refused d e applied => simp [Down, going]
  | saved d applied save => simp [Down, going]
  | halted d e applied save => exact fun _ => rfl
  | restored d d' e applied save rolledBack => simp [Down, going]
  | stopped d d' e e' applied save stuck => exact fun _ => rfl

theorem applied_mono {a : Action} (step : (node cfg).next n a = some m) : n.applied ≤ m.applied := by
  refine next_keeps (fun m => n.applied ≤ m.applied) step le_rfl (fun _ _ _ _ before => before)
    (fun w _ => sample_applied w n) ?_ ?_ ?_ ?_ ?_ fun _ before => before
  · rintro w r k next obj _ _ _ before _ rfl
    exact before.trans (commit_applied w next obj k)
  · exact fun w k d e _ _ _ before _ => by simpa using before.trans (Nat.le_succ _)
  · exact fun w k d _ _ _ before _ => by simpa using before.trans (Nat.le_succ _)
  · exact fun w now d e _ _ => by simp
  · exact fun w now d _ _ => by simp

theorem recover_applied {w : ApplyWeather} {now : Int} (step : (node cfg).next n (.recover w now) = some m) :
    m.applied = n.applied + 1 := by
  simp only [node, Option.ite_none_right_eq_some, Option.some.injEq] at step
  obtain ⟨_, rfl⟩ := step
  exact Node.recover_cases (fun m => m.applied = n.applied + 1) (fun d e _ => rfl) fun d _ => by simp

theorem halted_step {a : Action} (halted : n.halted = true) (stopped : n.core.served = none)
    (other : a.recovers = false) (step : (node cfg).next n a = some m) :
    m.halted = true ∧ m.core.served = none ∧ m.applied = n.applied := by
  have resting : n.running = false := by simp [Node.running, stopped]
  cases a with
  | transaction w r =>
      cases step
      simp [Node.transaction, halted, stopped]
  | restart w =>
      cases step
      simp [Node.restart, halted, stopped]
  | tick w =>
      simp only [node, Option.ite_none_right_eq_some, Option.some.injEq] at step
      obtain ⟨_, rfl⟩ := step
      simp [Node.tick, halted, stopped]
  | recover w now => cases other
  | cancelWait =>
      simp only [node, Option.ite_none_right_eq_some, Option.some.injEq] at step
      obtain ⟨_, rfl⟩ := step
      exact ⟨halted, stopped, rfl⟩
  | shutdown w =>
      simp only [node, Option.ite_none_right_eq_some, Option.some.injEq] at step
      obtain ⟨_, rfl⟩ := step
      simp [Node.shutdown, Node.settle, resting, Node.engineStop, Core.stop, halted]
  | exit =>
      cases step
      exact ⟨halted, rfl, rfl⟩

theorem halted_run {actions : List Action} (halted : n.halted = true) (stopped : n.core.served = none)
    (others : ∀ a ∈ actions, a.recovers = false) (ran : (node cfg).run n actions = some m) :
    m.halted = true ∧ m.core.served = none ∧ m.applied = n.applied := by
  induction actions generalizing n with
  | nil =>
      cases ran
      exact ⟨halted, stopped, rfl⟩
  | cons a actions ih =>
      rw [System.run, Option.bind_eq_some_iff] at ran
      obtain ⟨mid, step, ran⟩ := ran
      obtain ⟨halted', stopped', same⟩ := halted_step halted stopped (others a List.mem_cons_self) step
      obtain ⟨ended, down, rest⟩ := ih halted' stopped' (fun b mem => others b (List.mem_cons_of_mem _ mem)) ran
      exact ⟨ended, down, rest.trans same⟩

theorem applied_run {actions : List Action} (ran : (node cfg).run n actions = some m) : n.applied ≤ m.applied := by
  induction actions generalizing n with
  | nil =>
      cases ran
      exact le_rfl
  | cons a actions ih =>
      rw [System.run, Option.bind_eq_some_iff] at ran
      obtain ⟨mid, step, ran⟩ := ran
      exact (applied_mono step).trans (ih ran)

theorem recovering_run {actions : List Action} (recovering : ∃ a ∈ actions, a.recovers = true)
    (ran : (node cfg).run n actions = some m) : n.applied < m.applied := by
  obtain ⟨a, mem, recovers⟩ := recovering
  obtain ⟨front, back, rfl⟩ := List.append_of_mem mem
  rw [System.run_append, Option.bind_eq_some_iff] at ran
  obtain ⟨mid, before, ran⟩ := ran
  rw [System.run, Option.bind_eq_some_iff] at ran
  obtain ⟨after, step, ran⟩ := ran
  have one : after.applied = mid.applied + 1 := by
    cases a with
    | recover w now => exact recover_applied step
    | transaction _ _ | restart _ | tick _ | cancelWait | shutdown _ | exit => cases recovers
  have lower := applied_run before
  have upper := applied_run ran
  omega

theorem Down.next {a : Action} (down : Down n) (admitted : ¬(n.halted = true ∧ a.recovers = true))
    (step : (node cfg).next n a = some m) : Down m := by
  cases halted : n.halted with
  | true =>
      obtain ⟨_, stopped, _⟩ := halted_step halted (down halted) (by simpa [halted] using admitted) step
      exact fun _ => stopped
  | false =>
      refine next_keeps Down step down (fun _ _ _ _ down => down) (fun w _ => sample_down w halted) ?_ ?_ ?_ ?_ ?_
        fun _ _ _ => rfl
      · rintro w r k next obj _ _ first _ _ rfl
        exact commit_down w next obj (halted_of_settle halted first)
      · intro w k d e _ _ first _ _
        simp [Down, halted_of_settle halted first]
      · intro w k d _ _ first _ _
        simp [Down, halted_of_settle halted first]
      · exact fun w now d e _ _ => by simp [Down, halted]
      · exact fun w now d _ _ => by simp [Down, halted]

theorem started_down (started : Started cfg n) : Down n := by
  obtain ⟨guid, s, save, savedAt, now, w, _, made⟩ := started
  unfold Node.new Node.engineApply at made
  simp only at made
  split at made
  · cases made
  · split at made
    · cases made
    · rename_i other _ applied
      cases made
      have going : other.halted = false := by
        have := congrArg (·.1.halted) applied
        exact this.symm
      simp [Down, going]

/-- A node that has halted in a run without a recovery while halted has no process, and from there on `Apply` is called
if and only if a recovery ends its wait. -/
theorem halted_stays_down {start : Node} (started : Started cfg start)
    (path : (node cfg).Path (fun n a => ¬(n.halted = true ∧ a.recovers = true)) start n) (halted : n.halted = true) :
    n.core.served = none ∧ ∀ (actions : List Action) (m : Node), (node cfg).run n actions = some m →
      (m.applied = n.applied ↔ ∀ a ∈ actions, a.recovers = false) ∧
        ((∀ a ∈ actions, a.recovers = false) → m.core.served = none) := by
  have down : Down n := path.invariant Down (started_down started) fun _ _ _ held admitted step => held.next admitted step
  refine ⟨down halted, fun actions m ran => ⟨⟨fun same => ?_, fun others => ?_⟩, fun others => ?_⟩⟩
  · by_contra recovering
    simp only [not_forall, Bool.not_eq_false] at recovering
    obtain ⟨a, mem, recovers⟩ := recovering
    have more := recovering_run ⟨a, mem, recovers⟩ ran
    omega
  · exact (halted_run halted (down halted) others ran).2.2
  · exact (halted_run halted (down halted) others ran).2.1

def unsureSave : Action :=
  .transaction { TransactionWeather.fair .none with save := .unsure } (.putInbound (plainInbound [plainClient "alice"]) 0)

theorem halted_stays_down_unsure : (firstNode.after [unsureSave]).core.served = none ∧
    ∀ (actions : List Action) (m : Node), (node plainConfig).run (firstNode.after [unsureSave]) actions = some m →
      (m.applied = (firstNode.after [unsureSave]).applied ↔ ∀ a ∈ actions, a.recovers = false) ∧
        ((∀ a ∈ actions, a.recovers = false) → m.core.served = none) := by
  have admitted : ¬(firstNode.halted = true ∧ unsureSave.recovers = true) := by decide +kernel
  exact halted_stays_down firstNode_started (System.Path.tail .refl admitted (Node.after_next (by decide +kernel))) (by decide +kernel)

/-- The process has exited, and while `Run` waits to recover it a transaction halts the node: the recovery starts the
process all the same. -/
theorem halted_recovers : ∃ start n m : Node, Started plainConfig start ∧ (node plainConfig).Reaches start n ∧
    n.halted = true ∧ (node plainConfig).Reaches n m ∧ n.applied < m.applied ∧ m.running = true := by
  refine ⟨firstNode, firstNode.after [.exit, .tick (.fair .none), unsureSave],
    (firstNode.after [.exit, .tick (.fair .none), unsureSave]).after [.recover .fair 0], firstNode_started,
    Node.after_reaches ?_, ?_, Node.after_reaches ?_, ?_, ?_⟩
  all_goals decide +kernel

end ThreeXNode.Leaf
