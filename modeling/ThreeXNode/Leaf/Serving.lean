import ThreeXNode.Leaf.Committed

namespace ThreeXNode.Leaf
open Library State

/-- The process serves what the committed state wanted at the clock of the last sample or `Apply`. -/
def Serves (n : Node) : Prop :=
  n.halted = false → ∀ live, n.core.served = some live → live = n.state.desired n.asOf

/-- An `Apply` whose second start cannot bring back what was never committed. -/
def Settles (n : Node) (w : ApplyWeather) : Prop :=
  n.halted = false → n.core.served = none → n.core.live ≠ n.state.desired n.asOf → w.second = .ready → w.first = .ready

variable {cfg : Config} {n : Node}

theorem Settles.of_running {w : ApplyWeather} (running : n.running = true) : Settles n w := by
  intro _ stopped
  simp [Node.running, stopped] at running

theorem Serves.of_stopped (stopped : n.core.served = none) : Serves n := by
  intro _ live served
  rw [stopped] at served
  cases served

theorem Serves.refused {w : ApplyWeather} {live : Live} {d : Core} {e : String} (serves : Serves n)
    (agrees : n.core.Agrees) (going : n.halted = false) (settles : Settles n w)
    (applied : n.core.apply w live = (d, .error e)) : ∀ live, d.served = some live → live = n.state.desired n.asOf := by
  intro live h
  obtain ⟨_, stopped | ⟨served, same, _, fallback⟩⟩ := Core.apply_error applied
  · rw [stopped] at h
    cases h
  · rw [served] at h
    cases h
    cases before : n.core.served with
    | some old =>
        have known := serves going old before
        rwa [agrees old before] at known
    | none =>
        obtain ⟨first, second⟩ := fallback before
        by_contra stale
        exact first (settles going before stale second)

theorem Serves.sample {w : SampleWeather} (serves : Serves n) (stored : Stored cfg n) (running : n.running = true)
    (clock : n.asOf ≤ w.now) : Serves (n.sample w).1 := by
  have way := Node.sample_cases w n
  generalize (n.sample w).1 = m, (n.sample w).2 = result at way
  cases way with
  | silent e noStats => simpa [Serves] using serves
  | unchanged v stats same =>
      intro going live served
      simp only [Node.resetGeneration_core, Node.read_core] at served
      rw [serves (by simpa using going) live served]
      -- The sample found nothing to change, so the time that has passed since makes no difference either.
      have settled := sampled_settled stored.mirrored (n.read v).baseline v.entries w.now
      rw [Node.nextState, Node.read_state] at same
      rw [same] at settled
      simpa using settled.desired_eq stored.mirrored clock
  | refused v d e stats changed applied =>
      rw [Node.read_core] at applied
      intro going live h
      simpa using serves.refused stored.agrees (by simpa using going) (.of_running running) applied live h
  | taken v d stats changed applied saved =>
      rw [Node.read_core] at applied
      obtain ⟨_, served, _⟩ := applied_desired stored.agrees (stored.nextState w v) applied
      intro _ live h
      simp only [Node.resetGeneration_core, Node.withCore_core, served, Option.some.injEq] at h
      simp only [Node.resetGeneration_state, Node.resetGeneration_asOf, ← h]
      rfl
  | halted v d e stats changed applied unsaved => exact .of_stopped rfl

theorem halted_of_settle {w : SampleWeather} {m : Node} (going : n.halted = false)
    (h : n.settle w = (m, .ok ())) : m.halted = false := by
  unfold Node.settle at h
  split at h
  · have way := Node.sample_cases w n
    rw [h] at way
    cases way with
    | unchanged v stats same => simpa using going
    | taken v d stats changed applied saved => simpa using going
  · cases h
    exact going

theorem settle_ok {w : SampleWeather} {m : Node} (stored : Stored cfg n) (h : n.settle w = (m, .ok ())) :
    (m = n ∧ n.core.served = none) ∨ (m = (n.sample w).1 ∧ n.running = true ∧ m.running = true) := by
  unfold Node.settle at h
  split at h
  · rename_i running
    refine .inr ⟨by rw [h], running, ?_⟩
    have way := Node.sample_cases w n
    rw [h] at way
    cases way with
    | unchanged v stats same => simpa [Node.running] using running
    | taken v d stats changed applied saved =>
        rw [Node.read_core] at applied
        simp [Node.running, (applied_desired stored.agrees (stored.nextState w v) applied).2.1]
  · rename_i stopped
    cases h
    exact .inl ⟨rfl, by simpa [Node.running] using stopped⟩

theorem Serves.commit {w : TransactionWeather} {r : Request} {next : State} {obj : Reply} {now : Int}
    (serves : Serves n) (stored : Stored cfg n) (going : n.halted = false) (settles : Settles n w.apply)
    (edited : r.next cfg now n.state = .ok (next, obj)) : Serves (n.commit w next obj).1 := by
  have way := Node.commit_cases w next obj n
  generalize (n.commit w next obj).1 = m, (n.commit w next obj).2 = result at way
  cases way with
  | refused d e applied =>
      have served := serves.refused stored.agrees going settles applied
      exact fun _ live h => by simpa using served live (by simpa using h)
  | saved d applied save =>
      obtain ⟨_, served, _⟩ := applied_desired stored.agrees (stored.request edited) applied
      intro _ live h
      simp only [Node.resetGeneration_core, Node.withCore_core, served, Option.some.injEq] at h
      exact h.symm
  | halted d e applied save => exact .of_stopped rfl
  | restored d d' e applied save rolledBack =>
      obtain ⟨agrees, _⟩ := applied_desired stored.agrees (stored.request edited) applied
      obtain ⟨_, served, _⟩ := applied_desired agrees stored.reached rolledBack
      intro _ live h
      simp only [Node.resetGeneration_core, Node.withCore_core, served, Option.some.injEq] at h
      simpa using h.symm
  | stopped d d' e e' applied save stuck => exact .of_stopped rfl

/-! ## One step -/

def Action.applyWeather : Action → Option ApplyWeather
  | .transaction w _ => some w.apply
  | .restart w => some w.apply
  | .recover w _ => some w
  | _ => none

/-- The clock does not run backwards, and where the process is gone and the remembered configuration is not the
committed one, no `Apply` has its first start fail and the start of the remembered one succeed. -/
def Steady (n : Node) (a : Action) : Prop :=
  (∀ w ∈ a.takes n, n.asOf ≤ w.now) ∧ ∀ w ∈ a.applyWeather, Settles n w

theorem Serves.next {a : Action} {m : Node} (serves : Serves n) (stored : Stored cfg n) (steady : Steady n a)
    (step : (node cfg).next n a = some m) : Serves m := by
  obtain ⟨clock, settles⟩ := steady
  refine (stored.keeps Serves step serves ?_ ?_ ?_ ?_ ?_ ?_ ?_ ?_).1
  · exact fun k phase running checkpointAt serves going live served => serves going live served
  · intro w takes
    exact serves.sample stored (Action.running_of_takes takes) (clock w takes)
  · rintro w r k next obj rfl going first stored' serves' edited rfl
    refine serves'.commit stored' (halted_of_settle going first) ?_ edited
    rcases settle_ok stored first with ⟨rfl, _⟩ | ⟨_, _, running⟩
    · exact settles w.apply rfl
    · exact .of_running running
  · rintro w k d e rfl going first stored' serves' applied
    have going' := halted_of_settle going first
    have settles' : Settles k.engineStop w.apply := by
      rcases settle_ok stored first with ⟨rfl, stopped⟩ | ⟨_, _, running⟩
      · exact fun going _ stale => settles w.apply rfl going stopped stale
      · -- A process that ran until now leaves behind what it served.
        obtain ⟨live, served⟩ := Option.isSome_iff_exists.mp running
        have same : k.core.live = k.state.desired k.asOf := by
          rw [← serves' going' live served, stored'.agrees live served]
        exact fun _ _ stale => absurd same stale
    have served := (Serves.of_stopped rfl : Serves k.engineStop).refused (.of_stopped rfl) going' settles' applied
    exact fun _ live h => by simpa [Node.engineStop] using served live (by simpa using h)
  · rintro w k d rfl going first stored' serves' applied
    obtain ⟨_, served, _⟩ := applied_desired (.of_stopped rfl) stored'.reached applied
    intro _ live h
    simp only [Node.resetGeneration_core, Node.withCore_core, served, Option.some.injEq] at h
    simpa using h.symm
  · rintro w now d e rfl applied going live h
    exact serves.refused stored.agrees going (settles w rfl) applied live h
  · rintro w now d rfl applied
    obtain ⟨_, served, _⟩ := applied_desired stored.agrees stored.reached applied
    intro _ live h
    simp only [Node.resetGeneration_core, Node.withCore_core, served, Option.some.injEq] at h
    simpa using h.symm
  · exact fun k _ => .of_stopped rfl

theorem Started.serves (started : Started cfg n) : Serves n := by
  obtain ⟨guid, s, save, savedAt, now, w, reached, made⟩ := started
  obtain ⟨d, applied, rfl⟩ := new_cases made
  have marked := store_marked reached true savedAt
  obtain ⟨_, served, _⟩ := applied_desired (.of_stopped rfl) ⟨guid, marked⟩ applied
  intro _ live h
  simp only [Node.resetGeneration_core, served, Option.some.injEq] at h
  simpa using h.symm

/-- In every run of such steps, a running process serves exactly what the committed state wanted at the clock of the
last sample or `Apply`. -/
theorem served_desired {start : Node} (started : Started cfg start) (path : (node cfg).Path Steady start n)
    (going : n.halted = false) (running : n.running = true) : n.core.served = some (n.state.desired n.asOf) := by
  have kept := path.invariant (fun n => Serves n ∧ Stored cfg n) ⟨started.serves, started.stored⟩
    fun _ _ _ held steady step => ⟨held.1.next held.2 steady step, held.2.next step⟩
  obtain ⟨live, served⟩ := Option.isSome_iff_exists.mp running
  rw [served, kept.1 going live served]

theorem served_desired_alice : (firstNode.after [aliceArrives]).core.served =
    some ((firstNode.after [aliceArrives]).state.desired (firstNode.after [aliceArrives]).asOf) := by
  have steady : Steady firstNode aliceArrives := by
    constructor
    · intro w takes
      simp only [aliceArrives, Action.takes, Option.mem_def, Option.ite_none_right_eq_some, Option.some.injEq] at takes
      obtain ⟨_, rfl⟩ := takes
      decide +kernel
    · rintro w ⟨⟩ _ _ _ _
      rfl
  exact served_desired firstNode_started (System.Path.tail .refl steady (Node.after_next (by decide +kernel))) (by decide +kernel) (by decide +kernel)

theorem users_listed {s : State} {ib : Inbound} {now : Int} {email : String} (mem : email ∈ s.users now ib) :
    ∃ c ∈ ib.clientsOrNil, c.text "email" = email := by
  have kept := foldl_keeps (fun done (users : Users) => ∀ email ∈ users, ∃ c ∈ done, c.text "email" = email)
    (f := fun users c => if s.serves now c then users.insert (c.text "email") (account ib c) else users) (s := ∅)
    ib.clientsOrNil (by simp) ?_
  · exact kept email mem
  · intro done c users _ held email mem
    split at mem
    · rcases Std.ExtTreeMap.mem_insert.mp mem with same | mem
      · exact ⟨c, by simp, by simpa using same⟩
      · obtain ⟨d, there, own⟩ := held email mem
        exact ⟨d, List.mem_append_left _ there, own⟩
    · obtain ⟨d, there, own⟩ := held email mem
      exact ⟨d, List.mem_append_left _ there, own⟩

theorem desired_listed {s : State} {now : Int} {tag email : String} (has : (s.desired now).Has tag email) :
    ∃ c ∈ entries s.inbounds, c.text "email" = email := by
  obtain ⟨live, mem, _, mem'⟩ := has
  obtain ⟨ib, there, wanted⟩ := List.mem_filterMap.mp mem
  split at wanted
  · cases wanted
  · cases wanted
    obtain ⟨c, here, own⟩ := users_listed mem'
    exact ⟨c, mem_entries.mpr ⟨ib, there, here⟩, own⟩

/-- A client is added, the save fails, the removal of its user times out, and the recovery cannot start
the committed configuration. -/
def bobStrays : List Action :=
  let lost := { TransactionWeather.fair .none with
    save := .lost, rollback := { ApplyWeather.fair with rpcs := [.lost false] } }
  [aliceArrives, .transaction lost (.changeClient "bob" (plainClient "bob") [1] .add), .tick (.fair .none),
    .recover { ApplyWeather.fair with first := .refused } 0]

/-- A user whose addition was reported as failed is served, whatever time the committed state is asked for. -/
theorem served_stray : ∃ start n : Node, Started plainConfig start ∧ (node plainConfig).Reaches start n ∧
    n.halted = false ∧ ∃ live, n.core.served = some live ∧ live.Has "in" "bob" ∧
      ∀ now, ¬(n.state.desired now).Has "in" "bob" := by
  refine ⟨firstNode, firstNode.after bobStrays, firstNode_started, Node.after_reaches (by decide +kernel),
    by decide +kernel, ?_⟩
  have served : ∃ live ∈ (firstNode.after bobStrays).core.served, live.Has "in" "bob" := by decide +kernel
  obtain ⟨live, served, has⟩ := served
  refine ⟨live, served, has, fun now wanted => ?_⟩
  obtain ⟨c, there, own⟩ := desired_listed wanted
  have unlisted : ∀ c ∈ entries (firstNode.after bobStrays).state.inbounds, c.text "email" ≠ "bob" := by
    decide +kernel
  exact unlisted c there own

end ThreeXNode.Leaf
