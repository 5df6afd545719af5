import ThreeXNode.Leaf.Counters
import ThreeXNode.Leaf.Committed

namespace ThreeXNode.Leaf
open Library State

/-! ## What the process has reported -/

def lastIn (readings : List (Nat × Stats)) (generation : Nat) (key : String) : Int :=
  ((readings.find? (·.1 == generation)).map (·.2.value key)).getD 0

def reported (readings : List (Nat × Stats)) (key : String) : Int :=
  ∑ generation ∈ (readings.map (·.1)).toFinset, lastIn readings generation key

theorem lastIn_cons (reading : Nat × Stats) (readings : List (Nat × Stats)) (generation : Nat) (key : String) :
    lastIn (reading :: readings) generation key =
      if reading.1 = generation then reading.2.value key else lastIn readings generation key := by
  by_cases same : reading.1 = generation <;> simp [lastIn, same]

theorem lastIn_absent {readings : List (Nat × Stats)} {generation : Nat} (key : String)
    (absent : ∀ reading ∈ readings, reading.1 ≠ generation) : lastIn readings generation key = 0 := by
  have none : readings.find? (·.1 == generation) = none := by simpa using absent
  simp [lastIn, none]

theorem reported_cons (reading : Nat × Stats) (readings : List (Nat × Stats)) (key : String) :
    reported (reading :: readings) key =
      reported readings key + (reading.2.value key - lastIn readings reading.1 key) := by
  have widened : reported readings key =
      ∑ generation ∈ insert reading.1 (readings.map (·.1)).toFinset, lastIn readings generation key := by
    refine (Finset.sum_insert_of_eq_zero_if_notMem fun fresh => ?_).symm
    refine lastIn_absent key fun other mem same => fresh ?_
    rw [List.mem_toFinset, ← same]
    exact List.mem_map_of_mem mem
  have moved : ∑ generation ∈ insert reading.1 (readings.map (·.1)).toFinset,
      (lastIn (reading :: readings) generation key - lastIn readings generation key) =
        reading.2.value key - lastIn readings reading.1 key := by
    rw [Finset.sum_eq_single_of_mem reading.1 (Finset.mem_insert_self ..)]
    · simp [lastIn_cons]
    · intro generation _ differs
      simp [lastIn_cons, differs.symm]
  rw [widened, ← moved, Finset.sum_sub_distrib, reported, List.map_cons, List.toFinset_cons]
  omega

/-! ## The baseline is what was read last in the generation that runs -/

def Node.remembered (n : Node) (key : String) : Int := (n.resetGeneration.baseline[key]?).getD 0

/-- The readings and the baseline of a node fit together for a counter that never went below 0. -/
structure Tracked (key : String) (n : Node) : Prop where
  known : ∀ reading ∈ n.readings, reading.1 ≤ n.core.generation
  caught : n.generation ≤ n.core.generation
  start : 0 ≤ lastIn n.readings n.core.generation key
  remembered : n.running = true → n.remembered key = lastIn n.readings n.core.generation key

theorem Node.remembered_fresh {n : Node} (ended : n.core.generation ≠ n.generation) (key : String) :
    n.remembered key = 0 := by
  unfold remembered resetGeneration
  simp [ended]

@[simp] theorem Node.resetGeneration_idem (n : Node) : n.resetGeneration.resetGeneration = n.resetGeneration := by
  unfold resetGeneration
  by_cases ended : n.core.generation = n.generation <;> simp [ended]

theorem Node.resetGeneration_generation (n : Node) : n.resetGeneration.generation = n.core.generation := by
  unfold resetGeneration
  split
  · rfl
  · rename_i same
    exact (not_not.mp same).symm

variable {cfg : Config} {n m : Node} {key : String}

theorem Tracked.frame (tracked : Tracked key n) (core : m.core = n.core) (generation : m.generation = n.generation)
    (baseline : m.baseline = n.baseline) (readings : m.readings = n.readings) : Tracked key m where
  known := by simpa [core, readings] using tracked.known
  caught := by simpa [core, generation] using tracked.caught
  start := by simpa [core, readings] using tracked.start
  remembered := by
    have same : m.remembered key = n.remembered key := by
      unfold Node.remembered Node.resetGeneration
      rw [core, generation]
      split
      · rfl
      · rw [baseline]
    simpa [same, core, readings, Node.running] using tracked.remembered

theorem Tracked.resetGeneration (tracked : Tracked key n) : Tracked key n.resetGeneration where
  known := by simpa using tracked.known
  caught := by rw [Node.resetGeneration_generation, Node.resetGeneration_core]
  start := by simpa using tracked.start
  remembered := by simpa [Node.running, Node.remembered] using tracked.remembered

def Core.Moved (c d : Core) : Prop :=
  (c.generation ≤ d.generation ∧ d.served = none) ∨ (c.generation = d.generation ∧ c.served.isSome) ∨
    c.generation < d.generation

theorem Core.Moved.of_error {w : ApplyWeather} {live : Live} {c d : Core} {e : String}
    (applied : c.apply w live = (d, .error e)) : c.Moved d := by
  obtain ⟨grows, stopped | ⟨_, _, more, _⟩⟩ := Core.apply_error applied
  · exact .inl ⟨grows, stopped⟩
  · exact .inr (.inr more)

theorem Core.Moved.of_ok {w : ApplyWeather} {s : State} {now : Int} {c d : Core} (agrees : c.Agrees)
    (reached : ∃ guid, (store cfg).Reaches (fresh guid) s) (applied : c.apply w (s.desired now) = (d, .ok ())) :
    c.Moved d := by
  obtain ⟨_, _, ⟨same, running⟩ | more⟩ := applied_desired agrees reached applied
  · exact .inr (.inl ⟨same.symm, running⟩)
  · exact .inr (.inr (by omega))

theorem Core.Moved.le {c d : Core} (moved : c.Moved d) : c.generation ≤ d.generation := by
  rcases moved with ⟨grows, _⟩ | ⟨same, _⟩ | more <;> omega

theorem lastIn_later {readings : List (Nat × Stats)} {generation later : Nat}
    (known : ∀ reading ∈ readings, reading.1 ≤ generation) (more : generation < later) (key : String) :
    lastIn readings later key = 0 :=
  lastIn_absent key fun reading mem same => by
    have := known reading mem
    omega

theorem Tracked.withCore {d : Core} (tracked : Tracked key n) (moved : n.core.Moved d) :
    Tracked key (n.withCore d) where
  known := fun reading mem => (tracked.known reading mem).trans moved.le
  caught := tracked.caught.trans moved.le
  start := by
    rcases moved.le.lt_or_eq with more | same
    · exact (lastIn_later tracked.known more key).ge
    · simpa [← same] using tracked.start
  remembered := by
    intro running
    rcases moved with ⟨_, stopped⟩ | ⟨same, up⟩ | more
    · simp [Node.running, stopped] at running
    · have before := tracked.remembered (by simpa [Node.running] using up)
      have unchanged : (n.withCore d).remembered key = n.remembered key := by
        unfold Node.remembered Node.resetGeneration Node.withCore
        rw [same]
        split <;> rfl
      rw [unchanged, before, Node.withCore_readings, Node.withCore_core, same]
    · have ended : (n.withCore d).core.generation ≠ (n.withCore d).generation := by
        have caught := tracked.caught
        change d.generation ≠ n.generation
        omega
      rw [Node.remembered_fresh ended]
      exact (lastIn_later tracked.known more key).symm

theorem Tracked.engineStop (tracked : Tracked key n) : Tracked key n.engineStop where
  known := tracked.known
  caught := tracked.caught
  start := tracked.start
  remembered := fun running => by simp [Node.running, Node.engineStop, Core.stop] at running

theorem Tracked.read {v : Stats} (tracked : Tracked key n) (positive : 0 ≤ v.value key) :
    Tracked key { n.read v with baseline := v.baseline } where
  known := by
    intro reading mem
    rw [Node.read_readings] at mem
    rw [Node.read_core]
    rcases List.mem_cons.mp mem with rfl | mem
    · exact le_rfl
    · exact tracked.known reading mem
  caught := by
    rw [Node.read_core]
    exact n.resetGeneration_generation.le
  start := by simpa [lastIn_cons] using positive
  remembered := by
    intro _
    have generation : (n.read v).generation = (n.read v).core.generation := by
      rw [Node.read_core]
      exact n.resetGeneration_generation
    simp [Node.remembered, Node.resetGeneration, generation, lastIn_cons, Stats.value]

theorem Tracked.sample {w : SampleWeather} (tracked : Tracked key n) (stored : Stored cfg n)
    (positive : ∀ v ∈ w.stats, 0 ≤ v.value key) : Tracked key (n.sample w).1 := by
  have way := Node.sample_cases w n
  generalize (n.sample w).1 = m, (n.sample w).2 = result at way
  cases way with
  | silent e noStats => exact tracked.resetGeneration
  | unchanged v stats same =>
      exact .resetGeneration (.frame (tracked.read (positive v stats)) rfl rfl rfl rfl)
  | refused v d e stats changed applied =>
      have moved := Core.Moved.of_error applied
      have read := (tracked.read (positive v stats)).withCore moved
      refine ⟨read.known, read.caught, read.start, fun running => ?_⟩
      -- The values never became the baseline, but the generation they were read in is over.
      obtain ⟨_, stopped | ⟨_, _, more, _⟩⟩ := Core.apply_error applied
      · simp [Node.running, stopped] at running
      · have ended : ((n.read v).withCore d).core.generation ≠ ((n.read v).withCore d).generation := by
          have same : (n.read v).generation = n.core.generation := n.resetGeneration_generation
          rw [Node.read_core] at more
          change d.generation ≠ (n.read v).generation
          omega
        have known := (tracked.read (positive v stats)).known
        rw [Node.remembered_fresh ended]
        exact (lastIn_later known more key).symm
  | taken v d stats changed applied saved =>
      rw [Node.read_core] at applied
      have moved := Core.Moved.of_ok stored.agrees (stored.nextState w v) applied
      rw [← Node.read_core v n] at moved
      exact .resetGeneration (.frame ((tracked.read (positive v stats)).withCore moved) rfl rfl rfl rfl)
  | halted v d e stats changed applied unsaved =>
      rw [Node.read_core] at applied
      have moved := Core.Moved.of_ok stored.agrees (stored.nextState w v) applied
      rw [← Node.read_core v n] at moved
      have read := ((tracked.read (positive v stats)).withCore moved).engineStop
      exact ⟨read.known, read.caught, read.start, fun running => by cases running⟩

/-! ## The totals of a node that keeps running are what was reported -/

def Balanced (user : Bool) (name : String) (dir : Direction) (owed : Int) (n : Node) : Prop :=
  n.halted = false →
    n.state.meter user name dir = some (owed + reported n.readings (counterKey user name dir))

/-- The counters of the process start at 0 and only rise while a generation lasts. -/
def Rises (key : String) (n : Node) (a : Action) : Prop :=
  ∀ w ∈ a.takes n, ∀ v ∈ w.stats, lastIn n.readings n.core.generation key ≤ v.value key ∧ InInt64 (v.value key)

/-- A sample that finds more of a counter than was known, and whose `Apply` fails. -/
def Node.Loses (w : SampleWeather) (v : Stats) (key : String) (n : Node) : Prop :=
  lastIn n.readings n.core.generation key < v.value key ∧
    ∃ d e, n.core.apply w.apply (desired (n.nextState w v) w.applyAt) = (d, .error e)

/-- A step that leaves a user or an inbound there and does not start its totals again, in a process that counts well. -/
structure Counted (cfg : Config) (user : Bool) (name : String) (dir : Direction) (n : Node) (a : Action) : Prop where
  rises : Rises (counterKey user name dir) n a
  fits : ∀ w ∈ a.takes n, ∀ v ∈ w.stats, ∀ x ∈ n.state.meter user name dir,
    x + (v.value (counterKey user name dir) - lastIn n.readings n.core.generation (counterKey user name dir)) <
      9223372036854775808
  stays : ∀ m, (node cfg).next n a = some m → (m.state.meter user name dir).isSome
  spared : ∀ w r, a = .transaction w r → ¬r.restarts n.state user name

/-- No sample of the step loses what it has read of a counter. -/
def Keeps (key : String) (n : Node) (a : Action) : Prop :=
  ∀ w ∈ a.takes n, ∀ v ∈ w.stats, ¬n.Loses w v key

variable {user : Bool} {name : String} {dir : Direction} {owed : Int}

theorem Stored.ranged (stored : Stored cfg n) : n.state.Ranged := by
  obtain ⟨guid, reached⟩ := stored.reached
  exact store_ranged reached

theorem State.meter_range {s : State} (ranged : s.Ranged) {x : Int} (present : s.meter user name dir = some x) :
    InInt64 x := by
  unfold State.meter at present
  split at present
  · obtain ⟨t, row, rfl⟩ := Option.map_eq_some_iff.mp present
    cases dir
    · exact (ranged.rows name t row).1
    · exact (ranged.rows name t row).2
  · obtain ⟨ib, found, rfl⟩ := Option.map_eq_some_iff.mp present
    cases dir
    · exact (ranged.inbounds ib (List.mem_of_find?_eq_some found)).1
    · exact (ranged.inbounds ib (List.mem_of_find?_eq_some found)).2

theorem nextState_meter {w : SampleWeather} {v : Stats} {x : Int} (readable : Readable name) (stored : Stored cfg n)
    (tracked : Tracked (counterKey user name dir) n) (running : n.running = true)
    (present : n.state.meter user name dir = some x)
    (rises : lastIn n.readings n.core.generation (counterKey user name dir) ≤ v.value (counterKey user name dir))
    (range : InInt64 (v.value (counterKey user name dir)))
    (fits : x + (v.value (counterKey user name dir) -
      lastIn n.readings n.core.generation (counterKey user name dir)) < 9223372036854775808) :
    (n.nextState w v).meter user name dir = some (x + (v.value (counterKey user name dir) -
      lastIn n.readings n.core.generation (counterKey user name dir))) := by
  have credit : credited (n.read v).baseline v.entries user name dir = v.value (counterKey user name dir) -
      lastIn n.readings n.core.generation (counterKey user name dir) :=
    credited_eq readable (tracked.remembered running) tracked.start rises range.2
  have low := (State.meter_range stored.ranged present).1
  rw [Node.nextState, Node.read_state, sampled_meter stored.ranged _ _ _ present, credit, wrap64_eq ⟨by omega, fits⟩]

theorem Balanced.sample {w : SampleWeather} (balanced : Balanced user name dir owed n) (readable : Readable name)
    (stored : Stored cfg n) (tracked : Tracked (counterKey user name dir) n) (running : n.running = true)
    (rises : ∀ v ∈ w.stats, lastIn n.readings n.core.generation (counterKey user name dir) ≤
      v.value (counterKey user name dir) ∧ InInt64 (v.value (counterKey user name dir)))
    (fits : ∀ v ∈ w.stats, ∀ x ∈ n.state.meter user name dir, x + (v.value (counterKey user name dir) -
      lastIn n.readings n.core.generation (counterKey user name dir)) < 9223372036854775808)
    (keeps : ∀ v ∈ w.stats, ¬n.Loses w v (counterKey user name dir)) :
    Balanced user name dir owed (n.sample w).1 := by
  have grown {v : Stats} (stats : w.stats = some v) (going : n.halted = false) :
      (n.nextState w v).meter user name dir =
        some (owed + reported (n.read v).readings (counterKey user name dir)) := by
    have present := balanced going
    rw [nextState_meter readable stored tracked running present (rises v stats).1 (rises v stats).2
      (fits v stats _ present), Node.read_readings, reported_cons, add_assoc]
  have way := Node.sample_cases w n
  generalize (n.sample w).1 = m, (n.sample w).2 = result at way
  intro going
  cases way with
  | silent e noStats => simpa using balanced (by simpa using going)
  | unchanged v stats same =>
      have meter := grown stats (by simpa using going)
      rw [same] at meter
      simpa using meter
  | refused v d e stats changed applied =>
      -- An `Apply` that fails here has nothing of this counter to lose.
      rw [Node.read_core] at applied
      have idle : v.value (counterKey user name dir) =
          lastIn n.readings n.core.generation (counterKey user name dir) := by
        have more := keeps v stats
        have rises := (rises v stats).1
        simp only [Node.Loses, not_and] at more
        by_contra differs
        exact more (by omega) ⟨d, e, applied⟩
      simpa [reported_cons, idle] using balanced (by simpa using going)
  | taken v d stats changed applied saved =>
      have meter := grown stats (by simpa using going)
      simpa [State.meter] using meter
  | halted v d e stats changed applied unsaved => cases going

theorem Tracked.commit {w : TransactionWeather} {r : Request} {next : State} {obj : Reply} {now : Int}
    (tracked : Tracked key n) (stored : Stored cfg n) (edited : r.next cfg now n.state = .ok (next, obj)) :
    Tracked key (n.commit w next obj).1 := by
  have way := Node.commit_cases w next obj n
  generalize (n.commit w next obj).1 = m, (n.commit w next obj).2 = result at way
  -- The second `Apply` takes back what the first one brought.
  have agrees {d : Core} (applied : n.core.apply w.apply (desired next w.nextAt) = (d, .ok ())) : d.Agrees :=
    (applied_desired stored.agrees (stored.request edited) applied).1
  have moved {d : Core} (applied : n.core.apply w.apply (desired next w.nextAt) = (d, .ok ())) :
      Tracked key (n.withCore d).resetGeneration :=
    (tracked.withCore (.of_ok stored.agrees (stored.request edited) applied)).resetGeneration
  cases way with
  | refused d e applied => exact (tracked.withCore (.of_error applied)).resetGeneration
  | saved d applied save => exact .frame (moved applied) rfl rfl rfl rfl
  | halted d e applied save => exact .engineStop (.frame (moved applied) rfl rfl rfl rfl)
  | restored d d' e applied save rolledBack =>
      refine .resetGeneration (.frame ((moved applied).withCore ?_) rfl rfl rfl rfl)
      rw [Node.resetGeneration_core, Node.withCore_core]
      exact .of_ok (agrees applied) stored.reached rolledBack
  | stopped d d' e e' applied save stuck =>
      refine .engineStop ((moved applied).withCore ?_)
      rw [Node.resetGeneration_core, Node.withCore_core]
      exact .of_error stuck

theorem Balanced.frame (balanced : Balanced user name dir owed n) (halted : m.halted = n.halted)
    (meter : m.state.meter user name dir = n.state.meter user name dir) (readings : m.readings = n.readings) :
    Balanced user name dir owed m := by
  intro going
  rw [meter, readings]
  exact balanced (halted ▸ going)

theorem Balanced.commit {w : TransactionWeather} {r : Request} {next : State} {obj : Reply} {now : Int}
    (balanced : Balanced user name dir owed n) (stored : Stored cfg n)
    (edited : r.next cfg now n.state = .ok (next, obj)) (spared : ¬r.restarts n.state user name)
    (stays : ((n.commit w next obj).1.state.meter user name dir).isSome) :
    Balanced user name dir owed (n.commit w next obj).1 := by
  have way := Node.commit_cases w next obj n
  generalize (n.commit w next obj).1 = m, (n.commit w next obj).2 = result at way stays
  cases way with
  | refused d e applied => exact balanced.frame (by simp) (by simp) (by simp)
  | saved d applied save =>
      intro going
      obtain ⟨y, present⟩ := Option.isSome_iff_exists.mp stays
      obtain ⟨guid, reached⟩ := stored.reached
      have before := balanced (by simpa using going)
      have kept := request_meter edited (store_tags reached) before present spared
      simpa [kept] using present
  | halted d e applied save => exact fun going => by cases going
  | restored d d' e applied save rolledBack => exact balanced.frame (by simp) (by simp) (by simp)
  | stopped d d' e e' applied save stuck =>
      exact balanced.frame (by simp [Node.engineStop]) (by simp [Node.engineStop]) (by simp [Node.engineStop])

theorem restarts_sampled {r : Request} {s : State} (baseline : Baseline) (values : Values) (now : Int) :
    r.restarts (s.sampled baseline values now) user name ↔ r.restarts s user name := by
  unfold Request.restarts
  split
  · rfl
  · obtain ⟨f, grown, inbounds⟩ := (sampled_grows s baseline values now).inbounds
    have zeroes (ib : Inbound) : r.zeroes (f ib) ↔ r.zeroes ib := by
      cases r <;> simp [Request.zeroes, grown.id]
    simp [inbounds, grown.tag, zeroes]

theorem restarts_settled {w : SampleWeather} {r : Request} :
    r.restarts (n.settle w).1.state user name ↔ r.restarts n.state user name := by
  unfold Node.settle
  split
  · have way := Node.sample_cases w n
    generalize (n.sample w).1 = m, (n.sample w).2 = result at way
    cases way with
    | silent e noStats => simp
    | unchanged v stats same => simp
    | refused v d e stats changed applied => simp
    | taken v d stats changed applied saved =>
        have same : r.restarts ((n.read v).state.sampled (n.read v).baseline v.entries w.now) user name ↔
            r.restarts (n.read v).state user name := restarts_sampled _ _ _
        rw [Node.resetGeneration_state]
        refine .trans same ?_
        rw [Node.read_state]
    | halted v d e stats changed applied unsaved => simp [Node.engineStop]
  · rfl

theorem Core.Moved.of_stopped {c d : Core} (moved : c.stop.Moved d) : c.Moved d := by
  rcases moved with left | ⟨same, up⟩ | more
  · exact .inl left
  · cases up
  · exact .inr (.inr more)

theorem Tracked.next {a : Action} (tracked : Tracked key n) (stored : Stored cfg n)
    (positive : ∀ w ∈ a.takes n, ∀ v ∈ w.stats, 0 ≤ v.value key) (step : (node cfg).next n a = some m) :
    Tracked key m := by
  refine (stored.keeps (Tracked key) step tracked ?_ ?_ ?_ ?_ ?_ ?_ ?_ ?_).1
  · exact fun k phase running checkpointAt tracked => tracked.frame rfl rfl rfl rfl
  · exact fun w takes => tracked.sample stored (positive w takes)
  · rintro w r k next obj _ _ _ stored' tracked' edited rfl
    exact tracked'.commit stored' edited
  · intro w k d e _ _ _ _ tracked' applied
    exact (tracked'.withCore (.of_stopped (.of_error applied))).resetGeneration
  · intro w k d _ _ _ stored' tracked' applied
    refine .resetGeneration (.frame (tracked'.withCore (.of_stopped ?_)) rfl rfl rfl rfl)
    exact .of_ok (.of_stopped rfl) stored'.reached applied
  · exact fun w now d e _ applied => .frame (tracked.withCore (.of_error applied)) rfl rfl rfl rfl
  · intro w now d _ applied
    refine .resetGeneration (.frame (tracked.withCore ?_) rfl rfl rfl rfl)
    exact .of_ok stored.agrees stored.reached applied
  · exact fun k tracked => tracked.engineStop

theorem Balanced.next {a : Action} (balanced : Balanced user name dir owed n) (readable : Readable name)
    (stored : Stored cfg n) (tracked : Tracked (counterKey user name dir) n)
    (counted : Counted cfg user name dir n a) (keeps : Keeps (counterKey user name dir) n a)
    (step : (node cfg).next n a = some m) : Balanced user name dir owed m := by
  refine (stored.keeps (Balanced user name dir owed) step balanced ?_ ?_ ?_ ?_ ?_ ?_ ?_ ?_).1
  · exact fun k phase running checkpointAt balanced => balanced.frame rfl rfl rfl
  · intro w takes
    exact balanced.sample readable stored tracked (Action.running_of_takes takes) (counted.rises w takes)
      (counted.fits w takes) (keeps w takes)
  · rintro w r k next obj rfl going first stored' balanced' edited rfl
    have spared := counted.spared w r rfl
    rw [← restarts_settled (w := w.sample), first] at spared
    exact balanced'.commit stored' edited spared (counted.stays _ step)
  · exact fun w k d e _ _ _ _ balanced' _ => balanced'.frame (by simp) (by simp) (by simp)
  · exact fun w k d _ _ _ _ balanced' _ => balanced'.frame (by simp) (by simp) (by simp)
  · exact fun w now d e _ _ => balanced.frame rfl rfl rfl
  · exact fun w now d _ _ => balanced.frame (by simp) (by simp) (by simp)
  · exact fun k balanced => balanced.frame rfl rfl rfl

theorem Started.tracked (started : Started cfg n) : Tracked key n := by
  obtain ⟨guid, s, save, savedAt, now, w, reached, made⟩ := started
  obtain ⟨d, applied, rfl⟩ := new_cases made
  refine .resetGeneration ⟨by simp, Nat.zero_le _, le_rfl, fun _ => ?_⟩
  obtain ⟨_, _, ⟨_, up⟩ | first⟩ := applied_desired (.of_stopped rfl) ⟨guid, store_marked reached true savedAt⟩ applied
  · cases up
  · exact Node.remembered_fresh (by simp [first]) key

/-- Along every run whose samples lose nothing, the total of a user or an inbound with a readable name is what it was
plus all that the process has reported since, over its generations. -/
theorem counters_reported {first start : Node} (started : Started cfg first)
    (before : (node cfg).Path (Rises (counterKey user name dir)) first start) {x : Int}
    (present : start.state.meter user name dir = some x) (readable : Readable name)
    (path : (node cfg).Path (fun n a => Counted cfg user name dir n a ∧ Keeps (counterKey user name dir) n a) start n)
    (going : n.halted = false) :
    n.state.meter user name dir = some (x + (reported n.readings (counterKey user name dir) -
      reported start.readings (counterKey user name dir))) := by
  have tracks {k l : Node} {a : Action} (held : Tracked (counterKey user name dir) k ∧ Stored cfg k)
      (rises : Rises (counterKey user name dir) k a) (step : (node cfg).next k a = some l) :
      Tracked (counterKey user name dir) l ∧ Stored cfg l :=
    ⟨held.1.next held.2 (fun w takes v stats => held.1.start.trans (rises w takes v stats).1) step, held.2.next step⟩
  have begun := before.invariant (fun k => Tracked (counterKey user name dir) k ∧ Stored cfg k)
    ⟨started.tracked, started.stored⟩ fun _ _ _ => tracks
  have kept := path.invariant (fun k => Balanced user name dir (x - reported start.readings (counterKey user name dir)) k ∧
    Tracked (counterKey user name dir) k ∧ Stored cfg k) ⟨fun _ => by simpa using present, begun⟩ ?_
  · rw [kept.1 going]
    congr 1
    omega
  · rintro k a l held ⟨counted, keeps⟩ step
    exact ⟨held.1.next readable held.2.2 held.2.1 counted keeps step, tracks held.2 counted.rises step⟩

/-! ## Samples of a node with one client -/

theorem Action.takes_tick {w w' : SampleWeather} (takes : w' ∈ (Action.tick w).takes n) : w' = w := by
  simp only [Action.takes, Option.mem_def, Option.ite_none_right_eq_some, Option.some.injEq] at takes
  exact takes.2.symm

theorem Counted.tick {w : SampleWeather} {v : Stats} {x : Int} (stats : w.stats = some v)
    (checks : lastIn n.readings n.core.generation (counterKey user name dir) ≤ v.value (counterKey user name dir) ∧
      InInt64 (v.value (counterKey user name dir)) ∧ n.state.meter user name dir = some x ∧
      x + (v.value (counterKey user name dir) - lastIn n.readings n.core.generation (counterKey user name dir)) <
        9223372036854775808 ∧
      ((node plainConfig).next n (.tick w)).isSome = true ∧
      ((n.after [.tick w]).state.meter user name dir).isSome = true) :
    Counted plainConfig user name dir n (.tick w) := by
  obtain ⟨rises, range, present, fits, possible, stays⟩ := checks
  refine ⟨?_, ?_, ?_, fun w r is => by cases is⟩
  · intro w' takes v' stats'
    cases Action.takes_tick takes
    rw [stats] at stats'
    cases stats'
    exact ⟨rises, range⟩
  · intro w' takes v' stats' x' present'
    cases Action.takes_tick takes
    rw [stats] at stats'
    cases stats'
    rw [present] at present'
    cases present'
    exact fits
  · intro m step
    rw [Node.after_next possible] at step
    cases step
    exact stays

theorem Keeps.tick {w : SampleWeather} {v : Stats} (stats : w.stats = some v)
    (applied : (n.core.apply w.apply (desired (n.nextState w v) w.applyAt)).2.toBool = true) : Keeps key n (.tick w) := by
  rintro w' takes v' stats' ⟨_, d, e, refused⟩
  cases Action.takes_tick takes
  rw [stats] at stats'
  cases stats'
  rw [refused] at applied
  cases applied

def sevenUp (email : String) : Stats := ⟨[(counterKey true email .uplink, 7)], by simp⟩

def clientNode (email : String) : Node :=
  firstNode.after [.transaction (.fair .none) (.putInbound (plainInbound [plainClient email]) 0)]

theorem clientNode_path {email : String} (possible : ((node plainConfig).next firstNode
      (.transaction (.fair .none) (.putInbound (plainInbound [plainClient email]) 0))).isSome = true)
    (unread : lastIn firstNode.readings firstNode.core.generation (counterKey true email .uplink) = 0) :
    (node plainConfig).Path (Rises (counterKey true email .uplink)) firstNode (clientNode email) := by
  refine System.Path.tail .refl ?_ (Node.after_next possible)
  intro w takes v stats
  simp only [Action.takes, Option.mem_def, Option.ite_none_right_eq_some, Option.some.injEq] at takes
  obtain ⟨_, rfl⟩ := takes
  cases stats
  have silent : Stats.none.value (counterKey true email .uplink) = 0 := Stats.value_of_not_mem fun value mem => by cases mem
  rw [unread, silent]
  decide

theorem counters_reported_alice :
    ((clientNode "alice").after [.tick (.fair (sevenUp "alice"))]).state.meter true "alice" .uplink =
      some (0 + (reported ((clientNode "alice").after [.tick (.fair (sevenUp "alice"))]).readings
        (counterKey true "alice" .uplink) - reported (clientNode "alice").readings (counterKey true "alice" .uplink))) := by
  have counted : Counted plainConfig true "alice" .uplink (clientNode "alice") (.tick (.fair (sevenUp "alice"))) :=
    .tick rfl (x := 0) (by decide +kernel)
  have keeps : Keeps (counterKey true "alice" .uplink) (clientNode "alice") (.tick (.fair (sevenUp "alice"))) :=
    .tick rfl (by decide +kernel)
  exact counters_reported firstNode_started (clientNode_path (by decide +kernel) (by decide +kernel)) (by decide +kernel)
    (by decide) (System.Path.tail .refl ⟨counted, keeps⟩ (Node.after_next (by decide +kernel))) (by decide +kernel)

private theorem ok_of_toBool {result : Except String Unit} (fine : result.toBool = true) : result = .ok () := by
  cases result with
  | error e => cases fine
  | ok u => rfl

def exitedSample (email : String) : SampleWeather :=
  { SampleWeather.fair (sevenUp email) with apply := { ApplyWeather.fair with exited := true, first := .refused } }

/-- What was reported is not credited where the `Apply` of its sample fails, and never where the name of a client ends
like a separator. -/
theorem counters_lost :
    (∃ start n w, (node plainConfig).Path (Rises (counterKey true "alice" .uplink)) firstNode start ∧
      (node plainConfig).Path (Counted plainConfig true "alice" .uplink) start n ∧
      Counted plainConfig true "alice" .uplink n (.tick w) ∧ (n.sample w).2 = .ok () ∧ (n.sample w).1.halted = false ∧
      start.state.meter true "alice" .uplink = some 0 ∧ reported start.readings (counterKey true "alice" .uplink) = 0 ∧
      (n.sample w).1.state.meter true "alice" .uplink = some 0 ∧
      reported (n.sample w).1.readings (counterKey true "alice" .uplink) = 7) ∧
    (∃ start w, (node plainConfig).Path (Rises (counterKey true "alice>" .uplink)) firstNode start ∧
      Counted plainConfig true "alice>" .uplink start (.tick w) ∧ Keeps (counterKey true "alice>" .uplink) start (.tick w) ∧
      (start.sample w).2 = .ok () ∧ (start.sample w).1.halted = false ∧
      start.state.meter true "alice>" .uplink = some 0 ∧ reported start.readings (counterKey true "alice>" .uplink) = 0 ∧
      (start.sample w).1.state.meter true "alice>" .uplink = some 0 ∧
      reported (start.sample w).1.readings (counterKey true "alice>" .uplink) = 7) := by
  constructor
  · have lost : Counted plainConfig true "alice" .uplink (clientNode "alice") (.tick (exitedSample "alice")) :=
      .tick rfl (x := 0) (by decide +kernel)
    have counted : Counted plainConfig true "alice" .uplink ((clientNode "alice").after [.tick (exitedSample "alice")])
        (.tick (.fair .none)) := .tick rfl (x := 0) (by decide +kernel)
    refine ⟨clientNode "alice", _, .fair .none, clientNode_path (by decide +kernel) (by decide +kernel),
      System.Path.tail .refl lost (Node.after_next (by decide +kernel)), counted, ok_of_toBool ?_, ?_⟩
    all_goals decide +kernel
  · have counted : Counted plainConfig true "alice>" .uplink (clientNode "alice>")
        (.tick (.fair (sevenUp "alice>"))) := .tick rfl (x := 0) (by decide +kernel)
    refine ⟨clientNode "alice>", .fair (sevenUp "alice>"), clientNode_path (by decide +kernel) (by decide +kernel),
      counted, .tick rfl (by decide +kernel), ok_of_toBool ?_, ?_⟩
    all_goals decide +kernel

end ThreeXNode.Leaf
