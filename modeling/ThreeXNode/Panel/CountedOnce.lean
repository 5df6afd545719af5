import ThreeXNode.Panel.Counted

namespace ThreeXNode.Panel
open Library

/-! ## Runs of merges of one node, seen from one email -/

/-- The database, and the history of one email: the totals the node has reported for it, oldest first, what the merges
have added to its row, and what they have passed over in renewals. -/
structure Watched where
  db : Database
  observed : List Counter
  added : Counter
  overwritten : Counter

inductive Event where
  | merge (tick : Tick)
  | outside (db : Database)

def reportedTotal (tick : Tick) (email : String) : List Counter :=
  if email ∈ snapEmailsAll tick.inbounds then [nodeEmailTotals tick.inbounds email] else []

def feed (nodeId : Nat) (email : String) : System Watched Event where
  next s
    | .merge tick =>
        match setRemoteTraffic s.db tick nodeId, mergeTraffic s.db tick nodeId with
        | .ok db, .ok (_, st) =>
            some ⟨db, s.observed ++ reportedTotal tick email, s.added.add (st.added email),
              s.overwritten.add (st.overwritten email)⟩
        | _, _ => some s
    | .outside db => some { s with db := db }

def Present (email : String) (db : Database) : Prop := email ∈ db.clientTraffics.map (·.email)

instance (email : String) (db : Database) : Decidable (Present email db) := by unfold Present; infer_instance

variable (nodeId : Nat) (email : String)

/-- Where the history of an email begins: the stored baseline is the last total seen before. -/
structure Begins (s : Watched) : Prop where
  observed : s.observed = (storedBaseline s.db.nodeClientTraffics nodeId email).toList
  added : s.added = ⟨0, 0⟩
  overwritten : s.overwritten = ⟨0, 0⟩
  present : Present email s.db
  once : (rowsOf s.db.clientTraffics email).length ≤ 1

/-- The row of the email outlives the step, and only merges of the node touch the node's baseline. -/
def Steady (s : Watched) : Event → Prop
  | .merge tick => ((feed nodeId email).next s (.merge tick)).all fun t => Present email t.db
  | .outside db => Present email db ∧ (rowsOf db.clientTraffics email).length ≤ 1 ∧
      storedBaseline db.nodeClientTraffics nodeId email = storedBaseline s.db.nodeClientTraffics nodeId email

instance (s : Watched) (event : Event) : Decidable (Steady nodeId email s event) := by
  cases event <;> unfold Steady <;> infer_instance

/-- No frozen merge finds one direction of the reported total below the stored baseline and the other above it. -/
def Level (s : Watched) : Event → Prop
  | .merge tick => ¬(lifecycleFrozen s.db tick nodeId = true ∧ email ∈ snapEmailsAll tick.inbounds ∧
      (storedBaseline s.db.nodeClientTraffics nodeId email).any fun base => Mixed base (nodeEmailTotals tick.inbounds email))
  | .outside _ => True

instance (s : Watched) (event : Event) : Decidable (Level nodeId email s event) := by
  cases event <;> unfold Level <;> infer_instance

def knownBy (db : Database) (tick : Tick) : Bool :=
  match mergeTraffic db tick nodeId with
  | .ok (adopted, _) => ReportedKnown adopted tick.inbounds email
  | .error _ => true

/-- The merge sees the email under a known inbound, and its counters stay below the cap along `d`. -/
def Whole (d : Direction) (s : Watched) : Event → Prop
  | .merge tick => knownBy nodeId email s.db tick = true ∧
      Below (rowsOf s.db.clientTraffics email) (storedBaseline s.db.nodeClientTraffics nodeId email)
        (nodeEmailTotals tick.inbounds email) d
  | .outside _ => True

instance (d : Direction) (s : Watched) (event : Event) : Decidable (Whole nodeId email d s event) := by
  cases event <;> unfold Whole <;> infer_instance

variable {nodeId email}

def above (base last : Option Counter) (d : Direction) : Int :=
  match base, last with
  | some base, some last => max (last.along d - base.along d) 0
  | _, _ => 0

@[simp] theorem above_none (last : Option Counter) (d : Direction) : above none last d = 0 := rfl

@[simp] theorem above_some (base last : Counter) (d : Direction) :
    above (some base) (some last) d = max (last.along d - base.along d) 0 := rfl

theorem above_nonneg (base last : Option Counter) (d : Direction) : 0 ≤ above base last d := by
  unfold above
  split
  · exact le_max_right ..
  · exact le_refl _

theorem feed_merge {s t : Watched} {tick : Tick} (step : (feed nodeId email).next s (.merge tick) = some t) :
    t = s ∨ ∃ adopted final, mergeTraffic s.db tick nodeId = .ok (adopted, final) ∧
      t.db.clientTraffics = final.clientTraffics ∧ t.db.nodeClientTraffics = final.nodeClientTraffics ∧
      t.observed = s.observed ++ reportedTotal tick email ∧ t.added = s.added.add (final.added email) ∧
      t.overwritten = s.overwritten.add (final.overwritten email) := by
  simp only [feed] at step
  split at step
  · rename_i db adopted final remote merged
    obtain ⟨adopted', final', merged', tables⟩ := setRemoteTraffic_ok remote
    rw [merged, Except.ok.injEq, Prod.mk.injEq] at merged'
    obtain ⟨-, rfl⟩ := merged'
    obtain ⟨rows, baselines⟩ := Prod.ext_iff.mp tables
    cases step
    exact .inr ⟨adopted, final, merged, rows, baselines, rfl, rfl, rfl⟩
  · cases step
    exact .inl rfl

/-- What holds along every level run: what has been added, with what the last report is still above the baseline,
is covered by the rises so far. -/
structure Covered (nodeId : Nat) (email : String) (s : Watched) : Prop where
  present : Present email s.db
  once : (rowsOf s.db.clientTraffics email).length ≤ 1
  seen : ∀ base, storedBaseline s.db.nodeClientTraffics nodeId email = some base → s.observed ≠ []
  covered : ∀ d, s.added.along d +
    above (storedBaseline s.db.nodeClientTraffics nodeId email) s.observed.getLast? d ≤ rises (s.observed.map (·.along d))

theorem Covered.start {s : Watched} (begins : Begins nodeId email s) : Covered nodeId email s := by
  refine ⟨begins.present, begins.once, fun base stored => ?_, fun d => ?_⟩
  · simp [begins.observed, stored]
  · rw [begins.observed, begins.added]
    cases stored : storedBaseline s.db.nodeClientTraffics nodeId email with
    | none => cases d <;> exact le_refl _
    | some base => cases d <;> simp [above, Counter.along]

theorem rises_report (observed : List Counter) (canon : Counter) (d : Direction) :
    rises ((observed ++ [canon]).map (·.along d)) = rises (observed.map (·.along d)) +
      above observed.getLast? (some canon) d := by
  rw [List.map_append, List.map_singleton]
  cases ends : observed.getLast? with
  | none => simp [List.getLast?_eq_none_iff.mp ends, above]
  | some last => exact rises_append (by rw [List.getLast?_map, ends]; rfl) _

theorem above_step {base last after : Option Counter} {canon : Counter} {d : Direction} {added gain risen : Int}
    (seen : ∀ b, base = some b → last ≠ none) (before : added + above base last d ≤ risen)
    (part : (after = base ∧ gain ≤ 0) ∨ (after = some canon ∧ gain ≤ (counterDelta base canon).along d)) :
    added + gain + above after (some canon) d ≤ risen + above last (some canon) d := by
  have rise := above_nonneg last (some canon) d
  cases base with
  | none =>
      rw [above_none, add_zero] at before
      rcases part with ⟨rfl, gain⟩ | ⟨rfl, gain⟩
      · rw [above_none]
        linarith
      · rw [counterDelta_none] at gain
        rw [above_some, sub_self, max_self]
        linarith
  | some b =>
      obtain ⟨l, rfl⟩ := Option.ne_none_iff_exists'.mp (seen b rfl)
      rw [above_some] at before rise ⊢
      rcases part with ⟨rfl, gain⟩ | ⟨rfl, gain⟩
      · rw [above_some]
        omega
      · rw [counterDelta_some] at gain
        rw [above_some]
        omega

theorem Level.pure {s : Watched} {tick : Tick} (level : Level nodeId email s (.merge tick))
    (reported : email ∈ snapEmailsAll tick.inbounds) (frozen : lifecycleFrozen s.db tick nodeId = true) (base : Counter)
    (stored : storedBaseline s.db.nodeClientTraffics nodeId email = some base) :
    ¬Mixed base (nodeEmailTotals tick.inbounds email) := by
  intro mixed
  exact level ⟨frozen, reported, by simp [stored, mixed]⟩

theorem Covered.next {s t : Watched} {event : Event} (held : Covered nodeId email s) (steady : Steady nodeId email s event)
    (level : Level nodeId email s event) (step : (feed nodeId email).next s event = some t) : Covered nodeId email t := by
  cases event with
  | outside db =>
      cases step
      obtain ⟨present, once, stored⟩ := steady
      exact ⟨present, once, fun base h => held.seen base (stored ▸ h), fun d => by simpa only [stored] using held.covered d⟩
  | merge tick =>
      have present : Present email t.db := by simpa [Steady, step] using steady
      rcases feed_merge step with rfl | ⟨adopted, final, merged, rows, baselines, observed, added, -⟩
      · exact held
      by_cases reported : email ∈ snapEmailsAll tick.inbounds
      · obtain ⟨once, part⟩ := mergeTraffic_bound merged reported held.present held.once (level.pure reported)
        rw [reportedTotal, if_pos reported] at observed
        refine ⟨present, rows ▸ once, fun _ _ => by simp [observed], fun d => ?_⟩
        have before := held.covered d
        rw [baselines, observed, added, Counter.add_along, rises_report, List.getLast?_concat]
        refine above_step (fun b stored => ?_) before (part.imp (fun kept => ⟨kept.1, kept.2 d⟩) fun moved => ⟨moved.1, moved.2 d⟩)
        simpa [List.getLast?_eq_none_iff] using held.seen b stored
      · obtain ⟨sub, none, -, stored⟩ := mergeTraffic_unreported merged reported
        rw [reportedTotal, if_neg reported, List.append_nil] at observed
        refine ⟨present, rows ▸ sub.length_le.trans held.once, fun base h => ?_, fun d => ?_⟩
        · rw [baselines] at h
          rw [observed]
          exact stored.elim (fun same => held.seen base (same ▸ h)) fun gone => absurd (gone.symm.trans h) (by simp)
        · have before := held.covered d
          have zero : (final.added email).along d = 0 := by rw [none]; cases d <;> rfl
          rw [baselines, observed, added, Counter.add_along, zero, add_zero]
          rcases stored with same | gone
          · rw [same]
            exact before
          · rw [gone]
            have more := above_nonneg (storedBaseline s.db.nodeClientTraffics nodeId email) s.observed.getLast? d
            simp only [above, add_zero]
            linarith

/-- What holds along a level run that sees the email everywhere, as long as its counter does not drop along `d`: the
baseline stands where the last report stands, and all gained since the first one is accounted for. -/
structure Exact (nodeId : Nat) (email : String) (d : Direction) (s : Watched) : Prop where
  baseline : ∀ last, s.observed.getLast? = some last →
    ∃ base, storedBaseline s.db.nodeClientTraffics nodeId email = some base ∧ base.along d = last.along d
  total : ∀ first last, s.observed.head? = some first → s.observed.getLast? = some last →
    s.added.along d + s.overwritten.along d = last.along d - first.along d
  idle : s.observed = [] → s.added.along d + s.overwritten.along d = 0

theorem Exact.start {s : Watched} (begins : Begins nodeId email s) (d : Direction) : Exact nodeId email d s := by
  have zero : s.added.along d + s.overwritten.along d = 0 := by
    rw [begins.added, begins.overwritten]
    cases d <;> rfl
  refine ⟨fun last ends => ?_, fun first last starts ends => ?_, fun _ => zero⟩
  · rw [begins.observed] at ends
    cases stored : storedBaseline s.db.nodeClientTraffics nodeId email with
    | none => simp [stored] at ends
    | some base => exact ⟨base, rfl, by simpa [stored] using congrArg (·.map (·.along d)) ends⟩
  · rw [begins.observed] at starts ends
    rw [zero]
    cases stored : storedBaseline s.db.nodeClientTraffics nodeId email with
    | none => simp [stored] at ends
    | some base =>
        simp only [stored, Option.toList_some, List.head?_cons, List.getLast?_singleton, Option.some.injEq] at starts ends
        rw [← starts, ← ends, sub_self]

def Climbs (d : Direction) (observed : List Counter) : Prop := (observed.map (·.along d)).Pairwise (· ≤ ·)

instance (d : Direction) (observed : List Counter) : Decidable (Climbs d observed) := by
  unfold Climbs
  infer_instance

theorem Exact.next {d : Direction} {s t : Watched} {event : Event} (covered : Covered nodeId email s)
    (held : Exact nodeId email d s) (steady : Steady nodeId email s event) (level : Level nodeId email s event)
    (whole : Whole nodeId email d s event) (step : (feed nodeId email).next s event = some t)
    (climbs : Climbs d t.observed) : Exact nodeId email d t := by
  cases event with
  | outside db =>
      cases step
      exact ⟨fun last ends => by simpa only [steady.2.2] using held.baseline last ends, held.total, held.idle⟩
  | merge tick =>
      have present : Present email t.db := by simpa [Steady, step] using steady
      rcases feed_merge step with rfl | ⟨adopted, final, merged, rows, baselines, observed, added, overwritten⟩
      · exact held
      have known : ReportedKnown adopted tick.inbounds email := by simpa [knownBy, merged] using whole.1
      have reported : email ∈ snapEmailsAll tick.inbounds := by
        obtain ⟨ib, mem, -, within⟩ := known
        exact List.mem_flatMap.mpr ⟨ib, mem, within⟩
      rw [reportedTotal, if_pos reported] at observed
      obtain ⟨sum, after⟩ := mergeTraffic_exact merged covered.present covered.once (by rw [← rows]; exact present) known
        (level.pure reported) whole.2
      have grown : t.added.along d + t.overwritten.along d = (s.added.along d + s.overwritten.along d) +
          (counterDelta (storedBaseline s.db.nodeClientTraffics nodeId email) (nodeEmailTotals tick.inbounds email)).along d := by
        rw [added, overwritten, Counter.add_along, Counter.add_along, ← sum]
        ring
      rw [← baselines] at after
      cases ends : s.observed.getLast? with
      | none =>
          have empty := List.getLast?_eq_none_iff.mp ends
          have unseen : storedBaseline s.db.nodeClientTraffics nodeId email = none :=
            Option.eq_none_iff_forall_not_mem.mpr fun base stored => covered.seen base stored empty
          rw [unseen, counterDelta_none, held.idle empty] at grown
          rw [unseen] at after
          rw [empty, List.nil_append] at observed
          have stored := after.resolve_right fun dip => by cases dip.2.1
          refine ⟨fun last e => ?_, fun first last f e => ?_, fun none => by simp [observed] at none⟩
          · simp only [observed, List.getLast?_singleton, Option.some.injEq] at e
            exact ⟨_, stored, congrArg (·.along d) e⟩
          · simp only [observed, List.getLast?_singleton, List.head?_cons, Option.some.injEq] at e f
            rw [grown, ← e, ← f, sub_self, add_zero]
      | some before =>
          obtain ⟨base, stored, level⟩ := held.baseline before ends
          have up : before.along d ≤ (nodeEmailTotals tick.inbounds email).along d := by
            unfold Climbs at climbs
            rw [observed, List.map_append, List.pairwise_append] at climbs
            exact climbs.2.2 _ (List.mem_map_of_mem (List.mem_of_getLast? ends)) _ (by simp)
          rw [stored, counterDelta_some] at grown
          rw [stored] at after
          refine ⟨fun last e => ?_, fun first last f e => ?_, fun none => by simp [observed] at none⟩
          · simp only [observed, List.getLast?_concat, Option.some.injEq] at e
            rw [← e]
            rcases after with moved | ⟨kept, -, still⟩
            · exact ⟨_, moved, rfl⟩
            · rw [counterDelta_some] at still
              exact ⟨base, kept, by omega⟩
          · simp only [observed, List.getLast?_concat, Option.some.injEq] at e
            have nonempty : s.observed ≠ [] := fun none => by simp [none] at ends
            rw [observed, List.head?_append_of_ne_nil _ nonempty] at f
            have sum := held.total first before f ends
            rw [grown, ← e]
            omega

theorem feed_observed {s t : Watched} {event : Event} (step : (feed nodeId email).next s event = some t) :
    ∃ more, t.observed = s.observed ++ more := by
  cases event with
  | outside db =>
      cases step
      exact ⟨[], (List.append_nil _).symm⟩
  | merge tick =>
      rcases feed_merge step with rfl | ⟨_, _, _, _, _, observed, _⟩
      · exact ⟨[], (List.append_nil _).symm⟩
      · exact ⟨_, observed⟩

theorem Exact.path {d : Direction} {start s : Watched} (begins : Begins nodeId email start)
    (path : (feed nodeId email).Path (fun s event => Steady nodeId email s event ∧ Level nodeId email s event ∧
      Whole nodeId email d s event) start s) (climbs : Climbs d s.observed) :
    Covered nodeId email s ∧ Exact nodeId email d s := by
  induction path with
  | refl => exact ⟨Covered.start begins, Exact.start begins d⟩
  | tail front ok step ih =>
      obtain ⟨more, grown⟩ := feed_observed step
      have split := climbs
      unfold Climbs at split
      rw [grown, List.map_append, List.pairwise_append] at split
      obtain ⟨covered, held⟩ := ih split.1
      exact ⟨covered.next ok.1 ok.2.1 step, held.next covered ok.1 ok.2.1 ok.2.2 step climbs⟩

/-! ## Main results -/

variable (nodeId email)

/-- The merges add no more to the row of an email than the rises of the node's counter, and where each of them sees the
email, the counter does not drop and stays below the cap, they add what it has gained, less what renewals pass over. -/
theorem node_traffic_once {start : Watched} (begins : Begins nodeId email start) (d : Direction) :
    (∀ s, (feed nodeId email).Path (fun s event => Steady nodeId email s event ∧ Level nodeId email s event) start s →
      s.added.along d ≤ rises (s.observed.map (·.along d))) ∧
    (∀ s, (feed nodeId email).Path (fun s event => Steady nodeId email s event ∧ Level nodeId email s event ∧
        Whole nodeId email d s event) start s → Climbs d s.observed →
      ∀ first last, s.observed.head? = some first → s.observed.getLast? = some last →
        s.added.along d + s.overwritten.along d = last.along d - first.along d) := by
  refine ⟨fun s path => ?_, fun s path climbs first last f e => ?_⟩
  · have held := path.invariant (Covered nodeId email) (Covered.start begins) fun _ _ _ held ok step => held.next ok.1 ok.2 step
    have more := above_nonneg (storedBaseline s.db.nodeClientTraffics nodeId email) s.observed.getLast? d
    linarith [held.covered d]
  · exact (Exact.path begins path climbs).2.total first last f e

namespace Example

def client (up down : Int) : ClientTraffic := ⟨1, true, "ann", up, down, 0, 0, 0, 0, 0, 0, 0⟩

def inbound (stats : List ClientTraffic) : Inbound :=
  ⟨1, some 1, "", "in-443", "", 443, .vless, none, none, "", "never", 1, 0, true, "", 1, 0, 0, 0, 0, false, stats⟩

def start : Watched :=
  ⟨⟨"", [⟨1, "", false, "all", []⟩], [inbound []], 2, [], 1, [], [client 10 10], [⟨1, "ann", 10, 10⟩], []⟩,
    [⟨10, 10⟩], ⟨0, 0⟩, ⟨0, 0⟩⟩

def pending (up down : Int) : Event := .merge ⟨[inbound [client up down]], true, false, 0, fun _ => false, fun _ => 0⟩

def clean (up down : Int) : Event := .merge ⟨[inbound [client up down]], false, false, 0, fun _ => false, fun _ => 0⟩

theorem start_begins : Begins 1 "ann" start := by
  constructor <;> decide +kernel

end Example

open Example in
/-- Two totals that climb, one while the node is dirty. -/
theorem node_traffic_once_climb :
    ∃ s, (feed 1 "ann").Path (fun s event => Steady 1 "ann" s event ∧ Level 1 "ann" s event ∧ Whole 1 "ann" .down s event)
        start s ∧ s.observed = [⟨10, 10⟩, ⟨12, 15⟩, ⟨20, 15⟩] ∧ s.added.along .up ≤ rises (s.observed.map (·.along .up)) ∧
      s.added.along .down + s.overwritten.along .down = 15 - 10 := by
  let ok (s : Watched) (event : Event) : Prop :=
    Steady 1 "ann" s event ∧ Level 1 "ann" s event ∧ Whole 1 "ann" .down s event
  have runs : ((feed 1 "ann").runWith ok start [clean 12 15, pending 20 15]).isSome = true := by decide +kernel
  have observed (h) : (((feed 1 "ann").runWith ok start [clean 12 15, pending 20 15]).get h).observed =
      [⟨10, 10⟩, ⟨12, 15⟩, ⟨20, 15⟩] := by
    revert h
    decide +kernel
  have path := System.runWith_path (Option.some_get runs).symm
  refine ⟨_, path, observed runs, ?_, ?_⟩
  · exact (node_traffic_once 1 "ann" start_begins .up).1 _ (path.weaken fun _ _ good => ⟨good.1, good.2.1⟩)
  · exact (node_traffic_once 1 "ann" start_begins .down).2 _ path (by rw [observed runs]; decide) ⟨10, 10⟩ ⟨20, 15⟩
      (by rw [observed runs]; rfl) (by rw [observed runs]; rfl)

open Example in
/-- A frozen merge that finds one direction below the baseline keeps it, and the next one adds the rise of the other
direction again. -/
theorem node_traffic_twice :
    ¬∀ s, (feed 1 "ann").Path (Steady 1 "ann") start s → ∀ d, s.added.along d ≤ rises (s.observed.map (·.along d)) := by
  intro claim
  have runs : ((feed 1 "ann").runWith (Steady 1 "ann") start [pending 5 20, pending 5 20]).isSome = true := by decide +kernel
  have beyond (h) : ¬(((feed 1 "ann").runWith (Steady 1 "ann") start [pending 5 20, pending 5 20]).get h).added.along .down ≤
      rises ((((feed 1 "ann").runWith (Steady 1 "ann") start [pending 5 20, pending 5 20]).get h).observed.map
        (·.along .down)) := by
    revert h
    decide +kernel
  exact beyond runs (claim _ (System.runWith_path (Option.some_get runs).symm) .down)

end ThreeXNode.Panel
