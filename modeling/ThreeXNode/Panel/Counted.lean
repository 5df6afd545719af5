import ThreeXNode.Library.Rises
import ThreeXNode.Library.Transition
import ThreeXNode.Panel.NodeAdopt

namespace ThreeXNode.Panel
open Library

inductive Direction where
  | up
  | down
  deriving DecidableEq

def Counter.along (c : Counter) : Direction → Int
  | .up => c.up
  | .down => c.down

def ClientTraffic.along (r : ClientTraffic) : Direction → Int
  | .up => r.up
  | .down => r.down

@[simp] theorem Counter.add_along (a b : Counter) (d : Direction) : (a.add b).along d = a.along d + b.along d := by
  cases d <;> rfl

theorem counterDelta_none (canon : Counter) (d : Direction) : (counterDelta none canon).along d = 0 := by
  cases d <;> rfl

theorem counterDelta_some (base canon : Counter) (d : Direction) :
    (counterDelta (some base) canon).along d = max (canon.along d - base.along d) 0 := by
  cases d <;> rfl

theorem counterDelta_self (canon : Counter) (d : Direction) : (counterDelta (some canon) canon).along d = 0 := by
  rw [counterDelta_some, sub_self, max_self]

theorem counterDelta_nonneg (base : Option Counter) (canon : Counter) (d : Direction) :
    0 ≤ (counterDelta base canon).along d := by
  cases base with
  | none => rw [counterDelta_none]
  | some base => rw [counterDelta_some]; exact le_max_right ..

/-- One direction of the counter is below the baseline and the other above it. -/
def Mixed (base canon : Counter) : Prop :=
  (canon.up < base.up ∧ base.down < canon.down) ∨ (canon.down < base.down ∧ base.up < canon.up)

instance (base canon : Counter) : Decidable (Mixed base canon) := by unfold Mixed; infer_instance

theorem counterDelta_dipped {base canon : Counter} (dip : dipped (some base) canon = true) (pure : ¬Mixed base canon)
    (d : Direction) : (counterDelta (some base) canon).along d = 0 := by
  simp only [dipped, Option.any_some, Bool.or_eq_true, decide_eq_true_eq] at dip
  unfold Mixed at pure
  cases d <;> simp only [counterDelta, Counter.along] <;> omega

/-! ## What a merge does for one email -/

def rowsOf (rows : List ClientTraffic) (email : String) : List ClientTraffic := rows.filter (·.email = email)

/-- The part of a merge that concerns one email. -/
structure View where
  base : Option Counter
  added : Counter
  overwritten : Counter
  rows : List ClientTraffic

def Merge.view (st : Merge) (email : String) : View :=
  ⟨st.nodeBaselines email, st.added email, st.overwritten email, rowsOf st.clientTraffics email⟩

theorem rowsOf_update_self (rows : List ClientTraffic) (email : String) {f : ClientTraffic → ClientTraffic}
    (keeps : ∀ r, (f r).email = r.email) : rowsOf (updateTraffic rows email f) email = (rowsOf rows email).map f := by
  induction rows with
  | nil => rfl
  | cons r rows ih =>
      simp only [rowsOf, updateTraffic, List.map_cons] at ih ⊢
      by_cases same : r.email = email <;> simp [same, keeps, ih]

theorem rowsOf_update_other (rows : List ClientTraffic) {email other : String} (ne : other ≠ email)
    {f : ClientTraffic → ClientTraffic} (keeps : ∀ r, (f r).email = r.email) :
    rowsOf (updateTraffic rows other f) email = rowsOf rows email := by
  induction rows with
  | nil => rfl
  | cons r rows ih =>
      simp only [rowsOf, updateTraffic, List.map_cons] at ih ⊢
      by_cases same : r.email = other
      · have apart : r.email ≠ email := fun h => ne (same ▸ h)
        simp [same, keeps, ih, ne]
      · simp only [same, ↓reduceIte, List.filter_cons, ih]

theorem rowsOf_filter (rows : List ClientTraffic) (email : String) {keep : ClientTraffic → Bool}
    (kept : ∀ r ∈ rows, r.email = email → keep r = true) : rowsOf (rows.filter keep) email = rowsOf rows email := by
  rw [rowsOf, List.filter_filter, rowsOf]
  refine List.filter_congr fun r mem => ?_
  by_cases same : r.email = email
  · simp [same, kept r mem same]
  · simp [same]

private theorem filter_map_keys {rows : List NodeClientTraffic} {p : NodeClientTraffic → Bool}
    {g : NodeClientTraffic → NodeClientTraffic} (keeps : ∀ b, p (g b) = p b) :
    (rows.map g).filter p = (rows.filter p).map g := by
  rw [List.filter_map]
  congr 1
  exact List.filter_congr fun b _ => keeps b

theorem storedBaseline_upsert_self (rows : List NodeClientTraffic) (nodeId : Nat) (email : String) (c : Counter) :
    storedBaseline (upsertNodeBaseline rows nodeId email c) nodeId email = some c := by
  unfold storedBaseline upsertNodeBaseline
  split
  · rename_i found
    rw [filter_map_keys (by intro b; split <;> simp_all), List.getLast?_map]
    obtain ⟨b, mem, key⟩ := List.any_eq_true.mp found
    simp only [Bool.and_eq_true, decide_eq_true_eq] at key
    cases ends : (rows.filter fun b => decide (b.nodeId = nodeId ∧ b.email = email)).getLast? with
    | none =>
        rw [List.getLast?_eq_none_iff, List.filter_eq_nil_iff] at ends
        exact absurd key (by simpa using ends b mem)
    | some last =>
        have held := (List.mem_filter.mp (List.mem_of_getLast? ends)).2
        simp only [decide_eq_true_eq] at held
        simp [held]
  · simp

theorem storedBaseline_upsert_other (rows : List NodeClientTraffic) (nodeId : Nat) {email other : String}
    (ne : other ≠ email) (c : Counter) :
    storedBaseline (upsertNodeBaseline rows nodeId other c) nodeId email = storedBaseline rows nodeId email := by
  unfold storedBaseline upsertNodeBaseline
  congr 2
  split
  · rw [filter_map_keys (by intro b; split <;> simp_all)]
    refine (List.map_congr_left fun b mem => ?_).trans (List.map_id _)
    have held := (List.mem_filter.mp mem).2
    simp only [decide_eq_true_eq] at held
    rw [if_neg (fun key => ne (key.2.symm.trans held.2))]
    rfl
  · simp [ne]

theorem storedBaseline_filter (rows : List NodeClientTraffic) (nodeId : Nat) (email : String) (keep : NodeClientTraffic → Bool)
    (kept : Bool) (keys : ∀ b, b.nodeId = nodeId → b.email = email → keep b = kept) :
    storedBaseline (rows.filter keep) nodeId email = if kept then storedBaseline rows nodeId email else none := by
  unfold storedBaseline
  rw [List.filter_filter]
  cases kept with
  | true =>
      simp only [↓reduceIte]
      congr 2
      refine List.filter_congr fun b _ => ?_
      by_cases key : b.nodeId = nodeId ∧ b.email = email
      · simp [key, keys b key.1 key.2]
      · simp [key]
  | false =>
      have empty : rows.filter (fun b => decide (b.nodeId = nodeId ∧ b.email = email) && keep b) = [] := by
        refine List.filter_eq_nil_iff.mpr fun b _ => ?_
        by_cases key : b.nodeId = nodeId ∧ b.email = email
        · simp [keys b key.1 key.2]
        · simp [key]
      rw [empty]
      rfl

/-! ## One copy -/

variable {node : Node} {tick : Tick} {dirty frozen : Bool} {newIds : List Nat} {c snapIb : Inbound} {st : Merge}
  {cs : ClientTraffic} {email : String}

/-- What the loop needs to know of an email: its row was there before, and the map of baselines is the table. -/
structure Tracked (nodeId : Nat) (email : String) (st : Merge) : Prop where
  known : email ∈ st.existingEmails
  stored : storedBaseline st.nodeClientTraffics nodeId email = st.nodeBaselines email

def copyBase (frozen : Bool) (base : Option Counter) (canon : Counter) : Option Counter :=
  if frozen && dipped base canon then base else some canon

/-- What a copy of the email does to its part of the merge: its rows are overwritten, or they are added to. -/
structure Copied (frozen : Bool) (canon : Counter) (before after : View) : Prop where
  base : after.base = copyBase frozen before.base canon
  cases :
    (frozen = false ∧ after.added = before.added ∧
      after.overwritten = before.overwritten.add (counterDelta before.base canon) ∧
      ∃ f : ClientTraffic → ClientTraffic, (∀ r d, (f r).along d = canon.along d) ∧ after.rows = before.rows.map f) ∨
    (after.overwritten = before.overwritten ∧ ∃ f : ClientTraffic → ClientTraffic,
      (∀ r d, (f r).along d = clampedAdd (r.along d) ((counterDelta before.base canon).along d)) ∧
      after.rows = before.rows.map f ∧
      ∀ d, after.added.along d = before.added.along d + (before.rows.map fun r => (f r).along d - r.along d).sum)

theorem gain_along (rows : List ClientTraffic) (email : String) (f : ClientTraffic → ClientTraffic) (d : Direction) :
    (gain rows email f).along d = ((rowsOf rows email).map fun r => (f r).along d - r.along d).sum := by
  unfold gain rowsOf
  have go (gains : List Counter) (start : Counter) :
      (gains.foldl (fun a b => (⟨a.up + b.up, a.down + b.down⟩ : Counter)) start).along d =
        start.along d + (gains.map (·.along d)).sum := by
    induction gains generalizing start with
    | nil => simp
    | cons g gains ih =>
        rw [List.foldl_cons, ih]
        cases d <;> simp [Counter.along, add_assoc]
  rw [go, List.map_map]
  cases d <;> simp [Counter.along, ClientTraffic.along, Function.comp_def]

theorem frozenRow_along (cs : ClientTraffic) (delta : Counter) (r : ClientTraffic) (d : Direction) :
    (frozenRow cs delta r).along d = clampedAdd (r.along d) (delta.along d) := by
  cases d <;> rfl

theorem mergeRow_along (now : Int) (cs : ClientTraffic) (delta : Counter) (r : ClientTraffic) (d : Direction) :
    (mergeRow now cs delta r).along d = clampedAdd (r.along d) (delta.along d) := by
  cases d <;> rfl

theorem renewRow_along (cs : ClientTraffic) (canon : Counter) (r : ClientTraffic) (d : Direction) :
    (renewRow cs canon r).along d = canon.along d := by
  cases d <;> rfl

theorem addTraffic_copied (same : cs.email = email) {canon : Counter} {f g : ClientTraffic → ClientTraffic}
    (keeps : ∀ r, (f r).email = r.email)
    (adds : ∀ r d, (f r).along d = clampedAdd (r.along d) ((counterDelta (st.nodeBaselines cs.email) canon).along d))
    {after : View} (shown : after = ((st.addTraffic cs.email f).setExisting cs.email g).view email) :
    after.overwritten = (st.view email).overwritten ∧ ∃ f : ClientTraffic → ClientTraffic,
      (∀ r d, (f r).along d = clampedAdd (r.along d) ((counterDelta (st.view email).base canon).along d)) ∧
      after.rows = (st.view email).rows.map f ∧
      ∀ d, after.added.along d = (st.view email).added.along d +
        ((st.view email).rows.map fun r => (f r).along d - r.along d).sum := by
  subst shown same
  refine ⟨rfl, f, adds, rowsOf_update_self _ _ keeps, fun d => ?_⟩
  simp only [Merge.view, Merge.addTraffic, Merge.setExisting, Function.update_self, Counter.add_along, gain_along]

theorem mergeRowOf_view (same : cs.email = email) (canon : Counter) :
    Copied frozen canon (st.view email)
      { (mergeRowOf tick frozen snapIb cs canon st).view email with base := copyBase frozen (st.nodeBaselines email) canon } := by
  refine ⟨rfl, ?_⟩
  unfold mergeRowOf
  by_cases renews : renewed tick frozen snapIb cs canon st = true
  · simp only [renews, ↓reduceIte]
    have unfrozen : frozen = false := by
      unfold renewed at renews
      split at renews
      · simp only [Bool.and_eq_true, Bool.not_eq_true'] at renews
        exact renews.1.1
      · cases renews
    subst same
    refine .inl ⟨unfrozen, rfl, by simp [Merge.view, Merge.setExisting], renewRow cs canon, renewRow_along cs canon, ?_⟩
    exact rowsOf_update_self _ _ fun _ => rfl
  · simp only [renews]
    refine .inr ?_
    cases frozen with
    | true => exact addTraffic_copied same (f := frozenRow cs _) (fun _ => rfl) (frozenRow_along cs _) rfl
    | false => exact addTraffic_copied same (f := mergeRow tick.now cs _) (fun _ => rfl) (mergeRow_along tick.now cs _) rfl

theorem setBaseline_view (canon : Counter) (nodeId : Nat) (same : cs.email = email) :
    (st.setBaseline nodeId cs.email canon).view email = { st.view email with base := some canon } := by
  subst same
  simp [Merge.view, Merge.setBaseline]

theorem mergeRowOf_tables (canon : Counter) :
    (mergeRowOf tick frozen snapIb cs canon st).existingEmails = st.existingEmails ∧
      (mergeRowOf tick frozen snapIb cs canon st).nodeBaselines = st.nodeBaselines ∧
      (mergeRowOf tick frozen snapIb cs canon st).nodeClientTraffics = st.nodeClientTraffics := by
  unfold mergeRowOf
  split_ifs <;> exact ⟨rfl, rfl, rfl⟩

theorem mergeClientStat_same (same : cs.email = email) (tracked : Tracked node.id email st) :
    Copied frozen (nodeEmailTotals tick.inbounds email) (st.view email)
        ((mergeClientStat node tick dirty frozen newIds c snapIb st cs).view email) ∧
      Tracked node.id email (mergeClientStat node tick dirty frozen newIds c snapIb st cs) := by
  subst same
  obtain ⟨emails, bases, stored⟩ := @mergeRowOf_tables tick frozen snapIb st cs (nodeEmailTotals tick.inbounds cs.email)
  have updated := @mergeRowOf_view tick frozen snapIb st cs _ rfl (nodeEmailTotals tick.inbounds cs.email)
  simp only [mergeClientStat]
  rw [if_neg (not_not.mpr tracked.known)]
  split
  · rename_i dip
    refine ⟨?_, by rw [emails]; exact tracked.known, by rw [stored, bases]; exact tracked.stored⟩
    convert updated using 1
    simp only [copyBase, dip, ↓reduceIte, Merge.view, bases]
  · rename_i level
    refine ⟨?_, ?_⟩
    · convert updated using 1
      rw [setBaseline_view _ _ rfl]
      simp only [copyBase, level, Bool.false_eq_true, ↓reduceIte]
    · refine ⟨by simpa only [Merge.setBaseline, emails] using tracked.known, ?_⟩
      simp only [Merge.setBaseline, storedBaseline_upsert_self, Function.update_self]

theorem mergeClientStat_other (ne : cs.email ≠ email) :
    (mergeClientStat node tick dirty frozen newIds c snapIb st cs).view email = st.view email ∧
      storedBaseline (mergeClientStat node tick dirty frozen newIds c snapIb st cs).nodeClientTraffics node.id email =
        storedBaseline st.nodeClientTraffics node.id email ∧
      (email ∈ st.existingEmails →
        email ∈ (mergeClientStat node tick dirty frozen newIds c snapIb st cs).existingEmails) := by
  have apart : email ≠ cs.email := fun h => ne h.symm
  have baseline (s : Merge) (canon : Counter) (shown : s.view email = st.view email) :
      (s.setBaseline node.id cs.email canon).view email = st.view email := by
    rw [← shown]
    simp [Merge.view, Merge.setBaseline, Function.update_of_ne apart]
  have updated (canon : Counter) : (mergeRowOf tick frozen snapIb cs canon st).view email = st.view email := by
    unfold mergeRowOf
    split_ifs <;>
      simp only [Merge.view, Merge.setExisting, Merge.addTraffic, Function.update_of_ne apart, View.mk.injEq, true_and] <;>
      exact rowsOf_update_other _ ne fun _ => rfl
  simp only [mergeClientStat]
  split
  · unfold createRow
    split
    · exact ⟨rfl, rfl, id⟩
    · refine ⟨baseline _ _ ?_, storedBaseline_upsert_other _ _ ne _, List.mem_cons_of_mem _⟩
      simp only [Merge.view]
      split
      · rfl
      · simp [rowsOf, ne]
  · obtain ⟨emails, _, stored⟩ := @mergeRowOf_tables tick frozen snapIb st cs (nodeEmailTotals tick.inbounds cs.email)
    split
    · exact ⟨updated _, by rw [stored], by rw [emails]; exact id⟩
    · refine ⟨baseline _ _ (updated _), ?_, ?_⟩
      · simp only [Merge.setBaseline, storedBaseline_upsert_other _ _ ne, stored]
      · simp only [Merge.setBaseline, emails]
        exact id

theorem dropUnreported_view {db : Database} (reported : email ∈ snapEmailsAll tick.inbounds) (k : Nat × String)
    (tracked : Tracked node.id email st) :
    (dropUnreported db node tick dirty c st k).view email = st.view email ∧
      Tracked node.id email (dropUnreported db node tick dirty c st k) := by
  unfold dropUnreported
  split
  · exact ⟨rfl, tracked⟩
  · rename_i gone
    simp only [Bool.or_eq_true, decide_eq_true_eq, not_or] at gone
    have apart : k.2 ≠ email := fun same => gone.2 (same ▸ reported)
    refine ⟨?_, tracked.known, ?_⟩
    · simp only [Merge.view, View.mk.injEq, true_and]
      split
      · exact rowsOf_filter _ _ fun r _ same => by simp [same, Ne.symm apart]
      · rfl
    · rw [← tracked.stored]
      exact storedBaseline_filter _ _ _ _ true fun b _ same => by simp [same, Ne.symm apart]

theorem mergeInbounds_view {db : Database} {adopted : Adoption} (reported : email ∈ snapEmailsAll tick.inbounds)
    {start : Merge} (touched : View → Prop)
    (copy : ∀ before after, before = start.view email ∨ touched before →
      Copied frozen (nodeEmailTotals tick.inbounds email) before after → touched after)
    (tracked : Tracked node.id email start) (snap : List Inbound) :
    let final := snap.foldl (mergeInbound db node tick dirty frozen adopted) start
    Tracked node.id email final ∧ (touched (final.view email) ∨
      (final.view email = start.view email ∧
        ∀ ib ∈ snap, adopted.tagToCentral ib.tag ≠ none → email ∉ snapEmails ib)) := by
  refine foldl_keeps (fun done st => Tracked node.id email st ∧ (touched (st.view email) ∨
    (st.view email = start.view email ∧ ∀ ib ∈ done, adopted.tagToCentral ib.tag ≠ none → email ∉ snapEmails ib)))
    snap ⟨tracked, .inr ⟨rfl, by simp⟩⟩ ?_
  intro done snapIb st _ held
  unfold mergeInbound
  cases central : adopted.tagToCentral snapIb.tag with
  | none =>
      refine ⟨held.1, held.2.imp_right fun ⟨same, absent⟩ => ⟨same, ?_⟩⟩
      intro ib mem known
      rcases List.mem_append.mp mem with earlier | here
      · exact absent ib earlier known
      · exact absurd central (List.mem_singleton.mp here ▸ known)
  | some c =>
      -- the copies of this inbound, and then the clients it no longer reports
      have stats := foldl_keeps (f := mergeClientStat node tick dirty frozen adopted.newInboundIDs c snapIb)
        (fun seen s => Tracked node.id email s ∧ (touched (s.view email) ∨
          (s.view email = start.view email ∧ (∀ ib ∈ done, adopted.tagToCentral ib.tag ≠ none → email ∉ snapEmails ib) ∧
            ∀ cs ∈ seen, cs.email ≠ email))) snapIb.clientStats
        ⟨held.1, held.2.imp_right fun ⟨same, absent⟩ => ⟨same, absent, by simp⟩⟩ ?_
      · obtain ⟨track, part⟩ := foldl_invariant (f := dropUnreported db node tick dirty c)
          (l := (snapIb.clientStats.foldl (mergeClientStat node tick dirty frozen adopted.newInboundIDs c snapIb) st).centralCS)
          (fun s => Tracked node.id email s ∧ s.view email =
            (snapIb.clientStats.foldl (mergeClientStat node tick dirty frozen adopted.newInboundIDs c snapIb) st).view email)
          ⟨stats.1, rfl⟩ fun s k _ held => by
            obtain ⟨shown, track⟩ := dropUnreported_view reported k held.1
            exact ⟨track, shown.trans held.2⟩
        refine ⟨track, ?_⟩
        rw [part]
        refine stats.2.imp_right fun ⟨same, absent, clear⟩ => ⟨same, ?_⟩
        intro ib mem known
        rcases List.mem_append.mp mem with earlier | here
        · exact absent ib earlier known
        · rw [List.mem_singleton.mp here]
          simpa [snapEmails] using clear
      · intro seen cs s _ held
        by_cases same : cs.email = email
        · obtain ⟨copied, track⟩ := mergeClientStat_same same held.1
          exact ⟨track, .inl (copy _ _ (held.2.symm.imp_left fun before => before.1) copied)⟩
        · obtain ⟨shown, stored, known⟩ := @mergeClientStat_other node tick dirty frozen adopted.newInboundIDs c snapIb s cs email same
          refine ⟨⟨known held.1.known, ?_⟩, ?_⟩
          · rw [stored, held.1.stored]
            exact (congrArg View.base shown).symm
          rw [shown]
          refine held.2.imp_right fun ⟨before, absent, clear⟩ => ⟨before, absent, ?_⟩
          intro cs' mem
          rcases List.mem_append.mp mem with earlier | here
          · exact clear cs' earlier
          · exact List.mem_singleton.mp here ▸ same

/-! ## What comes before the loop -/

theorem adoptInbounds_traffic {db : Database} {adopted : Adoption} (h : adoptInbounds db node tick dirty = .ok adopted) :
    trafficTables adopted.db = trafficTables db := by
  refine foldlM_ok (fun _ (st : Adoption) => trafficTables st.db = trafficTables db) h rfl ?_
  intro done snapIb st st' _ held one
  have known (st : Adoption) (c : Inbound) : trafficTables (adoptKnown db node tick dirty st snapIb c).db = trafficTables st.db := rfl
  have unknown (st : Adoption) : trafficTables (adoptUnknown db node dirty st snapIb).db = trafficTables st.db := by
    unfold adoptUnknown
    split
    · rfl
    · simp only
      split <;> rfl
  unfold adoptInbound at one
  simp only at one
  split at one
  · cases one
    exact (known _ _).trans held
  · split at one
    · cases one
      exact (unknown _).trans held
    · cases one
      exact (known _ _).trans held
    · cases one

theorem sweepInbounds_traffic (db : Database) (node : Node) (tick : Tick) (dirty : Bool) (st : Adoption) (email : String) :
    (rowsOf (sweepInbounds db node tick dirty st).db.clientTraffics email).Sublist (rowsOf st.db.clientTraffics email) ∧
      (storedBaseline (sweepInbounds db node tick dirty st).db.nodeClientTraffics node.id email =
          storedBaseline st.db.nodeClientTraffics node.id email ∨
        email ∉ snapEmailsAll tick.inbounds ∧
          storedBaseline (sweepInbounds db node tick dirty st).db.nodeClientTraffics node.id email = none) := by
  refine foldl_invariant (fun s : Adoption =>
    (rowsOf s.db.clientTraffics email).Sublist (rowsOf st.db.clientTraffics email) ∧
      (storedBaseline s.db.nodeClientTraffics node.id email = storedBaseline st.db.nodeClientTraffics node.id email ∨
        email ∉ snapEmailsAll tick.inbounds ∧ storedBaseline s.db.nodeClientTraffics node.id email = none))
    ⟨List.Sublist.refl _, .inl rfl⟩ ?_
  intro s c _ held
  simp only [sweepInbound]
  split
  · refine ⟨((List.filter_sublist).filter _).trans held.1, ?_⟩
    by_cases goes : email ∈ (s.db.clientTraffics.filter (·.inboundId = c.id)).map (·.email) ∧ email ∉ snapEmailsAll tick.inbounds
    · refine .inr ⟨goes.2, ?_⟩
      exact storedBaseline_filter _ _ _ _ false fun b node same => by
        simp only [same, node, decide_true, goes.1, goes.2, not_false_eq_true, Bool.and_true, Bool.not_true]
    · have kept : storedBaseline (s.db.nodeClientTraffics.filter fun b => !(b.nodeId = node.id &&
          b.email ∈ (s.db.clientTraffics.filter (·.inboundId = c.id)).map (·.email) &&
          b.email ∉ snapEmailsAll tick.inbounds)) node.id email = storedBaseline s.db.nodeClientTraffics node.id email := by
        refine storedBaseline_filter _ _ _ _ true fun b node same => ?_
        simp only [same, node, decide_true, Bool.true_and, Bool.not_eq_true', Bool.and_eq_false_imp, decide_eq_true_eq,
          decide_eq_false_iff_not, not_not]
        intro mem
        by_contra absent
        exact goes ⟨mem, absent⟩
      exact held.2.imp kept.trans fun gone => ⟨gone.1, kept.trans gone.2⟩
  · exact held

/-! ## A whole merge -/

theorem mergeTraffic_unreported {db : Database} {nodeId : Nat} {adopted : Adoption} {final : Merge}
    (h : mergeTraffic db tick nodeId = .ok (adopted, final)) (absent : email ∉ snapEmailsAll tick.inbounds) :
    (rowsOf final.clientTraffics email).Sublist (rowsOf db.clientTraffics email) ∧
      final.added email = ⟨0, 0⟩ ∧ final.overwritten email = ⟨0, 0⟩ ∧
      (storedBaseline final.nodeClientTraffics nodeId email = storedBaseline db.nodeClientTraffics nodeId email ∨
        storedBaseline final.nodeClientTraffics nodeId email = none) := by
  simp only [mergeTraffic, Except.bind_eq_ok, Except.ok.injEq, Prod.mk.injEq] at h
  obtain ⟨adopted', adopts, rfl, rfl⟩ := h
  have before := Prod.ext_iff.mp (adoptInbounds_traffic adopts)
  simp only [trafficTables] at before
  have swept := sweepInbounds_traffic db (nodeRow db nodeId) tick (mergeDirty db tick nodeId) adopted' email
  rw [nodeRow_id, before.1, before.2] at swept
  let quiet (s : Merge) : Prop := (rowsOf s.clientTraffics email).Sublist (rowsOf db.clientTraffics email) ∧
    s.added email = ⟨0, 0⟩ ∧ s.overwritten email = ⟨0, 0⟩ ∧
    (storedBaseline s.nodeClientTraffics nodeId email = storedBaseline db.nodeClientTraffics nodeId email ∨
      storedBaseline s.nodeClientTraffics nodeId email = none)
  refine foldl_invariant quiet ⟨swept.1, rfl, rfl, swept.2.imp_right And.right⟩ ?_
  intro s snapIb mem held
  unfold mergeInbound
  split
  · exact held
  · refine foldl_invariant quiet ?_ ?_
    · refine foldl_invariant quiet held ?_
      intro s cs within held
      have ne : cs.email ≠ email := by
        rintro rfl
        exact absent (List.mem_flatMap.mpr ⟨snapIb, mem, List.mem_map_of_mem within⟩)
      obtain ⟨shown, stored, -⟩ := @mergeClientStat_other (nodeRow db nodeId) tick (mergeDirty db tick nodeId)
        (lifecycleFrozen db tick nodeId) _ _ snapIb s cs email ne
      rw [nodeRow_id] at stored
      refine ⟨?_, (congrArg View.added shown).trans held.2.1, (congrArg View.overwritten shown).trans held.2.2.1,
        stored ▸ held.2.2.2⟩
      rw [show rowsOf _ email = _ from congrArg View.rows shown]
      exact held.1
    · intro s k _ held
      unfold dropUnreported
      split
      · exact held
      · refine ⟨?_, held.2.1, held.2.2.1, ?_⟩
        · simp only
          split
          · exact (List.filter_sublist.filter _).trans held.1
          · exact held.1
        rw [nodeRow_id]
        by_cases same : k.2 = email
        · exact .inr (storedBaseline_filter _ _ _ _ false fun b node key => by simp [same, node, key])
        · have kept := storedBaseline_filter s.nodeClientTraffics nodeId email
            (fun b => !(b.nodeId = nodeId && b.email = k.2)) true fun b _ key => by simp [key, Ne.symm same]
          exact held.2.2.2.imp kept.trans kept.trans

theorem mergeTraffic_reported {db : Database} {nodeId : Nat} {adopted : Adoption} {final : Merge}
    (h : mergeTraffic db tick nodeId = .ok (adopted, final)) (reported : email ∈ snapEmailsAll tick.inbounds)
    (present : email ∈ db.clientTraffics.map (·.email)) :
    ∃ start : Merge, final = tick.inbounds.foldl (mergeInbound db (nodeRow db nodeId) tick (mergeDirty db tick nodeId)
        (lifecycleFrozen db tick nodeId) adopted) start ∧
      Tracked nodeId email start ∧ ∃ rows, rows.Sublist (rowsOf db.clientTraffics email) ∧
        start.view email = ⟨storedBaseline db.nodeClientTraffics nodeId email, ⟨0, 0⟩, ⟨0, 0⟩, rows⟩ := by
  simp only [mergeTraffic, Except.bind_eq_ok, Except.ok.injEq, Prod.mk.injEq] at h
  obtain ⟨adopted', adopts, rfl, rfl⟩ := h
  have before := Prod.ext_iff.mp (adoptInbounds_traffic adopts)
  simp only [trafficTables] at before
  have swept := sweepInbounds_traffic db (nodeRow db nodeId) tick (mergeDirty db tick nodeId) adopted' email
  rw [nodeRow_id, before.1, before.2] at swept
  let after := sweepInbounds db (nodeRow db nodeId) tick (mergeDirty db tick nodeId) adopted'
  refine ⟨startMerge db (nodeRow db nodeId) tick after, rfl, ⟨?_, ?_⟩, rowsOf after.db.clientTraffics email, swept.1, ?_⟩
  · exact List.mem_filter.mpr ⟨present, by simpa using reported⟩
  · have stored := swept.2.resolve_right fun gone => gone.1 reported
    simp only [startMerge, nodeRow_id]
    exact stored
  · rw [Merge.view]
    simp only [startMerge, nodeRow_id, after]

theorem dipped_self (canon : Counter) : dipped (some canon) canon = false := by
  simp [dipped]

theorem copyBase_self (canon : Counter) : copyBase frozen (some canon) canon = some canon := by
  simp [copyBase, dipped_self]

theorem clamped_sum_le {rows : List ClientTraffic} (once : rows.length ≤ 1) {f : ClientTraffic → ClientTraffic} {d : Direction}
    {delta : Int} (nonneg : 0 ≤ delta) (adds : ∀ r, (f r).along d = clampedAdd (r.along d) delta) :
    (rows.map fun r => (f r).along d - r.along d).sum ≤ delta := by
  have one (r : ClientTraffic) : (f r).along d - r.along d ≤ delta := by
    rw [adds]
    have capped : clampedAdd (r.along d) delta ≤ r.along d + delta := min_le_left ..
    linarith
  cases rows with
  | nil => simpa using nonneg
  | cons r rest =>
      have alone : rest = [] := List.length_eq_zero_iff.mp (by simpa using once)
      simpa [alone] using one r

theorem clamped_sum_eq {rows : List ClientTraffic} (one : rows.length = 1) {f : ClientTraffic → ClientTraffic} {d : Direction}
    {delta : Int} (below : ∀ r ∈ rows, r.along d + delta ≤ trafficMax) (adds : ∀ r, (f r).along d = clampedAdd (r.along d) delta) :
    (rows.map fun r => (f r).along d - r.along d).sum = delta := by
  obtain ⟨r, rfl⟩ := List.length_eq_one_iff.mp one
  have whole : clampedAdd (r.along d) delta = r.along d + delta := min_eq_left (below r List.mem_cons_self)
  simp [adds, whole]

variable {db : Database} {nodeId : Nat} {adopted : Adoption} {final : Merge}

/-- A merge adds no more than the counter has gained since the baseline, and it adds nothing when it keeps the
baseline. -/
theorem mergeTraffic_bound (h : mergeTraffic db tick nodeId = .ok (adopted, final))
    (reported : email ∈ snapEmailsAll tick.inbounds) (present : email ∈ db.clientTraffics.map (·.email))
    (once : (rowsOf db.clientTraffics email).length ≤ 1)
    (pure : lifecycleFrozen db tick nodeId = true → ∀ base, storedBaseline db.nodeClientTraffics nodeId email = some base →
      ¬Mixed base (nodeEmailTotals tick.inbounds email)) :
    let base := storedBaseline db.nodeClientTraffics nodeId email
    let canon := nodeEmailTotals tick.inbounds email
    let after := storedBaseline final.nodeClientTraffics nodeId email
    (rowsOf final.clientTraffics email).length ≤ 1 ∧
      ((after = base ∧ ∀ d, (final.added email).along d ≤ 0) ∨
        (after = some canon ∧ ∀ d, (final.added email).along d ≤ (counterDelta base canon).along d)) := by
  intro base canon after
  obtain ⟨start, rfl, tracked, rows, sub, shown⟩ := mergeTraffic_reported h reported present
  let touched (v : View) : Prop := v.rows.length ≤ 1 ∧
    ((v.base = base ∧ ∀ d, v.added.along d ≤ 0) ∨
      (v.base = some canon ∧ ∀ d, v.added.along d ≤ (counterDelta base canon).along d))
  have fresh : touched (start.view email) := by
    rw [shown]
    exact ⟨sub.length_le.trans once, .inl ⟨rfl, fun d => by cases d <;> exact le_refl _⟩⟩
  have copy (u v : View) (held : touched u) (copied : Copied (lifecycleFrozen db tick nodeId) canon u v) : touched v := by
    obtain ⟨few, part⟩ := held
    rcases copied.cases with ⟨thawed, added, -, f, -, rowsEq⟩ | ⟨-, f, adds, rowsEq, added⟩
    · refine ⟨by simpa [rowsEq] using few, .inr ⟨by simp [copied.base, copyBase, thawed], fun d => ?_⟩⟩
      rw [added]
      rcases part with ⟨-, none⟩ | ⟨-, some⟩
      · exact (none d).trans (counterDelta_nonneg ..)
      · exact some d
    · refine ⟨by simpa [rowsEq] using few, ?_⟩
      have gains (d : Direction) := clamped_sum_le few (counterDelta_nonneg u.base canon d) fun r => adds r d
      rcases part with ⟨same, none⟩ | ⟨same, some⟩
      · rw [copied.base, same, copyBase]
        split
        · rename_i kept
          rw [Bool.and_eq_true] at kept
          refine .inl ⟨rfl, fun d => ?_⟩
          cases there : base with
          | none => rw [there] at kept; cases kept.2
          | some b =>
              have still := counterDelta_dipped (there ▸ kept.2) (pure kept.1 b there) d
              have gain := gains d
              rw [same, there, still] at gain
              rw [added d]
              exact add_nonpos (none d) gain
        · refine .inr ⟨rfl, fun d => ?_⟩
          have gain := gains d
          rw [same] at gain
          rw [added d]
          linarith [none d]
      · refine .inr ⟨by rw [copied.base, same, copyBase_self], fun d => ?_⟩
        have gain := gains d
        rw [same, counterDelta_self] at gain
        rw [added d]
        linarith [some d]
  obtain ⟨track, part⟩ := @mergeInbounds_view (nodeRow db nodeId) tick (mergeDirty db tick nodeId)
    (lifecycleFrozen db tick nodeId) email db adopted reported start touched
    (fun u v held copied => copy u v (held.elim (fun first => first ▸ fresh) id) copied)
    (by rw [nodeRow_id]; exact tracked) tick.inbounds
  have done := part.elim id fun untouched => untouched.1 ▸ fresh
  rw [nodeRow_id] at track
  simp only [after, track.stored]
  exact done

def ReportedKnown (adopted : Adoption) (snap : List Inbound) (email : String) : Prop :=
  ∃ ib ∈ snap, (adopted.tagToCentral ib.tag).isSome = true ∧ email ∈ snapEmails ib

instance (adopted : Adoption) (snap : List Inbound) (email : String) : Decidable (ReportedKnown adopted snap email) := by
  unfold ReportedKnown
  infer_instance

def Below (rows : List ClientTraffic) (base : Option Counter) (canon : Counter) (d : Direction) : Prop :=
  canon.along d ≤ trafficMax ∧ ∀ r ∈ rows, r.along d + (counterDelta base canon).along d ≤ trafficMax

instance (rows : List ClientTraffic) (base : Option Counter) (canon : Counter) (d : Direction) :
    Decidable (Below rows base canon d) := by
  unfold Below
  infer_instance

/-- Below the cap, a merge adds exactly what the counter has gained, or passes it over in a renewal. -/
theorem mergeTraffic_exact (h : mergeTraffic db tick nodeId = .ok (adopted, final))
    (present : email ∈ db.clientTraffics.map (·.email)) (once : (rowsOf db.clientTraffics email).length ≤ 1)
    (stays : email ∈ final.clientTraffics.map (·.email)) (known : ReportedKnown adopted tick.inbounds email)
    (level : lifecycleFrozen db tick nodeId = true → ∀ base,
      storedBaseline db.nodeClientTraffics nodeId email = some base → ¬Mixed base (nodeEmailTotals tick.inbounds email))
    {d : Direction} (below : Below (rowsOf db.clientTraffics email) (storedBaseline db.nodeClientTraffics nodeId email)
      (nodeEmailTotals tick.inbounds email) d) :
    let base := storedBaseline db.nodeClientTraffics nodeId email
    let canon := nodeEmailTotals tick.inbounds email
    let after := storedBaseline final.nodeClientTraffics nodeId email
    (final.added email).along d + (final.overwritten email).along d = (counterDelta base canon).along d ∧
      (after = some canon ∨ (after = base ∧ dipped base canon = true ∧ (counterDelta base canon).along d = 0)) := by
  intro base canon after
  obtain ⟨ib, mem, central, within⟩ := known
  have reported : email ∈ snapEmailsAll tick.inbounds := List.mem_flatMap.mpr ⟨ib, mem, within⟩
  obtain ⟨start, rfl, tracked, rows, sub, shown⟩ := mergeTraffic_reported h reported present
  let total (v : View) : Int := v.added.along d + v.overwritten.along d
  let fits (v : View) : Prop := ∀ r ∈ v.rows, r.along d + (counterDelta v.base canon).along d ≤ trafficMax
  let kept (v : View) : Prop := v.base = base ∧ lifecycleFrozen db tick nodeId = true ∧ dipped base canon = true ∧ total v = 0
  let moved (v : View) : Prop := v.base = some canon ∧ total v = (counterDelta base canon).along d
  -- the row may have gone with a swept inbound, which `stays` excludes in the end
  let touched (v : View) : Prop := v.rows.length = rows.length ∧ (rows.length = 1 → fits v ∧ (kept v ∨ moved v))
  have still (frozen : lifecycleFrozen db tick nodeId = true) (dip : dipped base canon = true) :
      (counterDelta base canon).along d = 0 := by
    cases there : base with
    | none => exact counterDelta_none ..
    | some b => exact counterDelta_dipped (there ▸ dip) (level frozen b there) d
  have copy (u v : View) (len : u.rows.length = rows.length)
      (held : rows.length = 1 → fits u ∧ ((u.base = base ∧ total u = 0) ∨ moved u))
      (copied : Copied (lifecycleFrozen db tick nodeId) canon u v) : touched v := by
    rcases copied.cases with ⟨thawed, added, past, f, sets, rowsEq⟩ | ⟨past, f, adds, rowsEq, added⟩
    · refine ⟨by simp [rowsEq, len], fun one => ?_⟩
      obtain ⟨-, part⟩ := held one
      have base' : v.base = some canon := by simp [copied.base, copyBase, thawed]
      refine ⟨?_, .inr ⟨base', ?_⟩⟩
      · intro r mem
        rw [rowsEq] at mem
        obtain ⟨r', -, rfl⟩ := List.mem_map.mp mem
        rw [sets, base', counterDelta_self, add_zero]
        exact below.1
      · simp only [total, added, past, Counter.add_along]
        rcases part with ⟨same, zero⟩ | ⟨same, sum⟩
        · simp only [total] at zero
          rw [same]
          linarith
        · simp only [total] at sum
          rw [same, counterDelta_self]
          linarith
    · refine ⟨by simp [rowsEq, len], fun one => ?_⟩
      obtain ⟨fit, part⟩ := held one
      have gain := clamped_sum_eq (len.trans one) fit fun r => adds r d
      have sum : total v = total u + (counterDelta u.base canon).along d := by
        simp only [total, past, added d, gain]
        ring
      have room (r : ClientTraffic) (mem : r ∈ v.rows) (zero : (counterDelta v.base canon).along d = 0) :
          r.along d + (counterDelta v.base canon).along d ≤ trafficMax := by
        rw [rowsEq] at mem
        obtain ⟨r', -, rfl⟩ := List.mem_map.mp mem
        rw [adds, zero, add_zero]
        exact min_le_right ..
      rcases part with ⟨same, zero⟩ | ⟨same, whole⟩
      · by_cases stuck : (lifecycleFrozen db tick nodeId && dipped base canon) = true
        · have base' : v.base = base := by rw [copied.base, same, copyBase, if_pos stuck]
          rw [Bool.and_eq_true] at stuck
          have none := still stuck.1 stuck.2
          refine ⟨fun r mem => room r mem (base' ▸ none), .inl ⟨base', stuck.1, stuck.2, ?_⟩⟩
          rw [sum, zero, same, none, add_zero]
        · have base' : v.base = some canon := by rw [copied.base, same, copyBase, if_neg stuck]
          refine ⟨fun r mem => room r mem (base' ▸ counterDelta_self ..), .inr ⟨base', ?_⟩⟩
          rw [sum, zero, same, zero_add]
      · have base' : v.base = some canon := by rw [copied.base, same, copyBase_self]
        refine ⟨fun r mem => room r mem (base' ▸ counterDelta_self ..), .inr ⟨base', ?_⟩⟩
        rw [sum, whole, same, counterDelta_self, add_zero]
  have copies (u v : View) (held : u = start.view email ∨ touched u)
      (copied : Copied (lifecycleFrozen db tick nodeId) canon u v) : touched v := by
    rcases held with first | held
    · rw [first, shown] at copied
      refine copy _ v rfl (fun one => ⟨fun r mem => below.2 r (sub.subset mem), .inl ⟨rfl, ?_⟩⟩) copied
      cases d <;> rfl
    · exact copy u v held.1 (fun one => ⟨(held.2 one).1, (held.2 one).2.imp_left fun k => ⟨k.1, k.2.2.2⟩⟩) copied
  obtain ⟨track, part⟩ := @mergeInbounds_view (nodeRow db nodeId) tick (mergeDirty db tick nodeId)
    (lifecycleFrozen db tick nodeId) email db adopted reported start touched copies
    (by rw [nodeRow_id]; exact tracked) tick.inbounds
  rw [nodeRow_id] at track
  obtain ⟨len, done⟩ := part.resolve_right fun untouched => untouched.2 ib mem (Option.isSome_iff_ne_none.mp central) within
  obtain ⟨r, held, same⟩ := List.mem_map.mp stays
  have row : r ∈ rowsOf _ email := List.mem_filter.mpr ⟨held, by simpa using same⟩
  have one : rows.length = 1 := by
    have some := List.length_pos_of_mem row
    have few := sub.length_le.trans once
    simp only [Merge.view] at len
    omega
  obtain ⟨-, kept | moved⟩ := done one
  · refine ⟨?_, .inr ⟨track.stored.trans kept.1, kept.2.2.1, still kept.2.1 kept.2.2.1⟩⟩
    exact kept.2.2.2.trans (still kept.2.1 kept.2.2.1).symm
  · exact ⟨moved.2, .inl (track.stored.trans moved.1)⟩

end ThreeXNode.Panel
