import ThreeXNode.Panel.BulkAdjusted

namespace ThreeXNode.Panel
open Library Classical

section Adjusting

variable {p : Passes} {a : Adjustment} {emails : List String} {db : Database}

/-! ## The whole call -/

def adjustedState (p : Passes) (a : Adjustment) (emails : List String) (db : Database) : Adjusting :=
  (visits p a emails db).foldl (fun st id =>
    adjustInbound p a.directive (planOf a emails db) (emailsAt db (plannedRecords a emails db) id) st id) ⟨db, [], [], []⟩

def wasDisabledDepleted (clock : Clock) (a : Adjustment) (emails : List String) (db : Database) (st : Adjusting) : List String :=
  (st.db.clientTraffics.filter fun row => depleted st.db clock row && row.enable = false &&
    row.email ∈ ((planOf a emails db).filter (·.2.changes)).map (·.1)).map (·.email)

def reEnabled (p : Passes) (clock : Clock) (a : Adjustment) (emails : List String) (db : Database) (st : Adjusting) :
    List String :=
  (wasDisabledDepleted clock a emails db st).filter (· ∉ ((written p a emails db st).clientTraffics.filter fun row =>
    depleted (written p a emails db st) clock row && row.email ∈ wasDisabledDepleted clock a emails db st).map (·.email))

def adjustedEmails (p : Passes) (a : Adjustment) (emails : List String) (db : Database) (st : Adjusting) : List String :=
  ((updatedOf p (planOf a emails db) st.failed).filter fun entry => entry.2.changes || entry.1 ∈ st.honored).map (·.1)

def skipReason (p : Passes) (a : Adjustment) (emails : List String) (db : Database) (st : Adjusting) (email : String) :
    Option String :=
  match recordOf db email with
  | none => some "client not found"
  | some rec => ((planReason a rec).or (failReason st.failed email)).or
      (((liveOf (planOf a emails db) st.failed).find? (·.1 = email)).bind p.refused)

def skippedReports (p : Passes) (a : Adjustment) (emails : List String) (db : Database) (st : Adjusting) : List BulkReport :=
  ((cleanEmails emails).filterMap fun email => (skipReason p a emails db st email).map (⟨email, ·⟩)) ++
    ((cleanEmails emails).filter fun email => email ∈ st.ineligible && email ∉ st.honored &&
      (skipReason p a emails db st email).isNone).map (⟨·, "flow not supported on inbound"⟩)

theorem bulkAdjust_eq {enabling : Passes} {clock : Clock} (some' : emails ≠ [])
    (asked : ¬(a.addDays = 0 ∧ a.addBytes = 0 ∧ a.directive = "")) :
    bulkAdjust p enabling clock a emails db =
      let st := adjustedState p a emails db
      .ok (if reEnabled p clock a emails db st = [] then written p a emails db st
        else (bulkSetEnable enabling (reEnabled p clock a emails db st) true clock.now (written p a emails db st)).1,
        ⟨adjustedEmails p a emails db st, skippedReports p a emails db st⟩) := by
  unfold bulkAdjust
  rw [if_neg some', if_neg asked]
  rfl

section Reports

variable {st : Adjusting} (held : Adjusted p a emails db (visits p a emails db) st)
include held

theorem mem_adjustedEmails {email : String} : email ∈ adjustedEmails p a emails db st ↔
    ∃ rec ∈ plannedRecords a emails db, rec.email = email ∧ ReportedAdjusted p a db rec := by
  have listed : email ∈ adjustedEmails p a emails db st ↔ ∃ rec ∈ plannedRecords a emails db, rec.email = email ∧
      rec.email ∉ st.failed.map Prod.fst ∧ (p.refused (rec.email, planEntry a rec)).isNone = true ∧
        ((planEntry a rec).changes = true ∨ rec.email ∈ st.honored) := by
    unfold adjustedEmails updatedOf liveOf planOf
    rw [List.filter_filter, List.filter_filter, List.filter_map, List.map_map, List.mem_map]
    simp only [List.mem_filter, Function.comp_apply, Bool.and_eq_true, Bool.or_eq_true, decide_eq_true_eq]
    refine exists_congr fun rec => ?_
    tauto
  rw [listed]
  refine exists_congr fun rec => and_congr_right fun planned => and_congr_right fun _ => ?_
  have updated : (p.refused (rec.email, planEntry a rec)).isNone = true ↔ ¬RowFailsFor p a rec := by
    rw [← refused_isSome, Bool.not_eq_true, Option.isSome_eq_false_iff]
  rw [failed_iff held planned, honored_iff held planned, updated]
  unfold ReportedAdjusted
  refine and_congr_right fun whole => and_congr_right fun _ => or_congr_right (exists_congr fun id =>
    and_congr_right fun there => ?_)
  have pass : p.fails id = none := by
    by_contra fails
    exact whole ⟨id, there, fails⟩
  exact and_iff_right (unread_none pass)

omit held in
theorem skipReason_isSome {rec : ClientRecord} (planned : rec ∈ plannedRecords a emails db) :
    (skipReason p a emails db st rec.email).isSome = true ↔
      (planReason a rec).isSome = true ∨ rec.email ∈ st.failed.map Prod.fst ∨ RowFailsFor p a rec := by
  unfold skipReason failReason
  rw [(mem_planned planned).2.2.1]
  simp only [Option.isSome_or, Option.isSome_map, Bool.or_eq_true, or_assoc, find_live planned]
  rw [List.find?_isSome]
  refine or_congr_right ?_
  by_cases fails : rec.email ∈ st.failed.map Prod.fst
  · obtain ⟨entry, mem, own⟩ := List.mem_map.mp fails
    exact ⟨fun _ => .inl fails, fun _ => .inl ⟨entry, mem, by simpa using own⟩⟩
  · have none : ¬∃ x ∈ st.failed, decide (x.1 = rec.email) = true := by
      rintro ⟨entry, mem, own⟩
      exact fails (List.mem_map.mpr ⟨entry, mem, by simpa using own⟩)
    rw [if_neg fails, or_iff_right none, or_iff_right fails]
    exact refused_isSome

omit held in
theorem skipReason_unplanned {rec : ClientRecord} (found : recordOf db rec.email = some rec)
    (absent : rec.email ∉ (planOf a emails db).map (·.1)) :
    (skipReason p a emails db st rec.email).isSome = true ↔
      (planReason a rec).isSome = true ∨ rec.email ∈ st.failed.map Prod.fst := by
  have unplanned : (liveOf (planOf a emails db) st.failed).find? (·.1 = rec.email) = none := by
    refine List.find?_eq_none.mpr fun entry here own => absent ?_
    exact List.mem_map.mpr ⟨entry, List.mem_of_mem_filter here, by simpa using own⟩
  unfold skipReason failReason
  rw [found]
  simp [unplanned, List.find?_isSome]

omit held in
theorem skipped_iff {email : String} : email ∈ (skippedReports p a emails db st).map (·.email) ↔ email ∈ cleanEmails emails ∧
    ((skipReason p a emails db st email).isSome = true ∨ (email ∈ st.ineligible ∧ email ∉ st.honored)) := by
  unfold skippedReports
  simp only [List.map_append, List.mem_append, List.map_map, List.mem_map, List.mem_filterMap, List.mem_filter,
    Option.map_eq_some_iff, Bool.and_eq_true, decide_eq_true_eq, Function.comp_apply]
  constructor
  · rintro (⟨_, ⟨e, mem, reason, found, rfl⟩, rfl⟩ | ⟨e, ⟨mem, ⟨ineligible, honored⟩, -⟩, rfl⟩)
    · exact ⟨mem, .inl (Option.isSome_iff_exists.mpr ⟨reason, found⟩)⟩
    · exact ⟨mem, .inr ⟨ineligible, honored⟩⟩
  · rintro ⟨mem, reported⟩
    cases reason : skipReason p a emails db st email with
    | some text => exact .inl ⟨_, ⟨email, mem, text, reason, rfl⟩, rfl⟩
    | none =>
        rw [reason] at reported
        obtain ⟨ineligible, honored⟩ := reported.resolve_left (by simp)
        exact .inr ⟨email, ⟨mem, ⟨ineligible, honored⟩, by rw [reason]; rfl⟩, rfl⟩

theorem mem_skippedReports {email : String} : email ∈ (skippedReports p a emails db st).map (·.email) ↔
    email ∈ cleanEmails emails ∧ ∀ rec, recordOf db email = some rec → ReportedSkipped p a db rec := by
  rw [skipped_iff]
  refine and_congr_right fun mem => ?_
  cases found : recordOf db email with
  | none => simp [skipReason, found]
  | some rec =>
      obtain ⟨-, rfl⟩ := recordOf_some found
      simp only [Option.some.injEq, forall_eq']
      by_cases planned : isPlanned a rec = true
      · have rec_mem : rec ∈ plannedRecords a emails db :=
          List.mem_filter.mpr ⟨List.mem_filterMap.mpr ⟨rec.email, mem, found⟩, planned⟩
        rw [skipReason_isSome rec_mem, failed_iff held rec_mem, honored_iff held rec_mem, ineligible_iff held rec_mem]
        unfold ReportedSkipped
        rw [and_iff_right planned, or_assoc, or_assoc]
        refine or_congr_right ?_
        by_cases fails : FailsFor p db rec
        · exact ⟨fun _ => .inl fails, fun _ => .inl fails⟩
        · have pass : ∀ id, linked db rec.id id = true → p.fails id = none := by
            intro id there
            by_contra failing
            exact fails ⟨id, there, failing⟩
          refine or_congr_right (or_congr_right (and_congr (exists_congr fun id => and_congr_right fun there => ?_) ?_))
          · exact and_iff_right (unread_none (pass id there))
          · rw [not_exists]
            refine forall_congr' fun id => ?_
            exact ⟨fun none there eligible => none ⟨there, unread_none (pass id there), eligible⟩, fun none both => none both.1 both.2.2⟩
      · have absent : ∀ id, rec.email ∉ emailsAt db (plannedRecords a emails db) id := by
          intro id here
          obtain ⟨other, other_mem, -, own⟩ := mem_emailsAt.mp here
          have found' := (mem_planned other_mem).2.2.1
          rw [own, found] at found'
          exact planned (Option.some.inj found' ▸ (mem_planned other_mem).2.2.2)
        have unplanned : rec.email ∉ (planOf a emails db).map (·.1) := by
          intro listed
          obtain ⟨other, other_mem, own⟩ := mem_plan.mp listed
          have found' := (mem_planned other_mem).2.2.1
          rw [own, found] at found'
          exact planned (Option.some.inj found' ▸ (mem_planned other_mem).2.2.2)
        rw [skipReason_unplanned found unplanned, held.failed, held.ineligible]
        unfold ReportedSkipped
        simp [absent, planned]

end Reports

section Call

variable {enabling : Passes} {clock : Clock} (consistent : Consistent (copies db)) {db' : Database} {result : BulkAdjustResult}
  (done : bulkAdjust p enabling clock a emails db = .ok (db', result))
include consistent done

theorem adjusting_copies : copies db' = (copies db).adjusted (changeBy (planOf a emails db)) (fun id => p.fails id = none)
    fun email => p.rowFails email = none := by
  have held := (@adjusted_all p a emails db) consistent
  by_cases some' : emails = []
  · subst some'
    obtain rfl : db = db' := by
      unfold bulkAdjust at done
      cases done
      rfl
    exact (adjusted_same fun email limits => changeBy_other List.not_mem_nil limits).symm
  · by_cases asked : a.addDays = 0 ∧ a.addBytes = 0 ∧ a.directive = ""
    · unfold bulkAdjust at done
      rw [if_neg some', if_pos asked] at done
      cases done
    · rw [bulkAdjust_eq some' asked] at done
      cases done
      refine Eq.trans ?_ (written_copies consistent held)
      split
      · rfl
      · refine reEnable_copies consistent held fun email mem => ?_
        obtain ⟨was, still⟩ := List.mem_filter.mp mem
        refine reEnabled_passes held ?_ was (of_decide_eq_true still)
        intro other candidate
        obtain ⟨entry, entry_mem, rfl⟩ := List.mem_map.mp candidate
        exact List.mem_map_of_mem (List.mem_of_mem_filter entry_mem)

end Call

end Adjusting

/-! ### A client with two inbounds -/

section Ann

def annClient : Json :=
  .obj [("email", .str "ann"), ("enable", .bool true), ("expiryTime", .ofInt 1000), ("totalGB", .ofInt 50)]

def annInbound (id : Nat) : Inbound :=
  ⟨id, none, "", toString id, "", 443, .vless, some (Std.ExtTreeMap.ofList [("clients", Json.arr [annClient])]), none, "", "never", 1, 0, true, "",
    0, 0, 0, 0, 0, false, []⟩

def annRecord : ClientRecord where
  id := 7
  email := "ann"
  subID := ""
  uuid := ""
  password := ""
  auth := ""
  flow := ""
  security := ""
  reverse := none
  privateKey := ""
  publicKey := ""
  allowedIPs := ""
  preSharedKey := ""
  keepAlive := 0
  forwardedPorts := ""
  secret := ""
  adTag := ""
  limitIP := 0
  totalGB := 50
  expiryTime := 1000
  enable := true
  tgID := 0
  group := ""
  comment := ""
  reset := 0
  resetDay := 0
  resetMax := 0
  trafficReset := "never"
  trafficResetDay := 1
  createdAt := 0
  updatedAt := 0
  syncOrphanedAt := 0

def annDatabase : Database where
  panelGuid := ""
  nodes := []
  inbounds := [annInbound 1, annInbound 2]
  nextInboundId := 3
  clients := [annRecord]
  nextClientId := 8
  clientInbounds := [⟨7, 1, ""⟩, ⟨7, 2, ""⟩]
  clientTraffics := [⟨1, true, "ann", 0, 0, 1000, 50, 0, 0, 0, 0, 0⟩]
  nodeClientTraffics := []
  clientGlobalTraffics := []

theorem ann_shown (id : Nat) : shownAt annDatabase id = if id = 1 ∨ id = 2 then some [("ann", ⟨1000, 50⟩)] else none := by
  by_cases first : id = 1
  · subst first
    decide +kernel
  · by_cases second : id = 2
    · subst second
      decide +kernel
    · have absent : rowAt annDatabase id = none := by
        simp [rowAt, annDatabase, annInbound, Ne.symm first, Ne.symm second]
      unfold shownAt
      rw [absent, if_neg (by simp [first, second])]
      rfl

theorem ann_linked {clientId id : Nat} : linked annDatabase clientId id = true ↔ clientId = 7 ∧ (id = 1 ∨ id = 2) := by
  rw [linked_iff]
  constructor
  · rintro ⟨link, mem, rfl, rfl⟩
    rcases List.mem_cons.mp mem with rfl | mem
    · exact ⟨rfl, .inl rfl⟩
    · rw [List.mem_singleton.mp mem]
      exact ⟨rfl, .inr rfl⟩
  · rintro ⟨rfl, rfl | rfl⟩
    · exact ⟨⟨7, 1, ""⟩, List.mem_cons_self, rfl, rfl⟩
    · exact ⟨⟨7, 2, ""⟩, List.mem_cons_of_mem _ List.mem_cons_self, rfl, rfl⟩

theorem ann_consistent : Consistent (copies annDatabase) := by
  have listed : ∀ {id listed}, (copies annDatabase).shown id = some listed →
      (id = 1 ∨ id = 2) ∧ listed = [("ann", ⟨1000, 50⟩)] := by
    intro id listed shown
    have shown : shownAt annDatabase id = some listed := shown
    rw [ann_shown] at shown
    split at shown
    · rename_i here
      exact ⟨here, (Option.some.inj shown).symm⟩
    · cases shown
  have only : ∀ r ∈ (copies annDatabase).records, r = annRecord.holder := fun r mem => List.mem_singleton.mp mem
  refine ⟨⟨by decide, by decide⟩, fun id => ⟨?_, ?_, ?_⟩, ?_, ?_⟩
  · intro shown here e mem
    obtain ⟨-, rfl⟩ := listed here
    rw [List.mem_singleton.mp mem]
    rfl
  · intro shown here e mem _
    obtain ⟨place, rfl⟩ := listed here
    rw [List.mem_singleton.mp mem]
    exact ⟨annRecord.holder, List.mem_singleton_self _, rfl, ann_linked.mpr ⟨rfl, place⟩⟩
  · intro clientId there
    obtain ⟨rfl, place⟩ := ann_linked.mp there
    exact ⟨annRecord.holder, List.mem_singleton_self _, rfl, by decide, _, (ann_shown id).trans (if_pos place),
      List.mem_singleton_self _⟩
  · intro id shown here e mem r r_mem _ _
    obtain ⟨-, rfl⟩ := listed here
    rw [List.mem_singleton.mp mem, only r r_mem]
    rfl
  · intro row mem r r_mem _
    rw [List.mem_singleton.mp mem, only r r_mem]
    rfl

def halfFails : Passes := ⟨fun _ => 5, fun _ => by decide, fun id => if id = 2 then some ⟨"database is locked", true⟩ else none, fun _ => none, id, fun _ => .refl _⟩

def oneDay : Adjustment := ⟨1, 0, ""⟩

end Ann

/-! ## Runs of bulk calls -/

inductive BulkCall where
  | adjust (p enabling : Passes) (clock : Clock) (a : Adjustment) (emails : List String)
  | setEnable (p : Passes) (emails : List String) (enable : Bool) (now : Int)

def BulkCall.run (db : Database) : BulkCall → Database
  | .adjust p enabling clock a emails =>
      match bulkAdjust p enabling clock a emails db with
      | .ok (db', _) => db'
      | .error _ => db
  | .setEnable p emails enable now => (bulkSetEnable p emails enable now db).1

/-- An adjustment for which no client has inbounds of which some fail and some do not, nor a traffic row that is updated
without them or left behind by them. -/
def BulkCall.Whole (db : Database) : BulkCall → Prop
  | .adjust p _ _ a emails => Panel.WholeEdit (copies db) (changeBy (planOf a emails db)) (fun id => p.fails id = none)
      fun email => p.rowFails email = none
  | .setEnable .. => True

theorem changeBy_nothing {a : Adjustment} (days : a.addDays = 0) (bytes : a.addBytes = 0) (emails : List String) (db : Database)
    (email : String) (limits : Limits) : changeBy (planOf a emails db) email limits = limits := by
  by_cases mem : email ∈ (planOf a emails db).map (·.1)
  · obtain ⟨rec, planned, rfl⟩ := mem_plan.mp mem
    rw [changeBy_planned planned]
    simp [planEntry, planExpiry, planTotal, days, bytes, BulkAdjustEntry.on]
  · exact changeBy_other mem limits

theorem bulkCall_consistent {db : Database} (consistent : Consistent (copies db)) (call : BulkCall) :
    Consistent (copies (call.run db)) ↔ call.Whole db := by
  cases call with
  | setEnable p emails enable now =>
      have same : copies (bulkSetEnable p emails enable now db).1 = copies db := by
        refine bulkSetEnable_copies consistent.keyed fun id visited => ?_
        obtain ⟨rec, -, there⟩ := mem_inboundsOf.mp visited
        obtain ⟨-, -, -, -, listed, shown, -⟩ := (consistent.names id).linked rec.id there
        exact ⟨consistent.names id, consistent.limits id, listed, shown⟩
      exact ⟨fun _ => trivial, fun _ => same ▸ consistent⟩
  | adjust p enabling clock a emails =>
      unfold BulkCall.run BulkCall.Whole
      cases done : bulkAdjust p enabling clock a emails db with
      | error reason =>
          have nothing : a.addDays = 0 ∧ a.addBytes = 0 := by
            by_contra asked
            unfold bulkAdjust at done
            split at done
            · cases done
            · rw [if_neg (fun all => asked ⟨all.1, all.2.1⟩)] at done
              cases done
          refine ⟨fun _ r mem changes => absurd (changeBy_nothing nothing.1 nothing.2 emails db r.email r.limits) changes, ?_⟩
          intro _
          simp only [done]
          exact consistent
      | ok outcome =>
          obtain ⟨db', result⟩ := outcome
          simp only [done]
          rw [adjusting_copies consistent done]
          exact adjusted_consistent consistent

end ThreeXNode.Panel
