import ThreeXNode.Panel.LimitCopies

namespace ThreeXNode.Panel
open Library Classical
open Service (Ports.trimSpace Ports.isSpace)

/-! # What a bulk adjustment does to every copy of the limits -/

def limitsOf (c : Copies) (email : String) : Limits :=
  ((c.records.find? (·.email = email)).map Holder.limits).getD ⟨0, 0⟩

theorem limitsOf_eq {c : Copies} (keyed : KeyedCopies c) {r : Holder} (mem : r ∈ c.records) : limitsOf c r.email = r.limits := by
  unfold limitsOf
  cases found : c.records.find? (·.email = r.email) with
  | none => exact absurd (List.find?_eq_none.mp found r mem) (by simp)
  | some s =>
      have named : s.email = r.email := by simpa using List.find?_some found
      rw [keyed.of_email (List.mem_of_find?_eq_some found) mem named]
      rfl

theorem committed_same {c : Copies} (keyed : KeyedCopies c) {id : Nat} {listed : List ListedClient} (shown : c.shown id = some listed) :
    c.committed id listed (limitsOf c) = c := by
  unfold Copies.committed
  have records : (c.records.map fun r => if c.links r.id id then { r with limits := limitsOf c r.email } else r) = c.records := by
    refine (List.map_congr_left fun r mem => ?_).trans (List.map_id c.records)
    rw [limitsOf_eq keyed mem, ite_self]
    rfl
  rw [records, ← shown, Function.update_eq_self]

/-! ## Switching on and off -/

section Enabling

variable {p : Passes} {enable : Bool}

theorem listedIn_enable {wanted : List String} {now : Int} (nowFits : InInt64 now) {settings o : Fields}
    (made : bulkSetEnableInboundClients wanted enable now settings = some o) {listed : List ListedClient}
    (shown : listedIn (some settings) = some listed) : listedIn (some o) = some listed := by
  have shown' := (@listedIn_changeEntries _ _ _ _ id) made shown (keepsPlain_enable enable now) ?_ ?_
  · rwa [List.map_id] at shown'
  · intro entry c selected decoded _
    rw [Bool.and_eq_true] at selected
    have nonblank : entryEmail entry ≠ "" := by
      have wanted := selected.1
      simp only [wantedEntry, Bool.and_eq_true, decide_eq_true_eq] at wanted
      exact wanted.1.2
    obtain ⟨members, rfl, -⟩ := entry_of_email nonblank
    obtain ⟨c', decoded', email, limits⟩ := (@ofJson_enabled (.obj members)) rfl decoded enable nowFits
    exact ⟨c', decoded', Prod.ext email limits⟩
  · intro entry c _ _ _
    rfl

theorem enableInbound_copies {wanted : List String} {st : Enabling} {id : Nat} (keyed : KeyedCopies (copies st.db))
    (names : NamesAt (copies st.db) id) (limits : LimitsAt (copies st.db) id) {listed : List ListedClient}
    (shown : shownAt st.db id = some listed) : copies (enableInbound p enable wanted st id).db = copies st.db := by
  unfold enableInbound
  obtain ⟨ib, row, here⟩ := Option.bind_eq_some_iff.mp shown
  rw [row]
  cases p.unread id with
  | some failure => rfl
  | none =>
      simp only
      split
      · rfl
      · rename_i stored
        cases made : (Edit.bulkSetEnableInboundClients wanted enable (p.now id)).newSettings some (knownEmail st.db) ib with
        | none => rfl
        | some settings =>
            obtain ⟨before, decoded, same⟩ := listedIn_decoded stored
            rw [Edit.newSettings, decoded, Option.bind_some] at made
            have shown' := listedIn_enable (p.now_fits id) made (same.trans here)
            have holder : ∀ entry ∈ listed, trimSpace entry.1 ≠ "" → ∃ r ∈ (copies st.db).records, r.email = trimSpace entry.1 := by
              intro entry mem nonblank
              have trimmed := names.trimmed listed shown entry mem
              obtain ⟨r, r_mem, own, -⟩ := names.named listed shown entry mem (trimmed ▸ nonblank)
              exact ⟨r, r_mem, own.trans trimmed.symm⟩
            have known : ∀ entry ∈ listed, trimSpace entry.1 ≠ "" → trimSpace entry.1 ∈ st.db.clients.map (·.email) := by
              intro entry mem nonblank
              obtain ⟨r, r_mem, own⟩ := holder entry mem nonblank
              obtain ⟨rec, rec_mem, rfl⟩ := mem_records.mp r_mem
              exact List.mem_map.mpr ⟨rec, rec_mem, own⟩
            have same : ∀ entry ∈ listed, trimSpace entry.1 ≠ "" →
                entry.2 = limitsOf (copies st.db) (trimSpace entry.1) := by
              intro entry mem nonblank
              obtain ⟨r, r_mem, own⟩ := holder entry mem nonblank
              have trimmed := names.trimmed listed shown entry mem
              rw [← own, limitsOf_eq keyed r_mem]
              exact (limits listed shown entry mem r r_mem (own.trans trimmed) (trimmed ▸ nonblank)).symm
            obtain ⟨db', committed, spec⟩ := (@commit_spec st.db (p.now id)) row shown' known same
              (.bulkSetEnableInboundClients wanted enable (p.now id)) rfl
            cases p.fails id with
            | some failure => rfl
            | none =>
                simp only
                rw [committed]
                exact (committed_copies keyed names shown rfl shown' spec).trans (committed_same keyed shown)

theorem bulkSetEnable_copies {emails : List String} {now : Int} {db : Database} (keyed : KeyedCopies (copies db))
    (agree : ∀ id ∈ inboundsOf db ((cleanEmails emails).filterMap (recordOf db)),
      NamesAt (copies db) id ∧ LimitsAt (copies db) id ∧ ∃ listed, shownAt db id = some listed) :
    copies (bulkSetEnable p emails enable now db).1 = copies db := by
  let records := (cleanEmails emails).filterMap (recordOf db)
  have looped : copies ((p.order (inboundsOf db records)).foldl
      (fun st id => enableInbound p enable (emailsAt db records id) st id) (Enabling.mk db [])).db = copies db := by
    refine foldl_keeps (fun _ (st : Enabling) => copies st.db = copies db) _ rfl ?_
    intro done id st mem held
    obtain ⟨names, limits, listed, shown⟩ := agree id ((p.order_perm _).mem_iff.mp mem)
    have shown' : shownAt st.db id = some listed := (congrFun (congrArg Copies.shown held) id).trans shown
    exact (enableInbound_copies (held ▸ keyed) (held ▸ names) (held ▸ limits) shown').trans held
  refine Eq.trans ?_ looped
  unfold bulkSetEnable copies
  simp only [Copies.mk.injEq, List.map_map]
  refine ⟨List.map_congr_left fun rec _ => ?_, List.map_congr_left fun row _ => ?_, rfl, rfl⟩
  · rw [Function.comp_apply]
    split <;> rfl
  · rw [Function.comp_apply]
    split <;> rfl

end Enabling

/-! ## The plan -/

def changeBy (plan : List (String × BulkAdjustEntry)) (email : String) (limits : Limits) : Limits :=
  (planFor plan email).elim limits (·.on limits)

def plannedRecords (a : Adjustment) (emails : List String) (db : Database) : List ClientRecord :=
  ((cleanEmails emails).filterMap (recordOf db)).filter (isPlanned a)

def planOf (a : Adjustment) (emails : List String) (db : Database) : List (String × BulkAdjustEntry) :=
  (plannedRecords a emails db).map fun rec => (rec.email, planEntry a rec)

section Plan

variable {a : Adjustment} {emails : List String} {db : Database} {rec : ClientRecord}

theorem recordOf_some {email : String} (found : recordOf db email = some rec) : rec ∈ db.clients ∧ rec.email = email :=
  ⟨List.mem_of_find?_eq_some found, by simpa using List.find?_some found⟩

theorem mem_planned (mem : rec ∈ plannedRecords a emails db) :
    rec ∈ db.clients ∧ rec.email ∈ cleanEmails emails ∧ recordOf db rec.email = some rec ∧ isPlanned a rec = true := by
  obtain ⟨mem, planned⟩ := List.mem_filter.mp mem
  obtain ⟨email, here, found⟩ := List.mem_filterMap.mp mem
  obtain ⟨stored, rfl⟩ := recordOf_some found
  exact ⟨stored, here, found, planned⟩

theorem clean_nonblank {email : String} (mem : email ∈ cleanEmails emails) : email ≠ "" := by
  have filtered := List.mem_filter.mp (List.mem_dedup.mp mem)
  exact of_decide_eq_true filtered.2

theorem trimSpace_idempotent (s : String) : trimSpace (trimSpace s) = trimSpace s := by
  unfold trimSpace
  rw [String.toList_ofList]
  refine congrArg String.ofList ?_
  have trims : ∀ cs, Ports.trimSpace cs = (cs.dropWhile Ports.isSpace).rdropWhile Ports.isSpace := fun _ => rfl
  rw [trims (Ports.trimSpace _), trims]
  let body := s.toList.dropWhile Ports.isSpace
  have front : (body.rdropWhile Ports.isSpace).dropWhile Ports.isSpace = body.rdropWhile Ports.isSpace := by
    cases kept : body.rdropWhile Ports.isSpace with
    | nil => rfl
    | cons ch rest =>
        obtain ⟨tail, whole⟩ := kept ▸ List.rdropWhile_prefix Ports.isSpace (l := body)
        have first : body.head? = some ch := by rw [← whole, List.cons_append, List.head?_cons]
        have plain := List.head?_dropWhile_not Ports.isSpace s.toList
        rw [show s.toList.dropWhile Ports.isSpace = body from rfl, first] at plain
        rw [List.dropWhile_cons, if_neg (by simpa using plain)]
  rw [front, List.rdropWhile_idempotent]

theorem clean_trimmed {email : String} (mem : email ∈ cleanEmails emails) : trimSpace email = email := by
  obtain ⟨e, -, rfl⟩ := List.mem_map.mp (List.mem_of_mem_filter (List.mem_dedup.mp mem))
  exact trimSpace_idempotent e

theorem plan_nonblank : "" ∉ (planOf a emails db).map (·.1) := by
  intro mem
  unfold planOf at mem
  rw [List.map_map] at mem
  obtain ⟨rec, here, blank⟩ := List.mem_map.mp mem
  exact clean_nonblank (mem_planned here).2.1 blank

theorem plan_fits : ∀ entry ∈ planOf a emails db, entry.2.Fits := by
  intro entry mem
  obtain ⟨rec, -, rfl⟩ := List.mem_map.mp mem
  constructor
  · intro expiry planned
    simp only [planEntry, planExpiry] at planned
    split at planned
    · cases planned
    · split at planned
      · cases planned
      · split at planned <;> split at planned <;> cases planned <;> exact wrap64_range _
  · intro total planned
    simp only [planEntry, planTotal] at planned
    split at planned
    · cases planned
    · split at planned
      · cases planned
      · split at planned <;> cases planned
        exact wrap64_range _

theorem plan_of (mem : rec ∈ plannedRecords a emails db) :
    (planOf a emails db).find? (·.1 = rec.email) = some (rec.email, planEntry a rec) := by
  obtain ⟨-, -, found, -⟩ := mem_planned mem
  cases first : (planOf a emails db).find? (·.1 = rec.email) with
  | none =>
      have none := List.find?_eq_none.mp first _ (List.mem_map_of_mem mem)
      simp at none
  | some entry =>
      have named : entry.1 = rec.email := by simpa using List.find?_some first
      obtain ⟨other, here, rfl⟩ := List.mem_map.mp (List.mem_of_find?_eq_some first)
      obtain ⟨-, -, found', -⟩ := mem_planned here
      have same : other = rec := by
        rw [show other.email = rec.email from named, found] at found'
        exact (Option.some.inj found').symm
      rw [same]

theorem changeBy_planned (mem : rec ∈ plannedRecords a emails db) (limits : Limits) :
    changeBy (planOf a emails db) rec.email limits = (planEntry a rec).on limits := by
  unfold changeBy planFor
  rw [plan_of mem]
  rfl

theorem changeBy_other {email : String} (absent : email ∉ (planOf a emails db).map (·.1)) (limits : Limits) :
    changeBy (planOf a emails db) email limits = limits := by
  unfold changeBy
  rw [planFor_none absent]
  rfl

theorem mem_plan {email : String} :
    email ∈ (planOf a emails db).map (·.1) ↔ ∃ rec ∈ plannedRecords a emails db, rec.email = email := by
  unfold planOf
  rw [List.map_map]
  exact List.mem_map

theorem mem_emailsAt {records : List ClientRecord} {id : Nat} {email : String} :
    email ∈ emailsAt db records id ↔ ∃ rec ∈ records, linked db rec.id id = true ∧ rec.email = email := by
  unfold emailsAt
  simp only [List.mem_map, List.mem_filter, and_assoc]
  rfl

theorem mem_inboundsOf {records : List ClientRecord} {id : Nat} :
    id ∈ inboundsOf db records ↔ ∃ rec ∈ records, linked db rec.id id = true := by
  unfold inboundsOf
  simp only [List.mem_dedup, List.mem_map, List.mem_filter, decide_eq_true_eq, linked_iff]
  constructor
  · rintro ⟨link, ⟨here, rec, mem, own⟩, rfl⟩
    exact ⟨rec, mem, link, here, own.symm, rfl⟩
  · rintro ⟨rec, mem, link, here, own, rfl⟩
    exact ⟨link, ⟨here, rec, mem, own.symm⟩, rfl⟩

end Plan

/-! ## The passes over the inbounds -/

section Adjusting

variable {p : Passes} {a : Adjustment} {emails : List String} {db : Database}

def EligibleAt (flow : String) (db : Database) (id : Nat) : Prop :=
  flow ≠ "" ∧ ∃ ib, rowAt db id = some ib ∧ flowEligible flow ib = true

def IneligibleAt (flow : String) (db : Database) (id : Nat) : Prop :=
  flow ≠ "" ∧ ∃ ib, rowAt db id = some ib ∧ flowEligible flow ib = false

/-- After some of the passes: those that did not fail have changed the limits at their inbounds. -/
structure Adjusted (p : Passes) (a : Adjustment) (emails : List String) (db : Database) (done : List Nat) (st : Adjusting) :
    Prop where
  copies : copies st.db =
    (copies db).edited (changeBy (planOf a emails db)) fun id => id ∈ done ∧ p.fails id = none
  rows : ∀ id, id ∉ done → rowAt st.db id = rowAt db id
  failed : ∀ email, email ∈ st.failed.map Prod.fst ↔
    ∃ id ∈ done, p.fails id ≠ none ∧ email ∈ emailsAt db (plannedRecords a emails db) id
  honored : ∀ email, email ∈ st.honored ↔
    ∃ id ∈ done, p.unread id = none ∧ email ∈ emailsAt db (plannedRecords a emails db) id ∧ EligibleAt a.directive db id
  ineligible : ∀ email, email ∈ st.ineligible ↔
    ∃ id ∈ done, p.unread id = none ∧ email ∈ emailsAt db (plannedRecords a emails db) id ∧ IneligibleAt a.directive db id

theorem exists_mem_append_single {done : List Nat} {id : Nat} {q : Nat → Prop} :
    (∃ other ∈ done ++ [id], q other) ↔ (∃ other ∈ done, q other) ∨ q id := by
  simp only [List.mem_append, List.mem_singleton, or_and_right, exists_or, exists_eq_left]

theorem mem_ite_nil {c : Prop} [Decidable c] {wanted : List String} {email : String} :
    email ∈ (if c then wanted else []) ↔ email ∈ wanted ∧ c := by
  split
  · simp [*]
  · simp [*]

theorem shift_wanted {id : Nat} (keyed : KeyedCopies (copies db)) (names : NamesAt (copies db) id) {listed : List ListedClient}
    (shown : shownAt db id = some listed) {e : ListedClient} (mem : e ∈ listed) :
    shift ((planOf a emails db).filter (·.1 ∈ emailsAt db (plannedRecords a emails db) id)) e =
      (e.1, changeBy (planOf a emails db) e.1 e.2) := by
  refine Prod.ext rfl ?_
  unfold shift changeBy
  refine congrArg (fun planned : Option BulkAdjustEntry => planned.elim e.2 (·.on e.2)) ?_
  by_cases planned : e.1 ∈ (planOf a emails db).map (·.1)
  · obtain ⟨rec, rec_mem, own⟩ := mem_plan.mp planned
    have stored := (mem_planned rec_mem).1
    obtain ⟨r, r_mem, named, there⟩ := names.named listed shown e mem fun blank => plan_nonblank (blank ▸ planned)
    have same := keyed.of_email r_mem (mem_records.mpr ⟨rec, stored, rfl⟩) (named.trans own.symm)
    have wanted : e.1 ∈ emailsAt db (plannedRecords a emails db) id :=
      mem_emailsAt.mpr ⟨rec, rec_mem, by rw [same] at there; exact there, own⟩
    unfold planFor
    rw [List.find?_filter]
    refine congrArg (Option.map _) (List.find?_congr fun entry _ => ?_)
    by_cases here : entry.1 = e.1
    · simp [here, wanted]
    · simp [here]
  · rw [planFor_none planned, planFor_none]
    intro here
    obtain ⟨entry, entry_mem, own⟩ := List.mem_map.mp here
    exact planned (List.mem_map.mpr ⟨entry, List.mem_of_mem_filter entry_mem, own⟩)

theorem adjusted_failed {done : List Nat} {st st' : Adjusting} (held : Adjusted p a emails db done st) {id : Nat}
    {failure : PassFailure} (fails : p.fails id = some failure) (stays : st'.db = st.db)
    (failed : st'.failed = st.failed ++ reasonsFor failure.reason (emailsAt db (plannedRecords a emails db) id))
    (honored : ∀ email, email ∈ st'.honored ↔ email ∈ st.honored ∨
      p.unread id = none ∧ email ∈ emailsAt db (plannedRecords a emails db) id ∧ EligibleAt a.directive db id)
    (ineligible : ∀ email, email ∈ st'.ineligible ↔ email ∈ st.ineligible ∨
      p.unread id = none ∧ email ∈ emailsAt db (plannedRecords a emails db) id ∧ IneligibleAt a.directive db id) :
    Adjusted p a emails db (done ++ [id]) st' := by
  refine ⟨(congrArg copies stays).trans (held.copies.trans ?_), fun other out => ?_, ?_, ?_, ?_⟩
  · refine congrArg _ (funext fun other => propext ?_)
    simp only [List.mem_append, List.mem_singleton]
    constructor
    · rintro ⟨mem, pass⟩
      exact ⟨.inl mem, pass⟩
    · rintro ⟨mem | rfl, pass⟩
      · exact ⟨mem, pass⟩
      · rw [fails] at pass
        cases pass
  · rw [stays]
    exact held.rows other fun mem => out (List.mem_append_left _ mem)
  · intro email
    rw [failed, List.map_append, List.mem_append, held.failed, exists_mem_append_single]
    refine or_congr_right ?_
    simp [reasonsFor, fails]
  · intro email
    rw [honored, held.honored, exists_mem_append_single]
  · intro email
    rw [ineligible, held.ineligible, exists_mem_append_single]

theorem adjusted_step (consistent : Consistent (copies db)) {done : List Nat} {st : Adjusting}
    (held : Adjusted p a emails db done st) {id : Nat} (new : id ∉ done)
    (visited : id ∈ inboundsOf db (plannedRecords a emails db)) :
    Adjusted p a emails db (done ++ [id]) (adjustInbound p a.directive (planOf a emails db)
      (emailsAt db (plannedRecords a emails db) id) st id) := by
  obtain ⟨some', some_mem, there⟩ := mem_inboundsOf.mp visited
  have keyed := consistent.keyed
  have names := consistent.names id
  obtain ⟨-, -, -, -, listed, shown, -⟩ := names.linked some'.id there
  obtain ⟨ib, row, here⟩ := Option.bind_eq_some_iff.mp shown
  let change := changeBy (planOf a emails db)
  let wanted := emailsAt db (plannedRecords a emails db) id
  have row' : rowAt st.db id = some ib := (held.rows id new).trans row
  have nonempty : wanted ≠ [] := List.ne_nil_of_mem (mem_emailsAt.mpr ⟨some', some_mem, there, rfl⟩)
  have all : ∀ email ∈ wanted, email ≠ "" ∧ email ∈ listed.map (·.1) ∧ email ∈ (planOf a emails db).map (·.1) := by
    intro email mem
    obtain ⟨rec, rec_mem, there, rfl⟩ := mem_emailsAt.mp mem
    obtain ⟨r, r_mem, own, nonblank, listed', shown'', in'⟩ := names.linked rec.id there
    cases shown.symm.trans shown''
    have same := keyed.of_id r_mem (mem_records.mpr ⟨rec, (mem_planned rec_mem).1, rfl⟩) own
    rw [same] at nonblank in'
    exact ⟨nonblank, in', mem_plan.mpr ⟨rec, rec_mem, rfl⟩⟩
  cases fails : p.fails id with
  | some failure =>
      cases unread : p.unread id with
      | some first =>
          have same : first = failure := Option.some.inj ((unread_some unread).symm.trans fails)
          rw [adjustInbound_unread unread, same]
          refine adjusted_failed held fails rfl rfl (fun email => ?_) fun email => ?_
          · simp [unread]
          · simp [unread]
      | none =>
          obtain ⟨settings, -, refused, -⟩ := adjustInbound_read unread row' here nonempty all plan_fits
          rw [refused failure fails]
          refine adjusted_failed held fails rfl rfl (fun email => ?_) fun email => ?_
          · rw [List.mem_append, mem_ite_nil]
            simp [unread, EligibleAt, row, wanted]
          · rw [List.mem_append, mem_ite_nil]
            simp [unread, IneligibleAt, row, wanted]
  | none =>
      have shown' : shownAt st.db id = some listed := by
        unfold shownAt
        rw [row']
        exact here
      have keyed' : KeyedCopies (copies st.db) := held.copies ▸ edited_keyed keyed
      have names' : NamesAt (copies st.db) id := held.copies ▸ edited_names names
      have known : ∀ entry ∈ listed, trimSpace entry.1 ≠ "" → trimSpace entry.1 ∈ st.db.clients.map (·.email) := by
        intro entry mem nonblank
        have trimmed := names.trimmed listed shown entry mem
        obtain ⟨r, r_mem, own, -⟩ := names'.named listed shown' entry mem (trimmed ▸ nonblank)
        obtain ⟨rec, rec_mem, rfl⟩ := mem_records.mp r_mem
        exact List.mem_map.mpr ⟨rec, rec_mem, own.trans trimmed.symm⟩
      let target := fun email => change email (limitsOf (copies db) email)
      have targets : ∀ r ∈ (copies db).records, target r.email = change r.email r.limits := fun r mem =>
        congrArg (change r.email) (limitsOf_eq keyed mem)
      have shifted : listed.map (shift ((planOf a emails db).filter (·.1 ∈ wanted))) =
          listed.map fun e => (e.1, change e.1 e.2) :=
        List.map_congr_left fun e mem => shift_wanted keyed names shown mem
      have agree : ∀ entry ∈ listed, trimSpace entry.1 ≠ "" →
          (shift ((planOf a emails db).filter (·.1 ∈ wanted)) entry).2 = target (trimSpace entry.1) := by
        intro entry mem nonblank
        have trimmed := names.trimmed listed shown entry mem
        rw [trimmed] at nonblank ⊢
        obtain ⟨r, r_mem, own, -⟩ := names.named listed shown entry mem nonblank
        rw [shift_wanted keyed names shown mem, ← own, targets r r_mem,
          consistent.limits id listed shown entry mem r r_mem own nonblank, own]
      obtain ⟨settings, db', committed, listed', stepped⟩ :=
        adjustInbound_passes fails row' here nonempty all plan_fits known agree
      rw [shifted] at committed listed'
      have copied := committed_copies keyed' names' shown' (by rw [List.map_map]; rfl) listed' committed
      rw [held.copies, edited_committed (fun before => new before.1) shown targets] at copied
      rw [stepped]
      refine ⟨copied.trans ?_, ?_, ?_, ?_, ?_⟩
      · refine congrArg _ (funext fun other => propext ?_)
        simp only [List.mem_append, List.mem_singleton]
        constructor
        · rintro (⟨mem, pass⟩ | rfl)
          · exact ⟨.inl mem, pass⟩
          · exact ⟨.inr rfl, fails⟩
        · rintro ⟨mem | rfl, pass⟩
          · exact .inl ⟨mem, pass⟩
          · exact .inr rfl
      · intro other out
        rw [List.mem_append, List.mem_singleton, not_or] at out
        rw [committed.row, if_neg out.2]
        exact held.rows other out.1
      · intro email
        rw [held.failed, exists_mem_append_single]
        simp [fails]
      · intro email
        rw [List.mem_append, held.honored, exists_mem_append_single, mem_ite_nil]
        simp [unread_none fails, EligibleAt, row, wanted]
      · intro email
        rw [List.mem_append, held.ineligible, exists_mem_append_single, mem_ite_nil]
        simp [unread_none fails, IneligibleAt, row, wanted]

def visits (p : Passes) (a : Adjustment) (emails : List String) (db : Database) : List Nat :=
  p.order (inboundsOf db (plannedRecords a emails db))

theorem mem_visits {id : Nat} : id ∈ visits p a emails db ↔ ∃ rec ∈ plannedRecords a emails db, linked db rec.id id = true :=
  (p.order_perm _).mem_iff.trans mem_inboundsOf

theorem adjusted_all (consistent : Consistent (copies db)) :
    Adjusted p a emails db (visits p a emails db) ((visits p a emails db).foldl (fun st id =>
      adjustInbound p a.directive (planOf a emails db) (emailsAt db (plannedRecords a emails db) id) st id)
        ⟨db, [], [], []⟩) := by
  have distinct : (visits p a emails db).Nodup := (p.order_perm _).nodup_iff.mpr (List.nodup_dedup _)
  refine foldl_keeps_new (Adjusted p a emails db) distinct ⟨?_, fun _ _ => rfl, ?_, ?_, ?_⟩ ?_
  · rw [show (fun id => id ∈ ([] : List Nat) ∧ p.fails id = none) = fun _ => False by simp, edited_none]
  · simp
  · simp
  · simp
  · intro done id st mem new held
    exact adjusted_step consistent held new ((p.order_perm _).mem_iff.mp mem)

/-! ## Reports -/

def FailsFor (p : Passes) (db : Database) (rec : ClientRecord) : Prop := ∃ id, linked db rec.id id = true ∧ p.fails id ≠ none

def RowFailsFor (p : Passes) (a : Adjustment) (rec : ClientRecord) : Prop :=
  (planEntry a rec).changes = true ∧ p.rowFails rec.email ≠ none

def ReportedAdjusted (p : Passes) (a : Adjustment) (db : Database) (rec : ClientRecord) : Prop :=
  ¬FailsFor p db rec ∧ ¬RowFailsFor p a rec ∧
    ((planEntry a rec).changes = true ∨ ∃ id, linked db rec.id id = true ∧ EligibleAt a.directive db id)

/-- A limit that cannot be adjusted, a pass or an update that fails, or a flow that none of the client's inbounds
supports. -/
def ReportedSkipped (p : Passes) (a : Adjustment) (db : Database) (rec : ClientRecord) : Prop :=
  (planReason a rec).isSome = true ∨ isPlanned a rec = true ∧ (FailsFor p db rec ∨ RowFailsFor p a rec ∨
    (∃ id, linked db rec.id id = true ∧ IneligibleAt a.directive db id) ∧
      ∀ id, linked db rec.id id = true → ¬EligibleAt a.directive db id)

section Visited

variable {st : Adjusting} (held : Adjusted p a emails db (visits p a emails db) st) {rec : ClientRecord}
  (planned : rec ∈ plannedRecords a emails db)

include planned in
theorem visited_iff {q : Nat → Prop} :
    (∃ id ∈ visits p a emails db, rec.email ∈ emailsAt db (plannedRecords a emails db) id ∧ q id) ↔
      ∃ id, linked db rec.id id = true ∧ q id := by
  constructor
  · rintro ⟨id, -, here, holds⟩
    obtain ⟨other, mem, there, own⟩ := mem_emailsAt.mp here
    have found := (mem_planned planned).2.2.1
    have found' := (mem_planned mem).2.2.1
    rw [own, found] at found'
    exact ⟨id, Option.some.inj found' ▸ there, holds⟩
  · rintro ⟨id, there, holds⟩
    exact ⟨id, mem_visits.mpr ⟨rec, planned, there⟩, mem_emailsAt.mpr ⟨rec, planned, there, rfl⟩, holds⟩

include held planned

theorem failed_iff : rec.email ∈ st.failed.map Prod.fst ↔ FailsFor p db rec := by
  rw [held.failed, FailsFor, ← visited_iff planned]
  exact exists_congr fun id => and_congr_right fun _ => and_comm

theorem honored_iff : rec.email ∈ st.honored ↔
    ∃ id, linked db rec.id id = true ∧ p.unread id = none ∧ EligibleAt a.directive db id := by
  rw [held.honored, ← visited_iff planned]
  exact exists_congr fun id => and_congr_right fun _ => and_left_comm

theorem ineligible_iff : rec.email ∈ st.ineligible ↔
    ∃ id, linked db rec.id id = true ∧ p.unread id = none ∧ IneligibleAt a.directive db id := by
  rw [held.ineligible, ← visited_iff planned]
  exact exists_congr fun id => and_congr_right fun _ => and_left_comm

end Visited

/-! ## The traffic rows -/

def liveOf (plan : List (String × BulkAdjustEntry)) (failed : List (String × String)) : List (String × BulkAdjustEntry) :=
  plan.filter fun entry => entry.1 ∉ failed.map Prod.fst

def updatedOf (p : Passes) (plan : List (String × BulkAdjustEntry)) (failed : List (String × String)) :
    List (String × BulkAdjustEntry) := (liveOf plan failed).filter fun entry => (p.refused entry).isNone

def updateRow (updated : List (String × BulkAdjustEntry)) (row : ClientTraffic) : ClientTraffic :=
  match updated.find? (·.1 = row.email) with
  | some entry => entry.2.update row
  | none => row

theorem find_filter {plan : List (String × BulkAdjustEntry)} {email : String} {q : String × BulkAdjustEntry → Bool}
    {entry : String × BulkAdjustEntry} (unique : ∀ other ∈ plan, other.1 = email → other = entry) :
    (plan.filter q).find? (·.1 = email) = if q entry then plan.find? (·.1 = email) else none := by
  rw [List.find?_filter]
  split
  · rename_i kept
    refine List.find?_congr fun other mem => ?_
    by_cases own : other.1 = email
    · rw [unique other mem own, kept]
      simp
    · simp [own]
  · rename_i dropped
    refine List.find?_eq_none.mpr fun other mem => ?_
    by_cases own : other.1 = email
    · rw [unique other mem own]
      simp [dropped]
    · simp [own]

theorem plan_unique {rec : ClientRecord} (planned : rec ∈ plannedRecords a emails db) {other : String × BulkAdjustEntry}
    (mem : other ∈ planOf a emails db) (own : other.1 = rec.email) : other = (rec.email, planEntry a rec) := by
  obtain ⟨rec', here, rfl⟩ := List.mem_map.mp mem
  have found := (mem_planned planned).2.2.1
  have found' := (mem_planned here).2.2.1
  rw [show rec'.email = rec.email from own, found] at found'
  rw [Option.some.inj found']

section Planned

variable {failed : List (String × String)} {rec : ClientRecord} (planned : rec ∈ plannedRecords a emails db)
include planned

theorem find_live : (liveOf (planOf a emails db) failed).find? (·.1 = rec.email) =
    if rec.email ∈ failed.map Prod.fst then none else some (rec.email, planEntry a rec) := by
  unfold liveOf
  rw [find_filter fun other mem own => plan_unique planned mem own, plan_of planned]
  by_cases fails : rec.email ∈ failed.map Prod.fst
  · simp only [fails, not_true_eq_false, decide_false, Bool.false_eq_true, if_false, if_true]
  · simp only [fails, not_false_eq_true, decide_true, if_true, if_false]

omit planned in
theorem refused_isSome : (p.refused (rec.email, planEntry a rec)).isSome = true ↔ RowFailsFor p a rec := by
  unfold Passes.refused RowFailsFor
  rw [Option.isSome_iff_ne_none]
  by_cases changes : (planEntry a rec).changes = true
  · simp [changes]
  · simp [changes]

theorem find_updated : (updatedOf p (planOf a emails db) failed).find? (·.1 = rec.email) =
    if rec.email ∈ failed.map Prod.fst ∨ RowFailsFor p a rec then none else some (rec.email, planEntry a rec) := by
  unfold updatedOf
  have unique : ∀ other ∈ liveOf (planOf a emails db) failed, other.1 = rec.email → other = (rec.email, planEntry a rec) :=
    fun other mem own => plan_unique planned (List.mem_of_mem_filter mem) own
  rw [find_filter unique, find_live planned, ← (@refused_isSome p)]
  cases refused : p.refused (rec.email, planEntry a rec) <;> simp

end Planned

theorem on_unchanged {entry : BulkAdjustEntry} (stays : ¬entry.changes = true) (limits : Limits) : entry.on limits = limits := by
  simp only [BulkAdjustEntry.changes, Bool.or_eq_true, Option.isSome_iff_ne_none, not_or, not_not] at stays
  unfold BulkAdjustEntry.on
  rw [stays.1, stays.2]
  rfl

theorem updateRow_email {updated : List (String × BulkAdjustEntry)} {row : ClientTraffic} :
    (updateRow updated row).email = row.email := by
  unfold updateRow
  split <;> rfl

theorem updateRow_limits (consistent : Consistent (copies db)) {st : Adjusting}
    (held : Adjusted p a emails db (visits p a emails db) st) (row : ClientTraffic) :
    (updateRow (updatedOf p (planOf a emails db) st.failed) row).limits =
      if (∃ r ∈ (copies db).records, r.email = row.email ∧ ∃ id, (copies db).links r.id id ∧ ¬p.fails id = none) ∨
        ¬p.rowFails row.email = none then row.limits
      else changeBy (planOf a emails db) row.email row.limits := by
  unfold updateRow
  by_cases mem : row.email ∈ (planOf a emails db).map (·.1)
  · obtain ⟨rec, planned, own⟩ := mem_plan.mp mem
    have stored := mem_records.mpr ⟨rec, (mem_planned planned).1, rfl⟩
    have fails : rec.email ∈ st.failed.map Prod.fst ↔
        ∃ r ∈ (copies db).records, r.email = rec.email ∧ ∃ id, (copies db).links r.id id ∧ ¬p.fails id = none := by
      rw [failed_iff held planned]
      constructor
      · intro fails
        exact ⟨rec.holder, stored, rfl, fails⟩
      · rintro ⟨r, r_mem, same, fails⟩
        cases consistent.keyed.of_email r_mem stored same
        exact fails
    have stuck : ((∃ r ∈ (copies db).records, r.email = rec.email ∧ ∃ id, (copies db).links r.id id ∧ ¬p.fails id = none) ∨
        ¬p.rowFails rec.email = none) ↔ rec.email ∈ st.failed.map Prod.fst ∨ ¬p.rowFails rec.email = none :=
      or_congr_left fails.symm
    rw [← own, find_updated planned, changeBy_planned planned, if_congr stuck rfl rfl]
    by_cases changes : (planEntry a rec).changes = true
    · have refused : RowFailsFor p a rec ↔ ¬p.rowFails rec.email = none := and_iff_right changes
      rw [if_congr (or_congr_right refused) rfl rfl]
      by_cases failing : rec.email ∈ st.failed.map Prod.fst ∨ ¬p.rowFails rec.email = none
      · rw [if_pos failing, if_pos failing]
      · rw [if_neg failing, if_neg failing]
        rfl
    · have stays : (planEntry a rec).on row.limits = row.limits := on_unchanged changes row.limits
      rw [stays, ite_self]
      by_cases failing : rec.email ∈ st.failed.map Prod.fst ∨ RowFailsFor p a rec
      · rw [if_pos failing]
      · rw [if_neg failing]
        exact stays
  · have absent : (updatedOf p (planOf a emails db) st.failed).find? (·.1 = row.email) = none := by
      refine List.find?_eq_none.mpr fun entry here own => mem ?_
      refine List.mem_map.mpr ⟨entry, List.mem_of_mem_filter (List.mem_of_mem_filter here), ?_⟩
      simpa using own
    rw [absent, changeBy_other mem, ite_self]

def written (p : Passes) (a : Adjustment) (emails : List String) (db : Database) (st : Adjusting) : Database :=
  { st.db with clientTraffics := st.db.clientTraffics.map (updateRow (updatedOf p (planOf a emails db) st.failed)) }

theorem written_copies (consistent : Consistent (copies db)) {st : Adjusting}
    (held : Adjusted p a emails db (visits p a emails db) st) :
    copies (written p a emails db st) =
      (copies db).adjusted (changeBy (planOf a emails db)) (fun id => p.fails id = none) fun email => p.rowFails email = none := by
  have everywhere : (copies db).edited (changeBy (planOf a emails db)) (fun id => id ∈ visits p a emails db ∧ p.fails id = none) =
      (copies db).edited (changeBy (planOf a emails db)) fun id => p.fails id = none := by
    refine edited_congr consistent.names (changeBy_other plan_nonblank) ?_
    intro id r mem there
    by_cases planned : r.email ∈ (planOf a emails db).map (·.1)
    · obtain ⟨rec, rec_mem, own⟩ := mem_plan.mp planned
      have same := consistent.keyed.of_email mem (mem_records.mpr ⟨rec, (mem_planned rec_mem).1, rfl⟩) own.symm
      rw [same] at there
      exact .inr ⟨fun both => both.2, fun pass => ⟨mem_visits.mpr ⟨rec, rec_mem, there⟩, pass⟩⟩
    · exact .inl (changeBy_other planned)
  have copied := held.copies.trans everywhere
  have records := congrArg Copies.records copied
  have shown := congrArg Copies.shown copied
  have links := congrArg Copies.links copied
  have rows : st.db.clientTraffics.map (fun row => (row.email, row.limits)) =
      db.clientTraffics.map fun row => (row.email, row.limits) := congrArg Copies.rows copied
  unfold Copies.adjusted
  refine Copies.ext records ?_ shown links
  show (st.db.clientTraffics.map (updateRow _)).map (fun row => (row.email, row.limits)) =
    (db.clientTraffics.map fun row => (row.email, row.limits)).map _
  rw [← rows, List.map_map, List.map_map]
  refine List.map_congr_left fun row _ => ?_
  rw [Function.comp_apply, Function.comp_apply, updateRow_email, updateRow_limits consistent held]
  split <;> rfl

/-! ## Clients that are switched on again -/

section Again

variable {enabling : Passes} {clock : Clock}

theorem adjusted_limits {c : Copies} {change : String → Limits → Limits} {passes : Nat → Prop} {rowPasses : String → Prop}
    {id : Nat} (consistent : Consistent c) (pass : passes id) : LimitsAt (c.adjusted change passes rowPasses) id :=
  edited_limits consistent.keyed (consistent.names id) (consistent.limits id) pass

theorem reEnabled_passes {st : Adjusting} (held : Adjusted p a emails db (visits p a emails db) st)
    {candidates : List String} (planned : ∀ email ∈ candidates, email ∈ (planOf a emails db).map (·.1)) {email : String}
    (was : email ∈ (st.db.clientTraffics.filter fun row =>
      depleted st.db clock row && row.enable = false && row.email ∈ candidates).map (·.email))
    (still : email ∉ ((written p a emails db st).clientTraffics.filter fun row =>
      depleted (written p a emails db st) clock row && row.email ∈ (st.db.clientTraffics.filter fun row =>
        depleted st.db clock row && row.enable = false && row.email ∈ candidates).map (·.email)).map (·.email)) :
    ∃ rec ∈ plannedRecords a emails db, rec.email = email ∧ ¬FailsFor p db rec := by
  obtain ⟨row, row_mem, rfl⟩ := List.mem_map.mp was
  obtain ⟨stored, chosen⟩ := List.mem_filter.mp row_mem
  simp only [Bool.and_eq_true, decide_eq_true_eq] at chosen
  obtain ⟨rec, rec_mem, own⟩ := mem_plan.mp (planned row.email chosen.2)
  refine ⟨rec, rec_mem, own, fun fails => still ?_⟩
  have failing : row.email ∈ st.failed.map Prod.fst := own ▸ (failed_iff held rec_mem).mpr fails
  have left : updateRow (updatedOf p (planOf a emails db) st.failed) row = row := by
    unfold updateRow
    rw [← own, find_updated rec_mem, if_pos (.inl (own ▸ failing))]
  refine List.mem_map.mpr ⟨row, List.mem_filter.mpr ⟨List.mem_map.mpr ⟨row, stored, left⟩, ?_⟩, rfl⟩
  rw [Bool.and_eq_true, decide_eq_true_eq]
  exact ⟨chosen.1.1, was⟩

theorem reEnable_copies (consistent : Consistent (copies db)) {st : Adjusting}
    (held : Adjusted p a emails db (visits p a emails db) st) {again : List String}
    (passed : ∀ email ∈ again, ∃ rec ∈ plannedRecords a emails db, rec.email = email ∧ ¬FailsFor p db rec) {now : Int} :
    copies (bulkSetEnable enabling again true now (written p a emails db st)).1 = copies (written p a emails db st) := by
  have copied := written_copies consistent held
  have names : ∀ id, NamesAt (copies (written p a emails db st)) id := fun id => copied ▸ adjusted_names (consistent.names id)
  have keyed : KeyedCopies (copies (written p a emails db st)) := copied ▸ adjusted_keyed consistent.keyed
  refine bulkSetEnable_copies keyed fun id visited => ?_
  obtain ⟨rec', mem, there⟩ := mem_inboundsOf.mp visited
  obtain ⟨email, asked, found⟩ := List.mem_filterMap.mp mem
  obtain ⟨stored, rfl⟩ := recordOf_some found
  obtain ⟨r, -, -, -, listed, shown, -⟩ := (names id).linked rec'.id there
  refine ⟨names id, ?_, listed, shown⟩
  have clean : rec'.email ∈ again := by
    obtain ⟨e, e_mem, trimmed⟩ := List.mem_map.mp (List.mem_of_mem_filter (List.mem_dedup.mp asked))
    obtain ⟨rec, planned, rfl, -⟩ := passed e e_mem
    rw [← trimmed, clean_trimmed (mem_planned planned).2.1]
    exact e_mem
  obtain ⟨rec, planned, own, whole⟩ := passed rec'.email clean
  have pass : p.fails id = none := by
    by_contra fails
    refine whole ⟨id, ?_, fails⟩
    have mem' : rec'.holder ∈ (copies (written p a emails db st)).records := mem_records.mpr ⟨rec', stored, rfl⟩
    rw [copied] at mem'
    obtain ⟨r, r_mem, ids, same, -⟩ := mem_edited.mp mem'
    have equal := consistent.keyed.of_email r_mem (mem_records.mpr ⟨rec, (mem_planned planned).1, rfl⟩) (same.symm.trans own.symm)
    have there' : linked db rec'.id id = true := (congrFun (congrFun (congrArg Copies.links copied) rec'.id) id).symm.trans there
    rw [show rec.id = rec'.id from (congrArg Holder.id equal).symm.trans ids.symm]
    exact there'
  exact copied ▸ adjusted_limits consistent pass

end Again

end Adjusting

end ThreeXNode.Panel
