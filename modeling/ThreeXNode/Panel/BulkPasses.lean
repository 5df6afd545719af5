import ThreeXNode.Panel.BulkAdjust
import ThreeXNode.Panel.EntryLimits

namespace ThreeXNode.Panel
open Library

/-! # What one pass over an inbound changes -/

/-! ## Rows by id -/

def shownAt (db : Database) (id : Nat) : Option (List ListedClient) := (rowAt db id).bind fun ib => listedIn ib.settings

theorem saveInbound_row {db : Database} {id : Nat} {saved : Inbound} (same : saved.id = id) (other : Nat) :
    (saveInbound db saved).inbounds.find? (·.id = other) = if other = id then some saved else rowAt db other := by
  subst same
  split
  · rename_i own
    rw [own]
    exact rowAt_saveInbound_self db saved
  · rename_i apart
    exact rowAt_saveInbound_other db apart

/-! ## The transaction -/

/-- The edits of which the transaction syncs all clients of the inbound. -/
def Edit.syncsAll : Edit → Bool
  | .bulkDelInboundClients _ | .bulkAdjustInboundClients .. | .bulkSetEnableInboundClients .. => true
  | _ => false

/-! ### Links -/

def linked (db : Database) (clientId id : Nat) : Bool :=
  db.clientInbounds.any fun link => link.clientId = clientId && link.inboundId = id

theorem linked_iff {db : Database} {clientId id : Nat} :
    linked db clientId id = true ↔ ∃ link ∈ db.clientInbounds, link.clientId = clientId ∧ link.inboundId = id := by
  unfold linked
  simp

theorem wantedFlow_isSome {wanted : List (Nat × String)} {id : Nat} :
    (wantedFlow wanted id).isSome = true ↔ ∃ entry ∈ wanted, entry.1 = id := by
  unfold wantedFlow
  simp

theorem mem_wantedFlows {db : Database} {clients : List Client} {clientId : Nat} :
    clientId ∈ (wantedFlows db clients).map (·.1) ↔
      ∃ c ∈ clients, trimSpace c.email ≠ "" ∧ idOfEmail db (trimSpace c.email) = some clientId := by
  refine foldl_keeps (fun (done : List Client) (wanted : List (Nat × String)) => clientId ∈ wanted.map (·.1) ↔
    ∃ c ∈ done, trimSpace c.email ≠ "" ∧ idOfEmail db (trimSpace c.email) = some clientId) clients (s := []) (by simp) ?_
  intro done c wanted _ held
  have last : (∃ c' ∈ done ++ [c], trimSpace c'.email ≠ "" ∧ idOfEmail db (trimSpace c'.email) = some clientId) ↔
      clientId ∈ wanted.map (·.1) ∨ (trimSpace c.email ≠ "" ∧ idOfEmail db (trimSpace c.email) = some clientId) := by
    rw [held]
    simp [or_and_right, exists_or]
  rw [last]
  by_cases blank : trimSpace c.email = ""
  · simp [blank]
  · rw [if_neg blank]
    cases found : idOfEmail db (trimSpace c.email) with
    | none => simp
    | some id =>
        by_cases there : id ∈ wanted.map (·.1)
        · simp only [if_pos there, Option.some.injEq]
          refine ⟨.inl, fun either => either.elim (fun h => h) ?_⟩
          rintro ⟨-, rfl⟩
          exact there
        · simp only [if_neg there, List.map_append, List.mem_append, List.map_singleton, List.mem_singleton,
            Option.some.injEq, blank, not_false_eq_true, true_and, ne_eq, eq_comm]

theorem reconcile_linked (db : Database) (id : Nat) (wanted : List (Nat × String)) (clientId other : Nat) :
    linked (reconcileInboundLinks db id wanted [] true) clientId other =
      if other = id then (wantedFlow wanted clientId).isSome else linked db clientId other := by
  rw [Bool.eq_iff_iff, linked_iff]
  unfold reconcileInboundLinks
  simp only [List.mem_append, List.mem_map, List.mem_filter, Bool.true_or, Bool.and_true]
  by_cases own : other = id
  · subst own
    rw [if_pos rfl, wantedFlow_isSome]
    constructor
    · rintro ⟨link, ⟨before, ⟨-, kept⟩, rfl⟩ | ⟨entry, ⟨here, -⟩, rfl⟩, rfl, at'⟩
      · have place : before.inboundId = other := by
          split at at'
          · exact at'
          · exact at'
        have some' : (wantedFlow wanted before.clientId).isSome = true := by
          simpa [place, Option.isNone_iff_eq_none, Option.isSome_iff_ne_none] using kept
        rw [if_pos place]
        exact wantedFlow_isSome.mp some'
      · exact ⟨entry, here, rfl⟩
    · intro mem
      by_cases there : linked db clientId other = true
      · obtain ⟨link, here, rfl, rfl⟩ := linked_iff.mp there
        refine ⟨_, .inl ⟨link, ⟨here, ?_⟩, rfl⟩, ?_, ?_⟩
        · have some' := wantedFlow_isSome.mpr mem
          simpa using some'
        · rw [if_pos rfl]
        · rw [if_pos rfl]
      · obtain ⟨entry, here, rfl⟩ := mem
        refine ⟨⟨entry.1, other, entry.2⟩, .inr ⟨entry, ⟨here, ?_⟩, rfl⟩, rfl, rfl⟩
        refine decide_eq_true fun already => there ?_
        obtain ⟨link, mem, same⟩ := List.mem_map.mp already
        obtain ⟨mem, place⟩ := List.mem_filter.mp mem
        exact linked_iff.mpr ⟨link, mem, same, of_decide_eq_true place⟩
  · rw [if_neg own, linked_iff]
    constructor
    · rintro ⟨link, ⟨before, ⟨here, -⟩, rfl⟩ | ⟨entry, -, rfl⟩, same, at'⟩
      · have place : before.inboundId ≠ id := by
          intro place
          rw [if_pos place] at at'
          exact own (at'.symm.trans place)
        rw [if_neg place] at same at'
        exact ⟨before, here, same, at'⟩
      · exact absurd at'.symm own
    · rintro ⟨link, here, rfl, rfl⟩
      refine ⟨link, .inl ⟨link, ⟨here, ?_⟩, if_neg own⟩, rfl, rfl⟩
      simp [own]

/-- A committed pass replaces one row, and the records take the limits that are listed in it. -/
structure Committed (db : Database) (id : Nat) (settings : Fields) (listed : List ListedClient) (target : String → Limits)
    (db' : Database) : Prop where
  row : ∀ other, rowAt db' other =
    if other = id then (rowAt db id).map fun ib => { ib with settings := some settings } else rowAt db other
  records : ∃ f : ClientRecord → ClientRecord, db'.clients = db.clients.map f ∧ ∀ rec, (f rec).id = rec.id ∧
    (f rec).email = rec.email ∧ (f rec).limits =
      if rec.email ≠ "" ∧ rec.email ∈ listed.map (fun entry => trimSpace entry.1) then target rec.email else rec.limits
  links : ∀ clientId other, linked db' clientId other =
    if other = id then
      decide (∃ entry ∈ listed, trimSpace entry.1 ≠ "" ∧ idOfEmail db (trimSpace entry.1) = some clientId)
    else linked db clientId other
  traffics : db'.clientTraffics = db.clientTraffics

theorem commit_eq {db : Database} {now : Int} {row saved : Inbound} {clients : List Client}
    (decoded : getClients saved.settings = some clients) {edit : Edit} (full : edit.syncsAll = true) :
    edit.commit db now row saved = some (syncInbound (saveInbound db saved) now row.id clients) := by
  unfold Edit.commit
  cases edit with
  | bulkDelInboundClients _ | bulkAdjustInboundClients _ _ _ | bulkSetEnableInboundClients _ _ _ =>
      simp only [Edit.sync, decoded, Option.bind_eq_bind, Option.bind_some]
      rfl
  | addInboundClient _ | updateInboundClient _ _ | delInboundClientByEmail _ | delInboundClients _ | addToGroup _ _
  | replaceGroupValue _ _ => cases full

theorem syncInbound_inbounds (db : Database) (now : Int) (id : Nat) (clients : List Client) :
    (syncInbound db now id clients).inbounds = db.inbounds := rfl

theorem syncInbound_traffics (db : Database) (now : Int) (id : Nat) (clients : List Client) :
    (syncInbound db now id clients).clientTraffics = db.clientTraffics := rfl

theorem saveInbound_frame (db : Database) (ib : Inbound) :
    (saveInbound db ib).clients = db.clients ∧ (saveInbound db ib).clientTraffics = db.clientTraffics ∧
      (saveInbound db ib).clientInbounds = db.clientInbounds := by
  unfold saveInbound
  split
  · exact ⟨rfl, rfl, rfl⟩
  · exact ⟨rfl, rfl, rfl⟩

theorem idOfEmail_mapped {db db' : Database} {f : ClientRecord → ClientRecord} (mapped : db'.clients = db.clients.map f)
    (id : ∀ rec, (f rec).id = rec.id) (same : ∀ rec, (f rec).email = rec.email) (email : String) :
    idOfEmail db' email = idOfEmail db email := by
  unfold idOfEmail
  rw [mapped, List.find?_map, Option.map_map]
  have asked : ((fun rec : ClientRecord => decide (rec.email = email)) ∘ f) = fun rec => decide (rec.email = email) :=
    funext fun rec => by rw [Function.comp_apply, same]
  rw [asked, show (fun rec : ClientRecord => rec.id) ∘ f = fun rec => rec.id from funext id]

theorem commit_spec {db : Database} {now : Int} {id : Nat} {ib : Inbound} (found : rowAt db id = some ib)
    {settings : Fields} {listed : List ListedClient} (shown : listedIn (some settings) = some listed) {target : String → Limits}
    (known : ∀ entry ∈ listed, trimSpace entry.1 ≠ "" → trimSpace entry.1 ∈ db.clients.map (·.email))
    (agree : ∀ entry ∈ listed, trimSpace entry.1 ≠ "" → entry.2 = target (trimSpace entry.1)) (edit : Edit)
    (full : edit.syncsAll = true) :
    ∃ db', edit.commit db now ib { ib with settings := some settings } = some db' ∧
      Committed db id settings listed target db' := by
  obtain ⟨-, clients, decoded, rfl⟩ := listedIn_some.mp shown
  let saved : Inbound := { ib with settings := some settings }
  have own := rowAt_id found
  have same : saved.id = id := own
  obtain ⟨clients', traffics', links'⟩ := saveInbound_frame db saved
  have known' : ∀ c ∈ clients, trimSpace c.email ≠ "" → trimSpace c.email ∈ (saveInbound db saved).clients.map (·.email) := by
    intro c mem blank
    rw [clients']
    exact known c.shows (List.mem_map_of_mem mem) blank
  have agree' : ∀ c ∈ clients, trimSpace c.email ≠ "" → c.limits = target (trimSpace c.email) :=
    fun c mem blank => agree c.shows (List.mem_map_of_mem mem) blank
  obtain ⟨f, synced, held⟩ := (@syncRecords_limits _ now) known' agree'
  have committed := (@commit_eq db now ib saved) decoded full
  have records : (syncRecords (saveInbound db saved) now clients).clients = db.clients.map f := by rw [synced, clients']
  refine ⟨_, committed, ?_, ⟨f, records, ?_⟩, ?_, ?_⟩
  · intro other
    rw [found]
    unfold rowAt
    rw [syncInbound_inbounds]
    exact saveInbound_row same other
  · intro rec
    refine ⟨held.id rec, held.email rec, ?_⟩
    rw [held.limits, List.map_map]
    rfl
  · intro clientId other
    have links := reconcile_linked (syncRecords (saveInbound db saved) now clients) ib.id
      (wantedFlows (syncRecords (saveInbound db saved) now clients) clients) clientId other
    rw [own] at links ⊢
    refine links.trans (ite_congr rfl (fun _ => ?_) fun _ => ?_)
    · rw [Bool.eq_iff_iff, wantedFlow_isSome, decide_eq_true_eq, ← List.mem_map, mem_wantedFlows]
      have ids := idOfEmail_mapped records held.id held.email
      simp only [ids, List.mem_map, exists_exists_and_eq_and, Client.shows]
    · show (saveInbound db saved).clientInbounds.any _ = _
      rw [links']
      rfl
  · rw [syncInbound_traffics, traffics']

/-! ## Entries on the plan -/

def planFor (plan : List (String × BulkAdjustEntry)) (email : String) : Option BulkAdjustEntry :=
  (plan.find? (·.1 = email)).map (·.2)

def shift (plan : List (String × BulkAdjustEntry)) (entry : ListedClient) : ListedClient :=
  (entry.1, (planFor plan entry.1).elim entry.2 (·.on entry.2))

theorem planFor_some {plan : List (String × BulkAdjustEntry)} {email : String} (mem : email ∈ plan.map (·.1)) :
    ∃ planned, plan.find? (·.1 = email) = some planned := by
  obtain ⟨planned, here, same⟩ := List.mem_map.mp mem
  exact Option.isSome_iff_exists.mp (List.find?_isSome.mpr ⟨planned, here, by simpa using same⟩)

theorem planFor_none {plan : List (String × BulkAdjustEntry)} {email : String} (absent : email ∉ plan.map (·.1)) :
    planFor plan email = none := by
  unfold planFor
  rw [Option.map_eq_none_iff, List.find?_eq_none]
  intro planned mem same
  exact absent (List.mem_map.mpr ⟨planned, mem, by simpa using same⟩)

theorem entry_of_email {entry : Json} (named : entryEmail entry ≠ "") :
    ∃ members, entry = .obj members ∧ isEntry entry = true := by
  cases entry with
  | obj members => exact ⟨members, rfl, rfl⟩
  | null | bool _ | num _ | str _ | arr _ => exact absurd rfl named

theorem listedIn_adjust {plan : List (String × BulkAdjustEntry)} (named : "" ∉ plan.map (·.1))
    (fits : ∀ planned ∈ plan, planned.2.Fits) {flow : String} {now : Int} (nowFits : InInt64 now) {ib : Inbound}
    {settings o : Fields} (made : bulkAdjustInboundClients plan flow now ib settings = some o) {listed : List ListedClient}
    (shown : listedIn (some settings) = some listed) : listedIn (some o) = some (listed.map (shift plan)) := by
  refine listedIn_changeEntries made shown (keepsPlain_adjust plan flow _ now) ?_ ?_
  · intro entry c selected decoded own
    simp only [wantedEntry, Bool.and_eq_true, decide_eq_true_eq] at selected
    obtain ⟨⟨-, nonblank⟩, mem⟩ := selected
    obtain ⟨members, rfl, -⟩ := entry_of_email nonblank
    obtain ⟨planned, found⟩ := planFor_some mem
    obtain ⟨c', decoded', email, limits⟩ := (@ofJson_adjustEntry (.obj members)) rfl decoded
      (fits planned (List.mem_of_find?_eq_some found)) flow (flowEligible flow ib) nowFits
    have found' : plan.find? (fun entry => entry.1 = jsonString (Std.ExtTreeMap.ofList members : Fields)["email"]?) =
        some planned := found
    refine ⟨c', ?_, ?_⟩
    · simp only [mapEntry, found', Option.map_some, Option.getD_some]
      exact decoded'
    · unfold Client.shows shift planFor
      rw [email, limits]
      simp only [own, found, Option.map_some, Option.elim_some]
  · intro entry c left decoded own
    have absent : c.email ∉ plan.map (·.1) := by
      intro mem
      have nonblank : entryEmail entry ≠ "" := fun blank => named (blank ▸ own ▸ mem)
      obtain ⟨-, -, object⟩ := entry_of_email nonblank
      have selected : wantedEntry (plan.map (·.1)) entry = true := by
        simp only [wantedEntry, object, Bool.true_and, Bool.and_eq_true, decide_eq_true_eq]
        exact ⟨nonblank, own ▸ mem⟩
      rw [selected] at left
      cases left
    unfold shift Client.shows
    rw [planFor_none absent]
    rfl

theorem any_wanted {settings : Option Fields} {listed : List ListedClient} (shown : listedIn settings = some listed)
    {email : String} (named : email ≠ "") (mem : email ∈ listed.map (·.1)) {wanted : List String} (asked : email ∈ wanted) :
    (clientEntries settings).any (wantedEntry wanted) = true := by
  obtain ⟨entry, here, same⟩ := listed_entry shown mem
  obtain ⟨-, -, object⟩ := entry_of_email (same ▸ named)
  refine List.any_eq_true.mpr ⟨entry, here, ?_⟩
  simp only [wantedEntry, object, same, Bool.true_and, Bool.and_eq_true, decide_eq_true_eq]
  exact ⟨named, asked⟩

theorem changeEntries_some {select : Json → Bool} {change : Fields → Option Fields} {settings : Fields}
    (some' : (clientEntries (some settings)).any select = true) : ∃ o, changeEntries select change settings = some o := by
  unfold changeEntries
  cases listed : settingsClients settings with
  | none =>
      rw [clientEntries, Option.bind_some, listed] at some'
      cases some'
  | some entries =>
      rw [clientEntries_some listed] at some'
      simp only [Option.bind_eq_bind, Option.bind_some, if_pos some']
      exact ⟨_, rfl⟩

/-! ## The passes -/

section Adjusting

variable {p : Passes} {flow : String} {plan : List (String × BulkAdjustEntry)} {wanted : List String} {st : Adjusting} {id : Nat}

theorem unread_none (passes : p.fails id = none) : p.unread id = none := by
  rw [Passes.unread, passes]
  rfl

theorem unread_some {failure : PassFailure} (unread : p.unread id = some failure) : p.fails id = some failure := by
  rw [Passes.unread, Option.filter_eq_some_iff] at unread
  exact unread.1

theorem adjustInbound_unread {failure : PassFailure} (unread : p.unread id = some failure) :
    adjustInbound p flow plan wanted st id = { st with failed := st.failed ++ reasonsFor failure.reason wanted } := by
  unfold adjustInbound
  rw [unread]

theorem adjustInbound_read (read : p.unread id = none) {ib : Inbound} (row : rowAt st.db id = some ib)
    {listed : List ListedClient} (shown : listedIn ib.settings = some listed) (some' : wanted ≠ [])
    (all : ∀ email ∈ wanted, email ≠ "" ∧ email ∈ listed.map (·.1) ∧ email ∈ plan.map (·.1))
    (fits : ∀ planned ∈ plan, planned.2.Fits) :
    ∃ settings, listedIn (some settings) = some (listed.map (shift (plan.filter (·.1 ∈ wanted)))) ∧
      (∀ failure, p.fails id = some failure → adjustInbound p flow plan wanted st id =
        ⟨st.db, st.failed ++ reasonsFor failure.reason wanted,
          st.honored ++ (if flow ≠ "" ∧ flowEligible flow ib then wanted else []),
          st.ineligible ++ if flow ≠ "" ∧ ¬flowEligible flow ib then wanted else []⟩) ∧
      ∀ db', p.fails id = none → (Edit.bulkAdjustInboundClients (plan.filter (·.1 ∈ wanted)) flow (p.now id)).commit st.db
          (p.now id) ib { ib with settings := some settings } = some db' →
        adjustInbound p flow plan wanted st id = ⟨db', st.failed,
          st.honored ++ (if flow ≠ "" ∧ flowEligible flow ib then wanted else []),
          st.ineligible ++ if flow ≠ "" ∧ ¬flowEligible flow ib then wanted else []⟩ := by
  let plan' := plan.filter (·.1 ∈ wanted)
  have planned : ∀ email ∈ wanted, email ∈ plan'.map (·.1) := by
    intro email mem
    obtain ⟨entry, here, rfl⟩ := List.mem_map.mp (all email mem).2.2
    exact List.mem_map_of_mem (List.mem_filter.mpr ⟨here, decide_eq_true mem⟩)
  have named : "" ∉ plan'.map (·.1) := by
    intro mem
    obtain ⟨entry, here, blank⟩ := List.mem_map.mp mem
    exact (all entry.1 (of_decide_eq_true (List.mem_filter.mp here).2)).1 blank
  have fits' : ∀ entry ∈ plan', entry.2.Fits := fun entry mem => fits entry (List.mem_of_mem_filter mem)
  have found : foundEmails ib wanted = wanted := List.filter_eq_self.mpr fun email mem =>
    any_wanted shown (all email mem).1 (all email mem).2.1 (List.mem_singleton_self email)
  have missing : wanted.filter (· ∉ wanted) = [] := List.filter_eq_nil_iff.mpr fun email mem => by simpa using mem
  have stored : ib.settings ≠ none := by
    intro none
    rw [none] at shown
    cases shown
  obtain ⟨before, decoded, same⟩ := listedIn_decoded stored
  have shownBefore := same.trans shown
  have selected : (clientEntries (some before)).any (wantedEntry (plan'.map (·.1))) = true := by
    obtain ⟨email, mem⟩ := List.exists_mem_of_ne_nil wanted some'
    exact any_wanted shownBefore (all email mem).1 (all email mem).2.1 (planned email mem)
  have edited : ∃ settings, bulkAdjustInboundClients plan' flow (p.now id) ib before = some settings := changeEntries_some selected
  obtain ⟨settings, made⟩ := edited
  have made' : (Edit.bulkAdjustInboundClients plan' flow (p.now id)).newSettings some (knownEmail st.db) ib = some settings := by
    rw [Edit.newSettings, decoded, Option.bind_some]
    exact made
  refine ⟨settings, listedIn_adjust named fits' (p.now_fits id) made shownBefore, fun failure fails => ?_,
    fun db' passes committed => ?_⟩
  · unfold adjustInbound
    rw [read, row]
    simp only [if_neg stored, found, missing]
    rw [made', fails]
    simp only [reasonsFor, List.map_nil, List.append_nil]
  · unfold adjustInbound
    rw [read, row]
    simp only [if_neg stored, found, missing]
    rw [made', passes]
    simp only
    rw [committed]
    simp only [reasonsFor, List.map_nil, List.append_nil]

theorem adjustInbound_passes (passes : p.fails id = none) {ib : Inbound} (row : rowAt st.db id = some ib)
    {listed : List ListedClient} (shown : listedIn ib.settings = some listed) (some' : wanted ≠ [])
    (all : ∀ email ∈ wanted, email ≠ "" ∧ email ∈ listed.map (·.1) ∧ email ∈ plan.map (·.1))
    (fits : ∀ planned ∈ plan, planned.2.Fits) {target : String → Limits}
    (known : ∀ entry ∈ listed, trimSpace entry.1 ≠ "" → trimSpace entry.1 ∈ st.db.clients.map (·.email))
    (agree : ∀ entry ∈ listed, trimSpace entry.1 ≠ "" →
      (shift (plan.filter (·.1 ∈ wanted)) entry).2 = target (trimSpace entry.1)) :
    ∃ settings db',
      Committed st.db id settings (listed.map (shift (plan.filter (·.1 ∈ wanted)))) target db' ∧
      listedIn (some settings) = some (listed.map (shift (plan.filter (·.1 ∈ wanted)))) ∧
      adjustInbound p flow plan wanted st id = ⟨db', st.failed,
        st.honored ++ (if flow ≠ "" ∧ flowEligible flow ib then wanted else []),
        st.ineligible ++ if flow ≠ "" ∧ ¬flowEligible flow ib then wanted else []⟩ := by
  let plan' := plan.filter (·.1 ∈ wanted)
  obtain ⟨settings, shown', -, saved⟩ := adjustInbound_read (unread_none passes) row shown some' all fits
  have known' : ∀ entry ∈ listed.map (shift plan'), trimSpace entry.1 ≠ "" →
      trimSpace entry.1 ∈ st.db.clients.map (·.email) := by
    intro entry mem blank
    obtain ⟨before, here, rfl⟩ := List.mem_map.mp mem
    exact known before here blank
  have agree' : ∀ entry ∈ listed.map (shift plan'), trimSpace entry.1 ≠ "" → entry.2 = target (trimSpace entry.1) := by
    intro entry mem blank
    obtain ⟨before, here, rfl⟩ := List.mem_map.mp mem
    exact agree before here blank
  obtain ⟨db', committed, spec⟩ := (@commit_spec st.db (p.now id)) row shown' known' agree'
    (.bulkAdjustInboundClients plan' flow (p.now id)) rfl
  exact ⟨settings, db', spec, shown', saved db' passes committed⟩

end Adjusting

end ThreeXNode.Panel
