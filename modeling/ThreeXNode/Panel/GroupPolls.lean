import ThreeXNode.Panel.GroupTotals
import ThreeXNode.Panel.RenewOnce

namespace ThreeXNode.Panel
open Library List

/-! # What a traffic poll makes of the totals of groups -/

structure Unique (db : Database) : Prop where
  emails : (db.clients.map (·.email)).Nodup
  traffics : (db.clientTraffics.map (·.email)).Nodup
  links : (db.clientInbounds.map fun link => (link.clientId, link.inboundId)).Nodup

section Unique

variable {db : Database}

theorem Unique.of_maps (unique : Unique db) {db' : Database} {f : ClientRecord → ClientRecord} {g : ClientTraffic → ClientTraffic}
    (clients : db'.clients = db.clients.map f) (email : ∀ rec, (f rec).email = rec.email)
    (traffics : db'.clientTraffics = db.clientTraffics.map g) (own : ∀ row, (g row).email = row.email)
    (links : db'.clientInbounds = db.clientInbounds) : Unique db' := by
  refine ⟨?_, ?_, ?_⟩
  · rw [clients, List.map_map, show (fun rec : ClientRecord => rec.email) ∘ f = fun rec => rec.email from funext email]
    exact unique.emails
  · rw [traffics, List.map_map, show (fun row : ClientTraffic => row.email) ∘ g = fun row => row.email from funext own]
    exact unique.traffics
  · rw [links]
    exact unique.links

theorem Unique.of_sublists (unique : Unique db) {db' : Database} (clients : db'.clients <+ db.clients)
    (traffics : db'.clientTraffics <+ db.clientTraffics) (links : db'.clientInbounds <+ db.clientInbounds) : Unique db' :=
  ⟨unique.emails.sublist (clients.map _), unique.traffics.sublist (traffics.map _), unique.links.sublist (links.map _)⟩

theorem Unique.same (unique : Unique db) {db' : Database} (clients : db'.clients = db.clients)
    (traffics : db'.clientTraffics = db.clientTraffics) (links : db'.clientInbounds = db.clientInbounds) : Unique db' :=
  unique.of_sublists (clients ▸ .refl _) (traffics ▸ .refl _) (links ▸ .refl _)

/-! ## Keys after a sync -/

/-- The stored records keep their emails, and a new record has one that is not stored. -/
structure SyncedKeys (db : Database) (st : Synced) : Prop where
  stored : st.clients.map (·.email) = db.clients.map (·.email)
  distinct : (st.toCreate.map (·.email)).Nodup
  new : ∀ email ∈ st.toCreate.map (·.email), email ∉ db.clients.map (·.email)

theorem any_email {clients : List ClientRecord} {email : String} :
    clients.any (·.email = email) = true ↔ email ∈ clients.map (·.email) := by
  simp only [List.any_eq_true, decide_eq_true_eq, List.mem_map]

theorem syncClient_keys {st : Synced} (keys : SyncedKeys db st) (c : Client) : SyncedKeys db (syncClient st c) := by
  unfold syncClient
  dsimp only
  split
  · exact keys
  · split
    · refine ⟨?_, keys.distinct, keys.new⟩
      rw [List.map_map, ← keys.stored]
      refine List.map_congr_left fun row _ => ?_
      rw [Function.comp_apply]
      split <;> rfl
    · rename_i absent
      split
      · exact keys
      · rename_i unseen
        rw [any_email, keys.stored] at absent
        rw [any_email] at unseen
        refine ⟨keys.stored, ?_, ?_⟩
        · rw [List.map_append, List.map_singleton, List.nodup_append]
          refine ⟨keys.distinct, List.nodup_singleton _, ?_⟩
          rintro email mem other single rfl
          exact unseen (List.mem_singleton.mp single ▸ mem)
        · intro email mem
          rw [List.map_append, List.map_singleton, List.mem_append, List.mem_singleton] at mem
          rcases mem with before | rfl
          · exact keys.new email before
          · exact absent

theorem syncRecords_emails (unique : Unique db) (now : Int) (clients : List Client) :
    ((syncRecords db now clients).clients.map (·.email)).Nodup := by
  have keys : SyncedKeys db (clients.foldl syncClient ⟨db.clients, []⟩) :=
    foldl_invariant (SyncedKeys db) ⟨rfl, List.nodup_nil, fun _ mem => absurd mem List.not_mem_nil⟩
      fun st c _ keys => syncClient_keys keys c
  unfold syncRecords
  generalize clients.foldl syncClient ⟨db.clients, []⟩ = st at keys
  dsimp only
  rw [List.map_append, List.map_map, keys.stored]
  have created : st.toCreate.zipIdx.map (ClientRecord.email ∘ fun r => insertDefaults now (db.nextClientId + r.2) r.1) =
      st.toCreate.map (·.email) := by
    rw [← List.zipIdx_map_fst 0 st.toCreate, List.map_map, List.zipIdx_map_fst]
    exact List.map_congr_left fun _ _ => rfl
  refine (congrArg (fun made => (db.clients.map (·.email) ++ made).Nodup) created).mpr ?_
  rw [List.nodup_append]
  refine ⟨unique.emails, keys.distinct, ?_⟩
  rintro email stored other made rfl
  exact keys.new email made stored

theorem wantedFlows_nodup (db : Database) (clients : List Client) : ((wantedFlows db clients).map (·.1)).Nodup := by
  refine foldl_invariant (fun wanted : List (Nat × String) => (wanted.map Prod.fst).Nodup) List.nodup_nil ?_
  intro wanted c _ distinct
  split
  · exact distinct
  · split
    · exact distinct
    · split
      · exact distinct
      · rename_i new
        rw [List.map_append, List.map_singleton, List.nodup_append]
        refine ⟨distinct, List.nodup_singleton _, ?_⟩
        rintro id mem other single rfl
        cases List.mem_singleton.mp single
        exact new mem

theorem reconcile_links (links : (db.clientInbounds.map fun link => (link.clientId, link.inboundId)).Nodup) (inboundId : Nat)
    {wanted : List (Nat × String)} (distinct : (wanted.map (·.1)).Nodup) (detach : List String) (prune : Bool) :
    ((reconcileInboundLinks db inboundId wanted detach prune).clientInbounds.map fun link =>
      (link.clientId, link.inboundId)).Nodup := by
  unfold reconcileInboundLinks
  simp only
  rw [List.map_append, List.map_map, List.map_map, List.nodup_append]
  have kept : ∀ links : List ClientInbound, links.map ((fun link => (link.clientId, link.inboundId)) ∘ fun link =>
      if link.inboundId = inboundId then
        { link with flowOverride := (wantedFlow wanted link.clientId).getD link.flowOverride } else link) =
      links.map fun link => (link.clientId, link.inboundId) := fun links => List.map_congr_left fun link _ => by
    rw [Function.comp_apply]
    split <;> rfl
  rw [kept]
  refine ⟨links.sublist (filter_sublist.map _), ?_, ?_⟩
  · refine List.Nodup.map_on ?_ (List.Nodup.of_map _ (distinct.sublist (filter_sublist.map _)))
    intro one first other second same
    have same : one.1 = other.1 := congrArg (fun pair : Nat × Nat => pair.1) same
    exact List.inj_on_of_nodup_map distinct (List.mem_of_mem_filter first) (List.mem_of_mem_filter second) same
  · rintro pair linked other made rfl
    obtain ⟨link, mem, rfl⟩ := List.mem_map.mp linked
    obtain ⟨want, new, same⟩ := List.mem_map.mp made
    obtain ⟨id, inbound⟩ := Prod.mk.inj same
    refine of_decide_eq_true (List.mem_filter.mp new).2 ?_
    exact List.mem_map.mpr ⟨link, List.mem_filter.mpr ⟨List.mem_of_mem_filter mem, decide_eq_true inbound.symm⟩, id.symm⟩

theorem Unique.synced (unique : Unique db) (now : Int) (id : Nat) (clients : List Client) :
    Unique (syncInbound db now id clients) := by
  unfold syncInbound syncInboundClients
  have links : ((syncRecords db now clients).clientInbounds.map fun link => (link.clientId, link.inboundId)).Nodup := unique.links
  have traffics : ((syncRecords db now clients).clientTraffics.map (·.email)).Nodup := unique.traffics
  have emails := syncRecords_emails unique now clients
  generalize syncRecords db now clients = records at links traffics emails ⊢
  exact ⟨emails, traffics, reconcile_links links id (wantedFlows_nodup records clients) [] true⟩

theorem Unique.syncedOwn (unique : Unique db) (now : Int) (inbounds : List Inbound) :
    Unique (inbounds.foldl (syncOwnClients now) db) := by
  refine foldl_invariant Unique unique fun db ib _ unique => ?_
  unfold syncOwnClients
  split
  · exact unique.synced now ib.id _
  · exact unique

/-! ## Keys after a poll -/

theorem addInboundTraffic_tables (db : Database) (traffics : List Traffic) :
    ∃ inbounds, addInboundTraffic db traffics = { db with inbounds := inbounds } := by
  refine foldl_invariant (fun after : Database => ∃ inbounds, after = { db with inbounds := inbounds }) ⟨_, rfl⟩ ?_
  rintro after traffic - ⟨inbounds, rfl⟩
  split
  · exact ⟨_, rfl⟩
  · exact ⟨_, rfl⟩

theorem Unique.counted (unique : Unique db) {db' : Database} {uses : List ClientUse} {now : Int}
    (done : addClientTraffic db uses now = some db') : Unique db' := by
  unfold addClientTraffic at done
  dsimp only at done
  split at done
  · cases done
    exact unique
  · obtain ⟨⟨mid, converted⟩, adjusted, done⟩ := Option.bind_eq_some_iff.mp done
    have between : Unique mid := by
      unfold adjustTraffics at adjusted
      dsimp only at adjusted
      split at adjusted
      · cases adjusted
        exact unique
      · obtain ⟨inbounds, -, adjusted⟩ := Option.bind_eq_some_iff.mp adjusted
        cases adjusted
        have saved : Unique { db with inbounds := db.inbounds.map fun ib => (inbounds.find? (·.id = ib.id)).getD ib } :=
          unique.same rfl rfl rfl
        exact saved.syncedOwn now inbounds
    cases done
    exact between.of_maps (List.map_id _).symm (fun _ => rfl) rfl
      (fun row => (startRow_email converted _).trans (countRow_email uses now row)) rfl

theorem Unique.committed (unique : Unique db) {db' : Database} {traffics : List Traffic} {uses : List ClientUse} {clock : Clock}
    {fate : Fate} (done : commitTraffic db traffics uses clock fate = some db') : Unique db' := by
  cases fate with
  | refused | rolledBack => cases done
  | counted skipped maintained =>
      obtain ⟨counted, committed, rfl⟩ := Option.map_eq_some_iff.mp done
      obtain ⟨inbounds, tables⟩ := addInboundTraffic_tables db traffics
      have before : Unique (addInboundTraffic db traffics) := by
        rw [tables]
        exact unique.same rfl rfl rfl
      exact (before.counted committed).of_maps (List.map_id _).symm (fun _ => rfl) rfl (skipUpdate_email skipped db) rfl

def renewal (db : Database) (clock : Clock) : Option (Renewing × List Inbound) :=
  let traffics := db.clientTraffics.filter (renewable db clock.nowSeconds)
  renewInbounds clock (fun email => traffics.any fun row => row.email = email && row.enable) ⟨traffics, []⟩
    (db.inbounds.filter (·.id ∈ linkedInboundIds db (traffics.map (·.email))))

def renewedEmails (db : Database) (clock : Clock) : List String :=
  ((renewal db clock).map fun made => made.1.renewedEmails).getD []

theorem autoRenewClients_written {db db' : Database} {clock : Clock} (done : autoRenewClients db clock = some db') :
    db' = db ∧ renewedEmails db clock = [] ∨
      ∃ st inbounds, renewal db clock = some (st, inbounds) ∧ db' = writeBack db clock.nowSeconds st inbounds := by
  unfold autoRenewClients at done
  dsimp only at done
  split at done
  · rename_i none'
    cases done
    refine .inl ⟨rfl, ?_⟩
    unfold renewedEmails renewal
    dsimp only
    rw [none']
    simp [linkedInboundIds, renewInbounds]
  · obtain ⟨⟨st, inbounds⟩, made, done⟩ := Option.bind_eq_some_iff.mp done
    cases done
    exact .inr ⟨st, inbounds, made, rfl⟩

theorem Unique.maintained (unique : Unique db) {db' : Database} {clock : Clock} (done : maintain db clock = some db') :
    Unique db' := by
  obtain ⟨renewed, renewing, done⟩ := Option.bind_eq_some_iff.mp done
  obtain ⟨disabled, disabling, done⟩ := Option.bind_eq_some_iff.mp done
  cases done
  have first : Unique renewed := by
    rcases autoRenewClients_written renewing with ⟨rfl, -⟩ | ⟨st, inbounds, -, rfl⟩
    · exact unique
    · have saved : Unique { db with inbounds := db.inbounds.map fun ib => (inbounds.find? (·.id = ib.id)).getD ib } :=
        unique.same rfl rfl rfl
      refine (saved.syncedOwn clock.nowSeconds inbounds).of_maps (List.map_id _).symm (fun _ => rfl) rfl (fun row => ?_) rfl
      cases found : st.traffics.find? (·.email = row.email) with
      | none => rfl
      | some fresh => simpa using List.find?_some found
  have second : Unique disabled := by
    unfold disableInvalidClients at disabling
    dsimp only at disabling
    split at disabling
    · cases disabling
      exact first
    · obtain ⟨inbounds, -, disabling⟩ := Option.bind_eq_some_iff.mp disabling
      cases disabling
      refine first.of_maps rfl (fun rec => ?_) rfl (fun row => ?_) rfl
      · split <;> rfl
      · split <;> rfl
  exact second.same rfl rfl rfl

end Unique

/-! ## The counters after a poll -/

def ClientTraffic.used (row : ClientTraffic) : Int × Int := (row.up, row.down)

/-- The rows of the emails renewed so far count from zero, the others as before. -/
structure Zeroed (rows : List ClientTraffic) (st : Renewing) : Prop where
  used : ∀ email, (st.traffics.find? (·.email = email)).map ClientTraffic.used =
    (rows.find? (·.email = email)).map fun row => if email ∈ st.renewedEmails then 0 else row.used
  known : ∀ email ∈ st.renewedEmails, email ∈ rows.map (·.email)

section Renewal

variable {rows : List ClientTraffic} {st : Renewing} {clock : Clock} {wasEnabled : String → Bool}

theorem Zeroed.put (zeroed : Zeroed rows st) {email : String} {row fresh : ClientTraffic}
    (found : st.traffics.find? (·.email = email) = some row) (named : fresh.email = email) {renewed : List String}
    (either : fresh.used = row.used ∧ renewed = st.renewedEmails ∨ fresh.used = 0 ∧ renewed = st.renewedEmails ++ [email]) :
    Zeroed rows ⟨st.traffics.map fun r => if r.email = email then fresh else r, renewed⟩ := by
  have before := zeroed.used email
  rw [found, Option.map_some, eq_comm, Option.map_eq_some_iff] at before
  obtain ⟨first, stored, before⟩ := before
  have keeps : ∀ r : ClientTraffic, (if r.email = email then fresh else r).email = r.email := by
    intro r
    split
    · rename_i own
      exact named.trans own.symm
    · rfl
  have own : row.email = email := by simpa using List.find?_some found
  constructor
  · intro other
    simp only
    rw [find?_map_email keeps]
    by_cases same : other = email
    · subst same
      rw [found, stored, Option.map_some, Option.map_some, Option.map_some, if_pos own]
      rcases either with ⟨kept, rfl⟩ | ⟨zero, rfl⟩
      · rw [kept, before]
      · rw [zero, if_pos (by simp)]
    · have elsewhere : (st.traffics.find? (·.email = other)).map (fun r => if r.email = email then fresh else r) =
          st.traffics.find? (·.email = other) := by
        cases there : st.traffics.find? (·.email = other) with
        | none => rfl
        | some r =>
            have is : r.email = other := by simpa using List.find?_some there
            rw [Option.map_some, if_neg (is ▸ same)]
      rw [elsewhere, zeroed.used other]
      rcases either with ⟨-, rfl⟩ | ⟨-, rfl⟩
      · rfl
      · simp [same]
  · intro other mem
    rcases either with ⟨-, rfl⟩ | ⟨-, rfl⟩
    · exact zeroed.known other mem
    · rcases List.mem_append.mp mem with earlier | here
      · exact zeroed.known other earlier
      · rw [List.mem_singleton.mp here]
        have is : first.email = email := by simpa using List.find?_some stored
        exact List.mem_map.mpr ⟨first, List.mem_of_find?_eq_some stored, is⟩

theorem renewEntry_zeroed (zeroed : Zeroed rows st) (entry : Json) : Zeroed rows (renewEntry clock wasEnabled st entry).1 := by
  unfold renewEntry
  dsimp only
  cases found : st.traffics.find? (·.email = entryEmail entry) with
  | none => exact zeroed
  | some row =>
      have own : row.email = entryEmail entry := by simpa using List.find?_some found
      dsimp only
      generalize renewals clock row = result
      obtain ⟨expiry, count⟩ := result
      dsimp only
      by_cases some' : count > 0
      · simp only [if_pos some']
        split
        · refine zeroed.put found ?_ (.inl ⟨?_, rfl⟩)
          · exact own
          · rfl
        · refine zeroed.put found ?_ (.inr ⟨?_, rfl⟩)
          · split <;> exact own
          · split <;> rfl
      · simp only [if_neg some']
        split
        · exact zeroed.put found own (.inl ⟨rfl, rfl⟩)
        · refine zeroed.put found ?_ (.inl ⟨?_, rfl⟩)
          · split <;> exact own
          · split <;> rfl

theorem renewEntries_zeroed (zeroed : Zeroed rows st) {entries : List Json} {made : Renewing × List Json}
    (done : renewEntries clock wasEnabled st entries = some made) : Zeroed rows made.1 := by
  induction entries generalizing st made with
  | nil =>
      cases done
      exact zeroed
  | cons entry rest ih =>
      have first := (@renewEntry_zeroed _ _ clock wasEnabled) zeroed entry
      rw [renewEntries] at done
      generalize renewEntry clock wasEnabled st entry = step at first done
      split at done
      · obtain ⟨made', next, rfl⟩ := Option.map_eq_some_iff.mp done
        have last := ih first next
        exact last
      · cases done

theorem renewInbounds_zeroed (zeroed : Zeroed rows st) {inbounds : List Inbound} {made : Renewing × List Inbound}
    (done : renewInbounds clock wasEnabled st inbounds = some made) : Zeroed rows made.1 := by
  induction inbounds generalizing st made with
  | nil =>
      cases done
      exact zeroed
  | cons ib rest ih =>
      obtain ⟨first, one, done⟩ := Option.bind_eq_some_iff.mp done
      obtain ⟨second, more, done⟩ := Option.bind_eq_some_iff.mp done
      cases done
      have held : Zeroed rows first.1 := by
        unfold renewInbound at one
        split at one
        · split at one
          · cases one
            exact zeroed
          · obtain ⟨made', next, rfl⟩ := Option.map_eq_some_iff.mp one
            exact renewEntries_zeroed zeroed next
        · cases one
          exact zeroed
      have last := ih held more
      exact last

end Renewal

theorem find_unique {rows : List ClientTraffic} (unique : (rows.map (·.email)).Nodup) {row : ClientTraffic} (mem : row ∈ rows) :
    rows.find? (·.email = row.email) = some row := by
  cases found : rows.find? (·.email = row.email) with
  | none => exact absurd (decide_eq_true rfl) (List.find?_eq_none.mp found row mem)
  | some other =>
      have same : other.email = row.email := by simpa using List.find?_some found
      rw [List.inj_on_of_nodup_map unique (List.mem_of_find?_eq_some found) mem same]

section Renewed

variable {db db' : Database} {clock : Clock}

theorem autoRenewClients_used (unique : (db.clientTraffics.map (·.email)).Nodup) (done : autoRenewClients db clock = some db') :
    ∃ g : ClientTraffic → ClientTraffic, db'.clientTraffics = db.clientTraffics.map g ∧ (∀ row, (g row).email = row.email) ∧
      ∀ row ∈ db.clientTraffics, (g row).used = if row.email ∈ renewedEmails db clock then 0 else row.used := by
  rcases autoRenewClients_written done with ⟨rfl, nobody⟩ | ⟨st, inbounds, made, rfl⟩
  · exact ⟨id, (List.map_id _).symm, fun _ => rfl, fun row _ => by simp [nobody]⟩
  · have renewed : renewedEmails db clock = st.renewedEmails := by rw [renewedEmails, made, Option.map_some, Option.getD_some]
    have start : Zeroed (db.clientTraffics.filter (renewable db clock.nowSeconds))
        ⟨db.clientTraffics.filter (renewable db clock.nowSeconds), []⟩ :=
      ⟨fun email => by simp, fun _ mem => absurd mem List.not_mem_nil⟩
    have zeroed : Zeroed (db.clientTraffics.filter (renewable db clock.nowSeconds)) st := renewInbounds_zeroed start made
    refine ⟨fun row => (st.traffics.find? (·.email = row.email)).getD row,
      writeBack_clientTraffics db clock.nowSeconds st inbounds, fun row => ?_, fun row mem => ?_⟩
    · dsimp only
      cases found : st.traffics.find? (·.email = row.email) with
      | none => rfl
      | some fresh => simpa using List.find?_some found
    · dsimp only
      rw [renewed]
      have used := zeroed.used row.email
      by_cases due : row ∈ db.clientTraffics.filter (renewable db clock.nowSeconds)
      · rw [find_unique (unique.sublist (filter_sublist.map _)) due, Option.map_some, Option.map_eq_some_iff] at used
        obtain ⟨fresh, found, used⟩ := used
        rw [found]
        exact used
      · have absent : row.email ∉ (db.clientTraffics.filter (renewable db clock.nowSeconds)).map (·.email) := by
          intro here
          obtain ⟨other, other_mem, same⟩ := List.mem_map.mp here
          exact due (List.inj_on_of_nodup_map unique (List.mem_of_mem_filter other_mem) mem same ▸ other_mem)
        have missing : (db.clientTraffics.filter (renewable db clock.nowSeconds)).find? (·.email = row.email) = none := by
          refine List.find?_eq_none.mpr fun other here own => absent ?_
          exact List.mem_map.mpr ⟨other, here, by simpa using own⟩
        rw [missing, Option.map_none, Option.map_eq_none_iff] at used
        rw [used, if_neg fun mem => absent (zeroed.known _ mem)]
        rfl

theorem disableInvalidClients_used (done : disableInvalidClients db clock = some db') :
    ∃ g : ClientTraffic → ClientTraffic, db'.clientTraffics = db.clientTraffics.map g ∧ (∀ row, (g row).email = row.email) ∧
      ∀ row, (g row).used = row.used := by
  unfold disableInvalidClients at done
  dsimp only at done
  split at done
  · cases done
    exact ⟨id, (List.map_id _).symm, fun _ => rfl, fun _ => rfl⟩
  · obtain ⟨inbounds, -, done⟩ := Option.bind_eq_some_iff.mp done
    cases done
    refine ⟨_, rfl, fun row => ?_, fun row => ?_⟩
    · split <;> rfl
    · split <;> rfl

theorem maintain_used (unique : (db.clientTraffics.map (·.email)).Nodup) (done : maintain db clock = some db') :
    ∃ g : ClientTraffic → ClientTraffic, db'.clientTraffics = db.clientTraffics.map g ∧ (∀ row, (g row).email = row.email) ∧
      ∀ row ∈ db.clientTraffics, (g row).used = if row.email ∈ renewedEmails db clock then 0 else row.used := by
  obtain ⟨renewed, renewing, done⟩ := Option.bind_eq_some_iff.mp done
  obtain ⟨disabled, disabling, done⟩ := Option.bind_eq_some_iff.mp done
  cases done
  obtain ⟨first, traffics, emails, used⟩ := autoRenewClients_used unique renewing
  obtain ⟨second, traffics', emails', used'⟩ := disableInvalidClients_used disabling
  refine ⟨second ∘ first, ?_, fun row => (emails' _).trans (emails row), fun row mem => (used' _).trans (used row mem)⟩
  show disabled.clientTraffics = _
  rw [traffics', traffics, List.map_map]

end Renewed

/-! ## A poll -/

def gained (uses : List ClientUse) (row : ClientTraffic) : Int × Int :=
  match lastUse uses row.email with
  | some t => if t.up = 0 ∧ t.down = 0 then 0 else (clampedAdd row.up t.up - row.up, clampedAdd row.down t.down - row.down)
  | none => 0

/-- What a poll submits and when, and how far it gets. -/
structure TrafficPoll where
  traffics : List Traffic
  clientTraffics : List ClientUse
  clock : Clock
  fate : Fate

namespace TrafficPoll

def commit (p : TrafficPoll) (db : Database) : Option Database :=
  commitTraffic db p.traffics p.clientTraffics p.clock p.fate

def run (p : TrafficPoll) (db : Database) : Database := addTraffic db p.traffics p.clientTraffics p.clock p.fate

def added (p : TrafficPoll) (db : Database) (row : ClientTraffic) : Int × Int :=
  if (p.commit db).isSome ∧ row.email ∉ p.fate.skipped then gained p.clientTraffics row else 0

def renewed (p : TrafficPoll) (db : Database) : List String :=
  match p.commit db with
  | some committed =>
      if p.fate.maintained then (maintain committed p.clock).elim [] fun _ => renewedEmails committed p.clock else []
  | none => []

theorem run_unique (p : TrafficPoll) {db : Database} (unique : Unique db) : Unique (p.run db) := by
  unfold run addTraffic
  cases committed : commitTraffic db p.traffics p.clientTraffics p.clock p.fate with
  | none => exact unique
  | some counted =>
      have held := unique.committed committed
      dsimp only
      split
      · cases done : maintain counted p.clock with
        | none => exact held
        | some final => exact held.maintained done
      · exact held

theorem addClientTraffic_used {db db' : Database} {uses : List ClientUse} {now : Int}
    (done : addClientTraffic db uses now = some db') :
    ∃ g : ClientTraffic → ClientTraffic, db'.clientTraffics = db.clientTraffics.map g ∧ (∀ row, (g row).email = row.email) ∧
      ∀ row ∈ db.clientTraffics, (g row).used = row.used + gained uses row := by
  unfold addClientTraffic at done
  dsimp only at done
  split at done
  · rename_i nobody
    cases done
    refine ⟨id, (List.map_id _).symm, fun _ => rfl, fun row mem => ?_⟩
    unfold gained
    cases found : lastUse uses row.email with
    | none => exact (add_zero _).symm
    | some t => exact absurd (decide_eq_true (lastUse_reported found)) (List.filter_eq_nil_iff.mp nobody row mem)
  · obtain ⟨⟨mid, converted⟩, adjusted, done⟩ := Option.bind_eq_some_iff.mp done
    have same := adjustTraffics_clientTraffics adjusted
    cases done
    refine ⟨fun row => startRow converted (countRow uses now row), congrArg (List.map _) same,
      fun row => (startRow_email converted _).trans (countRow_email uses now row), fun row _ => ?_⟩
    have started : (startRow converted (countRow uses now row)).used = (countRow uses now row).used :=
      Prod.ext (startRow_toward converted _ false) (startRow_toward converted _ true)
    rw [started]
    unfold countRow gained
    cases lastUse uses row.email with
    | none => exact (add_zero _).symm
    | some t =>
        dsimp only
        split
        · exact (add_zero _).symm
        · exact Prod.ext (add_sub_cancel _ _).symm (add_sub_cancel _ _).symm

theorem commit_used (p : TrafficPoll) {db counted : Database} (unique : (db.clientTraffics.map (·.email)).Nodup)
    (done : p.commit db = some counted) :
    ∃ g : ClientTraffic → ClientTraffic, counted.clientTraffics = db.clientTraffics.map g ∧ (∀ row, (g row).email = row.email) ∧
      ∀ row ∈ db.clientTraffics, (g row).used = row.used + p.added db row := by
  have some' : (p.commit db).isSome = true := by rw [done]; rfl
  unfold added
  rw [some']
  unfold commit at done
  cases fate : p.fate with
  | refused | rolledBack =>
      rw [fate] at done
      cases done
  | counted skipped maintained =>
      rw [fate] at done
      obtain ⟨after, committed, rfl⟩ := Option.map_eq_some_iff.mp done
      obtain ⟨g, traffics, emails, used⟩ := addClientTraffic_used committed
      rw [addInboundTraffic_clientTraffics] at traffics used
      refine ⟨skipUpdate skipped db ∘ g, ?_, fun row => (skipUpdate_email _ _ _).trans (emails row), fun row mem => ?_⟩
      · show after.clientTraffics.map (skipUpdate skipped db) = _
        rw [traffics, List.map_map]
      · rw [Function.comp_apply]
        simp only [Fate.skipped, true_and]
        rw [skipUpdate, emails row]
        by_cases skips : row.email ∈ skipped
        · rw [if_pos skips, find_unique unique mem, if_neg (not_not.mpr skips)]
          exact (add_zero _).symm
        · rw [if_neg skips, if_pos skips]
          exact used row mem

theorem run_used (p : TrafficPoll) {db : Database} (unique : Unique db) :
    ∃ g : ClientTraffic → ClientTraffic, (p.run db).clientTraffics = db.clientTraffics.map g ∧
      (∀ row, (g row).email = row.email) ∧
      ∀ row ∈ db.clientTraffics, (g row).used = if row.email ∈ p.renewed db then 0 else row.used + p.added db row := by
  have refused (none' : p.commit db = none) : ∀ row, p.added db row = 0 := fun row => by simp [added, none']
  unfold run addTraffic renewed
  cases committed : p.commit db with
  | none =>
      have same : commitTraffic db p.traffics p.clientTraffics p.clock p.fate = none := committed
      rw [same]
      exact ⟨id, (List.map_id _).symm, fun _ => rfl, fun row _ => by simp [refused committed]⟩
  | some counted =>
      have same : commitTraffic db p.traffics p.clientTraffics p.clock p.fate = some counted := committed
      obtain ⟨g, traffics, emails, used⟩ := p.commit_used unique.traffics committed
      have held := unique.committed same
      rw [same]
      dsimp only
      by_cases tried : p.fate.maintained = true
      · simp only [if_pos tried]
        cases done : maintain counted p.clock with
        | none =>
            refine ⟨g, traffics, emails, fun row mem => ?_⟩
            simpa using used row mem
        | some final =>
            obtain ⟨g', traffics', emails', used'⟩ := maintain_used held.traffics done
            refine ⟨g' ∘ g, ?_, fun row => (emails' _).trans (emails row), fun row mem => ?_⟩
            · rw [Option.getD_some, traffics', traffics, List.map_map]
            · have there : g row ∈ counted.clientTraffics := traffics ▸ List.mem_map_of_mem mem
              rw [Option.elim_some, Function.comp_apply, used' _ there, emails row, used row mem]
      · rw [if_neg tried]
        refine ⟨g, traffics, emails, fun row mem => ?_⟩
        simpa [tried] using used row mem

def addedFor (p : TrafficPoll) (db : Database) (rec : ClientRecord) : Int × Int :=
  ((db.clientTraffics.filter (·.email = rec.email)).map (p.added db)).sum

theorem run_memberUse (p : TrafficPoll) {db : Database} (unique : Unique db) (rec : ClientRecord) :
    memberUse (p.run db) rec = if rec.email ∈ p.renewed db then 0 else memberUse db rec + p.addedFor db rec := by
  obtain ⟨g, traffics, emails, used⟩ := p.run_used unique
  rw [memberUse_map traffics emails]
  have each : ∀ row ∈ db.clientTraffics.filter (·.email = rec.email), ((g row).up, (g row).down) =
      if rec.email ∈ p.renewed db then 0 else row.used + p.added db row := by
    intro row mem
    obtain ⟨stored, own⟩ := List.mem_filter.mp mem
    rw [← of_decide_eq_true own]
    exact used row stored
  rw [List.map_congr_left each]
  by_cases starts : rec.email ∈ p.renewed db
  · simp [starts]
  · simp only [if_neg starts]
    rw [List.sum_map_add]
    rfl

/-- What the poll does to the total of a group: members that a sync moves take their counters along, the traffic of the
members counts, and the counters of those it renews are gone. -/
def meter (p : TrafficPoll) (db : Database) (m : String → Int × Int) (name : String) : Int × Int :=
  let members := (p.run db).clients.filter (·.group = name)
  m name + ((members.map (memberUse db)).sum - sumUse db (·.group = name)) + (members.map (p.addedFor db)).sum -
    ((members.filter (·.email ∈ p.renewed db)).map fun rec => memberUse db rec + p.addedFor db rec).sum

theorem sum_kept {members : List ClientRecord} {gone : ClientRecord → Prop} [DecidablePred gone]
    (use : ClientRecord → Int × Int) :
    (members.map fun rec => if gone rec then 0 else use rec).sum =
      (members.map use).sum - ((members.filter (gone ·)).map use).sum := by
  induction members with
  | nil => rfl
  | cons rec rest ih =>
      by_cases goes : gone rec
      · simp [goes, ih]
      · simp only [List.map_cons, List.sum_cons, if_neg goes, ih, List.filter_cons, decide_eq_true_eq]
        abel

theorem total_polled (p : TrafficPoll) {s : GroupDb} (unique : Unique s.db) (name : String) :
    groupTotal { s with db := p.run s.db } name = p.meter s.db (groupTotal s) name := by
  unfold groupTotal meter sumUse
  dsimp only
  rw [List.map_congr_left fun rec _ => p.run_memberUse unique rec, sum_kept, List.sum_map_add]
  abel

end TrafficPoll

end ThreeXNode.Panel
