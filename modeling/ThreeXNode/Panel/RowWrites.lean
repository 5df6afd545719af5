import ThreeXNode.Panel.NodeAdopt
import ThreeXNode.Panel.RowEdits

namespace ThreeXNode.Panel
open Library

/-! # What each transaction does to one row of `inbounds` -/

def Inbound.counters (ib : Inbound) : Counter := ⟨ib.up, ib.down⟩

def countersAt (db : Database) (id : Nat) : Counter := ((rowAt db id).map (·.counters)).getD ⟨0, 0⟩

/-- The entries a client has on an inbound, the order of their members aside. -/
def entriesAt (db : Database) (id : Nat) (email : String) : List (Option Json) :=
  (entriesOf ((rowAt db id).bind (·.settings)) email).map (Json.reencode some)

theorem rowAt_congr {db db' : Database} (same : db'.inbounds = db.inbounds) (id : Nat) : rowAt db' id = rowAt db id := by
  rw [rowAt, rowAt, same]

theorem countersAt_congr {db db' : Database} {id : Nat}
    (same : (rowAt db' id).map (·.counters) = (rowAt db id).map (·.counters)) : countersAt db' id = countersAt db id := by
  rw [countersAt, countersAt, same]

theorem entriesAt_congr {db db' : Database} {id : Nat}
    (same : (rowAt db' id).map (·.settings) = (rowAt db id).map (·.settings)) (email : String) :
    entriesAt db' id email = entriesAt db id email := by
  have bind : ∀ row : Option Inbound, row.bind (·.settings) = (row.map (·.settings)).join := by
    intro row
    cases row <;> rfl
  rw [entriesAt, entriesAt, bind, bind, same]

/-! ## Rows changed one by one -/

theorem find_mapped {f : Inbound → Inbound} (keeps : ∀ ib, (f ib).id = ib.id) (rows : List Inbound) (id : Nat) :
    (rows.map f).find? (·.id = id) = (rows.find? (·.id = id)).map f := by
  rw [List.find?_map]
  refine congrArg (Option.map f) (List.find?_congr fun ib _ => ?_)
  rw [Function.comp_apply, keeps]

def Inbound.stamp (ib : Inbound) : Nat × Counter := (ib.id, ib.counters)

theorem find_stamped {rows rows' : List Inbound} (same : rows'.map Inbound.stamp = rows.map Inbound.stamp) (id : Nat) :
    (rows'.find? (·.id = id)).map (·.counters) = (rows.find? (·.id = id)).map (·.counters) := by
  induction rows generalizing rows' with
  | nil =>
      rw [List.map_nil, List.map_eq_nil_iff] at same
      rw [same]
  | cons row rows ih =>
      obtain ⟨row', rest, rfl, own, others⟩ := List.map_eq_cons_iff.mp same
      obtain ⟨sameId, sameCounters⟩ := Prod.mk.inj own
      rw [List.find?_cons, List.find?_cons, sameId]
      split
      · rw [Option.map_some, Option.map_some, sameCounters]
      · exact ih others

def savedAgain (rows inbounds : List Inbound) : List Inbound :=
  rows.map fun ib => (inbounds.find? (·.id = ib.id)).getD ib

section SavedAgain

variable {rows inbounds : List Inbound} {ids : List Nat}
  (same : inbounds.map Inbound.stamp = (rows.filter (·.id ∈ ids)).map Inbound.stamp)
include same

theorem find_filtered (id : Nat) : (inbounds.find? (·.id = id)).map (·.counters) =
    if id ∈ ids then (rows.find? (·.id = id)).map (·.counters) else none := by
  rw [find_stamped same, List.find?_filter]
  split
  · rename_i here
    refine congrArg _ (List.find?_congr fun ib _ => ?_)
    by_cases own : ib.id = id
    · simp [own, here]
    · simp [own]
  · rename_i away
    rw [Option.map_eq_none_iff, List.find?_eq_none]
    intro ib _ hit
    simp only [decide_eq_true_eq] at hit
    exact away (hit.2 ▸ hit.1)

theorem find_savedAgain (id : Nat) :
    ((savedAgain rows inbounds).find? (·.id = id)).map (·.counters) = (rows.find? (·.id = id)).map (·.counters) ∧
      (id ∉ ids → (savedAgain rows inbounds).find? (·.id = id) = rows.find? (·.id = id)) := by
  have keeps : ∀ ib : Inbound, ((inbounds.find? (·.id = ib.id)).getD ib).id = ib.id := by
    intro ib
    cases found : inbounds.find? (·.id = ib.id) with
    | none => rfl
    | some saved => exact of_decide_eq_true (List.find?_some (p := fun row : Inbound => decide (row.id = ib.id)) found)
  rw [savedAgain, find_mapped keeps]
  have filtered := find_filtered same id
  cases found : rows.find? (·.id = id) with
  | none => exact ⟨rfl, fun _ => rfl⟩
  | some ib =>
      have own : ib.id = id := of_decide_eq_true (List.find?_some (p := fun row : Inbound => decide (row.id = id)) found)
      rw [found] at filtered
      rw [Option.map_some, own]
      by_cases here : id ∈ ids
      · rw [if_pos here] at filtered
        obtain ⟨saved, at', counters⟩ := Option.map_eq_some_iff.mp filtered
        rw [at']
        exact ⟨congrArg some counters, fun away => absurd here away⟩
      · rw [if_neg here, Option.map_eq_none_iff] at filtered
        rw [filtered]
        exact ⟨rfl, fun _ => rfl⟩

end SavedAgain

/-! ## A poll counts -/

def Traffic.countsInto (traffic : Traffic) (ib : Inbound) : Bool :=
  traffic.isInbound && ib.tag = traffic.tag && ib.nodeId = none

def raised (traffics : List Traffic) (ib : Inbound) (c : Counter) : Counter :=
  traffics.foldl (fun c traffic =>
    if traffic.countsInto ib then ⟨clampedAdd c.up traffic.up, clampedAdd c.down traffic.down⟩ else c) c

theorem raised_none {traffics : List Traffic} {ib : Inbound} (none : ∀ traffic ∈ traffics, traffic.countsInto ib = false)
    (c : Counter) : raised traffics ib c = c := by
  refine foldl_frame id fun c traffic mem => ?_
  rw [if_neg (by simp [none traffic mem])]

theorem rowAt_addInboundTraffic (db : Database) (traffics : List Traffic) (id : Nat) :
    rowAt (addInboundTraffic db traffics) id = (rowAt db id).map fun ib =>
      { ib with up := (raised traffics ib ib.counters).up, down := (raised traffics ib ib.counters).down } := by
  unfold addInboundTraffic
  induction traffics generalizing db with
  | nil => exact (congrFun Option.map_id (rowAt db id)).symm
  | cons traffic traffics ih =>
      rw [List.foldl_cons, ih]
      by_cases inbound : traffic.isInbound = true
      · rw [if_pos inbound, rowAt]
        dsimp only
        rw [find_mapped (fun ib => by split <;> rfl), Option.map_map]
        refine congrFun (congrArg Option.map (funext fun ib => ?_)) (rowAt db id)
        have met : traffic.countsInto ib = true ↔ ib.tag = traffic.tag ∧ ib.nodeId = none := by
          simp [Traffic.countsInto, inbound]
        rw [Function.comp_apply, raised, raised, List.foldl_cons]
        by_cases here : ib.tag = traffic.tag ∧ ib.nodeId = none
        · rw [if_pos here, if_pos (met.mpr here)]
          rfl
        · rw [if_neg here, if_neg (fun counts => here (met.mp counts))]
      · rw [if_neg inbound]
        refine congrFun (congrArg Option.map (funext fun ib => ?_)) (rowAt db id)
        have away : traffic.countsInto ib = false := by simp [Traffic.countsInto, inbound]
        rw [raised, raised, List.foldl_cons, if_neg (by simp [away])]

def activatedEmails (db : Database) (uses : List ClientUse) : List String :=
  ((db.clientTraffics.filter (·.email ∈ uses.map (·.email))).filter (·.expiryTime < 0)).map (·.email)

theorem syncOwnClients_inbounds (now : Int) (db : Database) (ib : Inbound) : (syncOwnClients now db ib).inbounds = db.inbounds := by
  unfold syncOwnClients
  split <;> rfl

theorem rowAt_synced (now : Int) (inbounds : List Inbound) (db : Database) (id : Nat) :
    rowAt (inbounds.foldl (syncOwnClients now) db) id = rowAt db id :=
  rowAt_congr (foldl_frame Database.inbounds fun db ib _ => syncOwnClients_inbounds now db ib) id

theorem activateSettings_stamp {newExpiry : String → Option Int} {now : Int} {ib ib' : Inbound}
    (made : (activateSettings newExpiry now ib.settings).map (fun settings => { ib with settings := settings }) = some ib') :
    ib'.stamp = ib.stamp := by
  obtain ⟨settings, -, rfl⟩ := Option.map_eq_some_iff.mp made
  rfl

theorem adjustTraffics_rows {db db' : Database} {rows : List ClientTraffic} {now : Int} {converted : String → Option Int}
    (done : adjustTraffics db rows now = some (db', converted)) (id : Nat) :
    (rowAt db' id).map (·.counters) = (rowAt db id).map (·.counters) ∧
      (id ∉ linkedInboundIds db ((rows.filter (·.expiryTime < 0)).map (·.email)) → rowAt db' id = rowAt db id) := by
  unfold adjustTraffics at done
  dsimp only at done
  split at done
  · cases done
    exact ⟨rfl, fun _ => rfl⟩
  · simp only [Option.bind_eq_bind, Option.bind_eq_some_iff] at done
    obtain ⟨inbounds, saved, done⟩ := done
    cases done
    have stamps := mapM_map (fun _ _ => activateSettings_stamp) saved
    rw [rowAt_synced]
    exact find_savedAgain stamps id

theorem countTraffic_rows {db db' : Database} {traffics : List Traffic} {uses : List ClientUse} {clock : Clock}
    (done : countTraffic db traffics uses clock = some db') (id : Nat) :
    (rowAt db' id).map (·.counters) = (rowAt db id).map (fun ib => raised traffics ib ib.counters) ∧
      (id ∉ linkedInboundIds db (activatedEmails db uses) →
        (rowAt db' id).map (·.settings) = (rowAt db id).map (·.settings)) := by
  have counted := rowAt_addInboundTraffic db traffics id
  have same : (addInboundTraffic db traffics).clients = db.clients ∧
      (addInboundTraffic db traffics).clientInbounds = db.clientInbounds ∧
      (addInboundTraffic db traffics).clientTraffics = db.clientTraffics := by
    refine foldl_invariant (fun d : Database => d.clients = db.clients ∧ d.clientInbounds = db.clientInbounds ∧
      d.clientTraffics = db.clientTraffics) ⟨rfl, rfl, rfl⟩ fun d traffic _ held => ?_
    split <;> exact held
  have shape : (rowAt (addInboundTraffic db traffics) id).map (·.counters) =
      (rowAt db id).map (fun ib => raised traffics ib ib.counters) ∧
      (rowAt (addInboundTraffic db traffics) id).map (·.settings) = (rowAt db id).map (·.settings) := by
    rw [counted, Option.map_map, Option.map_map]
    exact ⟨rfl, rfl⟩
  unfold countTraffic addClientTraffic at done
  dsimp only at done
  split at done
  · cases done
    exact ⟨shape.1, fun _ => shape.2⟩
  · simp only [Option.bind_eq_bind, Option.bind_eq_some_iff] at done
    obtain ⟨⟨adjusted, converted⟩, adjusts, done⟩ := done
    cases done
    obtain ⟨counters, away⟩ := adjustTraffics_rows adjusts id
    refine ⟨counters.trans shape.1, fun unlinked => ?_⟩
    have ids : linkedInboundIds (addInboundTraffic db traffics)
        ((((addInboundTraffic db traffics).clientTraffics.filter (·.email ∈ uses.map (·.email))).filter
          (·.expiryTime < 0)).map (·.email)) = linkedInboundIds db (activatedEmails db uses) := by
      rw [activatedEmails, same.2.2, linkedInboundIds, linkedInboundIds, same.1, same.2.1]
    have left := away (ids ▸ unlinked)
    exact (congrArg (Option.map _) left).trans shape.2

/-! ## Maintenance renews and disables -/

def renewableEmails (db : Database) (clock : Clock) : List String :=
  (db.clientTraffics.filter (renewable db clock.nowSeconds)).map (·.email)

theorem renewInbound_stamp {clock : Clock} {wasEnabled : String → Bool} {st st' : Renewing} {ib ib' : Inbound}
    (done : renewInbound clock wasEnabled st ib = some (st', ib')) : ib'.stamp = ib.stamp := by
  unfold renewInbound at done
  split at done
  · split at done
    · cases done
      rfl
    · obtain ⟨⟨st, clients⟩, -, made⟩ := Option.map_eq_some_iff.mp done
      cases made
      rfl
  · cases done
    rfl

theorem renewInbounds_stamps {clock : Clock} {wasEnabled : String → Bool} {rows : List Inbound} {st st' : Renewing}
    {rows' : List Inbound} (done : renewInbounds clock wasEnabled st rows = some (st', rows')) :
    rows'.map Inbound.stamp = rows.map Inbound.stamp := by
  induction rows generalizing st rows' with
  | nil =>
      cases done
      rfl
  | cons ib rows ih =>
      simp only [renewInbounds, Option.bind_eq_bind, Option.bind_eq_some_iff] at done
      obtain ⟨⟨mid, ib'⟩, first, ⟨stop, rest⟩, later, done⟩ := done
      cases done
      rw [List.map_cons, List.map_cons, renewInbound_stamp first, ih later]

theorem autoRenewClients_rows {db db' : Database} {clock : Clock} (done : autoRenewClients db clock = some db') (id : Nat) :
    (rowAt db' id).map (·.counters) = (rowAt db id).map (·.counters) ∧
      (id ∉ linkedInboundIds db (renewableEmails db clock) → rowAt db' id = rowAt db id) := by
  unfold autoRenewClients at done
  dsimp only at done
  split at done
  · cases done
    exact ⟨rfl, fun _ => rfl⟩
  · simp only [Option.bind_eq_bind, Option.bind_eq_some_iff] at done
    obtain ⟨⟨st, inbounds⟩, renews, done⟩ := done
    cases done
    have kept := rowAt_synced clock.nowSeconds inbounds { db with inbounds := savedAgain db.inbounds inbounds } id
    have saved := find_savedAgain (renewInbounds_stamps renews) id
    exact ⟨(congrArg (Option.map _) kept).trans saved.1, fun away => kept.trans (saved.2 away)⟩

def disabledAt (db : Database) (clock : Clock) (id : Nat) : List String :=
  let emails := ((db.clientTraffics.filter fun row => depleted db clock row && row.enable).map (·.email)).filter (· ≠ "")
  let ids := (db.clientInbounds.filter (·.inboundId = id)).map (·.clientId)
  (db.clients.filter fun rec => rec.id ∈ ids ∧ rec.email ∈ emails).map (·.email)

theorem find_mapM {f : Inbound → Option Inbound} (keeps : ∀ ib ib', f ib = some ib' → ib'.id = ib.id)
    {rows rows' : List Inbound} (made : rows.mapM f = some rows') (id : Nat) :
    rows'.find? (·.id = id) = (rows.find? (·.id = id)).bind f := by
  induction rows generalizing rows' with
  | nil =>
      cases made
      rfl
  | cons ib rows ih =>
      simp only [List.mapM_cons, Option.bind_eq_bind, Option.bind_eq_some_iff] at made
      obtain ⟨ib', one, rest, more, made⟩ := made
      cases made
      rw [List.find?_cons, List.find?_cons, keeps ib ib' one]
      split
      · exact one.symm
      · exact ih more

theorem disableInvalidClients_rows {db db' : Database} {clock : Clock} (done : disableInvalidClients db clock = some db')
    (id : Nat) : (rowAt db' id).map (·.counters) = (rowAt db id).map (·.counters) ∧
      (disabledAt db clock id = [] → rowAt db' id = rowAt db id) := by
  unfold disableInvalidClients at done
  dsimp only at done
  split at done
  · cases done
    exact ⟨rfl, fun _ => rfl⟩
  · simp only [Option.bind_eq_bind, Option.bind_eq_some_iff] at done
    obtain ⟨inbounds, marked, done⟩ := done
    cases done
    have each : ∀ ib ib' : Inbound, (if disabledAt db clock ib.id = [] then some ib else
        markClientsDisabledInSettings (disabledAt db clock ib.id) clock.nowSeconds ib) = some ib' → ib'.stamp = ib.stamp := by
      intro ib ib' made
      split at made
      · cases made
        rfl
      · obtain ⟨o, -, made⟩ := Option.map_eq_some_iff.mp made
        split at made
        · cases made
          rfl
        · cases made
          rfl
    refine ⟨find_stamped (mapM_map each marked) id, fun unmarked => ?_⟩
    refine (find_mapM (fun ib ib' made => congrArg Prod.fst (each ib ib' made)) marked id).trans ?_
    cases here : rowAt db id with
    | none =>
        rw [show db.inbounds.find? (·.id = id) = none from here]
        rfl
    | some ib =>
        rw [show db.inbounds.find? (·.id = id) = some ib from here, Option.bind_some]
        exact if_pos ((congrArg (disabledAt db clock) (rowAt_id here)).trans unmarked)

theorem disableInvalidInbounds_rows (db : Database) (clock : Clock) (id : Nat) :
    (rowAt (disableInvalidInbounds db clock) id).map (·.counters) = (rowAt db id).map (·.counters) ∧
      (rowAt (disableInvalidInbounds db clock) id).map (·.settings) = (rowAt db id).map (·.settings) := by
  unfold rowAt disableInvalidInbounds
  dsimp only
  rw [find_mapped (fun ib => by split <;> rfl), Option.map_map, Option.map_map]
  refine ⟨congrFun (congrArg Option.map (funext fun ib => ?_)) _, congrFun (congrArg Option.map (funext fun ib => ?_)) _⟩
  · rw [Function.comp_apply]
    split <;> rfl
  · rw [Function.comp_apply]
    split <;> rfl

def maintains (db : Database) (clock : Clock) (id : Nat) : Bool :=
  id ∈ linkedInboundIds db (renewableEmails db clock) ||
    (autoRenewClients db clock).any fun renewed => disabledAt renewed clock id ≠ []

theorem maintain_rows {db db' : Database} {clock : Clock} (done : maintain db clock = some db') (id : Nat) :
    (rowAt db' id).map (·.counters) = (rowAt db id).map (·.counters) ∧
      (maintains db clock id = false → (rowAt db' id).map (·.settings) = (rowAt db id).map (·.settings)) := by
  simp only [maintain, Option.bind_eq_bind, Option.bind_eq_some_iff] at done
  obtain ⟨renewed, renews, disabled, disables, done⟩ := done
  cases done
  obtain ⟨counters, away⟩ := autoRenewClients_rows renews id
  obtain ⟨counters', away'⟩ := disableInvalidClients_rows disables id
  obtain ⟨counters'', settings⟩ := disableInvalidInbounds_rows disabled clock id
  refine ⟨counters''.trans (counters'.trans counters), fun spared => ?_⟩
  simp only [maintains, renews, Option.any_some, Bool.or_eq_false_iff, decide_eq_false_iff_not, not_not] at spared
  rw [settings, away' spared.2, away spared.1]

/-! ## A merge stays with its node -/

/-- Whether the id is that of an inbound of the node, or not given yet. -/
def onNode (db : Database) (nodeId id : Nat) : Bool :=
  db.nextInboundId ≤ id || db.inbounds.any fun ib => ib.id = id && ib.nodeId = some nodeId

theorem rowAt_updateInbound {db : Database} {id other : Nat} {f : Inbound → Inbound} (keeps : ∀ ib, (f ib).id = ib.id)
    (differ : other ≠ id) : rowAt (updateInbound db other f) id = rowAt db id := by
  unfold rowAt updateInbound
  dsimp only
  rw [find_mapped (fun ib => by split <;> simp [keeps])]
  cases found : db.inbounds.find? (·.id = id) with
  | none => rfl
  | some ib =>
      have shown : rowAt db id = some ib := found
      have own : ib.id = id := rowAt_id shown
      rw [Option.map_some, if_neg fun same => differ (same.symm.trans own)]

section Merge

variable {db : Database} {node : Node} {tick : Tick} {dirty : Bool} {id : Nat}

theorem central_apart (away : onNode db node.id id = false) {c : Inbound} (mem : c ∈ centralInbounds db node.id) : c.id ≠ id := by
  rintro rfl
  obtain ⟨stored, here⟩ := List.mem_filter.mp mem
  have hit : onNode db node.id c.id = true := by
    rw [onNode, Bool.or_eq_true]
    exact .inr (List.any_eq_true.mpr ⟨c, stored, by simpa using here⟩)
  rw [hit] at away
  cases away

/-- The first pass of a merge has not touched the row, nor does it know of it. -/
structure Apart (db : Database) (id : Nat) (st : Adoption) : Prop where
  row : rowAt st.db id = rowAt db id
  given : db.nextInboundId ≤ st.db.nextInboundId
  index : ∀ tag c, st.tagToCentral tag = some c → c.id ≠ id
  pending : ∀ p ∈ st.pendingAdopts, p.central.id ≠ id

theorem indexCentral_apart (away : onNode db node.id id = false) :
    ∀ tag c, indexCentral db node tag = some c → c.id ≠ id := by
  refine foldl_invariant (fun index : String → Option Inbound => ∀ tag c, index tag = some c → c.id ≠ id)
    (fun _ _ read => absurd read (by simp)) ?_
  intro index ib mem held tag c read
  simp only [Function.update_apply] at read
  split at read
  · cases read
    exact central_apart away mem
  · split at read
    · cases read
      exact central_apart away mem
    · exact held tag c read

theorem adoptKnown_apart {st : Adoption} (held : Apart db id st) {snapIb c : Inbound} (apart : c.id ≠ id) :
    Apart db id (adoptKnown db node tick dirty st snapIb c) := by
  refine ⟨?_, held.given, held.index, ?_⟩
  · unfold adoptKnown
    dsimp only
    rw [rowAt_updateInbound (fun ib => ?_) apart]
    · exact held.row
    · repeat' split
      all_goals rfl
  · unfold adoptKnown
    dsimp only
    split
    · exact held.pending
    · intro p mem
      rcases List.mem_append.mp mem with before | last
      · exact held.pending p before
      · rw [List.mem_singleton.mp last]
        exact apart

theorem adoptUnknown_apart (away : onNode db node.id id = false) {st : Adoption} (held : Apart db id st) {snapIb : Inbound} :
    Apart db id (adoptUnknown db node dirty st snapIb) := by
  have old : st.db.nextInboundId ≠ id := by
    rintro rfl
    rw [onNode, decide_eq_true held.given] at away
    cases away
  unfold adoptUnknown
  dsimp only
  split
  · exact held
  · split
    · exact held
    · refine ⟨?_, held.given.trans (Nat.le_succ _), ?_, held.pending⟩
      · refine Eq.trans ?_ held.row
        unfold rowAt
        dsimp only
        rw [List.find?_append]
        have new : ([adoptedInbound db node st snapIb (pickFreeTag st.db.inbounds node.id snapIb.tag)].find?
            (·.id = id)) = none := by simp [adoptedInbound, old]
        rw [new, Option.or_none]
      · intro tag c read
        simp only [Function.update_apply] at read
        split at read
        · cases read
          exact old
        · split at read
          · cases read
            exact old
          · exact held.index tag c read

theorem adoptInbounds_apart (away : onNode db node.id id = false) {adopted : Adoption}
    (done : adoptInbounds db node tick dirty = .ok adopted) : Apart db id adopted := by
  refine foldlM_ok (fun _ st => Apart db id st) done ⟨rfl, le_rfl, indexCentral_apart away, by simp⟩ ?_
  intro _ snapIb st st' _ held step
  have held' : Apart db id { st with snapTags := snapIb.tag :: flipTag node.id snapIb.tag :: st.snapTags } :=
    ⟨held.row, held.given, held.index, held.pending⟩
  unfold adoptInbound at step
  dsimp only at step
  split at step
  · rename_i c known
    cases step
    exact adoptKnown_apart held' (held.index _ _ known)
  · split at step
    · cases step
      exact adoptUnknown_apart away held'
    · rename_i c only
      cases step
      have mem : c ∈ compatibleCentral db node snapIb := only ▸ List.mem_singleton_self c
      have apart := central_apart away (List.mem_of_mem_filter mem)
      have index : ∀ tag c', Function.update st.tagToCentral snapIb.tag (some c) tag = some c' → c'.id ≠ id := by
        intro tag c' read
        rw [Function.update_apply] at read
        split at read
        · cases read
          exact apart
        · exact held.index tag c' read
      have indexed : Apart db id { st with
          tagToCentral := Function.update st.tagToCentral snapIb.tag (some c)
          snapTags := c.tag :: snapIb.tag :: flipTag node.id snapIb.tag :: st.snapTags } :=
        ⟨held.row, held.given, index, held.pending⟩
      exact adoptKnown_apart indexed apart
    · cases step

theorem sweepInbounds_apart (away : onNode db node.id id = false) {st : Adoption} (held : Apart db id st) :
    Apart db id (sweepInbounds db node tick dirty st) := by
  refine foldl_invariant (Apart db id) held ?_
  intro st c mem held
  have apart := central_apart away mem
  unfold sweepInbound
  dsimp only
  split
  · refine ⟨?_, held.given, ?_, held.pending⟩
    · refine Eq.trans ?_ held.row
      unfold rowAt
      dsimp only
      rw [List.find?_filter]
      refine List.find?_congr fun ib _ => ?_
      by_cases own : ib.id = id
      · simp [own, apart.symm]
      · simp [own]
    · intro tag c' read
      simp only [Function.update_apply] at read
      split at read
      · cases read
      · exact held.index tag c' read
  · exact held

theorem syncSnapshotInbound_inbounds (nodeId : Nat) (tick : Tick) (byEmail : String → Option ClientTraffic)
    (tagToCentral : String → Option Inbound) (st : Database × List String) (snapIb : Inbound) :
    (syncSnapshotInbound nodeId tick byEmail tagToCentral st snapIb).1.inbounds = st.1.inbounds := by
  unfold syncSnapshotInbound
  split
  · rfl
  · split <;> rfl

theorem adoptSettings_row {byEmail : String → Option ClientTraffic} {db : Database} {p : PendingAdopt}
    (apart : p.central.id ≠ id) : rowAt (adoptSettings tick byEmail db p) id = rowAt db id := by
  unfold adoptSettings
  dsimp only
  split
  · rfl
  · exact rowAt_updateInbound (fun _ => rfl) apart

theorem adoptClients_row {nodeId : Nat} {adopted : Adoption} {st : Merge} {db : Database}
    (pending : ∀ p ∈ adopted.pendingAdopts, p.central.id ≠ id) :
    rowAt (adoptClients nodeId tick adopted st db) id = rowAt db id := by
  have settled : rowAt (adopted.pendingAdopts.foldl (adoptSettings tick st.centralCSByEmail) db) id = rowAt db id :=
    foldl_frame (rowAt · id) fun _ p mem => adoptSettings_row (pending p mem)
  have synced (start : Database × List String) :
      (tick.inbounds.foldl (syncSnapshotInbound nodeId tick st.centralCSByEmail adopted.tagToCentral) start).1.inbounds =
        start.1.inbounds :=
    foldl_frame (fun s : Database × List String => s.1.inbounds) fun s ib _ =>
      syncSnapshotInbound_inbounds nodeId tick st.centralCSByEmail adopted.tagToCentral s ib
  exact (rowAt_congr (synced _) id).trans settled

theorem setRemoteTraffic_row {db' : Database} {nodeId : Nat} (done : setRemoteTraffic db tick nodeId = .ok db')
    (away : onNode db nodeId id = false) : rowAt db' id = rowAt db id := by
  simp only [setRemoteTraffic, Except.bind_eq_ok, Except.pure_eq_ok] at done
  obtain ⟨⟨adopted, st⟩, merged, rfl⟩ := done
  simp only [mergeTraffic, Except.bind_eq_ok] at merged
  obtain ⟨first, adopts, merged⟩ := merged
  cases merged
  rw [← nodeRow_id db nodeId] at away
  have held : Apart db id (sweepInbounds db (nodeRow db nodeId) tick (mergeDirty db tick nodeId) first) :=
    sweepInbounds_apart away (adoptInbounds_apart away adopts)
  generalize sweepInbounds db (nodeRow db nodeId) tick (mergeDirty db tick nodeId) first = swept at held
  generalize tick.inbounds.foldl _ _ = stop
  have clients : rowAt (if mergeDirty db tick nodeId = true then markOrphans tick.now [] (mergedTables swept stop)
      else adoptClients nodeId tick swept stop (mergedTables swept stop)) id = rowAt db id := by
    split
    · exact held.row
    · exact (adoptClients_row held.pending).trans held.row
  split <;> exact clients

end Merge

end ThreeXNode.Panel
