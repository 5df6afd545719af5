import ThreeXNode.Panel.ClientUsage

namespace ThreeXNode.Panel.ClientPaging
open ThreeXNode.Library

/-! # What the clients page promises -/

variable {env : Env} {db : Db}

def joinedTo (env : Env) (db : Db) (c : ClientRecord) : Joined := (newClientQuery env db).joined db c

def meets (env : Env) (db : Db) (params : ClientPageParams) (c : ClientRecord) : Bool :=
  keeps ((newClientQuery env db).applyParams db params) (joinedTo env db c)

def Precedes (env : Env) (db : Db) (params : ClientPageParams) (a b : ClientRecord) : Prop :=
  (newClientQuery env db).before db params.sort params.order (joinedTo env db a) (joinedTo env db b)

def ClientsSummary.classified (s : ClientsSummary) : Nat := s.active + s.depletedCount + s.expiringCount + s.deactiveCount

structure Agrees (env : Env) (db : Db) : Prop where
  /-- The pages up to the last hold every matching client once, in order, and are as long as the page says. -/
  pages : ∀ params n, (listPaged env db params).filtered ≤ n * sizeOf' params → n * sizeOf' params < 2 ^ 63 →
    (itemsUpTo env db params n).length = (listPaged env db params).filtered ∧
      ∃ rows : List ClientRecord, rows.Perm (db.clients.filter (meets env db params)) ∧
        rows.Pairwise (Precedes env db params) ∧ (itemsUpTo env db params n).map (·.email) = rows.map (·.email)
  /-- A client meets a filter by buckets if the row that is shown of it is in one of them. -/
  buckets : ∀ params, ∀ row ∈ (listPaged env db params).items, ∀ c ∈ db.clients, c.email = row.email → ∀ names,
    ((newClientQuery env db).bucketCond names (joinedTo env db c) = some true ↔ ∃ name ∈ names, row.inBucket env name)
  summary : ∀ params, (listPaged env db params).summary.classified = (listPaged env db params).total

def SameBuckets (env : Env) (c : ClientRecord) (used used' : Int) : Prop :=
  ∀ name, InBucket env name c.email (c.enable.getD false) (c.totalGB.getD 0) (c.expiryTime.getD 0) used ↔
    InBucket env name c.email (c.enable.getD false) (c.totalGB.getD 0) (c.expiryTime.getD 0) used'

/-- The states that are shown as they are counted. -/
structure Settled (env : Env) (db : Db) : Prop where
  /-- A quota or an expiry is NULL only where the other one has depleted the client. -/
  known : ∀ c ∈ db.clients, Known env c ((newClientQuery env db).usedExpr (joinedTo env db c))
  spelled : Spelled env db
  /-- What was pushed for a client without counters of its own makes no difference. -/
  usage : ∀ c ∈ db.clients, Counted db c ∨
    SameBuckets env c ((newClientQuery env db).usedExpr (joinedTo env db c)) (usedOf (shownTraffic env db c))

/-! ## Pages -/

theorem pages_hold (formed : db.WellFormed) (params : ClientPageParams) {n : Nat}
    (enough : (listPaged env db params).filtered ≤ n * sizeOf' params) (fits : n * sizeOf' params < 2 ^ 63) :
    (itemsUpTo env db params n).length = (listPaged env db params).filtered ∧
      ∃ rows : List ClientRecord, rows.Perm (db.clients.filter (meets env db params)) ∧
        rows.Pairwise (Precedes env db params) ∧ (itemsUpTo env db params n).map (·.email) = rows.map (·.email) := by
  let q := newClientQuery env db
  have filtered := filtered_eq formed env params
  have count := (orderedRows_perm q db params).length_eq
  have emails := itemsUpTo_emails formed env params fits
  rw [List.take_of_length_le (by rw [count, ← filtered]; exact enough)] at emails
  have own : ∀ j ∈ q.orderedRows db params, joinedTo env db j.client = j := by
    intro j mem
    obtain ⟨c, -, rfl⟩ := mem_orderedRows formed mem
    rfl
  refine ⟨?_, (q.orderedRows db params).map (·.client), ?_, ?_, ?_⟩
  · have length := congrArg List.length emails
    rw [List.length_map, List.length_map, count, ← filtered] at length
    exact length
  · have matching : q.matching db params = (db.clients.filter (meets env db params)).map (q.joined db) := by
      rw [ClientQuery.matching, from_eq formed, List.filter_map]
      rfl
    have perm := (orderedRows_perm q db params).map (·.client)
    rw [matching, List.map_map] at perm
    simpa [Function.comp_def, ClientQuery.joined] using perm
  · rw [List.pairwise_map]
    refine (orderedRows_pairwise q db params).imp_of_mem fun {a b} here here' before => ?_
    unfold Precedes
    rw [own a here, own b here']
    exact before
  · rw [emails, List.map_map]
    rfl

theorem items_cases (params : ClientPageParams) :
    ∃ offset limit, (listPaged env db params).items = (newClientQuery env db).pageRows db params offset limit ∨
      (listPaged env db params).items = [] :=
  ⟨_, _, ite_eq_or_eq _ _ _⟩

theorem mem_items (formed : db.WellFormed) {params : ClientPageParams} {row : ClientSlim}
    (mem : row ∈ (listPaged env db params).items) :
    ∃ ids, ∃ c ∈ db.clients, c.id ∈ ids ∧ row = slim db (pageStats env db ids) c := by
  obtain ⟨offset, limit, rows | none⟩ := (@items_cases env db) params
  · rw [rows, pageRows_eq formed] at mem
    obtain ⟨j, here, rfl⟩ := List.mem_map.mp mem
    obtain ⟨c, stored, rfl⟩ := mem_orderedRows formed (List.mem_of_mem_drop (List.mem_of_mem_take here))
    exact ⟨_, c, stored, List.mem_map.mpr ⟨_, here, rfl⟩, rfl⟩
  · rw [none] at mem
    cases mem

theorem applyParams_empty (env : Env) (db : Db) (size : Int) :
    (newClientQuery env db).applyParams db { pageSize := size } = [] := by
  have trimmed : trimSpace "" = "" := rfl
  have lowered : (newClientQuery env db).env.toLower "" = "" := env.toLower_empty
  simp [ClientQuery.applyParams, parseCSVStrings, parseCSVInts, trimmed, lowered]

theorem shown_somewhere (formed : db.WellFormed) {c : ClientRecord} (mem : c ∈ db.clients) :
    ∃ params, ∃ row ∈ (listPaged env db params).items, row.email = c.email := by
  let params : ClientPageParams := { pageSize := 1 }
  have size : sizeOf' params = 1 := rfl
  have fits : db.clients.length * sizeOf' params < 2 ^ 63 := by
    rw [size, Nat.mul_one]
    exact formed.fits
  have every : ∀ c, meets env db params c = true := by
    intro c
    unfold meets
    rw [applyParams_empty]
    rfl
  have filtered : (listPaged env db params).filtered ≤ db.clients.length * sizeOf' params := by
    rw [filtered_eq formed, size, Nat.mul_one, ClientQuery.matching, from_eq formed]
    exact (List.length_filter_le _ _).trans (List.length_map _).le
  obtain ⟨-, rows, perm, -, emails⟩ := pages_hold formed params filtered fits
  have here : c ∈ rows := perm.mem_iff.mpr (List.mem_filter.mpr ⟨mem, every c⟩)
  have shown : c.email ∈ (itemsUpTo env db params db.clients.length).map (·.email) :=
    emails ▸ List.mem_map_of_mem here
  obtain ⟨row, item, same⟩ := List.mem_map.mp shown
  obtain ⟨k, -, item⟩ := List.mem_flatMap.mp item
  exact ⟨_, row, item, same⟩

/-! ## Buckets -/

theorem bucketCond_eq_true {q : ClientQuery} {names : List String} {j : Joined} :
    q.bucketCond names j = some true ↔ ∃ name ∈ names, q.bucket name j = some true := by
  unfold ClientQuery.bucketCond
  induction names with
  | nil => simp
  | cons name names ih =>
      rw [List.foldr_cons, Truth.or_eq_true, ih]
      simp

theorem slim_inBucket (spelled : Spelled env db) {ids : List Nat} {c : ClientRecord} (stored : c ∈ db.clients)
    (paged : c.id ∈ ids) (name : String) :
    (slim db (pageStats env db ids) c).inBucket env name ↔ InBucket env name c.email (c.enable.getD false)
      (c.totalGB.getD 0) (c.expiryTime.getD 0) (usedOf (shownTraffic env db c)) := by
  unfold ClientSlim.inBucket slim toClientSlim
  simp only
  rw [pageStats_find spelled stored paged]

/-! ## Counts -/

def classesOf (q : ClientQuery) (j : Joined) : Nat :=
  (if q.activeExpr j = some true then 1 else 0) + (if q.depletedExpr j = some true then 1 else 0) +
    (if q.expiringExpr j = some true then 1 else 0) + (if q.summaryDeactiveExpr j = some true then 1 else 0)

theorem classesOf_eq (q : ClientQuery) (j : Joined) : classesOf q j = if q.depletedExpr j = none then 0 else 1 := by
  unfold classesOf ClientQuery.activeExpr ClientQuery.expiringExpr ClientQuery.summaryDeactiveExpr sqlClientEnabled
  cases depleted : q.depletedExpr j with
  | none => rcases q.nearDepletionExpr j with _ | _ | _ <;> cases j.client.enable.getD false <;>
      simp [Truth.and, Truth.not]
  | some b => cases b with
    | true => rcases q.nearDepletionExpr j with _ | _ | _ <;> cases j.client.enable.getD false <;>
        simp [Truth.and, Truth.not]
    | false =>
        have value : q.depletedExpr j ≠ none := by
          rw [depleted]
          exact Option.some_ne_none _
        have known := known_of_depletedExpr value
        have left : ¬DepletedAt q.env (j.client.totalGB.getD 0) (j.client.expiryTime.getD 0) (q.usedExpr j) := by
          rw [depletedExpr_eq known, Truth.is, Option.some.injEq, decide_eq_false_iff_not] at depleted
          exact depleted
        obtain ⟨total, expiry, quota, ends⟩ := not_depleted known left
        rw [nearDepletionExpr_eq quota ends]
        cases j.client.enable.getD false <;> by_cases near : NearAt q.env total expiry (q.usedExpr j) <;>
          simp [Truth.and, Truth.not, Truth.is, near]

theorem countWhere_cons (j : Joined) (rows : List Joined) (cond : Condition) :
    countWhere (j :: rows) cond = countWhere rows cond + if cond j = some true then 1 else 0 := by
  simp [countWhere, List.countP_cons]

theorem classified_eq (q : ClientQuery) (rows : List Joined) :
    countWhere rows q.activeExpr + countWhere rows q.depletedExpr + countWhere rows q.expiringExpr +
      countWhere rows q.summaryDeactiveExpr = (rows.map (classesOf q)).sum := by
  induction rows with
  | nil => rfl
  | cons j rows ih =>
      rw [List.map_cons, List.sum_cons, ← ih]
      simp only [countWhere_cons, classesOf]
      omega

section Weights

variable {α : Type} {weight : α → Nat}

theorem sum_le_length (bound : ∀ a, weight a ≤ 1) (items : List α) : (items.map weight).sum ≤ items.length := by
  induction items with
  | nil => simp
  | cons a items ih =>
      have one := bound a
      simp only [List.map_cons, List.sum_cons, List.length_cons]
      omega

theorem sum_eq_length (bound : ∀ a, weight a ≤ 1) {items : List α} :
    (items.map weight).sum = items.length ↔ ∀ a ∈ items, weight a = 1 := by
  induction items with
  | nil => simp
  | cons a items ih =>
      have one := bound a
      have rest := sum_le_length bound items
      rw [List.forall_mem_cons, ← ih, List.map_cons, List.sum_cons, List.length_cons]
      omega

end Weights

theorem classified_eq_total (formed : db.WellFormed) (params : ClientPageParams) :
    (listPaged env db params).summary.classified = (listPaged env db params).total ↔
      ∀ c ∈ db.clients, Known env c ((newClientQuery env db).usedExpr (joinedTo env db c)) := by
  let q := newClientQuery env db
  have bound : ∀ c, classesOf q (q.joined db c) ≤ 1 := by
    intro c
    rw [classesOf_eq]
    split <;> omega
  have counted : (listPaged env db params).summary.classified =
      (db.clients.map fun c => classesOf q (q.joined db c)).sum := by
    refine (classified_eq q (q.from' db)).trans ?_
    rw [from_eq formed, List.map_map]
    rfl
  rw [counted]
  refine (sum_eq_length bound).trans (forall₂_congr fun c _ => ?_)
  rw [classesOf_eq]
  constructor
  · intro one
    refine known_of_depletedExpr (q := q) (j := q.joined db c) fun null => ?_
    rw [if_pos null] at one
    omega
  · intro known
    have value : q.depletedExpr (q.joined db c) ≠ none := by
      rw [depletedExpr_eq known]
      exact Option.some_ne_none _
    rw [if_neg value]

/-! ## The page as a whole -/

theorem usage_inBucket (formed : db.WellFormed) (settled : Settled env db) {c : ClientRecord} (mem : c ∈ db.clients)
    (name : String) : InBucket env name c.email (c.enable.getD false) (c.totalGB.getD 0) (c.expiryTime.getD 0)
        ((newClientQuery env db).usedExpr (joinedTo env db c)) ↔
      InBucket env name c.email (c.enable.getD false) (c.totalGB.getD 0) (c.expiryTime.getD 0)
        (usedOf (shownTraffic env db c)) := by
  rcases settled.usage c mem with counted | same
  · rw [joinedTo, usedExpr_counted formed counted]
  · exact same name

theorem agrees_of_settled (formed : db.WellFormed) (settled : Settled env db) : Agrees env db where
  pages _ _ enough fits := pages_hold formed _ enough fits
  buckets := by
    intro params row item c stored email names
    obtain ⟨ids, c', stored', paged, rfl⟩ := mem_items formed item
    obtain rfl : c = c' := List.inj_on_of_nodup_map formed.emails stored stored' email
    rw [bucketCond_eq_true]
    refine exists_congr fun name => and_congr_right fun _ => ?_
    rw [bucket_eq (settled.known c stored) name, slim_inBucket settled.spelled stored paged]
    exact usage_inBucket formed settled stored name
  summary params := (classified_eq_total formed params).mpr settled.known

theorem settled_of_agrees (formed : db.WellFormed) (spelled : Spelled env db) (agrees : Agrees env db) :
    Settled env db where
  known := (classified_eq_total formed {}).mp (agrees.summary {})
  spelled := spelled
  usage := by
    intro c stored
    refine .inr fun name => ?_
    have known := (classified_eq_total formed {}).mp (agrees.summary {}) c stored
    obtain ⟨params, row, item, email⟩ := (@shown_somewhere env) formed stored
    have single := agrees.buckets params row item c stored email.symm [name]
    obtain ⟨ids, c', stored', paged, rfl⟩ := mem_items formed item
    obtain rfl : c' = c := List.inj_on_of_nodup_map formed.emails stored' stored email
    rw [bucketCond_eq_true] at single
    simp only [List.mem_singleton, exists_eq_left] at single
    rw [bucket_eq known name, slim_inBucket spelled stored paged] at single
    exact single

/-- Where the pushed emails have one spelling each, the page agrees with its rows in the settled states and no other. -/
theorem clientsPage_agrees (env : Env) {db : Db} (formed : db.WellFormed) :
    (Settled env db → Agrees env db) ∧ (Spelled env db → Agrees env db → Settled env db) :=
  ⟨agrees_of_settled formed, settled_of_agrees formed⟩

/-! ## Two states -/

def clientOf (id : Nat) (email : String) (totalGB expiryTime : Option Int) : ClientRecord where
  id := id
  email := email
  subId := none
  uuid := none
  password := none
  auth := none
  enable := some true
  totalGB := totalGB
  expiryTime := expiryTime
  tgId := none
  reset := none
  resetDay := none
  group := none
  comment := none
  createdAt := none
  updatedAt := none

def noonEnv : Env where
  toLower := id
  toLower_empty := rfl
  onlines := []
  nowMs := 1000
  expireDiffMs := 0
  trafficDiffBytes := 0

def settledDb : Db where
  clients := [clientOf 1 "a" (some 100) (some 0)]
  traffics := [⟨"a", some 10, some 10, none⟩]
  globals := [⟨"a", some 60, some 60, some 1000⟩]
  links := []
  inbounds := []

def strayDb : Db where
  clients := [clientOf 1 "a" none (some 0), clientOf 2 "b" (some 100) (some 0)]
  traffics := []
  globals := [⟨"b", some 60, some 60, some 1000⟩]
  links := []
  inbounds := []

theorem settledDb_formed : settledDb.WellFormed := ⟨by decide, by decide, by decide, by decide⟩

theorem clientsPage_agrees_settled : Settled noonEnv settledDb ∧ Agrees noonEnv settledDb := by
  have settled : Settled noonEnv settledDb := by
    refine ⟨?_, ?_, ?_⟩
    · intro c mem
      rw [List.mem_singleton.mp mem]
      exact ⟨fun null => absurd null (by decide), fun null => absurd null (by decide)⟩
    · intro g _ _ c mem c' mem' _ _
      rw [List.mem_singleton.mp mem, List.mem_singleton.mp mem']
    · intro c mem
      rw [List.mem_singleton.mp mem]
      exact .inl ⟨by decide, _, List.mem_singleton_self _, by decide, by decide, by decide⟩
  exact ⟨settled, (clientsPage_agrees noonEnv settledDb_formed).1 settled⟩

/-- The first client is in no class, and the second is found as depleted by the query and not by its row. -/
theorem strayDb_disagrees : strayDb.WellFormed ∧
    (listPaged noonEnv strayDb {}).summary.classified = 1 ∧ (listPaged noonEnv strayDb {}).total = 2 ∧
    (∃ row ∈ (listPaged noonEnv strayDb {}).items, ∃ c ∈ strayDb.clients, c.email = row.email ∧
      (newClientQuery noonEnv strayDb).bucketCond ["depleted"] (joinedTo noonEnv strayDb c) = some true ∧
      ¬row.inBucket noonEnv "depleted") ∧ ¬Agrees noonEnv strayDb := by
  have classified : (listPaged noonEnv strayDb {}).summary.classified = 1 := by decide +kernel
  have total : (listPaged noonEnv strayDb {}).total = 2 := rfl
  have items : (listPaged noonEnv strayDb {}).items = [toClientSlim (clientOf 1 "a" none (some 0)) [] none,
      toClientSlim (clientOf 2 "b" (some 100) (some 0)) [] none] := rfl
  refine ⟨⟨by decide, by decide, by decide, by decide⟩, classified, total, ?_, fun agrees => ?_⟩
  · refine ⟨_, items ▸ List.mem_cons_of_mem _ (List.mem_singleton_self _), clientOf 2 "b" (some 100) (some 0),
      List.mem_cons_of_mem _ (List.mem_singleton_self _), rfl, by decide +kernel, ?_⟩
    unfold ClientSlim.inBucket InBucket
    decide
  · have sum := agrees.summary {}
    rw [classified, total] at sum
    omega

end ThreeXNode.Panel.ClientPaging
