import ThreeXNode.Panel.ClientPaging

namespace ThreeXNode.Panel.ClientPaging
open ThreeXNode.Library

/-! # What the pages of one request hold together -/

/-- Primary keys, the unique indexes, and that rows are counted in 64 bits. -/
structure Db.WellFormed (db : Db) : Prop where
  ids : (db.clients.map (·.id)).Nodup
  emails : (db.clients.map (·.email)).Nodup
  traffics : (db.traffics.map (·.email)).Nodup
  fits : db.clients.length < 2 ^ 63

def ClientQuery.joined (q : ClientQuery) (db : Db) (c : ClientRecord) : Joined :=
  ⟨c, db.traffics.find? (·.email = c.email), if q.raised then pushedTo q.env db c.email else none⟩

section Keys

variable {α β : Type} [DecidableEq β] {key : α → β}

theorem find_of_mem {rows : List α} (distinct : (rows.map key).Nodup) {a : α} (mem : a ∈ rows) :
    rows.find? (fun b => key b = key a) = some a := by
  cases found : rows.find? fun b => key b = key a with
  | none =>
      have none := List.find?_eq_none.mp found a mem
      simp at none
  | some b =>
      have same := List.find?_some found
      rw [decide_eq_true_eq] at same
      rw [List.inj_on_of_nodup_map distinct (List.mem_of_find?_eq_some found) mem same]

theorem filter_of_key {rows : List α} (distinct : (rows.map key).Nodup) (k : β) :
    rows.filter (fun b => key b = k) = (rows.find? fun b => key b = k).toList := by
  induction rows with
  | nil => rfl
  | cons a rows ih =>
      rw [List.map_cons, List.nodup_cons] at distinct
      rw [List.filter_cons, List.find?_cons]
      by_cases own : key a = k
      · have others : rows.filter (fun b => key b = k) = [] := by
          rw [List.filter_eq_nil_iff]
          intro b mem same
          rw [decide_eq_true_eq] at same
          exact distinct.1 (own.trans same.symm ▸ List.mem_map_of_mem mem)
        simp [own, others]
      · simp [own, ih distinct.2]

end Keys

variable {env : Env} {db : Db}

theorem from_eq (formed : db.WellFormed) (q : ClientQuery) : q.from' db = db.clients.map (q.joined db) := by
  unfold ClientQuery.from'
  rw [List.map_eq_flatMap]
  refine List.flatMap_congr fun c _ => ?_
  unfold leftJoin
  rw [(@filter_of_key _ _ _ (fun t : ClientTraffic => t.email)) formed.traffics c.email]
  unfold ClientQuery.joined
  cases db.traffics.find? fun t => t.email = c.email <;> rfl

/-! ## The order is total -/

theorem Key.chain {a b c : Key} (first : a.lt b) (second : b.lt c) : a.lt c := by
  cases a with
  | null => cases c with
    | null => cases b <;> simp_all [Key.lt]
    | int n => simp [Key.lt]
    | text s => simp [Key.lt]
  | int m => cases b with
    | null => exact absurd first (by simp [Key.lt])
    | int n => cases c with
      | null => exact absurd second (by simp [Key.lt])
      | int k =>
          simp only [Key.lt] at first second ⊢
          omega
      | text s => simp [Key.lt]
    | text s => cases c with
      | text t => simp [Key.lt]
      | null => exact absurd second (by simp [Key.lt])
      | int k => exact absurd second (by simp [Key.lt])
  | text s => cases b with
    | text t => cases c with
      | text u =>
          simp only [Key.lt] at first second ⊢
          exact lt_trans first second
      | null => exact absurd second (by simp [Key.lt])
      | int k => exact absurd second (by simp [Key.lt])
    | null => exact absurd first (by simp [Key.lt])
    | int n => exact absurd first (by simp [Key.lt])

theorem Key.compare' (a b : Key) : a.lt b ∨ a = b ∨ b.lt a := by
  cases a with
  | null => cases b <;> simp [Key.lt]
  | int m => cases b with
    | null => simp [Key.lt]
    | int n =>
        simp only [Key.lt, Key.int.injEq]
        omega
    | text s => simp [Key.lt]
  | text s => cases b with
    | null => simp [Key.lt]
    | int n => simp [Key.lt]
    | text t =>
        simp only [Key.lt, Key.text.injEq]
        exact lt_trichotomy s t

theorem before_total (q : ClientQuery) (sortKey order : String) (a b : Joined) :
    q.before db sortKey order a b ∨ q.before db sortKey order b a := by
  unfold ClientQuery.before
  cases q.sortExpr db sortKey with
  | none => exact Nat.le_total _ _
  | some expr =>
      obtain ⟨key, tied⟩ := expr
      have ids := Nat.le_total a.client.id b.client.id
      simp only
      rcases (key a).compare' (key b) with less | same | more
      · split
        · exact .inr (.inl less)
        · exact .inl (.inl less)
      · by_cases down : tied = true ∧ order = "descend"
        · simp only [down, if_true]
          rcases ids with below | above
          · exact .inr (.inr ⟨same.symm, below⟩)
          · exact .inl (.inr ⟨same, above⟩)
        · simp only [down, if_false]
          rcases ids with below | above
          · exact .inl (.inr ⟨same, below⟩)
          · exact .inr (.inr ⟨same.symm, above⟩)
      · split
        · exact .inl (.inl more)
        · exact .inr (.inl more)

theorem before_trans (q : ClientQuery) (sortKey order : String) {a b c : Joined} (first : q.before db sortKey order a b)
    (second : q.before db sortKey order b c) : q.before db sortKey order a c := by
  unfold ClientQuery.before at first second ⊢
  cases found : q.sortExpr db sortKey with
  | none =>
      rw [found] at first second
      exact Nat.le_trans first second
  | some expr =>
      obtain ⟨key, tied⟩ := expr
      rw [found] at first second
      simp only at first second ⊢
      rcases first with less | ⟨same, tie⟩
      · rcases second with less' | ⟨same', -⟩
        · refine .inl ?_
          split at less
          · rename_i down
            rw [if_pos down] at less' ⊢
            exact Key.chain less' less
          · rename_i up
            rw [if_neg up] at less' ⊢
            exact Key.chain less less'
        · exact .inl (same' ▸ less)
      · rcases second with less' | ⟨same', tie'⟩
        · exact .inl (same ▸ less')
        · refine .inr ⟨same.trans same', ?_⟩
          split at tie
          · rename_i down
            rw [if_pos down] at tie' ⊢
            exact Nat.le_trans tie' tie
          · rename_i up
            rw [if_neg up] at tie' ⊢
            exact Nat.le_trans tie tie'

/-! ## Pages -/

def ClientQuery.matching (q : ClientQuery) (db : Db) (params : ClientPageParams) : List Joined :=
  (q.from' db).filter (keeps (q.applyParams db params))

theorem orderedRows_perm (q : ClientQuery) (db : Db) (params : ClientPageParams) :
    (q.orderedRows db params).Perm (q.matching db params) := List.perm_insertionSort _ _

theorem orderedRows_pairwise (q : ClientQuery) (db : Db) (params : ClientPageParams) :
    (q.orderedRows db params).Pairwise (q.before db params.sort params.order) := by
  have total : Std.Total (q.before db params.sort params.order) := ⟨before_total q params.sort params.order⟩
  have trans : IsTrans Joined (q.before db params.sort params.order) :=
    ⟨fun _ _ _ first second => before_trans q params.sort params.order first second⟩
  exact List.pairwise_insertionSort _ _

theorem mem_orderedRows (formed : db.WellFormed) {q : ClientQuery} {params : ClientPageParams} {j : Joined}
    (mem : j ∈ q.orderedRows db params) : ∃ c ∈ db.clients, q.joined db c = j := by
  have found := (List.mem_filter.mp ((orderedRows_perm q db params).mem_iff.mp mem)).1
  rw [from_eq formed] at found
  exact List.mem_map.mp found

def slim (db : Db) (stats : List Shown) (c : ClientRecord) : ClientSlim :=
  toClientSlim c (((db.links.filter (·.clientId = c.id)).map (·.inboundId)).insertionSort (· ≤ ·))
    (stats.find? (·.email = c.email))

def pageStats (env : Env) (db : Db) (ids : List Nat) : List Shown :=
  overlayGlobalTraffic env db ((db.traffics.filter fun t =>
    t.email ∈ ((db.clients.filter (·.id ∈ ids)).map (·.email)).filter (· ≠ "")).map ClientTraffic.shown)

theorem pageRows_eq (formed : db.WellFormed) (q : ClientQuery) (params : ClientPageParams) (offset : Int) (limit : Nat) :
    let page := pageOf offset.toNat limit (q.orderedRows db params)
    q.pageRows db params offset limit =
      page.map fun j => slim db (pageStats q.env db (page.map (·.client.id))) j.client := by
  intro page
  unfold ClientQuery.pageRows
  simp only
  rw [List.filterMap_map]
  refine (List.filterMap_congr ?_).trans (congrFun List.filterMap_eq_map page)
  intro j mem
  have here : j ∈ q.orderedRows db params := List.mem_of_mem_drop (List.mem_of_mem_take mem)
  obtain ⟨c, stored, rfl⟩ := mem_orderedRows formed here
  have distinct : ((db.clients.filter (·.id ∈ page.map (·.client.id))).map (·.id)).Nodup :=
    (List.filter_sublist.map _).nodup formed.ids
  have kept : c ∈ db.clients.filter (·.id ∈ page.map (·.client.id)) :=
    List.mem_filter.mpr ⟨stored, by simpa using ⟨q.joined db c, mem, rfl⟩⟩
  have found := (@find_of_mem _ _ _ (fun c : ClientRecord => c.id)) distinct kept
  exact congrArg (Option.map _) found

theorem filtered_eq (formed : db.WellFormed) (env : Env) (params : ClientPageParams) :
    (listPaged env db params).filtered = ((newClientQuery env db).matching db params).length := by
  show (if (newClientQuery env db).applyParams db params ≠ [] then
    ((newClientQuery env db).matching db params).length else db.clients.length) = _
  split
  · rfl
  · rename_i none
    rw [not_not] at none
    have all : (db.clients.map ((newClientQuery env db).joined db)).filter (keeps []) =
        db.clients.map ((newClientQuery env db).joined db) := List.filter_eq_self.mpr fun _ _ => rfl
    rw [ClientQuery.matching, none, from_eq formed, all, List.length_map]

def sizeOf' (params : ClientPageParams) : Nat := (clampSize params.pageSize).toNat

theorem size_bounds (params : ClientPageParams) : 1 ≤ sizeOf' params ∧ sizeOf' params ≤ 200 ∧
    (sizeOf' params : Int) = clampSize params.pageSize := by
  unfold sizeOf' clampSize clientPageDefaultSize clientPageMaxSize
  split
  · omega
  · split <;> omega

def pageOfRequest (env : Env) (db : Db) (params : ClientPageParams) (k : Nat) : List Joined :=
  pageOf (k * sizeOf' params) (sizeOf' params) ((newClientQuery env db).orderedRows db params)

theorem listPaged_items (formed : db.WellFormed) (env : Env) (params : ClientPageParams) {k : Nat}
    (fits : k * sizeOf' params < 2 ^ 63) :
    (listPaged env db { params with page := k + 1 }).items = (pageOfRequest env db params k).map fun j =>
      slim db (pageStats env db ((pageOfRequest env db params k).map (·.client.id))) j.client := by
  obtain ⟨positive, small, size⟩ := size_bounds params
  have bound : k ≤ k * sizeOf' params := Nat.le_mul_of_pos_right k positive
  have page : wrap64 (((k : Int) + 1) - 1) = k := by
    rw [Int.add_sub_cancel]
    apply wrap64_eq
    unfold InInt64
    omega
  have offset : wrap64 ((k : Int) * clampSize params.pageSize) = (k * sizeOf' params : Nat) := by
    rw [← size]
    push_cast
    apply wrap64_eq
    unfold InInt64
    have positive : (0 : Int) ≤ k * sizeOf' params := by positivity
    have below : (k * sizeOf' params : Int) < 2 ^ 63 := by exact_mod_cast fits
    omega
  have filtered := filtered_eq formed env { params with page := (k : Int) + 1 }
  have first : ¬((k : Int) + 1 ≤ 0) := by omega
  unfold listPaged at filtered ⊢
  simp only [first, if_false, page, offset] at filtered ⊢
  rw [filtered]
  split
  · rw [pageRows_eq formed]
    rfl
  · rename_i past
    have none : pageOfRequest env db params k = [] := by
      unfold pageOfRequest pageOf
      rw [List.drop_eq_nil_of_le, List.take_nil]
      rw [(orderedRows_perm _ db params).length_eq]
      have le := Int.not_lt.mp past
      exact_mod_cast le
    rw [none]
    rfl

def itemsUpTo (env : Env) (db : Db) (params : ClientPageParams) (n : Nat) : List ClientSlim :=
  (List.range n).flatMap fun k : Nat => (listPaged env db { params with page := (k : Int) + 1 }).items

theorem itemsUpTo_emails (formed : db.WellFormed) (env : Env) (params : ClientPageParams) {n : Nat}
    (fits : n * sizeOf' params < 2 ^ 63) :
    (itemsUpTo env db params n).map (·.email) =
      (((newClientQuery env db).orderedRows db params).take (n * sizeOf' params)).map (·.client.email) := by
  have each : ∀ k ∈ List.range n, (listPaged env db { params with page := (k : Int) + 1 }).items.map (·.email) =
      (pageOfRequest env db params k).map (·.client.email) := by
    intro k mem
    have below : k * sizeOf' params ≤ n * sizeOf' params :=
      Nat.mul_le_mul_right _ (Nat.le_of_lt (List.mem_range.mp mem))
    rw [listPaged_items formed env params (lt_of_le_of_lt below fits), List.map_map]
    rfl
  unfold itemsUpTo
  rw [List.map_flatMap, List.flatMap_congr each, ← List.map_flatMap]
  exact congrArg _ (flatMap_pageOf _ _ _)

end ThreeXNode.Panel.ClientPaging
