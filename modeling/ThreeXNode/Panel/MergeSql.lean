import ThreeXNode.Library.Sql
import ThreeXNode.Panel.NodeMerge

namespace ThreeXNode.Panel
open Library Sql

/-! ## The statements of the merge -/

def clampedAddExpr (column : String) : Expr := .least (.add (.col column) .ask) (.lit (.int trafficMax))

/-- `GREATEST(last_online::bigint, ?::bigint)`, without the casts in SQLite. -/
def greatestExpr (d : Dialect) (column : String) : Expr :=
  match d with
  | .postgres => .greatest (.castBigint (.col column)) (.castBigint .ask)
  | .sqlite => .greatest (.col column) .ask

def enableMergeCondition : Expr :=
  .and (.and (.or (.compare .ne (.col "expiry_time") (.castBigint .ask)) (.compare .ne (.col "total") (.castBigint .ask)))
      (.or (.compare .le (.col "expiry_time") (.lit (.int 0))) (.compare .gt (.col "expiry_time") (.castBigint .ask))))
    (.or (.compare .le (.col "total") (.lit (.int 0)))
      (.compare .lt (.add (.add (.add (.col "up") .ask) (.col "down")) .ask) (.col "total")))

def enableMergeExpr (d : Dialect) : Expr :=
  match d with
  | .postgres => .case (.castBoolean .ask) (.castBoolean (.col "enable"))
      (.case enableMergeCondition (.castBoolean (.col "enable")) (.lit (.bool false)))
  | .sqlite => .case .ask (.col "enable") (.case enableMergeCondition (.col "enable") (.lit (.int 0)))

def expiryMergeExpr : Expr :=
  .case (.compare .gt (.col "expiry_time") (.lit (.int 0))) (.col "expiry_time") (.castBigint .ask)

inductive Branch where
  | renewed
  | frozen
  | normal
  deriving DecidableEq

/-- One report of the email by one inbound of the node: what it says, what the node has counted in all and has
gained, and the branch it takes. -/
structure Copy where
  branch : Branch
  cs : ClientTraffic
  canon : Counter
  delta : Counter

def Copy.assignments (d : Dialect) (copy : Copy) : List (String × Expr) :=
  match copy.branch with
  | .renewed => [("up", .ask), ("down", .ask), ("enable", .ask), ("total", .ask), ("expiry_time", .ask), ("reset", .ask),
      ("reset_day", .ask), ("reset_count", .ask), ("last_online", greatestExpr d "last_online")]
  | .frozen => [("up", clampedAddExpr "up"), ("down", clampedAddExpr "down"), ("last_online", greatestExpr d "last_online")]
  | .normal => [("up", clampedAddExpr "up"), ("down", clampedAddExpr "down"), ("enable", enableMergeExpr d),
      ("total", .ask), ("expiry_time", expiryMergeExpr), ("reset", .ask), ("reset_day", .ask),
      ("last_online", greatestExpr d "last_online")]

def Copy.arguments (d : Dialect) (now : Int) (copy : Copy) : List Value :=
  let cs := copy.cs
  match copy.branch with
  | .renewed => [.int copy.canon.up, .int copy.canon.down, truth d cs.enable, .int cs.total, .int cs.expiryTime,
      .int cs.reset, .int cs.resetDay, .int cs.resetCount, .int cs.lastOnline]
  | .frozen => [.int copy.delta.up, .int copy.delta.down, .int cs.lastOnline]
  | .normal => [.int copy.delta.up, .int copy.delta.down, truth d cs.enable, .int cs.expiryTime, .int cs.total, .int now,
      .int copy.delta.up, .int copy.delta.down, .int cs.total, .int cs.expiryTime, .int cs.reset, .int cs.resetDay,
      .int cs.lastOnline]

def Copy.execute (d : Dialect) (now : Int) (row : Row) (copy : Copy) : Option Row :=
  update d (copy.assignments d) (copy.arguments d now) row

def Copy.keep (now : Int) (existing : ClientTraffic) (copy : Copy) : ClientTraffic :=
  let cs := copy.cs
  match copy.branch with
  | .renewed => { existing with
      up := copy.canon.up, down := copy.canon.down, enable := cs.enable, total := cs.total, expiryTime := cs.expiryTime,
      reset := cs.reset, resetCount := cs.resetCount }
  | .frozen => frozenExisting copy.delta existing
  | .normal => mergeExisting now cs copy.delta existing

def columns (d : Dialect) (r : ClientTraffic) : Row :=
  [("up", .int r.up), ("down", .int r.down), ("enable", truth d r.enable), ("total", .int r.total),
    ("expiry_time", .int r.expiryTime), ("reset", .int r.reset), ("reset_day", .int r.resetDay),
    ("reset_count", .int r.resetCount), ("last_online", .int r.lastOnline)]

def Copy.stored (now : Int) (r : ClientTraffic) (copy : Copy) : ClientTraffic :=
  match copy.branch with
  | .renewed => renewRow copy.cs copy.canon r
  | .frozen => frozenRow copy.cs copy.delta r
  | .normal => mergeRow now copy.cs copy.delta r

def Copy.Fits (r : ClientTraffic) (copy : Copy) : Prop :=
  copy.branch ≠ .renewed → InInt64 (r.up + copy.delta.up) ∧ InInt64 (r.down + copy.delta.down) ∧
    (copy.branch = .normal → InInt64 (r.up + copy.delta.up + r.down) ∧
      InInt64 (r.up + copy.delta.up + r.down + copy.delta.down))

theorem execute_renewed (d : Dialect) (now : Int) (r cs : ClientTraffic) (canon delta : Counter) :
    Copy.execute d now (columns d r) ⟨.renewed, cs, canon, delta⟩ = some (columns d (renewRow cs canon r)) := by
  cases d <;> rfl

theorem execute_frozen (d : Dialect) (now : Int) {r : ClientTraffic} {cs : ClientTraffic} {canon delta : Counter}
    (up : InInt64 (r.up + delta.up)) (down : InInt64 (r.down + delta.down)) :
    Copy.execute d now (columns d r) ⟨.frozen, cs, canon, delta⟩ = some (columns d (frozenRow cs delta r)) := by
  cases d <;>
    simp [Copy.execute, Copy.assignments, Copy.arguments, update, number, Expr.number, clampedAddExpr, greatestExpr,
      Expr.eval, columns, List.lookup, Value.asInt, up, down, frozenRow, clampedAdd]

/-- What the condition of the switch decides. -/
def limitsMoved (r cs : ClientTraffic) (now : Int) (delta : Counter) : Bool :=
  ((r.expiryTime ≠ cs.expiryTime : Bool) || (r.total ≠ cs.total : Bool)) &&
    ((r.expiryTime ≤ 0 : Bool) || (r.expiryTime > now : Bool)) &&
    ((r.total ≤ 0 : Bool) || (r.up + delta.up + r.down + delta.down < r.total : Bool))

section
variable {d : Dialect} {now : Int} {r cs : ClientTraffic} {canon delta : Counter}

theorem eval_condition {args : List Value} {n : Nat} (expiry : args[n]? = some (.int cs.expiryTime))
    (total : args[n + 1]? = some (.int cs.total)) (clock : args[n + 2]? = some (.int now))
    (gainUp : args[n + 3]? = some (.int delta.up)) (gainDown : args[n + 4]? = some (.int delta.down))
    (up : InInt64 (r.up + delta.up)) (three : InInt64 (r.up + delta.up + r.down))
    (four : InInt64 (r.up + delta.up + r.down + delta.down)) :
    ((enableMergeCondition.number n).1).eval d (columns d r) args =
      some (truth d (limitsMoved r cs now delta)) := by
  simp [enableMergeCondition, limitsMoved, Expr.number, Expr.eval, columns, List.lookup, Value.asInt, expiry, total, clock, gainUp,
    gainDown, up, three, four, Comparison.decide]

theorem enableMerge_eq : enableMerge r cs now delta.up delta.down =
    if cs.enable then r.enable else if limitsMoved r cs now delta then r.enable else false := by
  simp [enableMerge, limitsMoved, and_assoc]

theorem eval_enable {args : List Value} (switch : args[2]? = some (truth d cs.enable))
    (expiry : args[3]? = some (.int cs.expiryTime)) (total : args[4]? = some (.int cs.total))
    (clock : args[5]? = some (.int now)) (gainUp : args[6]? = some (.int delta.up))
    (gainDown : args[7]? = some (.int delta.down)) (up : InInt64 (r.up + delta.up))
    (three : InInt64 (r.up + delta.up + r.down)) (four : InInt64 (r.up + delta.up + r.down + delta.down)) :
    (((enableMergeExpr d).number 2).1).eval d (columns d r) args =
      some (truth d (enableMerge r cs now delta.up delta.down)) := by
  have condition := eval_condition (d := d) (n := 3) expiry total clock gainUp gainDown up three four
  have column : (columns d r).lookup "enable" = some (truth d r.enable) := rfl
  rw [enableMerge_eq]
  cases d with
  | sqlite =>
      simp only [enableMergeExpr, Expr.number, Expr.eval, condition, switch, column, Option.bind_eq_bind, Option.bind_some,
        holds_truth]
      cases cs.enable with
      | true => rfl
      | false =>
          simp only [Bool.false_eq_true, ↓reduceIte]
          split <;> rfl
  | postgres =>
      simp only [enableMergeExpr, Expr.number, Expr.eval, condition, switch, column, Option.bind_eq_bind, Option.bind_some,
        holds_truth]
      cases cs.enable with
      | true => rfl
      | false =>
          simp only [Bool.false_eq_true, ↓reduceIte]
          split <;> rfl

theorem eval_expiry {args : List Value} (expiry : args[9]? = some (.int cs.expiryTime)) :
    ((expiryMergeExpr.number 9).1).eval d (columns d r) args =
      some (.int (mergeActivationExpiry r.expiryTime cs.expiryTime)) := by
  have column : (columns d r).lookup "expiry_time" = some (.int r.expiryTime) := rfl
  simp only [expiryMergeExpr, Expr.number, Expr.eval, column, expiry, Option.bind_eq_bind, Option.bind_some, Value.asInt,
    holds_truth, Comparison.decide, mergeActivationExpiry, Option.pure_def, decide_eq_true_eq]
  split <;> rfl

theorem execute_normal (up : InInt64 (r.up + delta.up)) (down : InInt64 (r.down + delta.down))
    (three : InInt64 (r.up + delta.up + r.down)) (four : InInt64 (r.up + delta.up + r.down + delta.down)) :
    Copy.execute d now (columns d r) ⟨.normal, cs, canon, delta⟩ = some (columns d (mergeRow now cs delta r)) := by
  have enable := @eval_enable d now r cs delta (Copy.arguments d now ⟨.normal, cs, canon, delta⟩) rfl rfl rfl rfl
    rfl rfl up three four
  have expiry := @eval_expiry d r cs (Copy.arguments d now ⟨.normal, cs, canon, delta⟩) rfl
  have numbered : number (Copy.assignments d ⟨.normal, cs, canon, delta⟩) 0 =
      [("up", ((clampedAddExpr "up").number 0).1), ("down", ((clampedAddExpr "down").number 1).1),
        ("enable", ((enableMergeExpr d).number 2).1), ("total", .param 8), ("expiry_time", (expiryMergeExpr.number 9).1),
        ("reset", .param 10), ("reset_day", .param 11), ("last_online", ((greatestExpr d "last_online").number 12).1)] := by
    cases d <;> rfl
  have upEval : ((clampedAddExpr "up").number 0).1.eval d (columns d r) (Copy.arguments d now ⟨.normal, cs, canon, delta⟩) =
      some (.int (clampedAdd r.up delta.up)) := by
    simp [clampedAddExpr, Expr.number, Expr.eval, columns, List.lookup, Value.asInt, Copy.arguments, up, clampedAdd]
  have downEval : ((clampedAddExpr "down").number 1).1.eval d (columns d r)
      (Copy.arguments d now ⟨.normal, cs, canon, delta⟩) = some (.int (clampedAdd r.down delta.down)) := by
    simp [clampedAddExpr, Expr.number, Expr.eval, columns, List.lookup, Value.asInt, Copy.arguments, down, clampedAdd]
  have lastOnline : ((greatestExpr d "last_online").number 12).1.eval d (columns d r)
      (Copy.arguments d now ⟨.normal, cs, canon, delta⟩) = some (.int (max r.lastOnline cs.lastOnline)) := by
    cases d <;> simp [greatestExpr, Expr.number, Expr.eval, columns, List.lookup, Value.asInt, Copy.arguments]
  unfold Copy.execute update
  rw [numbered]
  simp only [List.mapM_cons, List.mapM_nil, upEval, downEval, enable, expiry, lastOnline, Option.map_some]
  rfl

/-! ## The table and the mirror -/

theorem execute_stored {copy : Copy} (fits : copy.Fits r) :
    copy.execute d now (columns d r) = some (columns d (copy.stored now r)) := by
  obtain ⟨branch, cs, canon, delta⟩ := copy
  cases branch with
  | renewed => exact execute_renewed d now r cs canon delta
  | frozen =>
      obtain ⟨up, down, -⟩ := fits Branch.noConfusion
      exact execute_frozen d now up down
  | normal =>
      obtain ⟨up, down, rest⟩ := fits Branch.noConfusion
      obtain ⟨three, four⟩ := rest rfl
      exact execute_normal up down three four

/-- What `existing` says of the row agrees with the row. -/
structure Agrees (r existing : ClientTraffic) : Prop where
  up : existing.up = r.up
  down : existing.down = r.down
  enable : existing.enable = r.enable
  total : existing.total = r.total
  expiryTime : existing.expiryTime = r.expiryTime

structure Copy.Counts (copy : Copy) : Prop where
  canon : 0 ≤ copy.canon.up ∧ 0 ≤ copy.canon.down
  delta : 0 ≤ copy.delta.up ∧ 0 ≤ copy.delta.down

theorem clamped_agrees {x delta : Int} (nonneg : 0 ≤ x) (gain : 0 ≤ delta) (fits : InInt64 (x + delta)) :
    clampTrafficCounter (wrap64 (x + delta)) = clampedAdd x delta := by
  rw [wrap64_eq fits]
  unfold clampTrafficCounter clampedAdd trafficMax
  split
  · omega
  · rw [if_neg (by omega)]
    omega

theorem enable_agrees {existing : ClientTraffic} (agrees : Agrees r existing)
    (four : InInt64 (r.up + delta.up + r.down + delta.down)) :
    (if !cs.enable && !nodeDisableIsStale existing cs now delta.up delta.down then false else existing.enable) =
      enableMerge r cs now delta.up delta.down := by
  have stale : nodeDisableIsStale existing cs now delta.up delta.down = limitsMoved r cs now delta := by
    unfold nodeDisableIsStale masterLimitsAllowClient limitsMoved
    rw [agrees.up, agrees.down, agrees.total, agrees.expiryTime, wrap64_eq four, Bool.eq_iff_iff]
    simp only [ne_eq, Bool.and_eq_true, Bool.or_eq_true, decide_eq_true_eq]
    split
    · rename_i same
      simp only [Bool.false_eq_true, false_iff]
      omega
    · rename_i differ
      split
      · simp only [Bool.false_eq_true, false_iff]
        omega
      · split
        · simp only [Bool.false_eq_true, false_iff]
          omega
        · simp only [true_iff]
          omega
  rw [enableMerge_eq, stale, agrees.enable]
  cases cs.enable with
  | true => rfl
  | false => cases limitsMoved r cs now delta <;> rfl

theorem keep_agrees {copy : Copy} {existing : ClientTraffic} (agrees : Agrees r existing) (nonneg : 0 ≤ r.up ∧ 0 ≤ r.down)
    (counts : copy.Counts) (fits : copy.Fits r) : Agrees (copy.stored now r) (copy.keep now existing) := by
  obtain ⟨branch, cs, canon, delta⟩ := copy
  obtain ⟨-, gainUp, gainDown⟩ := counts
  cases branch with
  | renewed => exact ⟨rfl, rfl, rfl, rfl, rfl⟩
  | frozen =>
      obtain ⟨up, down, -⟩ := fits Branch.noConfusion
      have same : existing.up = r.up ∧ existing.down = r.down := ⟨agrees.up, agrees.down⟩
      refine ⟨?_, ?_, agrees.enable, agrees.total, agrees.expiryTime⟩
      · show clampTrafficCounter (wrap64 (existing.up + delta.up)) = clampedAdd r.up delta.up
        rw [same.1, clamped_agrees nonneg.1 gainUp up]
      · show clampTrafficCounter (wrap64 (existing.down + delta.down)) = clampedAdd r.down delta.down
        rw [same.2, clamped_agrees nonneg.2 gainDown down]
  | normal =>
      obtain ⟨up, down, rest⟩ := fits Branch.noConfusion
      obtain ⟨-, four⟩ := rest rfl
      refine ⟨?_, ?_, enable_agrees agrees four, rfl, ?_⟩
      · show clampTrafficCounter (wrap64 (existing.up + delta.up)) = clampedAdd r.up delta.up
        rw [agrees.up, clamped_agrees nonneg.1 gainUp up]
      · show clampTrafficCounter (wrap64 (existing.down + delta.down)) = clampedAdd r.down delta.down
        rw [agrees.down, clamped_agrees nonneg.2 gainDown down]
      · show mergeActivationExpiry existing.expiryTime cs.expiryTime = mergeActivationExpiry r.expiryTime cs.expiryTime
        rw [agrees.expiryTime]

theorem stored_nonneg {copy : Copy} (nonneg : 0 ≤ r.up ∧ 0 ≤ r.down) (counts : copy.Counts) :
    0 ≤ (copy.stored now r).up ∧ 0 ≤ (copy.stored now r).down := by
  obtain ⟨branch, cs, canon, delta⟩ := copy
  obtain ⟨canonical, gains⟩ := counts
  change 0 ≤ delta.up ∧ 0 ≤ delta.down at gains
  have clamped : 0 ≤ clampedAdd r.up delta.up ∧ 0 ≤ clampedAdd r.down delta.down := by
    unfold clampedAdd trafficMax
    omega
  cases branch with
  | renewed => exact canonical
  | frozen => exact clamped
  | normal => exact clamped

def Fit (now : Int) : ClientTraffic → List Copy → Prop
  | _, [] => True
  | r, copy :: copies => copy.Fits r ∧ Fit now (copy.stored now r) copies

/-- After any copies of an email in one merge the table holds what the mirror says. -/
theorem merge_mirrored (d : Dialect) (now : Int) {r existing : ClientTraffic} {copies : List Copy}
    (loaded : Agrees r existing) (nonneg : 0 ≤ r.up ∧ 0 ≤ r.down) (counts : ∀ copy ∈ copies, copy.Counts)
    (fit : Fit now r copies) : ∃ last : ClientTraffic,
      copies.foldlM (Copy.execute d now) (columns d r) = some (columns d last) ∧
        Agrees last (copies.foldl (Copy.keep now) existing) := by
  induction copies generalizing r existing with
  | nil => exact ⟨r, rfl, loaded⟩
  | cons copy copies ih =>
      obtain ⟨here, later⟩ := fit
      have own := counts copy List.mem_cons_self
      obtain ⟨last, ran, agrees⟩ := ih (keep_agrees loaded nonneg own here) (stored_nonneg nonneg own)
        (fun c mem => counts c (List.mem_cons_of_mem _ mem)) later
      refine ⟨last, ?_, agrees⟩
      rw [List.foldlM_cons, execute_stored here]
      exact ran

end

/-! ## The copies a merge meets -/

theorem nodeEmailTotals_nonneg (snap : List Inbound) (email : String) :
    0 ≤ (nodeEmailTotals snap email).up ∧ 0 ≤ (nodeEmailTotals snap email).down := by
  unfold nodeEmailTotals
  have grows (l : List ClientTraffic) : ∀ start : Counter, 0 ≤ start.up ∧ 0 ≤ start.down →
      0 ≤ (l.foldl (fun cur cs => if cs.email = email then
        (⟨if cs.up > cur.up then cs.up else cur.up, if cs.down > cur.down then cs.down else cur.down⟩ : Counter)
        else cur) start).up ∧
      0 ≤ (l.foldl (fun cur cs => if cs.email = email then
        (⟨if cs.up > cur.up then cs.up else cur.up, if cs.down > cur.down then cs.down else cur.down⟩ : Counter)
        else cur) start).down := by
    induction l with
    | nil => exact fun _ positive => positive
    | cons cs l ih =>
        intro start positive
        rw [List.foldl_cons]
        apply ih
        split
        · dsimp only
          constructor
          · split <;> omega
          · split <;> omega
        · exact positive
  exact grows _ ⟨0, 0⟩ ⟨le_rfl, le_rfl⟩

theorem gains_nonneg (base : Option Counter) (canon : Counter) :
    0 ≤ (counterDelta base canon).up ∧ 0 ≤ (counterDelta base canon).down := by
  cases base with
  | none => exact ⟨le_rfl, le_rfl⟩
  | some base => exact ⟨le_max_right _ _, le_max_right _ _⟩

variable (tick : Tick) (frozen : Bool) (snapIb : Inbound) (cs : ClientTraffic) (st : Merge)

def copyOf : Copy where
  branch :=
    if renewed tick frozen snapIb cs (nodeEmailTotals tick.inbounds cs.email) st then .renewed
    else if frozen then .frozen else .normal
  cs
  canon := nodeEmailTotals tick.inbounds cs.email
  delta := counterDelta (st.nodeBaselines cs.email) (nodeEmailTotals tick.inbounds cs.email)

theorem copyOf_counts : (copyOf tick frozen snapIb cs st).Counts :=
  ⟨nodeEmailTotals_nonneg _ _, gains_nonneg _ _⟩

theorem mergeRowOf_copy :
    (mergeRowOf tick frozen snapIb cs (nodeEmailTotals tick.inbounds cs.email) st).clientTraffics =
      updateTraffic st.clientTraffics cs.email ((copyOf tick frozen snapIb cs st).stored tick.now) ∧
    (mergeRowOf tick frozen snapIb cs (nodeEmailTotals tick.inbounds cs.email) st).centralCSByEmail =
      Function.update st.centralCSByEmail cs.email
        ((st.centralCSByEmail cs.email).map ((copyOf tick frozen snapIb cs st).keep tick.now)) := by
  unfold mergeRowOf copyOf
  dsimp only
  by_cases renews : renewed tick frozen snapIb cs (nodeEmailTotals tick.inbounds cs.email) st = true
  · rw [if_pos renews, if_pos renews]
    exact ⟨rfl, rfl⟩
  · rw [if_neg renews, if_neg renews]
    cases frozen with
    | true => exact ⟨rfl, rfl⟩
    | false => exact ⟨rfl, rfl⟩

/-! ## The reports of an email in a merge -/

variable (node : Node) (dirty : Bool) (newInboundIDs : List Nat) (c : Inbound)

/-- The table holds one row of an email, and the map the row that mirrors it. -/
structure Mirrored (st : Merge) (email : String) (r existing : ClientTraffic) : Prop where
  known : email ∈ st.existingEmails
  table : ∀ row ∈ st.clientTraffics, row.email = email → row = r
  map : st.centralCSByEmail email = some existing
  agrees : Agrees r existing
  nonneg : 0 ≤ r.up ∧ 0 ≤ r.down

theorem mergeClientStat_mirrored (d : Dialect) {r existing : ClientTraffic} (mirrored : Mirrored st cs.email r existing)
    (fits : (copyOf tick frozen snapIb cs st).Fits r) :
    (copyOf tick frozen snapIb cs st).execute d tick.now (columns d r) =
        some (columns d ((copyOf tick frozen snapIb cs st).stored tick.now r)) ∧
      Mirrored (mergeClientStat node tick dirty frozen newInboundIDs c snapIb st cs) cs.email
        ((copyOf tick frozen snapIb cs st).stored tick.now r) ((copyOf tick frozen snapIb cs st).keep tick.now existing) := by
  refine ⟨execute_stored fits, ?_⟩
  obtain ⟨table, map⟩ := mergeRowOf_copy tick frozen snapIb cs st
  have counts := copyOf_counts tick frozen snapIb cs st
  have row : Mirrored (mergeRowOf tick frozen snapIb cs (nodeEmailTotals tick.inbounds cs.email) st) cs.email
      ((copyOf tick frozen snapIb cs st).stored tick.now r) ((copyOf tick frozen snapIb cs st).keep tick.now existing) := by
    refine ⟨?_, ?_, ?_, keep_agrees mirrored.agrees mirrored.nonneg counts fits, stored_nonneg mirrored.nonneg counts⟩
    · unfold mergeRowOf
      dsimp only
      split
      · exact mirrored.known
      · split <;> exact mirrored.known
    · intro row mem own
      rw [table] at mem
      obtain ⟨before, stored, rfl⟩ := List.mem_map.mp mem
      by_cases same : before.email = cs.email
      · rw [if_pos same, mirrored.table before stored same]
      · rw [if_neg same] at own
        exact absurd own same
    · rw [map, mirrored.map, Function.update_self, Option.map_some]
  unfold mergeClientStat
  dsimp only
  rw [if_neg (not_not.mpr mirrored.known)]
  split
  · exact row
  · exact ⟨row.known, row.table, row.map, row.agrees, row.nonneg⟩

def copiesOf : Merge → List ClientTraffic → List Copy
  | _, [] => []
  | st, cs :: rest =>
      copyOf tick frozen snapIb cs st :: copiesOf (mergeClientStat node tick dirty frozen newInboundIDs c snapIb st cs) rest

theorem reports_mirrored (d : Dialect) {email : String} : ∀ {reports : List ClientTraffic} {st : Merge} {r existing : ClientTraffic},
    (∀ cs ∈ reports, cs.email = email) → Mirrored st email r existing →
    Fit tick.now r (copiesOf tick frozen snapIb node dirty newInboundIDs c st reports) →
    ∃ last existing', (copiesOf tick frozen snapIb node dirty newInboundIDs c st reports).foldlM (Copy.execute d tick.now)
        (columns d r) = some (columns d last) ∧
      Mirrored (reports.foldl (mergeClientStat node tick dirty frozen newInboundIDs c snapIb) st) email last existing' := by
  intro reports
  induction reports with
  | nil => exact fun _ mirrored _ => ⟨_, _, rfl, mirrored⟩
  | cons cs rest ih =>
      intro st r existing own mirrored fit
      have named := own cs List.mem_cons_self
      subst named
      obtain ⟨ran, after⟩ := mergeClientStat_mirrored tick frozen snapIb cs st node dirty newInboundIDs c d mirrored fit.1
      obtain ⟨last, existing', rest_ran, ended⟩ := ih (fun other mem => own other (List.mem_cons_of_mem _ mem)) after fit.2
      refine ⟨last, existing', ?_, ended⟩
      rw [copiesOf, List.foldlM_cons, ran]
      exact rest_ran

/-! ## A row of two inbounds -/

def usedRow (up : Int) : ClientTraffic where
  inboundId := 1
  enable := true
  email := "alice"
  up
  down := 0
  expiryTime := 2000
  total := 1000
  reset := 0
  resetDay := 0
  resetMax := 0
  resetCount := 0
  lastOnline := 0

def offCopy (branch : Branch) (gain : Int) : Copy where
  branch
  cs := { usedRow 0 with enable := false, total := 500 }
  canon := ⟨700, 0⟩
  delta := ⟨gain, 0⟩

theorem merge_mirrored_two : ∃ last : ClientTraffic,
    [offCopy .normal 100, offCopy .frozen 0].foldlM (Copy.execute .sqlite 1000) (columns .sqlite (usedRow 600)) =
      some (columns .sqlite last) ∧
    Agrees last ([offCopy .normal 100, offCopy .frozen 0].foldl (Copy.keep 1000) (usedRow 600)) := by
  refine merge_mirrored .sqlite 1000 ⟨rfl, rfl, rfl, rfl, rfl⟩ (by decide) ?_ ?_
  · intro copy mem
    rcases List.mem_cons.mp mem with rfl | mem
    · exact ⟨by decide, by decide⟩
    · rw [List.mem_singleton.mp mem]
      exact ⟨by decide, by decide⟩
  · refine ⟨fun _ => ?_, fun _ => ?_, trivial⟩
    · exact ⟨by decide, by decide, fun _ => ⟨by decide, by decide⟩⟩
    · exact ⟨by decide, by decide, fun off => absurd off (by decide)⟩

/-- The statement lets a counter below zero stand, and the mirror does not. -/
theorem merge_unmirrored :
    ((Copy.execute .sqlite 1000 (columns .sqlite (usedRow (-1))) (offCopy .normal 0)).bind (·.lookup "up") =
        some (.int (-1)) ∧ ((offCopy .normal 0).keep 1000 (usedRow (-1))).up = 0) ∧
    ((Copy.execute .postgres 1000 (columns .postgres (usedRow 0)) (offCopy .frozen (-1))).bind (·.lookup "up") =
        some (.int (-1)) ∧ ((offCopy .frozen (-1)).keep 1000 (usedRow 0)).up = 0) := by
  decide +kernel

end ThreeXNode.Panel
