import ThreeXNode.Leaf.Settled

namespace ThreeXNode.Leaf
open Library State

/-! ## Quotas and deadlines as numbers -/

def Counts (up down : Int) : Prop := (0 ≤ up ∧ InInt64 up) ∧ 0 ≤ down ∧ InInt64 down

def Reached (now total expiryTime : Int) (use : Prop) : Prop :=
  (0 < expiryTime ∧ expiryTime ≤ now) ∨ (0 < total ∧ use)

/-- Some master has pushed within the last day that the client has used up `total`. -/
def State.UsedElsewhere (s : State) (now : Int) (email : String) (total : Int) : Prop :=
  ∃ (master : String) (rows : Rows) (g : Global), s.globals[master]? = some rows ∧ rows[email]? = some g ∧
    now - globalLifetime ≤ g.updatedAt ∧ total ≤ g.up + g.down

/-- The checks of one client and one inbound come out as they would over unbounded numbers. -/
structure Exact (s : State) (now : Int) (email : String) (t : Traffic) (ib : Inbound) : Prop where
  client : s.exhausted t now = true ↔
    Reached now t.total t.expiryTime (t.total ≤ t.up + t.down ∨ s.UsedElsewhere now t.email t.total)
  inbound : ib.spent now ↔ Reached now ib.total ib.expiryTime (ib.total ≤ ib.up + ib.down)
  started : t.expiryTime < 0 → ∀ (dir : Direction) (delta : Int), ∃ u : Traffic,
    (s.creditUser now email dir delta).traffic[email]? = some u ∧ u.expiryTime = now + |t.expiryTime| ∧ now < u.expiryTime

theorem quota_exact {total up down : Int} (positive : 0 ≤ total) (range : InInt64 total) (counts : Counts up down) :
    up ≥ wrap64 (total - down) ↔ total ≤ up + down := by
  obtain ⟨-, downPositive, downRange⟩ := counts
  have fits : InInt64 (total - down) := by
    unfold InInt64 at *
    omega
  rw [wrap64_eq fits]
  omega

theorem validateClient_total {client : Client} (valid : validateClient client = .ok ()) : 0 ≤ client.number "totalGB" := by
  simp only [validateClient, Except.bind_eq_ok, require_eq_ok, List.forM_eq_forM, forM_eq_ok] at valid
  obtain ⟨_, _, _, _, _, _, _, _, _, numbers, _⟩ := valid
  have checked := numbers "totalGB" (by simp)
  unfold validateClientNumber at checked
  rw [Std.ExtTreeMap.get?_eq_getElem?] at checked
  unfold Fields.number
  cases found : client["totalGB"]? with
  | none => simp
  | some v =>
      rw [found] at checked
      cases read : v.asInt64 with
      | none => simp [read] at checked
      | some n =>
          simp only [read, Except.bind_eq_ok, require_eq_ok] at checked
          obtain ⟨_, positive, _⟩ := checked
          simpa [read] using positive.resolve_left (by decide)

theorem validateInbound_quota {ib : Inbound} (valid : validateInbound ib = .ok ()) : 0 ≤ ib.total ∧ 0 ≤ ib.expiryTime := by
  simp only [validateInbound, Except.bind_eq_ok, require_eq_ok] at valid
  obtain ⟨_, _, _, _, _, _, _, quota, _⟩ := valid
  exact quota

theorem exhausted_exact {s : State} {t : Traffic} {now : Int} (clock : 0 ≤ now ∧ InInt64 now) (positive : 0 ≤ t.total)
    (range : InInt64 t.total) (counts : Counts t.up t.down)
    (pushed : ∀ (master : String) (rows : Rows), s.globals[master]? = some rows →
      ∀ (email : String) (g : Global), rows[email]? = some g → Counts g.up g.down) :
    s.exhausted t now = true ↔
      Reached now t.total t.expiryTime (t.total ≤ t.up + t.down ∨ s.UsedElsewhere now t.email t.total) := by
  have day : wrap64 (now - globalLifetime) = now - globalLifetime := by
    apply wrap64_eq
    unfold InInt64 globalLifetime at *
    omega
  rw [exhausted_iff range, quota_exact positive range counts, day]
  unfold Reached State.UsedElsewhere
  apply or_congr Iff.rfl
  apply and_congr_right
  intro _
  apply or_congr Iff.rfl
  constructor
  · rintro ⟨master, rows, g, found, row, recent, used⟩
    exact ⟨master, rows, g, found, row, recent, (quota_exact positive range (pushed master rows found _ g row)).mp used⟩
  · rintro ⟨master, rows, g, found, row, recent, used⟩
    exact ⟨master, rows, g, found, row, recent, (quota_exact positive range (pushed master rows found _ g row)).mpr used⟩

theorem creditUser_started {s : State} {now : Int} {email : String} {t : Traffic} (row : s.traffic[email]? = some t)
    (delayed : t.expiryTime < 0) (dir : Direction) (delta : Int) : ∃ u : Traffic,
      (s.creditUser now email dir delta).traffic[email]? = some u ∧ u.expiryTime = wrap64 (now - t.expiryTime) := by
  have same : (t.add delta dir).expiryTime = t.expiryTime := by cases dir <;> rfl
  unfold State.creditUser
  simp only [row, same, delayed, ↓reduceIte, setClientField_traffic, Std.ExtTreeMap.getElem?_insert_self]
  exact ⟨_, rfl, rfl⟩

/-- Over admitted clients and inbounds the arithmetic is exact exactly where the duration of a delayed-start client
still fits behind the clock. -/
theorem arithmetic_exact {s : State} {now : Int} {email : String} {t : Traffic} {c : Client} {ib : Inbound}
    (clock : 0 ≤ now ∧ InInt64 now) (row : s.traffic[email]? = some t) (admitted : validateClient c = .ok ())
    (shows : t.Shows c) (counts : Counts t.up t.down)
    (pushed : ∀ (master : String) (rows : Rows), s.globals[master]? = some rows →
      ∀ (email : String) (g : Global), rows[email]? = some g → Counts g.up g.down)
    (valid : validateInbound ib = .ok ()) (range : InInt64 ib.total) (ibCounts : Counts ib.up ib.down) :
    Exact s now email t ib ↔ (t.expiryTime < 0 → now + |t.expiryTime| < 9223372036854775808) := by
  have totalRange : InInt64 t.total := by
    rw [shows.total]
    exact Fields.number_range c "totalGB"
  have total : 0 ≤ t.total := by
    rw [shows.total]
    exact validateClient_total admitted
  constructor
  · intro exact' delayed
    obtain ⟨u, found, deadline, _⟩ := exact'.started delayed .uplink 0
    obtain ⟨u', found', wrapped⟩ := @creditUser_started _ now _ _ row delayed .uplink 0
    rw [found] at found'
    cases found'
    rw [← deadline, wrapped]
    exact (wrap64_range _).2
  · intro fits
    constructor
    · exact exhausted_exact clock total totalRange counts pushed
    · unfold Inbound.spent Reached
      rw [quota_exact (validateInbound_quota valid).1 range ibCounts, or_comm]
    · intro delayed dir delta
      obtain ⟨u, found, deadline⟩ := @creditUser_started _ now _ _ row delayed dir delta
      have size : |t.expiryTime| = -t.expiryTime := abs_of_neg delayed
      have small := fits delayed
      rw [size] at small ⊢
      have inside : InInt64 (now - t.expiryTime) := by
        unfold InInt64
        omega
      rw [wrap64_eq inside] at deadline
      exact ⟨u, found, by omega, by omega⟩

/-! ## A client whose time starts with its first traffic -/

def delayedClient (expiryTime : Int) : Client := (plainClient "alice").insert "expiryTime" (.ofInt expiryTime)

def delayedRow (expiryTime : Int) : Traffic where
  id := 1
  inboundID := 1
  email := "alice"
  uuid := "11111111-1111-1111-1111-111111111111"
  subID := ""
  enable := true
  up := 0
  down := 0
  total := 0
  expiryTime
  lastOnline := 0

def delayedState (expiryTime : Int) : State :=
  { fresh "" with traffic := (∅ : Std.ExtTreeMap String Traffic).insert "alice" (delayedRow expiryTime) }

theorem arithmetic_exact_day : Exact (delayedState (-86400000)) 1700000000000 "alice" (delayedRow (-86400000)) (plainInbound []) :=
  (arithmetic_exact (c := delayedClient (-86400000)) (by decide) (by simp [delayedState]) (by decide +kernel)
    ⟨by decide +kernel, by decide +kernel, by decide +kernel, by decide +kernel⟩ (by unfold Counts; decide)
    (fun _ _ found => by simp [delayedState, fresh] at found) (by decide +kernel) (by decide) (by unfold Counts; decide)).mpr
    fun _ => by decide

theorem arithmetic_wraps : validateClient (delayedClient (-9223372036854775808)) = .ok () ∧
    (delayedRow (-9223372036854775808)).Shows (delayedClient (-9223372036854775808)) ∧
    ¬Exact (delayedState (-9223372036854775808)) 1700000000000 "alice" (delayedRow (-9223372036854775808)) (plainInbound []) := by
  refine ⟨by decide +kernel, ⟨by decide +kernel, by decide +kernel, by decide +kernel, by decide +kernel⟩, fun exact' => ?_⟩
  obtain ⟨u, found, _, later⟩ := exact'.started (by decide) .uplink 1
  have row : (delayedState (-9223372036854775808)).traffic["alice"]? = some (delayedRow (-9223372036854775808)) := by
    simp [delayedState]
  obtain ⟨u', found', wrapped⟩ := creditUser_started row (by decide) .uplink 1
  rw [found] at found'
  cases found'
  have past : wrap64 (1700000000000 - (delayedRow (-9223372036854775808)).expiryTime) < 1700000000000 := by decide
  omega

end ThreeXNode.Leaf
