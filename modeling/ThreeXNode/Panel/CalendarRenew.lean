import ThreeXNode.Library.Calendar
import ThreeXNode.Library.Int64
import ThreeXNode.Panel.Traffic

namespace ThreeXNode.Panel
open Library Calendar

/-! ## The next renewal on a day of the month -/

/-- The day of a month on which a renewal falls; a missing day is the month's last. -/
def calendarDay (month day : Int) : Int := monthStart month + min day (daysInMonth month) - 1

def clampedDay (day : Int) : Int := max 1 (min day 31)

def localMonth (zone : Zone) (at' : Int) : Int := monthOf (zone.wall at' / 86400000)

/-- Instants are in milliseconds. -/
def nextCalendarRenewal (zone : Zone) (at' day : Int) : Int :=
  let month := localMonth zone at'
  let candidate := zone.midnight (calendarDay month (clampedDay day))
  if candidate > at' then candidate else zone.midnight (calendarDay (month + 1) (clampedDay day))

/-! ## The loop of `autoRenewClients` -/

def period (zone : Zone) (row : ClientTraffic) (expiry : Int) : Int :=
  if row.resetDay > 0 then nextCalendarRenewal zone expiry row.resetDay
  else wrap64 (expiry + wrap64 (row.reset * dayMillis))

def deadline (zone : Zone) (row : ClientTraffic) (passes : Nat) : Int := (period zone row)^[passes] row.expiryTime

def Continues (zone : Zone) (now : Int) (row : ClientTraffic) (passes : Nat) : Prop :=
  deadline zone row passes < now ∧ ¬(row.resetMax > 0 ∧ row.resetCount + passes ≥ row.resetMax)

def Halts (zone : Zone) (now : Int) (row : ClientTraffic) (passes : Nat) : Prop :=
  (∀ i < passes, Continues zone now row i) ∧ ¬Continues zone now row passes

/-! ## Strict progress -/

section
variable {zone : Zone} {day : Int}

/-- A stretch between two clock changes still shows a month for some time after both its renewal and the renewal of the
month after have come. -/
def Lingers (zone : Zone) (day : Int) (stretch : Int × Option Int × Option Int) (month : Int) : Prop :=
  ∀ begun ∈ zone.midnight (calendarDay month (clampedDay day)) :: zone.midnight (calendarDay (month + 1) (clampedDay day)) ::
    opens stretch month, ∀ close ∈ closes stretch month, begun < close

/-- No clock change of the zone skips the start of a month at its renewal, or comes back over it. -/
def Punctual (zone : Zone) (day : Int) : Prop := ∀ stretch ∈ zone.stretches, ∀ month, ¬Lingers zone day stretch month

theorem nextCalendarRenewal_le {at' : Int} : nextCalendarRenewal zone at' day ≤ at' ↔
    zone.midnight (calendarDay (localMonth zone at') (clampedDay day)) ≤ at' ∧
      zone.midnight (calendarDay (localMonth zone at' + 1) (clampedDay day)) ≤ at' := by
  unfold nextCalendarRenewal
  dsimp only
  split
  · rename_i ahead
    exact ⟨fun le => absurd ahead (not_lt.mpr le), fun both => absurd ahead (not_lt.mpr both.1)⟩
  · rename_i behind
    exact ⟨fun le => ⟨not_lt.mp behind, le⟩, fun both => both.2⟩

theorem exists_latest (first : Int) (rest : List Int) : ∃ at' ∈ first :: rest, ∀ other ∈ first :: rest, other ≤ at' := by
  obtain ⟨at', mem, latest⟩ := (first :: rest).toFinset.exists_max_image id ⟨first, by simp⟩
  exact ⟨at', List.mem_toFinset.mp mem, fun other there => latest other (List.mem_toFinset.mpr there)⟩

theorem renewal_later : (∀ at', at' < nextCalendarRenewal zone at' day) ↔ Punctual zone day := by
  constructor
  · intro later stretch mem month lingers
    obtain ⟨at', begun, latest⟩ := exists_latest (zone.midnight (calendarDay month (clampedDay day)))
      (zone.midnight (calendarDay (month + 1) (clampedDay day)) :: opens stretch month)
    have shown : localMonth zone at' = month := shows_iff.mpr ⟨stretch, mem,
      fun open' there => latest open' (List.mem_cons_of_mem _ (List.mem_cons_of_mem _ there)), lingers at' begun⟩
    have stuck : nextCalendarRenewal zone at' day ≤ at' := by
      rw [nextCalendarRenewal_le, shown]
      exact ⟨latest _ List.mem_cons_self, latest _ (List.mem_cons_of_mem _ List.mem_cons_self)⟩
    exact absurd (later at') (not_lt.mpr stuck)
  · intro punctual at'
    by_contra stuck
    obtain ⟨own, next⟩ := nextCalendarRenewal_le.mp (not_lt.mp stuck)
    have shown : monthOf (zone.wall at' / 86400000) = localMonth zone at' := rfl
    obtain ⟨stretch, mem, opened, open'⟩ := shows_iff.mp shown
    refine punctual stretch mem (localMonth zone at') fun begun there close ended => lt_of_le_of_lt ?_ (open' close ended)
    rcases List.mem_cons.mp there with rfl | there
    · exact own
    · rcases List.mem_cons.mp there with rfl | there
      · exact next
      · exact opened begun there

theorem punctual_of_offsets (close : ∀ stretch ∈ zone.stretches, ∀ other ∈ zone.stretches,
    other.1 - stretch.1 ≤ 86400 * (min (clampedDay day) 28 - 1)) : Punctual zone day := by
  intro stretch mem month lingers
  obtain ⟨other, there, same⟩ := zone.dateOffset_mem (86400 * calendarDay (month + 1) (clampedDay day))
  have apart := close stretch mem other there
  have before := lingers _ (List.mem_cons_of_mem _ List.mem_cons_self) _ List.mem_cons_self
  have long := monthStart_long (month + 1)
  unfold Zone.midnight at before
  rw [← same] at before
  unfold calendarDay daysInMonth clampedDay at *
  omega

end

section
variable {zone : Zone} {now : Int} {row : ClientTraffic}

theorem deadline_succ (passes : Nat) : deadline zone row (passes + 1) = period zone row (deadline zone row passes) :=
  Function.iterate_succ_apply' _ _ _

/-- The loop ends, every pass has moved the deadline on by one period and counts one renewal, and the deadline it
leaves is not over unless the cap has stopped it. -/
def CatchesUp (zone : Zone) (now : Int) (row : ClientTraffic) : Prop :=
  ∃ renewals, Halts zone now row renewals ∧
    (∀ i < renewals, deadline zone row i < deadline zone row (i + 1)) ∧
    (now ≤ deadline zone row renewals ∨ (row.resetMax > 0 ∧ row.resetMax ≤ row.resetCount + renewals))

theorem halts_of_clear (clear : ∀ i, (∀ j ≤ i, Continues zone now row j) → deadline zone row i < deadline zone row (i + 1)) :
    ∃ renewals, Halts zone now row renewals := by
  classical
  have ends : ∃ n, ¬Continues zone now row n := by
    by_contra endless
    have never (n : Nat) : Continues zone now row n := not_not.mp fun stops => endless ⟨n, stops⟩
    have grows (n : Nat) : row.expiryTime + n ≤ deadline zone row n := by
      induction n with
      | zero => simp [deadline]
      | succ n ih =>
          have step := clear n fun j _ => never j
          rw [Nat.cast_succ]
          omega
    have past := grows (now - row.expiryTime).toNat
    have before := (never (now - row.expiryTime).toNat).1
    omega
  exact ⟨Nat.find ends, fun i early => not_not.mp (Nat.find_min ends early), Nat.find_spec ends⟩

theorem catchesUp_iff : CatchesUp zone now row ↔
    ∀ i, (∀ j ≤ i, Continues zone now row j) → deadline zone row i < deadline zone row (i + 1) := by
  constructor
  · rintro ⟨renewals, ⟨-, ended⟩, moved, -⟩ i going
    have early : i < renewals := by
      by_contra reached
      exact ended (going renewals (not_lt.mp reached))
    exact moved i early
  · intro clear
    obtain ⟨renewals, going, ended⟩ := halts_of_clear clear
    refine ⟨renewals, ⟨going, ended⟩, fun i early => clear i fun j le => going j (by omega), ?_⟩
    unfold Continues at ended
    rw [not_and_or, not_not] at ended
    rcases ended with reached | capped
    · exact .inl (not_lt.mp reached)
    · exact .inr capped

theorem calendar_catchesUp (punctual : Punctual zone row.resetDay) (calendar : 0 < row.resetDay) : CatchesUp zone now row := by
  rw [catchesUp_iff]
  intro i _
  rw [deadline_succ, period, if_pos calendar]
  exact renewal_later.mpr punctual _

/-- The fixed steps up to the first deadline that is not over, or to the cap, stay in the range of 64 bits. -/
def Fits (now : Int) (row : ClientTraffic) : Prop :=
  ∀ i : Nat, row.expiryTime + i * (row.reset * dayMillis) < now → ¬(row.resetMax > 0 ∧ row.resetCount + i ≥ row.resetMax) →
    row.expiryTime + (i + 1) * (row.reset * dayMillis) < 9223372036854775808

section Fixed

variable (fixed : row.resetDay ≤ 0) (renews : 0 < row.reset) (step : InInt64 (row.reset * dayMillis))
  (range : InInt64 row.expiryTime)
include fixed renews step range

theorem deadline_fixed {passes : Nat}
    (fits : ∀ i < passes, row.expiryTime + (i + 1) * (row.reset * dayMillis) < 9223372036854775808) :
    deadline zone row passes = row.expiryTime + passes * (row.reset * dayMillis) := by
  have positive : 0 < row.reset * dayMillis := mul_pos renews (by decide)
  induction passes with
  | zero => simp [deadline]
  | succ n ih =>
      have low : row.expiryTime ≤ row.expiryTime + (n + 1) * (row.reset * dayMillis) := by
        have more : 0 ≤ ((n : Int) + 1) * (row.reset * dayMillis) := by positivity
        omega
      have next : row.expiryTime + n * (row.reset * dayMillis) + row.reset * dayMillis =
          row.expiryTime + (n + 1) * (row.reset * dayMillis) := by ring
      rw [deadline_succ, ih fun i before => fits i (by omega), period, if_neg (by omega), wrap64_eq step, next,
        wrap64_eq ⟨range.1.trans low, fits n (Nat.lt_succ_self n)⟩, Nat.cast_succ]

theorem fixed_catchesUp : CatchesUp zone now row ↔ Fits now row := by
  have positive : 0 < row.reset * dayMillis := mul_pos renews (by decide)
  have order : ∀ {i j : Nat}, i ≤ j → (i : Int) * (row.reset * dayMillis) ≤ j * (row.reset * dayMillis) := fun le =>
    mul_le_mul_of_nonneg_right (by exact_mod_cast le) positive.le
  rw [catchesUp_iff]
  constructor
  · intro moved i
    induction i using Nat.strong_induction_on with
    | _ i ih =>
        intro over' uncapped
        have fits : ∀ j < i, row.expiryTime + (j + 1) * (row.reset * dayMillis) < 9223372036854775808 := by
          intro j before
          have earlier := order before.le
          exact ih j before (by omega) fun capped => uncapped ⟨capped.1, by omega⟩
        have here : ∀ j ≤ i, deadline zone row j = row.expiryTime + j * (row.reset * dayMillis) := fun j le =>
          deadline_fixed fixed renews step range fun k before => fits k (by omega)
        have later := moved i fun j le => by
          refine ⟨?_, fun capped => uncapped ⟨capped.1, by omega⟩⟩
          rw [here j le]
          have earlier := order le
          omega
        rw [here i le_rfl, deadline_succ, here i le_rfl, period, if_neg (by omega), wrap64_eq step] at later
        have next : row.expiryTime + i * (row.reset * dayMillis) + row.reset * dayMillis =
          row.expiryTime + (i + 1) * (row.reset * dayMillis) := by ring
        rw [next] at later
        have upper := step.2
        have below := range.2
        unfold wrap64 at later
        omega
  · intro fits i going
    have past : ∀ j ≤ i, row.expiryTime + (j + 1) * (row.reset * dayMillis) < 9223372036854775808 := by
      intro j
      induction j using Nat.strong_induction_on with
      | _ j ih =>
          intro le
          have here : deadline zone row j = row.expiryTime + j * (row.reset * dayMillis) :=
            deadline_fixed fixed renews step range fun k before => ih k before (by omega)
          obtain ⟨over', uncapped⟩ := going j le
          rw [here] at over'
          exact fits j over' uncapped
    rw [deadline_fixed fixed renews step range fun k before => past k before.le,
      deadline_fixed fixed renews step range fun k before => past k (by omega)]
    push_cast
    linarith

end Fixed

end

/-! ## A clock change at midnight of the first -/

/-- Asunción in 2023: at midnight of the first of October the clock went from four hours behind to three. -/
def asuncion : Zone where
  first := -14400
  transitions := [(1696132800, -10800)]
  sorted := by simp

def monthlyRow : ClientTraffic where
  inboundId := 1
  enable := true
  email := "alice"
  up := 0
  down := 0
  expiryTime := 1693540800000
  total := 0
  reset := 0
  resetDay := 1
  resetMax := 0
  resetCount := 0
  lastOnline := 0

def utc : Zone where
  first := 0
  transitions := []
  sorted := by simp

end ThreeXNode.Panel
