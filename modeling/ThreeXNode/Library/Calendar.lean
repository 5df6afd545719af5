import Mathlib.Tactic.Ring
import Mathlib.Tactic.IntervalCases

namespace ThreeXNode.Library.Calendar

/-! ## Months of the Gregorian calendar

Days count from 1970-01-01, and the month `m` is the month `m % 12` of the year `m / 12`. -/

def yearStart (y : Int) : Int := 365 * (y - 1) + (y - 1) / 4 - (y - 1) / 100 + (y - 1) / 400 - 719162

def leap (y : Int) : Bool := (y % 4 == 0 && y % 100 != 0) || y % 400 == 0

def daysBefore (k : Int) : Int := [0, 31, 59, 90, 120, 151, 181, 212, 243, 273, 304, 334].getD k.toNat 0

def monthStart (m : Int) : Int :=
  yearStart (m / 12) + daysBefore (m % 12) + if 2 ≤ m % 12 && leap (m / 12) then 1 else 0

def daysInMonth (m : Int) : Int := monthStart (m + 1) - monthStart m

/-- The latest of the next `n` months that has begun on day `d`. -/
def climb (d : Int) : Nat → Int → Int
  | 0, m => m
  | n + 1, m => if monthStart (m + 1) ≤ d then climb d n (m + 1) else m

/-- The month of a day, searched from a year before the year it is in on average. -/
def monthOf (d : Int) : Int := climb d 36 (12 * ((400 * (d + 719162)) / 146097))

theorem yearStart_succ (y : Int) : yearStart (y + 1) = yearStart y + 365 + if leap y then 1 else 0 := by
  unfold yearStart leap
  by_cases hundred : y % 100 = 0 <;> by_cases four : y % 4 = 0 <;> by_cases all : y % 400 = 0 <;>
    simp [hundred, four, all] <;> omega

theorem monthStart_year (y : Int) {k : Int} (low : 0 ≤ k) (high : k < 12) :
    monthStart (12 * y + k) = yearStart y + daysBefore k + if 2 ≤ k && leap y then 1 else 0 := by
  unfold monthStart
  rw [show (12 * y + k) / 12 = y by omega, show (12 * y + k) % 12 = k by omega]

theorem monthStart_long (m : Int) : monthStart m + 28 ≤ monthStart (m + 1) := by
  obtain ⟨y, k, rfl, low, high⟩ : ∃ y k : Int, m = 12 * y + k ∧ 0 ≤ k ∧ k < 12 :=
    ⟨m / 12, m % 12, by omega, by omega, by omega⟩
  rw [monthStart_year y low high]
  by_cases last : k = 11
  · subst last
    rw [show 12 * y + 11 + 1 = 12 * (y + 1) + 0 by ring, monthStart_year (y + 1) (by omega) (by omega), yearStart_succ]
    cases leap y <;> simp [daysBefore] <;> omega
  · rw [show 12 * y + k + 1 = 12 * y + (k + 1) by ring, monthStart_year y (by omega) (by omega)]
    have small : k < 11 := by omega
    interval_cases k <;> cases leap y <;> simp [daysBefore] <;> omega

theorem monthStart_lt (m : Int) : monthStart m < monthStart (m + 1) := by
  have long := monthStart_long m
  omega

theorem monthStart_mono {m m' : Int} (le : m ≤ m') : monthStart m ≤ monthStart m' := by
  obtain ⟨n, rfl⟩ := Int.le.dest le
  induction n with
  | zero => simp
  | succ n ih =>
      have step := monthStart_lt (m + n)
      rw [Nat.cast_succ, ← add_assoc]
      exact (ih (by omega)).trans step.le

theorem climb_brackets {d : Int} {n : Nat} {m : Int} (low : monthStart m ≤ d) (high : d < monthStart (m + n + 1)) :
    monthStart (climb d n m) ≤ d ∧ d < monthStart (climb d n m + 1) := by
  induction n generalizing m with
  | zero => exact ⟨low, by simpa [climb] using high⟩
  | succ n ih =>
      by_cases begun : monthStart (m + 1) ≤ d
      · have rest : d < monthStart (m + 1 + n + 1) := by
          rw [Nat.cast_succ] at high
          rwa [show m + 1 + n + 1 = m + (n + 1) + 1 by ring]
        have found := ih begun rest
        rwa [climb, if_pos begun]
      · rw [climb, if_neg begun]
        exact ⟨low, by omega⟩

theorem monthOf_brackets (d : Int) : monthStart (monthOf d) ≤ d ∧ d < monthStart (monthOf d + 1) := by
  have first (y : Int) : monthStart (12 * y) = yearStart y := by
    have start := monthStart_year y (k := 0) (by omega) (by omega)
    rw [add_zero] at start
    rw [start]
    simp [daysBefore]
  apply climb_brackets
  · rw [first]
    unfold yearStart
    omega
  · have later : 12 * ((400 * (d + 719162)) / 146097 + 3) ≤ 12 * ((400 * (d + 719162)) / 146097) + (36 : Nat) + 1 := by
      push_cast
      omega
    have bound : d < yearStart ((400 * (d + 719162)) / 146097 + 3) := by
      unfold yearStart
      omega
    rw [← first] at bound
    exact bound.trans_le (monthStart_mono later)

theorem monthOf_eq {d m : Int} : monthOf d = m ↔ monthStart m ≤ d ∧ d < monthStart (m + 1) := by
  obtain ⟨low, high⟩ := monthOf_brackets d
  constructor
  · rintro rfl
    exact ⟨low, high⟩
  · rintro ⟨low', high'⟩
    rcases lt_trichotomy (monthOf d) m with before | same | after
    · have start := monthStart_mono (show monthOf d + 1 ≤ m from before)
      omega
    · exact same
    · have start := monthStart_mono (show m + 1 ≤ monthOf d from after)
      omega

/-! ## Zones

A zone is a list of clock changes: the second from which an offset in seconds holds. -/

structure Zone where
  first : Int
  transitions : List (Int × Int)
  sorted : transitions.Pairwise fun a b => a.1 < b.1

def lookupFrom (offset : Int) (start : Option Int) : List (Int × Int) → Int → Int × Option Int × Option Int
  | [], _ => (offset, start, none)
  | (at', next) :: rest, second =>
      if second < at' then (offset, start, some at') else lookupFrom next (some at') rest second

def stretchesFrom (offset : Int) (start : Option Int) : List (Int × Int) → List (Int × Option Int × Option Int)
  | [] => [(offset, start, none)]
  | (at', next) :: rest => (offset, start, some at') :: stretchesFrom next (some at') rest

def InStretch (stretch : Int × Option Int × Option Int) (second : Int) : Prop :=
  (∀ start ∈ stretch.2.1, start ≤ second) ∧ ∀ stop ∈ stretch.2.2, second < stop

theorem lookupFrom_mem (offset : Int) (start : Option Int) (transitions : List (Int × Int)) (second : Int) :
    lookupFrom offset start transitions second ∈ stretchesFrom offset start transitions := by
  induction transitions generalizing offset start with
  | nil => exact List.mem_cons_self
  | cons change rest ih =>
      obtain ⟨at', next⟩ := change
      unfold lookupFrom stretchesFrom
      split
      · exact List.mem_cons_self
      · exact List.mem_cons_of_mem _ (ih next (some at'))

theorem lookupFrom_in {offset : Int} {start : Option Int} {transitions : List (Int × Int)} {second : Int}
    (begun : ∀ s ∈ start, s ≤ second) : InStretch (lookupFrom offset start transitions second) second := by
  induction transitions generalizing offset start with
  | nil => exact ⟨begun, fun stop none => absurd none (Option.not_mem_none stop)⟩
  | cons change rest ih =>
      obtain ⟨at', next⟩ := change
      unfold lookupFrom
      split
      · rename_i before
        refine ⟨begun, fun stop some => ?_⟩
        obtain rfl := Option.some.inj some
        exact before
      · rename_i after
        refine ih fun s same => ?_
        obtain rfl := Option.some.inj same
        exact not_lt.mp after

theorem begins_after {offset first : Int} {transitions : List (Int × Int)}
    (sorted : ((first, offset) :: transitions).Pairwise fun a b => a.1 < b.1) {stretch : Int × Option Int × Option Int}
    (mem : stretch ∈ stretchesFrom offset (some first) transitions) : ∃ start ∈ stretch.2.1, first ≤ start := by
  induction transitions generalizing offset first with
  | nil =>
      rw [List.mem_singleton.mp mem]
      exact ⟨first, rfl, le_rfl⟩
  | cons change rest ih =>
      obtain ⟨at', next⟩ := change
      rw [List.pairwise_cons] at sorted
      rcases List.mem_cons.mp mem with rfl | later
      · exact ⟨first, rfl, le_rfl⟩
      · obtain ⟨start, begun, after⟩ := ih sorted.2 later
        exact ⟨start, begun, (sorted.1 _ List.mem_cons_self).le.trans after⟩

theorem lookupFrom_eq {offset : Int} {start : Option Int} {transitions : List (Int × Int)}
    (sorted : transitions.Pairwise fun a b => a.1 < b.1) {stretch : Int × Option Int × Option Int} {second : Int}
    (mem : stretch ∈ stretchesFrom offset start transitions) (inside : InStretch stretch second) :
    lookupFrom offset start transitions second = stretch := by
  induction transitions generalizing offset start with
  | nil => exact (List.mem_singleton.mp mem).symm
  | cons change rest ih =>
      obtain ⟨at', next⟩ := change
      unfold lookupFrom
      rcases List.mem_cons.mp mem with rfl | later
      · exact if_pos (inside.2 at' rfl)
      · obtain ⟨begin, begun, after⟩ := begins_after sorted later
        have reached := inside.1 begin begun
        rw [if_neg (by omega)]
        exact ih (List.pairwise_cons.mp sorted).2 later

namespace Zone

def lookup (zone : Zone) (second : Int) : Int × Option Int × Option Int :=
  lookupFrom zone.first none zone.transitions second

def offset (zone : Zone) (second : Int) : Int := (zone.lookup second).1

def stretches (zone : Zone) : List (Int × Option Int × Option Int) := stretchesFrom zone.first none zone.transitions

theorem offset_mem (zone : Zone) (second : Int) : ∃ stretch ∈ zone.stretches, stretch.1 = zone.offset second :=
  ⟨_, lookupFrom_mem zone.first none zone.transitions second, rfl⟩

/-- The offset with which a local time is resolved: that at the local time read as UTC, where the instant it gives
lies in the same stretch, and else the offset at that instant. -/
def dateOffset (zone : Zone) (wall : Int) : Int :=
  let (offset, start, stop) := zone.lookup wall
  let utc := wall - offset
  if start.any (utc < ·) || stop.any (· ≤ utc) then zone.offset utc else offset

theorem dateOffset_mem (zone : Zone) (wall : Int) : ∃ stretch ∈ zone.stretches, stretch.1 = zone.dateOffset wall := by
  unfold dateOffset
  dsimp only
  split
  · exact zone.offset_mem _
  · exact zone.offset_mem wall

/-- The local time of an instant, both in milliseconds. -/
def wall (zone : Zone) (instant : Int) : Int := instant + 1000 * zone.offset (instant / 1000)

/-- `time.Date` at midnight of a day. -/
def midnight (zone : Zone) (day : Int) : Int := 1000 * (86400 * day - zone.dateOffset (86400 * day))

end Zone

/-! ## What a stretch shows

Instants in milliseconds from which, and until which, a stretch shows a month. -/

def opens (stretch : Int × Option Int × Option Int) (month : Int) : List Int :=
  (86400000 * monthStart month - 1000 * stretch.1) :: (stretch.2.1.map (1000 * ·)).toList

def closes (stretch : Int × Option Int × Option Int) (month : Int) : List Int :=
  (86400000 * monthStart (month + 1) - 1000 * stretch.1) :: (stretch.2.2.map (1000 * ·)).toList

theorem shows_iff {zone : Zone} {month at' : Int} :
    monthOf (zone.wall at' / 86400000) = month ↔ ∃ stretch ∈ zone.stretches,
      (∀ open' ∈ opens stretch month, open' ≤ at') ∧ ∀ close ∈ closes stretch month, at' < close := by
  unfold Zone.wall
  rw [monthOf_eq]
  constructor
  · rintro ⟨low, high⟩
    have inside : InStretch (zone.lookup (at' / 1000)) (at' / 1000) :=
      lookupFrom_in fun start none => absurd none (Option.not_mem_none start)
    refine ⟨_, lookupFrom_mem zone.first none zone.transitions (at' / 1000), fun open' mem => ?_, fun close mem => ?_⟩
    · rcases List.mem_cons.mp mem with rfl | change
      · show 86400000 * monthStart month - 1000 * zone.offset (at' / 1000) ≤ at'
        omega
      · obtain ⟨start, begun, rfl⟩ := Option.map_eq_some_iff.mp (Option.mem_toList.mp change)
        have after := inside.1 start begun
        omega
    · rcases List.mem_cons.mp mem with rfl | change
      · show at' < 86400000 * monthStart (month + 1) - 1000 * zone.offset (at' / 1000)
        omega
      · obtain ⟨stop, ended, rfl⟩ := Option.map_eq_some_iff.mp (Option.mem_toList.mp change)
        have before := inside.2 stop ended
        omega
  · rintro ⟨stretch, mem, opened, open'⟩
    have inside : InStretch stretch (at' / 1000) := by
      refine ⟨fun start begun => ?_, fun stop ended => ?_⟩
      · have after := opened (1000 * start) (List.mem_cons_of_mem _ (Option.mem_toList.mpr (Option.mem_map_of_mem _ begun)))
        omega
      · have before := open' (1000 * stop) (List.mem_cons_of_mem _ (Option.mem_toList.mpr (Option.mem_map_of_mem _ ended)))
        omega
    have offset : zone.offset (at' / 1000) = stretch.1 := congrArg Prod.fst (lookupFrom_eq zone.sorted mem inside)
    have low := opened _ List.mem_cons_self
    have high := open' _ List.mem_cons_self
    rw [offset]
    omega

end ThreeXNode.Library.Calendar
