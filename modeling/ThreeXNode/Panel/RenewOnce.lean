import ThreeXNode.Panel.PollRuns
import ThreeXNode.Panel.RowEdits

namespace ThreeXNode.Panel
open Library

/-! ## Periods -/

def Clock.step (clock : Clock) (row : ClientTraffic) (expiry : Int) : Int :=
  if row.resetDay > 0 then clock.nextCalendarRenewal expiry row.resetDay
  else wrap64 (expiry + wrap64 (row.reset * dayMillis))

def Clock.deadlineAfter (clock : Clock) (row : ClientTraffic) (periods : Nat) : Int :=
  (clock.step row)^[periods] row.expiryTime

/-- After so many periods the deadline has passed again, and the plan still allows a renewal. -/
def Clock.Owes (clock : Clock) (row : ClientTraffic) (periods : Nat) : Prop :=
  clock.deadlineAfter row periods < clock.nowSeconds ∧ ¬(row.resetMax > 0 ∧ row.resetCount + periods ≥ row.resetMax)

/-- The periods that have elapsed, up to the last renewal that the plan allows. -/
def Clock.Elapsed (clock : Clock) (row : ClientTraffic) (periods : Nat) : Prop :=
  (∀ i < periods, clock.Owes row i) ∧ ¬clock.Owes row periods

/-- Every period that is stepped over has a length: no calendar step stands still and no fixed step overflows. -/
def Clock.Forward (clock : Clock) (row : ClientTraffic) : Prop :=
  ∀ periods, clock.deadlineAfter row periods < clock.nowSeconds →
    clock.deadlineAfter row periods < clock.deadlineAfter row (periods + 1)

theorem deadlineAfter_succ (clock : Clock) (row : ClientTraffic) (periods : Nat) :
    clock.deadlineAfter row (periods + 1) = clock.step row (clock.deadlineAfter row periods) :=
  Function.iterate_succ_apply' ..

theorem elapsed_unique {clock : Clock} {row : ClientTraffic} {m n : Nat} (left : clock.Elapsed row m)
    (right : clock.Elapsed row n) : m = n := by
  rcases Nat.lt_trichotomy m n with less | same | more
  · exact absurd (right.1 m less) left.2
  · exact same
  · exact absurd (left.1 n more) right.2

theorem catchUp_elapsed {clock : Clock} {row : ClientTraffic} (forward : clock.Forward row) (fuel passed : Nat)
    (enough : clock.nowSeconds - clock.deadlineAfter row passed ≤ fuel) (owed : ∀ i < passed, clock.Owes row i) :
    ∃ n, clock.Elapsed row n ∧ catchUp clock row fuel (clock.deadlineAfter row passed) passed = (clock.deadlineAfter row n, (n : Int)) := by
  induction fuel generalizing passed with
  | zero => exact ⟨passed, ⟨owed, fun owes => by have := owes.1; omega⟩, rfl⟩
  | succ fuel ih =>
      rw [catchUp]
      by_cases behind : clock.deadlineAfter row passed < clock.nowSeconds
      · rw [if_pos behind]
        by_cases capped : row.resetMax > 0 ∧ row.resetCount + (passed : Int) ≥ row.resetMax
        · rw [if_pos capped]
          exact ⟨passed, ⟨owed, fun owes => owes.2 capped⟩, rfl⟩
        · rw [if_neg capped]
          have later := forward passed behind
          have next := ih (passed + 1) (by omega) (fun i below => by
            rcases Nat.lt_succ_iff_lt_or_eq.mp below with earlier | rfl
            · exact owed i earlier
            · exact ⟨behind, capped⟩)
          rw [deadlineAfter_succ] at next
          simp only [Clock.step, Nat.cast_add, Nat.cast_one] at next
          split at next
          next monthly => rwa [if_pos monthly]
          next daily => rwa [if_neg daily]
      · rw [if_neg behind]
        exact ⟨passed, ⟨owed, fun owes => behind owes.1⟩, rfl⟩

theorem renewals_elapsed {clock : Clock} {row : ClientTraffic} (forward : clock.Forward row) :
    ∃ n, clock.Elapsed row n ∧ renewals clock row = (clock.deadlineAfter row n, (n : Int)) := by
  have all := catchUp_elapsed forward (clock.nowSeconds - row.expiryTime).toNat 0 (by
    show clock.nowSeconds - row.expiryTime ≤ _
    omega) (fun i below => absurd below (Nat.not_lt_zero i))
  exact all

theorem renewals_idle {clock : Clock} {row : ClientTraffic}
    (idle : clock.nowSeconds ≤ row.expiryTime ∨ (row.resetMax > 0 ∧ row.resetCount ≥ row.resetMax)) :
    renewals clock row = (row.expiryTime, 0) := by
  rw [renewals]
  cases (clock.nowSeconds - row.expiryTime).toNat with
  | zero => rfl
  | succ fuel =>
      rw [catchUp]
      rcases idle with reached | capped
      · rw [if_neg (by omega)]
      · rw [if_pos (show row.resetMax > 0 ∧ row.resetCount + 0 ≥ row.resetMax by simpa using capped), ite_self]

/-! ## One renewal of a row -/

def settle (clock : Clock) (row : ClientTraffic) : ClientTraffic :=
  let (expiry, count) := renewals clock row
  let moved := if count > 0 then { row with expiryTime := expiry, resetCount := row.resetCount + count } else row
  if moved.expiryTime ≤ clock.nowSeconds then moved
  else { (if count > 0 then { moved with up := 0, down := 0 } else moved) with enable := true }

structure Settled (clock : Clock) (row row' : ClientTraffic) (periods : Nat) : Prop where
  email : row'.email = row.email
  expiryTime : row'.expiryTime = clock.deadlineAfter row periods
  resetCount : row'.resetCount = row.resetCount + periods
  counters : row'.up = (if 0 < periods ∧ clock.nowSeconds < row'.expiryTime then 0 else row.up) ∧
    row'.down = (if 0 < periods ∧ clock.nowSeconds < row'.expiryTime then 0 else row.down)
  enable : row'.enable = (row.enable || decide (clock.nowSeconds < row'.expiryTime))
  plan : row'.reset = row.reset ∧ row'.resetDay = row.resetDay ∧ row'.resetMax = row.resetMax

theorem settle_settled {clock : Clock} {row : ClientTraffic} {n : Nat}
    (caught : renewals clock row = (clock.deadlineAfter row n, (n : Int))) : Settled clock row (settle clock row) n := by
  rw [settle, caught]
  dsimp only
  by_cases some' : (n : Int) > 0
  · have pos : 0 < n := by omega
    simp only [if_pos some']
    by_cases expired : clock.deadlineAfter row n ≤ clock.nowSeconds
    · rw [if_pos expired]
      have late : ¬clock.nowSeconds < clock.deadlineAfter row n := by omega
      constructor <;> simp [late]
    · rw [if_neg expired]
      have ahead : clock.nowSeconds < clock.deadlineAfter row n := by omega
      constructor <;> simp [ahead, pos]
  · have zero : n = 0 := by omega
    simp only [if_neg some']
    by_cases expired : row.expiryTime ≤ clock.nowSeconds
    · rw [if_pos expired]
      have late : ¬clock.nowSeconds < row.expiryTime := by omega
      constructor <;> simp [zero, late]
      rfl
    · rw [if_neg expired]
      have ahead : clock.nowSeconds < row.expiryTime := by omega
      constructor <;> simp [zero, ahead]
      rfl

theorem settle_email (clock : Clock) (row : ClientTraffic) : (settle clock row).email = row.email := by
  rw [settle]
  dsimp only
  split <;> split <;> rfl

theorem settle_again {clock : Clock} {row : ClientTraffic} (forward : clock.Forward row) :
    renewals clock (settle clock row) = ((settle clock row).expiryTime, 0) := by
  obtain ⟨n, elapsed, caught⟩ := renewals_elapsed forward
  have settled := settle_settled caught
  apply renewals_idle
  rw [settled.expiryTime, settled.resetCount, settled.plan.2.2]
  by_contra more
  rw [not_or] at more
  exact elapsed.2 ⟨by omega, more.2⟩

theorem settle_idem {clock : Clock} {row : ClientTraffic} (forward : clock.Forward row) :
    settle clock (settle clock row) = settle clock row := by
  obtain ⟨n, -, caught⟩ := renewals_elapsed forward
  have enable := (settle_settled caught).enable
  have again := settle_again forward
  generalize settle clock row = settled at enable again ⊢
  rw [settle, again]
  dsimp only
  rw [if_neg (lt_irrefl 0), if_neg (lt_irrefl 0)]
  split
  · rfl
  next ahead =>
    have on : settled.enable = true := by simp [enable, not_le.mp ahead]
    cases settled
    simp_all

/-! ## The copies -/

def dueRow (rows : List ClientTraffic) (email : String) : Option ClientTraffic := rows.find? (·.email = email)

def renewedCopy (clock : Clock) (rows : List ClientTraffic) (entry : Json) : Json :=
  match dueRow rows (entryEmail entry) with
  | none => entry
  | some row =>
      mapEntry (fun cm =>
        let cm := cm.insert "expiryTime" (.ofInt (settle clock row).expiryTime)
        some (if row.enable ∨ (settle clock row).expiryTime ≤ clock.nowSeconds then cm else cm.insert "enable" (.bool true)))
        entry

theorem renewEntry_found (clock : Clock) (wasEnabled : String → Bool) {st : Renewing} {entry : Json} {row : ClientTraffic}
    (found : st.traffics.find? (·.email = entryEmail entry) = some row)
    (enabled : wasEnabled (entryEmail entry) = true → row.enable = true) :
    renewEntry clock wasEnabled st entry =
      (⟨st.traffics.map fun r => if r.email = entryEmail entry then settle clock row else r,
        if row.resetCount < (settle clock row).resetCount ∧ clock.nowSeconds < (settle clock row).expiryTime then
          st.renewedEmails ++ [entryEmail entry]
        else st.renewedEmails⟩,
      mapEntry (fun cm =>
        let cm := cm.insert "expiryTime" (.ofInt (settle clock row).expiryTime)
        some (if wasEnabled (entryEmail entry) ∨ (settle clock row).expiryTime ≤ clock.nowSeconds then cm
          else cm.insert "enable" (.bool true))) entry) := by
  rw [renewEntry, settle]
  dsimp only
  rw [found]
  dsimp only
  generalize renewals clock row = result
  obtain ⟨expiry, count⟩ := result
  dsimp only
  by_cases some' : count > 0
  · simp only [if_pos some']
    by_cases expired : expiry ≤ clock.nowSeconds
    · have late : ¬clock.nowSeconds < expiry := by omega
      simp [expired, late]
    · have ahead : clock.nowSeconds < expiry := by omega
      cases was : wasEnabled (entryEmail entry) with
      | false => simp [expired, ahead, some']
      | true => simp [expired, ahead, some', enabled was]
  · simp only [if_neg some']
    by_cases expired : row.expiryTime ≤ clock.nowSeconds
    · simp [expired]
    · have ahead : clock.nowSeconds < row.expiryTime := by omega
      cases was : wasEnabled (entryEmail entry) with
      | false => simp [expired, ahead]
      | true =>
          have on := enabled was
          cases row
          simp_all

/-- The rows of the emails met so far are settled, the others are as they were. -/
structure Met (clock : Clock) (rows : List ClientTraffic) (seen : List String) (st : Renewing) : Prop where
  traffics : st.traffics = rows.map fun row => if row.email ∈ seen then settle clock row else row
  renewedEmails : ∀ email, email ∈ st.renewedEmails ↔ ∃ row ∈ rows, row.email = email ∧ email ∈ seen ∧
    row.resetCount < (settle clock row).resetCount ∧ clock.nowSeconds < (settle clock row).expiryTime

theorem met_start (clock : Clock) (rows : List ClientTraffic) : Met clock rows [] ⟨rows, []⟩ := ⟨by simp, by simp⟩

section
variable {clock : Clock} {rows : List ClientTraffic}
variable (unique : (rows.map (·.email)).Nodup) (forward : ∀ row ∈ rows, clock.Forward row)
include unique forward

omit forward in
theorem eq_of_email {row other : ClientTraffic} (left : row ∈ rows) (right : other ∈ rows) (same : row.email = other.email) :
    row = other :=
  List.inj_on_of_nodup_map unique left right same

theorem renewEntry_met {seen : List String} {st : Renewing} (met : Met clock rows seen st) (entry : Json) :
    (renewEntry clock (fun email => rows.any fun row => row.email = email && row.enable) st entry).2 =
        renewedCopy clock rows entry ∧
      Met clock rows (entryEmail entry :: seen)
        (renewEntry clock (fun email => rows.any fun row => row.email = email && row.enable) st entry).1 := by
  have found : st.traffics.find? (·.email = entryEmail entry) = (dueRow rows (entryEmail entry)).map fun row =>
      if row.email ∈ seen then settle clock row else row := by
    rw [met.traffics]
    exact find?_map_email (fun row => by split <;> simp [settle_email]) _
  cases due : dueRow rows (entryEmail entry) with
  | none =>
      rw [due] at found
      have skipped : renewEntry clock (fun email => rows.any fun row => row.email = email && row.enable) st entry =
          (st, entry) := by
        rw [renewEntry]
        dsimp only
        rw [found]
        rfl
      have other : ∀ row ∈ rows, row.email ≠ entryEmail entry := fun row member same =>
        List.find?_eq_none.mp due row member (by simpa using same)
      rw [skipped, renewedCopy, due]
      refine ⟨rfl, ?_, ?_⟩
      · rw [met.traffics]
        apply List.map_congr_left
        intro row member
        simp [other row member]
      · intro email
        rw [met.renewedEmails]
        constructor
        · rintro ⟨row, member, same, before, rest⟩
          exact ⟨row, member, same, List.mem_cons_of_mem _ before, rest⟩
        · rintro ⟨row, member, rfl, before, rest⟩
          exact ⟨row, member, rfl, (List.mem_cons.mp before).resolve_left (other row member), rest⟩
  | some row =>
      have member : row ∈ rows := List.mem_of_find?_eq_some due
      have named : row.email = entryEmail entry := by simpa using List.find?_some due
      have was : (rows.any fun row => row.email = entryEmail entry && row.enable) = row.enable := by
        apply Bool.eq_iff_iff.mpr
        rw [List.any_eq_true]
        constructor
        · rintro ⟨other, there, both⟩
          rw [Bool.and_eq_true, decide_eq_true_eq] at both
          rw [eq_of_email unique member there (named.trans both.1.symm)]
          exact both.2
        · exact fun on => ⟨row, member, by simp [named, on]⟩
      obtain ⟨n, -, caught⟩ := renewals_elapsed (forward row member)
      have settled := settle_settled caught
      rw [due, Option.map_some] at found
      have again : settle clock (if row.email ∈ seen then settle clock row else row) = settle clock row := by
        split
        · exact settle_idem (forward row member)
        · rfl
      have step := renewEntry_found clock (fun email => rows.any fun row => row.email = email && row.enable) found
        (fun on => by
          rw [was] at on
          split
          · simp [settled.enable, on]
          · exact on)
      rw [again] at step
      rw [step, renewedCopy, due]
      refine ⟨by simp only [was], ?_, ?_⟩
      · dsimp only
        rw [met.traffics, List.map_map]
        apply List.map_congr_left
        intro other there
        simp only [Function.comp_apply, List.mem_cons]
        by_cases here : other.email = entryEmail entry
        · obtain rfl := eq_of_email unique there member (here.trans named.symm)
          have kept : (if other.email ∈ seen then settle clock other else other).email = entryEmail entry := by
            split <;> simp [settle_email, here]
          rw [if_pos kept, if_pos (.inl here)]
        · have kept : (if other.email ∈ seen then settle clock other else other).email ≠ entryEmail entry := by
            split <;> simp [settle_email, here]
          rw [if_neg kept]
          simp [here]
      · intro email
        dsimp only
        by_cases before : row.email ∈ seen
        · -- The row is settled, so this copy renews nothing.
          rw [if_pos before, if_neg (fun more => lt_irrefl _ more.1), met.renewedEmails]
          constructor
          · rintro ⟨other, there, same, seen', rest⟩
            exact ⟨other, there, same, List.mem_cons_of_mem _ seen', rest⟩
          · rintro ⟨other, there, same, seen', rest⟩
            rcases List.mem_cons.mp seen' with rfl | earlier
            · exact ⟨other, there, same, named ▸ before, rest⟩
            · exact ⟨other, there, same, earlier, rest⟩
        · rw [if_neg before]
          by_cases fires : row.resetCount < (settle clock row).resetCount ∧ clock.nowSeconds < (settle clock row).expiryTime
          · rw [if_pos fires, List.mem_append, met.renewedEmails, List.mem_singleton]
            constructor
            · rintro (⟨other, there, same, seen', rest⟩ | rfl)
              · exact ⟨other, there, same, List.mem_cons_of_mem _ seen', rest⟩
              · exact ⟨row, member, named, List.mem_cons_self, fires⟩
            · rintro ⟨other, there, same, seen', rest⟩
              rcases List.mem_cons.mp seen' with here | earlier
              · exact .inr here
              · exact .inl ⟨other, there, same, earlier, rest⟩
          · rw [if_neg fires, met.renewedEmails]
            constructor
            · rintro ⟨other, there, same, seen', rest⟩
              exact ⟨other, there, same, List.mem_cons_of_mem _ seen', rest⟩
            · rintro ⟨other, there, same, seen', rest⟩
              rcases List.mem_cons.mp seen' with here | earlier
              · obtain rfl := eq_of_email unique there member (same.trans (here.trans named.symm))
                exact absurd rest fires
              · exact ⟨other, there, same, earlier, rest⟩

theorem renewEntries_met {seen : List String} {st : Renewing} (met : Met clock rows seen st) {entries : List Json}
    (objects : ∀ entry ∈ entries, isEntry entry = true) :
    ∃ st', renewEntries clock (fun email => rows.any fun row => row.email = email && row.enable) st entries =
        some (st', entries.map (renewedCopy clock rows)) ∧
      ∃ seen', (∀ email, email ∈ seen' ↔ email ∈ entries.map entryEmail ∨ email ∈ seen) ∧ Met clock rows seen' st' := by
  induction entries generalizing seen st with
  | nil => exact ⟨st, rfl, seen, by simp, met⟩
  | cons entry entries ih =>
      obtain ⟨copy, next⟩ := renewEntry_met unique forward met entry
      obtain ⟨st', ran, seen', all, met'⟩ := ih next fun other there => objects other (List.mem_cons_of_mem _ there)
      refine ⟨st', ?_, seen', ?_, met'⟩
      · rw [renewEntries, if_pos (objects entry List.mem_cons_self)]
        dsimp only
        rw [ran, Option.map_some, copy, List.map_cons]
      · intro email
        rw [all, List.map_cons, List.mem_cons, List.mem_cons]
        tauto

omit unique forward in
theorem clientEntries_none : clientEntries none = [] := rfl

def renewedInbound (clock : Clock) (rows : List ClientTraffic) (ib : Inbound) : Inbound :=
  match ib.settings with
  | some o =>
      if clientEntries (some o) = [] then ib
      else { ib with settings := some (setClients o ((clientEntries (some o)).map (renewedCopy clock rows))) }
  | none => ib

omit unique forward in
theorem clientEntries_renewed (ib : Inbound) :
    clientEntries (renewedInbound clock rows ib).settings = (clientEntries ib.settings).map (renewedCopy clock rows) := by
  rw [renewedInbound]
  split
  next o settings =>
    split
    next empty => rw [settings, empty, List.map_nil]
    next some' => rw [clientEntries_setClients, settings]
  next settings => rw [settings, clientEntries_none, List.map_nil]

omit unique forward in
theorem renewedInbound_id (ib : Inbound) : (renewedInbound clock rows ib).id = ib.id := by
  rw [renewedInbound]
  split
  · split <;> rfl
  · rfl

theorem renewInbound_met {seen : List String} {st : Renewing} (met : Met clock rows seen st) {ib : Inbound}
    (objects : ∀ entry ∈ clientEntries ib.settings, isEntry entry = true) :
    ∃ st', renewInbound clock (fun email => rows.any fun row => row.email = email && row.enable) st ib =
        some (st', renewedInbound clock rows ib) ∧
      ∃ seen', (∀ email, email ∈ seen' ↔ email ∈ (clientEntries ib.settings).map entryEmail ∨ email ∈ seen) ∧
        Met clock rows seen' st' := by
  rw [renewInbound, renewedInbound]
  cases settings : ib.settings with
  | none => exact ⟨st, rfl, seen, by simp [clientEntries_none], met⟩
  | some o =>
      rw [settings] at objects
      dsimp only
      by_cases empty : clientEntries (some o) = []
      · rw [if_pos empty, if_pos empty]
        exact ⟨st, rfl, seen, by simp [empty], met⟩
      · obtain ⟨st', ran, seen', all, met'⟩ := renewEntries_met unique forward met objects
        rw [if_neg empty, if_neg empty, ran]
        exact ⟨st', rfl, seen', all, met'⟩

theorem renewInbounds_met {seen : List String} {st : Renewing} (met : Met clock rows seen st) {inbounds : List Inbound}
    (objects : ∀ ib ∈ inbounds, ∀ entry ∈ clientEntries ib.settings, isEntry entry = true) :
    ∃ st', renewInbounds clock (fun email => rows.any fun row => row.email = email && row.enable) st inbounds =
        some (st', inbounds.map (renewedInbound clock rows)) ∧
      ∃ seen', (∀ email, email ∈ seen' ↔
          (∃ ib ∈ inbounds, email ∈ (clientEntries ib.settings).map entryEmail) ∨ email ∈ seen) ∧
        Met clock rows seen' st' := by
  induction inbounds generalizing seen st with
  | nil => exact ⟨st, rfl, seen, by simp, met⟩
  | cons ib inbounds ih =>
      obtain ⟨mid, first, between', some', next⟩ := renewInbound_met unique forward met (objects ib List.mem_cons_self)
      obtain ⟨st', ran, seen', all, met'⟩ := ih next fun other there => objects other (List.mem_cons_of_mem _ there)
      refine ⟨st', ?_, seen', ?_, met'⟩
      · rw [renewInbounds, first, Option.bind_eq_bind, Option.bind_some]
        dsimp only
        rw [ran]
        rfl
      · intro email
        rw [all, some', List.exists_mem_cons_iff, or_left_comm, or_assoc]

end

/-! ## The run -/

def renewedIds (db : Database) (clock : Clock) : List Nat :=
  linkedInboundIds db ((db.clientTraffics.filter (renewable db clock.nowSeconds)).map (·.email))

def Listed (db : Database) (clock : Clock) (email : String) : Prop :=
  ∃ ib ∈ db.inbounds, ib.id ∈ renewedIds db clock ∧ email ∈ (clientEntries ib.settings).map entryEmail

theorem syncOwnClients_keeps (now : Int) (inbounds : List Inbound) (db : Database) :
    (inbounds.foldl (syncOwnClients now) db).inbounds = db.inbounds ∧
      (inbounds.foldl (syncOwnClients now) db).clientGlobalTraffics = db.clientGlobalTraffics := by
  induction inbounds generalizing db with
  | nil => exact ⟨rfl, rfl⟩
  | cons ib rest ih =>
      rw [List.foldl_cons, (ih _).1, (ih _).2]
      unfold syncOwnClients
      split <;> exact ⟨rfl, rfl⟩

def writeBack (db : Database) (now : Int) (st : Renewing) (inbounds : List Inbound) : Database :=
  let saved := { db with inbounds := db.inbounds.map fun ib => (inbounds.find? (·.id = ib.id)).getD ib }
  let synced := inbounds.foldl (syncOwnClients now) saved
  clearGlobalTraffic { synced with
    clientTraffics := synced.clientTraffics.map fun row => (st.traffics.find? (·.email = row.email)).getD row } st.renewedEmails

theorem writeBack_inbounds (db : Database) (now : Int) (st : Renewing) (inbounds : List Inbound) :
    (writeBack db now st inbounds).inbounds = db.inbounds.map fun ib => (inbounds.find? (·.id = ib.id)).getD ib :=
  (syncOwnClients_keeps now inbounds _).1

theorem writeBack_clientTraffics (db : Database) (now : Int) (st : Renewing) (inbounds : List Inbound) :
    (writeBack db now st inbounds).clientTraffics =
      db.clientTraffics.map fun row => (st.traffics.find? (·.email = row.email)).getD row := by
  rw [writeBack]
  dsimp only [clearGlobalTraffic]
  rw [syncOwnClients_clientTraffics]

theorem writeBack_global (db : Database) (now : Int) (st : Renewing) (inbounds : List Inbound) :
    (writeBack db now st inbounds).clientGlobalTraffics = db.clientGlobalTraffics.filter (·.email ∉ st.renewedEmails) := by
  rw [writeBack]
  dsimp only [clearGlobalTraffic]
  rw [(syncOwnClients_keeps now inbounds _).2]

theorem find_saved {inbounds : List Inbound} (ids : (inbounds.map (·.id)).Nodup) (some' : Inbound → Prop) [DecidablePred some']
    {change : Inbound → Inbound} (keeps : ∀ ib, (change ib).id = ib.id) {ib : Inbound} (member : ib ∈ inbounds) :
    ((((inbounds.filter (some' ·)).map change).find? (·.id = ib.id)).getD ib) = if some' ib then change ib else ib := by
  have by' : ∀ other ∈ inbounds, other.id = ib.id → other = ib := fun other there same =>
    List.inj_on_of_nodup_map ids there member same
  split
  next chosen =>
    cases found : ((inbounds.filter (some' ·)).map change).find? (·.id = ib.id) with
    | none =>
        have here : change ib ∈ (inbounds.filter (some' ·)).map change :=
          List.mem_map_of_mem (List.mem_filter.mpr ⟨member, by simpa using chosen⟩)
        exact absurd (by simp [keeps]) (List.find?_eq_none.mp found _ here)
    | some saved =>
        obtain ⟨other, there, rfl⟩ := List.mem_map.mp (List.mem_of_find?_eq_some found)
        have same : other.id = ib.id := by simpa [keeps] using List.find?_some found
        rw [Option.getD_some, by' other (List.mem_filter.mp there).1 same]
  next passed =>
    have none' : ((inbounds.filter (some' ·)).map change).find? (·.id = ib.id) = none := by
      rw [List.find?_eq_none]
      intro saved there same
      obtain ⟨other, listed, rfl⟩ := List.mem_map.mp there
      have same : other.id = ib.id := by simpa [keeps] using same
      obtain ⟨row, chosen⟩ := List.mem_filter.mp listed
      rw [by' other row same] at chosen
      exact passed (by simpa using chosen)
    rw [none', Option.getD_none]

theorem autoRenewClients_writes {db : Database} {clock : Clock} (unique : (db.clientTraffics.map (·.email)).Nodup)
    (ids : (db.inbounds.map (·.id)).Nodup)
    (objects : ∀ ib ∈ db.inbounds, ib.id ∈ renewedIds db clock → ∀ entry ∈ clientEntries ib.settings, isEntry entry = true)
    (forward : ∀ row ∈ db.clientTraffics, renewable db clock.nowSeconds row = true → clock.Forward row) :
    let rows := db.clientTraffics.filter (renewable db clock.nowSeconds)
    ∃ db', autoRenewClients db clock = some db' ∧
      db'.inbounds = db.inbounds.map (fun ib => if ib.id ∈ renewedIds db clock then renewedInbound clock rows ib else ib) ∧
      (∀ row ∈ rows, ∃ row' ∈ db'.clientTraffics, (Listed db clock row.email → row' = settle clock row) ∧
        (¬Listed db clock row.email → row' = row)) ∧
      ∀ g, g ∈ db'.clientGlobalTraffics ↔ g ∈ db.clientGlobalTraffics ∧ ¬∃ row ∈ rows, row.email = g.email ∧
        Listed db clock row.email ∧ row.resetCount < (settle clock row).resetCount ∧
          clock.nowSeconds < (settle clock row).expiryTime := by
  intro rows
  have dueUnique : (rows.map (·.email)).Nodup := unique.sublist (List.filter_sublist.map _)
  have dueForward : ∀ row ∈ rows, clock.Forward row := fun row member =>
    forward row (List.mem_filter.mp member).1 (List.mem_filter.mp member).2
  by_cases none' : rows = []
  · refine ⟨db, ?_, ?_, ?_, ?_⟩
    · rw [autoRenewClients]
      exact if_pos none'
    · have unlinked : renewedIds db clock = [] := by
        rw [renewedIds, show db.clientTraffics.filter (renewable db clock.nowSeconds) = [] from none']
        simp [linkedInboundIds]
      simp [unlinked]
    · rw [none']
      intro row member
      cases member
    · simp [none']
  have linked : ∀ ib ∈ db.inbounds.filter (·.id ∈ renewedIds db clock), ∀ entry ∈ clientEntries ib.settings,
      isEntry entry = true := fun ib member =>
    objects ib (List.mem_filter.mp member).1 (by simpa using (List.mem_filter.mp member).2)
  obtain ⟨st, ran, seen, all, met⟩ := renewInbounds_met dueUnique dueForward (met_start clock rows) linked
  have seenListed : ∀ email, email ∈ seen ↔ Listed db clock email := by
    intro email
    rw [all]
    simp only [List.mem_filter, decide_eq_true_eq, List.not_mem_nil, or_false, Listed, and_assoc]
  have written : autoRenewClients db clock = some (writeBack db clock.nowSeconds st
      ((db.inbounds.filter (·.id ∈ renewedIds db clock)).map (renewedInbound clock rows))) := by
    rw [autoRenewClients]
    dsimp only
    rw [if_neg none', show linkedInboundIds db (rows.map (·.email)) = renewedIds db clock from rfl, ran]
    rfl
  refine ⟨_, written, ?_, ?_, ?_⟩
  · rw [writeBack_inbounds]
    apply List.map_congr_left
    intro ib member
    exact find_saved ids (fun ib => ib.id ∈ renewedIds db clock) renewedInbound_id member
  · intro row member
    have found : st.traffics.find? (·.email = row.email) =
        some (if row.email ∈ seen then settle clock row else row) := by
      have here : rows.find? (·.email = row.email) = some row := by
        cases due : rows.find? (·.email = row.email) with
        | none => exact absurd (by simp) (List.find?_eq_none.mp due row member)
        | some other =>
            have same : other.email = row.email := by simpa using List.find?_some due
            rw [eq_of_email dueUnique (List.mem_of_find?_eq_some due) member same]
      rw [met.traffics, find?_map_email (fun r => by split <;> simp [settle_email]), here, Option.map_some]
    refine ⟨if row.email ∈ seen then settle clock row else row, ?_, ?_, ?_⟩
    · rw [writeBack_clientTraffics]
      exact List.mem_map.mpr ⟨row, (List.mem_filter.mp member).1, by rw [found, Option.getD_some]⟩
    · exact fun listed => if_pos ((seenListed _).mpr listed)
    · exact fun unlisted => if_neg fun met => unlisted ((seenListed _).mp met)
  · intro g
    rw [writeBack_global, List.mem_filter]
    simp only [decide_eq_true_eq, met.renewedEmails, seenListed]
    constructor
    · rintro ⟨there, kept⟩
      refine ⟨there, ?_⟩
      rintro ⟨row, member, same, listed, rest⟩
      exact kept ⟨row, member, same, same ▸ listed, rest⟩
    · rintro ⟨there, kept⟩
      refine ⟨there, ?_⟩
      rintro ⟨row, member, same, listed, rest⟩
      exact kept ⟨row, member, same, same ▸ listed, rest⟩

/-! ## Once for each period -/

def entryMember (entry : Json) (key : String) : Option Json := entry.asFields.bind (·[key]?)

structure CopyRenewed (now : Int) (row row' : ClientTraffic) (entry entry' : Json) : Prop where
  email : entryEmail entry' = row.email
  expiryTime : entryMember entry' "expiryTime" = some (.ofInt row'.expiryTime)
  enable : entryMember entry' "enable" =
    if row.enable ∨ row'.expiryTime ≤ now then entryMember entry "enable" else some (.bool true)

/-- What a run makes of a row that is due and of its copies in the linked inbounds. -/
structure RenewedBy (db db' : Database) (clock : Clock) (row row' : ClientTraffic) (periods : Nat) : Prop where
  stored : row' ∈ db'.clientTraffics
  settled : Settled clock row row' periods
  elapsed : Listed db clock row.email → clock.Elapsed row periods
  unlisted : ¬Listed db clock row.email → periods = 0
  cap : 0 < row.resetMax → row'.resetCount ≤ row.resetMax
  crossPanel : ∀ g ∈ db.clientGlobalTraffics, g.email = row.email →
    (g ∉ db'.clientGlobalTraffics ↔ 0 < periods ∧ clock.nowSeconds < row'.expiryTime)
  copies : ∀ ib ∈ db.inbounds, ib.id ∈ renewedIds db clock → ∃ ib' ∈ db'.inbounds, ib'.id = ib.id ∧
    List.Forall₂ (fun entry entry' => entryEmail entry = row.email → CopyRenewed clock.nowSeconds row row' entry entry')
      (clientEntries ib.settings) (clientEntries ib'.settings)

theorem mapEntry_some (change : Fields → Fields) {entry : Json} (object : isEntry entry = true) :
    ∃ o, entry.asFields = some o ∧ (mapEntry (fun cm => some (change cm)) entry).asFields = some (change o) ∧
      entryEmail entry = jsonString o["email"]? ∧
      entryEmail (mapEntry (fun cm => some (change cm)) entry) = jsonString (change o)["email"]? := by
  cases entry with
  | obj members =>
      have here : mapEntry (fun cm => some (change cm)) (.obj members) = .ofFields (change (.ofList members)) := rfl
      refine ⟨.ofList members, rfl, ?_, rfl, ?_⟩
      · rw [here, Json.asFields_ofFields]
      · rw [here, entryEmail_ofFields]
  | null | bool _ | num _ | str _ | arr _ => cases object

theorem renewedCopy_spec {clock : Clock} {rows : List ClientTraffic} {row : ClientTraffic} {entry : Json}
    (due : dueRow rows (entryEmail entry) = some row) (object : isEntry entry = true) :
    CopyRenewed clock.nowSeconds row (settle clock row) entry (renewedCopy clock rows entry) := by
  have named : row.email = entryEmail entry := by simpa using List.find?_some due
  obtain ⟨o, read, write, before, after⟩ := mapEntry_some (fun cm =>
    let cm := cm.insert "expiryTime" (.ofInt (settle clock row).expiryTime)
    if row.enable ∨ (settle clock row).expiryTime ≤ clock.nowSeconds then cm else cm.insert "enable" (.bool true)) object
  rw [renewedCopy, due]
  constructor
  · dsimp only at after ⊢
    rw [after, named, before]
    split <;> simp [Std.ExtTreeMap.getElem?_insert]
  · rw [entryMember]
    dsimp only at write ⊢
    rw [write, Option.bind_some]
    split <;> simp [Std.ExtTreeMap.getElem_insert]
  · rw [entryMember, entryMember, read]
    dsimp only at write ⊢
    rw [write, Option.bind_some, Option.bind_some]
    split <;> simp [Std.ExtTreeMap.getElem?_insert]

theorem forward_daily {clock : Clock} {row : ClientTraffic} (daily : row.resetDay ≤ 0) (renews : 0 < row.reset)
    (range : InInt64 row.expiryTime) (room : clock.nowSeconds + row.reset * dayMillis < 9223372036854775808)
    (now : 0 ≤ clock.nowSeconds) : clock.Forward row := by
  intro periods behind
  have positive : 0 < row.reset * dayMillis := mul_pos renews (by decide)
  have inRange : InInt64 (clock.deadlineAfter row periods) := by
    cases periods with
    | zero => exact range
    | succ periods =>
        rw [deadlineAfter_succ, Clock.step, if_neg (not_lt.mpr daily)]
        exact wrap64_range _
  have low := inRange.1
  have step : wrap64 (row.reset * dayMillis) = row.reset * dayMillis := wrap64_eq ⟨by omega, by omega⟩
  rw [deadlineAfter_succ, Clock.step, if_neg (not_lt.mpr daily), step, wrap64_eq ⟨by omega, by omega⟩]
  omega

namespace Example

def dueAlice : ClientTraffic := ⟨1, false, "alice", 70, 80, 100, 100, 1, 0, 5, 2, 0⟩

def copyOfAlice : Json := .obj [("email", .str "alice"), ("enable", .bool false), ("expiryTime", .ofInt 100)]

def listing : Fields := .ofList [("clients", Json.arr [copyOfAlice])]

def listed (id : Nat) (tag : String) : Inbound :=
  ⟨id, none, "", tag, "", 443, .vmess, some listing, none, "", "never", 1, 0, true, "", 1, 0, 0, 0, 0, false, []⟩

def linkedTo (ids : List Nat) : Database :=
  ids.foldl (fun db id => ((getClients (some listing)).map (syncInbound db 0 id)).getD db)
    ⟨"", [], [listed 1 "in-443", listed 2 "in-8443"], 3, [], 1, [], [dueAlice], [], [⟨"master", "alice", 70, 80⟩]⟩

def nextDay : Clock := ⟨86400050, 86400050, fun _ => false, fun expiry _ => expiry + 1⟩

end Example

end ThreeXNode.Panel
