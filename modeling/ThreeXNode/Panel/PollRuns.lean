import ThreeXNode.Panel.PollReads

namespace ThreeXNode.Panel
open Library

/-! ## What a run of the job does to the row of a client -/

def ClientTraffic.toward (row : ClientTraffic) (isDown : Bool) : Int := if isDown then row.down else row.up

def trafficRow (db : Database) (email : String) : Option ClientTraffic := db.clientTraffics.find? (·.email = email)

def held (db : Database) (email : String) (isDown : Bool) : Int :=
  ((trafficRow db email).map (·.toward isDown)).getD 0

def credit (uses : Option ClientUse) (before : Bool → Int) (isDown : Bool) : Int :=
  if reported uses false = 0 ∧ reported uses true = 0 then before isDown
  else clampedAdd (before isDown) (reported uses isDown)

theorem find?_map_email {rows : List ClientTraffic} {change : ClientTraffic → ClientTraffic}
    (keeps : ∀ row, (change row).email = row.email) (email : String) :
    (rows.map change).find? (·.email = email) = (rows.find? (·.email = email)).map change := by
  rw [List.find?_map]
  congr 2
  funext row
  simp [keeps]

theorem syncOwnClients_clientTraffics (now : Int) (inbounds : List Inbound) (db : Database) :
    (inbounds.foldl (syncOwnClients now) db).clientTraffics = db.clientTraffics := by
  induction inbounds generalizing db with
  | nil => rfl
  | cons ib rest ih =>
      rw [List.foldl_cons, ih]
      unfold syncOwnClients
      split <;> rfl

theorem adjustTraffics_clientTraffics {db db' : Database} {rows : List ClientTraffic} {now : Int}
    {converted : String → Option Int} (done : adjustTraffics db rows now = some (db', converted)) :
    db'.clientTraffics = db.clientTraffics := by
  unfold adjustTraffics at done
  dsimp only at done
  split at done
  · cases done
    rfl
  · obtain ⟨inbounds, -, done⟩ := Option.bind_eq_some_iff.mp done
    cases done
    exact syncOwnClients_clientTraffics _ _ _

theorem addInboundTraffic_clientTraffics (db : Database) (traffics : List Traffic) :
    (addInboundTraffic db traffics).clientTraffics = db.clientTraffics := by
  unfold addInboundTraffic
  induction traffics generalizing db with
  | nil => rfl
  | cons traffic rest ih =>
      rw [List.foldl_cons, ih]
      split <;> rfl

def countRow (uses : List ClientUse) (now : Int) (row : ClientTraffic) : ClientTraffic :=
  match lastUse uses row.email with
  | some t =>
      if t.up = 0 ∧ t.down = 0 then row
      else { row with
        up := clampedAdd row.up t.up
        down := clampedAdd row.down t.down
        lastOnline := max row.lastOnline now }
  | none => row

def startRow (converted : String → Option Int) (row : ClientTraffic) : ClientTraffic :=
  match converted row.email with
  | some expiry => if row.expiryTime < 0 then { row with expiryTime := expiry } else row
  | none => row

theorem countRow_email (uses : List ClientUse) (now : Int) (row : ClientTraffic) :
    (countRow uses now row).email = row.email := by
  unfold countRow
  split
  · split <;> rfl
  · rfl

theorem countRow_toward (uses : List ClientUse) (now : Int) (row : ClientTraffic) (isDown : Bool) :
    (countRow uses now row).toward isDown = credit (lastUse uses row.email) row.toward isDown := by
  unfold countRow
  cases lastUse uses row.email with
  | none => simp [credit, reported]
  | some t =>
      by_cases idle : t.up = 0 ∧ t.down = 0
      · simp [credit, reported, ClientUse.toward, idle]
      · cases isDown <;> simp [credit, reported, ClientTraffic.toward, ClientUse.toward, idle]

theorem startRow_email (converted : String → Option Int) (row : ClientTraffic) :
    (startRow converted row).email = row.email := by
  unfold startRow
  split
  · split <;> rfl
  · rfl

theorem startRow_toward (converted : String → Option Int) (row : ClientTraffic) (isDown : Bool) :
    (startRow converted row).toward isDown = row.toward isDown := by
  unfold startRow
  split
  · split <;> rfl
  · rfl

theorem lastUse_reported {uses : List ClientUse} {email : String} {t : ClientUse} (found : lastUse uses email = some t) :
    email ∈ uses.map (·.email) := by
  have named : t.email = email := by simpa using List.find?_some found
  exact List.mem_map.mpr ⟨t, List.mem_reverse.mp (List.mem_of_find?_eq_some found), named⟩

theorem trafficRow_email {db : Database} {email : String} {row : ClientTraffic} (here : trafficRow db email = some row) :
    row.email = email := by
  simpa using List.find?_some here

theorem addClientTraffic_row {db db' : Database} {uses : List ClientUse} {now : Int}
    (done : addClientTraffic db uses now = some db') {email : String} {row : ClientTraffic}
    (here : trafficRow db email = some row) :
    ∃ row', trafficRow db' email = some row' ∧
      ∀ isDown, row'.toward isDown = credit (lastUse uses email) row.toward isDown := by
  have own := trafficRow_email here
  unfold addClientTraffic at done
  dsimp only at done
  split at done
  · rename_i nobody
    cases done
    have silent : lastUse uses email = none := by
      cases found : lastUse uses email with
      | none => rfl
      | some t =>
          have polled := List.filter_eq_nil_iff.mp nobody row (List.mem_of_find?_eq_some here)
          rw [own] at polled
          exact absurd (decide_eq_true (lastUse_reported found)) polled
    exact ⟨row, here, fun isDown => by simp [credit, silent, reported]⟩
  · obtain ⟨⟨mid, converted⟩, adjusted, done⟩ := Option.bind_eq_some_iff.mp done
    have same := adjustTraffics_clientTraffics adjusted
    cases done
    show ∃ row', (mid.clientTraffics.map fun row => startRow converted (countRow uses now row)).find?
      (·.email = email) = some row' ∧ _
    rw [find?_map_email (fun row => (startRow_email _ _).trans (countRow_email _ _ _)), same]
    unfold trafficRow at here
    rw [here]
    refine ⟨_, rfl, fun isDown => ?_⟩
    rw [startRow_toward, countRow_toward, own]

theorem commitTraffic_row {db db' : Database} {traffics : List Traffic} {uses : List ClientUse} {clock : Clock}
    {fate : Fate} (done : commitTraffic db traffics uses clock fate = some db') {email : String} {row : ClientTraffic}
    (here : trafficRow db email = some row) :
    ∃ row' skipped maintained, fate = .counted skipped maintained ∧ trafficRow db' email = some row' ∧
      ∀ isDown, row'.toward isDown =
        if email ∈ skipped then row.toward isDown else credit (lastUse uses email) row.toward isDown := by
  cases fate with
  | refused | rolledBack => cases done
  | counted skipped maintained =>
      obtain ⟨counted, committed, rfl⟩ := Option.map_eq_some_iff.mp done
      have start : trafficRow (addInboundTraffic db traffics) email = some row := by
        rw [trafficRow, addInboundTraffic_clientTraffics]
        exact here
      obtain ⟨row', there, toward⟩ := addClientTraffic_row committed start
      have own := trafficRow_email there
      unfold trafficRow skipUpdates
      rw [find?_map_email]
      · unfold trafficRow at there
        rw [there]
        refine ⟨_, skipped, maintained, rfl, rfl, fun isDown => ?_⟩
        unfold trafficRow at here
        rw [skipUpdate, own]
        by_cases failed : email ∈ skipped
        · cases isDown <;> simp [failed, here, ClientTraffic.toward]
        · simp [failed, toward]
      · exact skipUpdate_email skipped db

/-! ## Maintenance -/

theorem disableInvalidClients_held {db db' : Database} {clock : Clock} (done : disableInvalidClients db clock = some db')
    (email : String) (isDown : Bool) : held db' email isDown = held db email isDown := by
  unfold disableInvalidClients at done
  dsimp only at done
  split at done
  · cases done
    rfl
  · obtain ⟨inbounds, -, done⟩ := Option.bind_eq_some_iff.mp done
    cases done
    unfold held trafficRow
    dsimp only
    rw [find?_map_email, Option.map_map]
    · congr 2
      funext row
      dsimp only [Function.comp]
      split <;> rfl
    · intro row
      split <;> rfl

theorem maintain_held {db db' : Database} {clock : Clock} (done : maintain db clock = some db') (email : String)
    (isDown : Bool) :
    ∃ renewed, autoRenewClients db clock = some renewed ∧ held db' email isDown = held renewed email isDown := by
  obtain ⟨renewed, renewing, done⟩ := Option.bind_eq_some_iff.mp done
  obtain ⟨disabled, disabling, done⟩ := Option.bind_eq_some_iff.mp done
  cases done
  exact ⟨renewed, renewing, disableInvalidClients_held disabling email isDown⟩

/-! ## What the counters made and the row shows -/

def Polled.unreset (s : Polled) (email : String) (answer : List (String × Int)) (fate : Fate) (clock : Clock) : Bool :=
  match s.commit answer fate clock with
  | some committed =>
      !fate.maintained || (autoRenewClients committed clock).all fun renewed =>
        decide (∀ isDown, held renewed email isDown = held committed email isDown)
  | none => true

/-- The client exists, is not reset, and no counter but its own reads as one of its counters. -/
def Lives (email : String) (s : Polled) (a : PollAction) : Prop :=
  (trafficRow s.db email).isSome ∧
    match a with
    | .use name _ => Owned email name
    | .edit db => ∀ isDown, held db email isDown = held s.db email isDown
    | .run answer fate clock => s.unreset email answer fate clock = true
    | .restart _ | .unanswered => True

instance (email : String) (s : Polled) : ∀ a, Decidable (Lives email s a)
  | .use name _ => inferInstanceAs (Decidable (_ ∧ Owned email name))
  | .edit db => inferInstanceAs (Decidable (_ ∧ ∀ isDown, held db email isDown = held s.db email isDown))
  | .run answer fate clock => inferInstanceAs (Decidable (_ ∧ s.unreset email answer fate clock = true))
  | .restart _ => inferInstanceAs (Decidable (_ ∧ True))
  | .unanswered => inferInstanceAs (Decidable (_ ∧ True))

def Fate.skipped : Fate → List String
  | .counted skipped _ => skipped
  | _ => []

/-- A query reads all that the client's counters gained, and the transaction behind it counts that in full. -/
def Credited (email : String) (s : Polled) (answer : List (String × Int)) (fate : Fate) (clock : Clock) : Prop :=
  s.last.isEmpty = false ∧ (s.commit answer fate clock).isSome ∧ email ∉ fate.skipped ∧
    ∀ isDown, ¬s.Overtaken (counterName email isDown) ∧
      held s.db email isDown + s.unread (counterName email isDown) ≤ trafficMax

instance (email : String) (s : Polled) (answer : List (String × Int)) (fate : Fate) (clock : Clock) :
    Decidable (Credited email s answer fate clock) := by
  unfold Credited
  infer_instance

/-- From the first query on, a restart of the core and a query whose usage is not counted find the counters unmoved. -/
def Spares (email : String) (s : Polled) : PollAction → Prop
  | .restart _ => s.base.isSome → ∀ isDown, s.unread (counterName email isDown) = 0
  | .run answer fate clock =>
      s.base.isSome → (∀ isDown, s.unread (counterName email isDown) = 0) ∨ Credited email s answer fate clock
  | _ => True

instance (email : String) (s : Polled) : ∀ a, Decidable (Spares email s a)
  | .restart _ => inferInstanceAs (Decidable (_ → ∀ isDown, s.unread (counterName email isDown) = 0))
  | .run answer fate clock =>
      inferInstanceAs (Decidable
        (_ → (∀ isDown, s.unread (counterName email isDown) = 0) ∨ Credited email s answer fate clock))
  | .use _ _ => inferInstanceAs (Decidable True)
  | .edit _ => inferInstanceAs (Decidable True)
  | .unanswered => inferInstanceAs (Decidable True)

def Accounted (email : String) (s : Polled) : Prop :=
  ∃ base, s.base = some base ∧
    ∀ isDown, held s.db email isDown = held base email isDown + s.made (counterName email isDown)

structure Metered (email : String) (s : Polled) : Prop where
  owned : ∀ name : String, s.stats[name]?.isSome → Owned email name
  nonneg : ∀ (name : String) (value : Int), s.stats[name]? = some value → 0 ≤ value
  old : ∀ (name : String) (last : Int), s.last[name]? = some last → 0 ≤ last
  known : ∀ (name : String) (read : Int), s.read[name]? = some read →
    s.last[name]? = some read ∧ ∃ value, s.stats[name]? = some value ∧ read ≤ value
  unasked : s.base = none → s.last = ∅ ∧ s.made = fun _ => 0

/-- What the counters made and the row of the client will never show. -/
def missing (email : String) (s : Polled) (isDown : Bool) : Int :=
  match s.base with
  | some base =>
      held base email isDown + s.made (counterName email isDown) - held s.db email isDown -
        s.unread (counterName email isDown)
  | none => 0

theorem Metered.unread_nonneg {email : String} {s : Polled} (metered : Metered email s) (name : String) : 0 ≤ s.unread name := by
  unfold Polled.unread
  cases read : s.read[name]? with
  | none =>
      cases here : s.stats[name]? with
      | none => exact le_refl 0
      | some value => simpa using metered.nonneg name value here
  | some r =>
      obtain ⟨-, value, here, le⟩ := metered.known name r read
      simpa [here] using le

theorem Metered.reading_unread {email : String} {s : Polled} (metered : Metered email s) (name : String) :
    0 ≤ s.reading name ∧ s.reading name ≤ s.unread name ∧ (s.reading name = s.unread name ↔ ¬s.Overtaken name) := by
  unfold Polled.reading Polled.unread Polled.Overtaken accrued
  cases read : s.read[name]? with
  | some r =>
      obtain ⟨before, value, here, le⟩ := metered.known name r read
      simp only [before, here, Option.getD_some, if_neg (not_lt.mpr le)]
      simpa using le
  | none =>
      cases here : s.stats[name]? with
      | none =>
          simp only [Option.getD_none, Option.mem_def, sub_zero, le_refl, true_and, true_iff]
          rintro ⟨last, -, positive, le⟩
          omega
      | some value =>
          have positive := metered.nonneg name value here
          cases before : s.last[name]? with
          | none => simpa using positive
          | some last =>
              have old := metered.old name last before
              simp only [Option.getD_some, Option.getD_none, Option.mem_def, Option.some.injEq, exists_eq_left', true_and]
              split <;> omega

theorem run_next {s t : Polled} {answer : List (String × Int)} {fate : Fate} {clock : Clock}
    (step : s.next (.run answer fate clock) = some t) :
    answer.Perm s.stats.toList ∧
      t = { s with
        last := (getTraffic s.last answer).1
        read := s.stats
        db := s.addTraffic answer fate clock
        base := s.base.or (some s.db) } := by
  simp only [Polled.next] at step
  split at step
  · rename_i whole
    cases step
    exact ⟨List.isPerm_iff.mp whole, rfl⟩
  · cases step

theorem run_held {email : String} (plain : Plain email) {s t : Polled} (metered : Metered email s)
    {answer : List (String × Int)} {fate : Fate} {clock : Clock} (lives : Lives email s (.run answer fate clock))
    (step : s.next (.run answer fate clock) = some t) (isDown : Bool) :
    held t.db email isDown =
      if (s.commit answer fate clock).isSome ∧ email ∉ fate.skipped ∧ s.last.isEmpty = false ∧
          ¬(∀ isDown, s.reading (counterName email isDown) = 0) then
        clampedAdd (held s.db email isDown) (s.reading (counterName email isDown))
      else held s.db email isDown := by
  obtain ⟨there, unreset⟩ := lives
  obtain ⟨row, here⟩ := Option.isSome_iff_exists.mp there
  have before : ∀ isDown, held s.db email isDown = row.toward isDown := fun isDown => by simp [held, here]
  obtain ⟨whole, rfl⟩ := run_next step
  show held (s.addTraffic answer fate clock) email isDown = _
  unfold Polled.addTraffic Panel.addTraffic
  dsimp only [Polled.unreset] at unreset
  change held (match s.commit answer fate clock with
    | some committed => if fate.maintained then (maintain committed clock).getD committed else committed
    | none => s.db) email isDown = _
  cases committed : s.commit answer fate clock with
  | none => simp
  | some counted =>
      rw [committed] at unreset
      dsimp only at unreset
      obtain ⟨row', skipped, maintained, rfl, there, toward⟩ := commitTraffic_row committed here
      have now : held counted email isDown = row'.toward isDown := by simp [held, there]
      have kept : held (if (Fate.counted skipped maintained).maintained then (maintain counted clock).getD counted
          else counted) email isDown = row'.toward isDown := by
        cases maintained with
        | false => exact now
        | true =>
            cases done : maintain counted clock with
            | none => simpa [Fate.maintained, done] using now
            | some final =>
                obtain ⟨renewed, renewing, same⟩ := maintain_held done email isDown
                rw [renewing] at unreset
                have keeps : ∀ isDown, held renewed email isDown = held counted email isDown := by
                  simpa [Fate.maintained] using unreset
                simpa [Fate.maintained, done, same, keeps] using now
      have toward : ∀ isDown, row'.toward isDown = if email ∈ skipped then row.toward isDown
          else credit (lastUse (getTraffic s.last answer).2.2 email) row.toward isDown := toward
      have reads := query_reported whole plain metered.owned
      dsimp only
      rw [kept, toward, before]
      by_cases failed : email ∈ skipped
      · simp [failed, Fate.skipped]
      · rw [if_neg failed, credit, reads, reads, reads]
        cases s.last.isEmpty with
        | true => simp
        | false =>
            simp only [Bool.false_eq_true, if_false]
            by_cases idle : ∀ isDown, s.reading (counterName email isDown) = 0
            · simp [idle]
            · have moved : ¬(s.reading (counterName email false) = 0 ∧ s.reading (counterName email true) = 0) :=
                fun both => idle (Bool.forall_bool.mpr both)
              rw [if_neg moved, if_pos ⟨rfl, failed, trivial, idle⟩]

theorem clampedAdd_le (before delta : Int) : clampedAdd before delta ≤ before + delta := min_le_left _ _

theorem clampedAdd_eq {before delta : Int} : clampedAdd before delta = before + delta ↔ before + delta ≤ trafficMax := by
  rw [clampedAdd, min_eq_left_iff]

theorem unread_queried {s : Polled} (asked : s.read = s.stats) (name : String) : s.unread name = 0 := by
  rw [Polled.unread, asked, sub_self]

theorem unread_use (s : Polled) (used : String) (amount : Nat)
    (made : String → Int) (name : String) :
    ({ s with stats := s.stats.insert used (s.stats[used]?.getD 0 + amount), made := made } : Polled).unread name =
      s.unread name + if used = name then (amount : Int) else 0 := by
  unfold Polled.unread
  dsimp only
  rw [Std.ExtTreeMap.getElem?_insert]
  by_cases same : used = name
  · subst same
    simp only [Std.compare_eq_iff_eq, if_true, Option.getD_some]
    omega
  · simp [same]

theorem metered_use {email : String} {s : Polled} (metered : Metered email s) {used : String} (owned : Owned email used)
    (amount : Nat) :
    Metered email { s with
      stats := s.stats.insert used (s.stats[used]?.getD 0 + amount)
      made := if s.base.isSome then Function.update s.made used (s.made used + amount) else s.made } := by
  constructor
  · intro name there
    dsimp only at there
    by_cases same : used = name
    · exact same ▸ owned
    · rw [Std.ExtTreeMap.getElem?_insert, if_neg (by simpa using same)] at there
      exact metered.owned name there
  · intro name value here
    dsimp only at here
    rw [Std.ExtTreeMap.getElem?_insert] at here
    split at here
    · cases here
      cases before : s.stats[used]? with
      | none => simp
      | some value =>
          have positive := metered.nonneg used value before
          simp only [Option.getD_some]
          omega
    · exact metered.nonneg name value here
  · exact metered.old
  · intro name read known
    obtain ⟨before, value, here, le⟩ := metered.known name read known
    refine ⟨before, ?_⟩
    dsimp only
    rw [Std.ExtTreeMap.getElem?_insert]
    by_cases same : used = name
    · subst same
      refine ⟨_, if_pos (by simp), ?_⟩
      rw [here, Option.getD_some]
      omega
    · exact ⟨value, by rw [if_neg (by simpa using same), here], le⟩
  · intro fresh
    dsimp only at fresh ⊢
    rw [fresh]
    exact metered.unasked fresh

theorem metered_run {email : String} {s t : Polled} (metered : Metered email s) {answer : List (String × Int)} {fate : Fate}
    {clock : Clock} (step : s.next (.run answer fate clock) = some t) : Metered email t := by
  obtain ⟨whole, rfl⟩ := run_next step
  constructor
  · exact metered.owned
  · exact metered.nonneg
  · intro name last before
    dsimp only at before
    cases here : s.stats[name]? with
    | some value =>
        rw [query_last whole name value here] at before
        cases before
        exact metered.nonneg name last here
    | none =>
        rcases query_last_absent whole name here with same | dropped
        · exact metered.old name last (same ▸ before)
        · rw [dropped] at before
          cases before
  · intro name read here
    dsimp only at here ⊢
    exact ⟨query_last whole name read here, read, here, le_refl _⟩
  · intro fresh
    dsimp only at fresh
    cases started : s.base <;> rw [started] at fresh <;> cases fresh

theorem step_missing {email : String} (plain : Plain email) {s t : Polled} {a : PollAction} (metered : Metered email s)
    (lives : Lives email s a) (step : s.next a = some t) :
    Metered email t ∧ (∀ isDown, missing email s isDown ≤ missing email t isDown) ∧
      (Spares email s a ↔ ∀ isDown, missing email t isDown = missing email s isDown) := by
  cases a with
  | use name amount =>
      cases step
      have same : ∀ isDown, missing email { s with
          stats := s.stats.insert name (s.stats[name]?.getD 0 + amount)
          made := if s.base.isSome then Function.update s.made name (s.made name + amount) else s.made } isDown =
            missing email s isDown := by
        intro isDown
        unfold missing
        rw [unread_use]
        cases s.base with
        | none => rfl
        | some base =>
            by_cases own : name = counterName email isDown
            · subst own
              simp
              omega
            · simp [own, Function.update_of_ne (Ne.symm own)]
      exact ⟨metered_use metered lives.2 amount, fun isDown => (same isDown).ge, iff_of_true trivial same⟩
  | restart byJob =>
      cases step
      have lost : ∀ isDown, missing email
          { s with stats := ∅, last := if byJob then ∅ else s.last, read := ∅ } isDown =
          missing email s isDown + if s.base.isSome then s.unread (counterName email isDown) else 0 := by
        intro isDown
        unfold missing
        cases s.base with
        | none => simp
        | some base => simp [Polled.unread]
      have positive := fun isDown => metered.unread_nonneg (counterName email isDown)
      refine ⟨⟨by simp, by simp, ?_, by simp, fun fresh => ⟨?_, (metered.unasked fresh).2⟩⟩, ?_, ?_⟩
      · intro name last before
        cases byJob with
        | true => simp at before
        | false => exact metered.old name last before
      · cases byJob with
        | true => rfl
        | false => exact (metered.unasked fresh).1
      · intro isDown
        rw [lost]
        have := positive isDown
        split <;> omega
      · simp only [lost, Spares]
        cases s.base.isSome <;> simp
  | edit db =>
      cases step
      have same : ∀ isDown, missing email { s with db := db } isDown = missing email s isDown := by
        intro isDown
        unfold missing
        cases s.base with
        | none => rfl
        | some base =>
            dsimp only
            rw [lives.2 isDown]
            rfl
      exact ⟨⟨metered.owned, metered.nonneg, metered.old, metered.known, metered.unasked⟩, fun isDown => (same isDown).ge,
        iff_of_true trivial same⟩
  | unanswered =>
      cases step
      exact ⟨metered, fun _ => le_refl _, iff_of_true trivial fun _ => rfl⟩
  | run answer fate clock =>
      have kept := run_held plain metered lives step
      have metered' := metered_run metered step
      obtain ⟨whole, shape⟩ := run_next step
      have read : ∀ name, t.unread name = 0 := unread_queried (by rw [shape])
      have made : t.made = s.made := by rw [shape]
      have positive := fun isDown => metered.unread_nonneg (counterName email isDown)
      refine ⟨metered', ?_⟩
      cases started : s.base with
      | none =>
          obtain ⟨first, fresh⟩ := metered.unasked started
          have base : t.base = some s.db := by rw [shape, started]; rfl
          have same : ∀ isDown, missing email t isDown = missing email s isDown := by
            intro isDown
            rw [missing, missing, base, started]
            dsimp only
            rw [kept, made, fresh, read, first]
            simp
          exact ⟨fun isDown => (same isDown).ge, iff_of_true (fun asked => by simp [started] at asked) same⟩
      | some base =>
          have base' : t.base = some base := by rw [shape, started]; rfl
          have lost : ∀ isDown, missing email t isDown =
              missing email s isDown +
                (held s.db email isDown + s.unread (counterName email isDown) - held t.db email isDown) := by
            intro isDown
            rw [missing, missing, base', started]
            dsimp only
            rw [made, read]
            omega
          have spares : Spares email s (.run answer fate clock) ↔
              (∀ isDown, s.unread (counterName email isDown) = 0) ∨ Credited email s answer fate clock := by
            simp [Spares, started]
          rw [spares]
          have reads := fun isDown => metered.reading_unread (counterName email isDown)
          by_cases taken : (s.commit answer fate clock).isSome ∧ email ∉ fate.skipped ∧ s.last.isEmpty = false ∧
              ¬(∀ isDown, s.reading (counterName email isDown) = 0)
          · have now : ∀ isDown, held t.db email isDown =
                clampedAdd (held s.db email isDown) (s.reading (counterName email isDown)) := fun isDown => by
              rw [kept, if_pos taken]
            have moved : ¬∀ isDown, s.unread (counterName email isDown) = 0 := fun zero => taken.2.2.2 fun isDown => by
              have := reads isDown
              have := zero isDown
              omega
            constructor
            · intro isDown
              have le := clampedAdd_le (held s.db email isDown) (s.reading (counterName email isDown))
              have := reads isDown
              rw [lost, now]
              omega
            · rw [or_iff_right moved]
              constructor
              · intro credited isDown
                obtain ⟨current, fits⟩ := credited.2.2.2 isDown
                rw [lost, now, (reads isDown).2.2.mpr current, clampedAdd_eq.mpr fits]
                omega
              · intro same
                refine ⟨taken.2.2.1, taken.1, taken.2.1, fun isDown => ?_⟩
                have le := clampedAdd_le (held s.db email isDown) (s.reading (counterName email isDown))
                have all := same isDown
                rw [lost, now] at all
                have whole : s.reading (counterName email isDown) = s.unread (counterName email isDown) := by
                  have := reads isDown
                  omega
                refine ⟨(reads isDown).2.2.mp whole, clampedAdd_eq.mp ?_⟩
                rw [whole] at all
                omega
          · have now : ∀ isDown, held t.db email isDown = held s.db email isDown := fun isDown => by
              rw [kept, if_neg taken]
            constructor
            · intro isDown
              have := positive isDown
              rw [lost, now]
              omega
            · have whenZero : (∀ isDown, missing email t isDown = missing email s isDown) ↔
                  ∀ isDown, s.unread (counterName email isDown) = 0 := by
                apply forall_congr'
                intro isDown
                rw [lost, now]
                omega
              rw [whenZero]
              constructor
              · rintro (zero | credited)
                · exact zero
                · by_contra moved
                  refine taken ⟨credited.2.1, credited.2.2.1, credited.1, fun idle => moved fun isDown => ?_⟩
                  rw [← (reads isDown).2.2.mpr (credited.2.2.2 isDown).1]
                  exact idle isDown
              · exact Or.inl

/-! ## Runs -/

theorem metered_start {email : String} {stats : Counters} {db : Database}
    (owned : ∀ name : String, stats[name]?.isSome → Owned email name)
    (nonneg : ∀ (name : String) (value : Int), stats[name]? = some value → 0 ≤ value) :
    Metered email { stats := stats, db := db } :=
  ⟨owned, nonneg, by simp, by simp, fun _ => ⟨rfl, rfl⟩⟩

theorem path_missing {email : String} (plain : Plain email) {s t : Polled} (metered : Metered email s)
    (run : polls.Path (Lives email) s t) :
    Metered email t ∧ ∀ isDown, missing email s isDown ≤ missing email t isDown := by
  induction run with
  | refl => exact ⟨metered, fun _ => le_refl _⟩
  | tail _ lives step ih =>
      obtain ⟨metered', more, -⟩ := step_missing plain ih.1 lives step
      exact ⟨metered', fun isDown => (ih.2 isDown).trans (more isDown)⟩

theorem path_spared {email : String} (plain : Plain email) {s t : Polled} (metered : Metered email s)
    (run : polls.Path (fun s a => Lives email s a ∧ Spares email s a) s t) :
    Metered email t ∧ ∀ isDown, missing email t isDown = missing email s isDown := by
  induction run with
  | refl => exact ⟨metered, fun _ => rfl⟩
  | tail _ good step ih =>
      obtain ⟨metered', -, same⟩ := step_missing plain ih.1 good.1 step
      exact ⟨metered', fun isDown => (same.mp good.2 isDown).trans (ih.2 isDown)⟩

theorem Accounted.missing_le {email : String} {s : Polled} (metered : Metered email s) (accounted : Accounted email s)
    (isDown : Bool) : missing email s isDown ≤ 0 := by
  obtain ⟨base, started, grown⟩ := accounted
  have positive := metered.unread_nonneg (counterName email isDown)
  have now := grown isDown
  rw [missing, started]
  dsimp only
  omega

/-- For a client that exists throughout and is not reset, runs in which every step spares its counters account for all of
their growth at every answered query, and once a step did not, the growth is never made up for. -/
theorem local_usage (email : String) (plain : Plain email) (stats : Counters) (db : Database)
    (owned : ∀ name : String, stats[name]?.isSome → Owned email name)
    (nonneg : ∀ (name : String) (value : Int), stats[name]? = some value → 0 ≤ value) :
    (∀ s t answer fate clock,
      polls.Path (fun s a => Lives email s a ∧ Spares email s a) { stats := stats, db := db } s →
      Lives email s (.run answer fate clock) → Spares email s (.run answer fate clock) →
      polls.next s (.run answer fate clock) = some t → Accounted email t) ∧
    ∀ s a t u, polls.Path (Lives email) { stats := stats, db := db } s → Lives email s a → ¬Spares email s a →
      polls.next s a = some t → polls.Path (Lives email) t u → ¬Accounted email u := by
  have start := @metered_start email stats db owned nonneg
  have zero : ∀ isDown, missing email { stats := stats, db := db } isDown = 0 := fun _ => rfl
  constructor
  · intro s t answer fate clock run lives spares step
    obtain ⟨metered, kept⟩ := path_spared plain start run
    obtain ⟨-, -, same⟩ := step_missing plain metered lives step
    obtain ⟨whole, shape⟩ := run_next step
    have nothing : ∀ isDown, missing email t isDown = 0 := fun isDown => by
      rw [same.mp spares isDown, kept, zero]
    have read : ∀ name, t.unread name = 0 := unread_queried (by rw [shape])
    obtain ⟨base, started⟩ : ∃ base, t.base = some base := by
      rw [shape]
      cases s.base with
      | none => exact ⟨_, rfl⟩
      | some base => exact ⟨base, rfl⟩
    refine ⟨base, started, fun isDown => ?_⟩
    have balance := nothing isDown
    rw [missing, started] at balance
    dsimp only at balance
    rw [read] at balance
    omega
  · intro s a t u run lives loses step rest accounted
    obtain ⟨metered, kept⟩ := path_missing plain start run
    obtain ⟨metered', more, same⟩ := step_missing plain metered lives step
    obtain ⟨metered'', later⟩ := path_missing plain metered' rest
    apply loses
    rw [same]
    intro isDown
    have := kept isDown
    have := more isDown
    have := later isDown
    have := accounted.missing_le metered'' isDown
    rw [zero] at *
    omega

def polledRow : ClientTraffic where
  inboundId := 1
  enable := true
  email := "anna"
  up := 7
  down := 0
  expiryTime := 0
  total := 0
  reset := 0
  resetDay := 0
  resetMax := 0
  resetCount := 0
  lastOnline := 0

def polledDatabase : Database where
  panelGuid := "panel"
  nodes := []
  inbounds := []
  nextInboundId := 1
  clients := []
  nextClientId := 1
  clientInbounds := []
  clientTraffics := [polledRow]
  nodeClientTraffics := []
  clientGlobalTraffics := []

def polledClock : Clock where
  now := 1000
  nowSeconds := 1000
  fresh := fun _ => true
  nextCalendarRenewal := fun expiry _ => expiry + 1

def officeStat : String := "inbound>>>office>>>traffic>>>uplink"

def officeStats : Counters := (∅ : Counters).insert officeStat 5

theorem officeStats_owned (name : String) (there : officeStats[name]?.isSome) : Owned "anna" name := by
  rw [officeStats, Std.ExtTreeMap.getElem?_insert] at there
  split at there
  · rename_i same
    have same : officeStat = name := by simpa using same
    rw [← same]
    decide +kernel
  · simp at there

theorem officeStats_nonneg (name : String) (value : Int) (here : officeStats[name]? = some value) : 0 ≤ value := by
  rw [officeStats, Std.ExtTreeMap.getElem?_insert] at here
  split at here
  · cases here
    decide
  · simp at here

/-- A query, 100 bytes up, and a run whose traffic is counted. -/
theorem local_usage_counted : ∃ t, Accounted "anna" t ∧ held t.db "anna" false = 107 := by
  let before : List PollAction :=
    [.run [(officeStat, 5)] (.counted [] true) polledClock, .use (counterName "anna" false) 100]
  let answer : List (String × Int) := [(counterName "anna" false, 100), (officeStat, 5)]
  let start : Polled := { stats := officeStats, db := polledDatabase }
  let last : PollAction := .run answer (.counted [] true) polledClock
  let good : Polled → PollAction → Prop := fun s a => Lives "anna" s a ∧ Spares "anna" s a
  have runs : (polls.runWith good start before).isSome = true := by decide +kernel
  have facts (h) : (fun s : Polled => good s last ∧ (polls.next s last).isSome = true ∧
      ((polls.next s last).map fun t => held t.db "anna" false) = some 107)
      ((polls.runWith good start before).get h) := by
    revert h
    decide +kernel
  obtain ⟨fine, steps, count⟩ := facts runs
  obtain ⟨t, step⟩ := Option.isSome_iff_exists.mp steps
  rw [step] at count
  have accounts := local_usage "anna" ⟨by decide, by decide⟩ officeStats polledDatabase officeStats_owned officeStats_nonneg
  exact ⟨t, accounts.1 _ t _ _ _ (System.runWith_path (Option.some_get runs).symm) fine.1 fine.2 step, Option.some.inj count⟩

/-- The same usage, met by a full queue first: the run after it counts none of it. -/
theorem refused_usage_lost : ∃ s t answer clock,
    polls.Path (Lives "anna") { stats := officeStats, db := polledDatabase } s ∧
    (s.commit answer (.counted [] true) clock).isSome = true ∧ Lives "anna" s (.run answer (.counted [] true) clock) ∧
    polls.next s (.run answer (.counted [] true) clock) = some t ∧ t.made (counterName "anna" false) = 100 ∧
    held t.db "anna" false = held polledDatabase "anna" false ∧ ¬Accounted "anna" t := by
  let answer : List (String × Int) := [(counterName "anna" false, 100), (officeStat, 5)]
  let before : List PollAction :=
    [.run [(officeStat, 5)] (.counted [] true) polledClock, .use (counterName "anna" false) 100, .run answer .refused polledClock]
  let start : Polled := { stats := officeStats, db := polledDatabase }
  let last : PollAction := .run answer (.counted [] true) polledClock
  have runs : (polls.runWith (Lives "anna") start before).isSome = true := by decide +kernel
  have facts (h) : (fun s : Polled => (s.commit answer (.counted [] true) polledClock).isSome = true ∧ Lives "anna" s last ∧
      (polls.next s last).isSome = true ∧
      ((polls.next s last).map fun t => (t.made (counterName "anna" false), held t.db "anna" false,
        t.base.map fun base => held base "anna" false)) = some (100, 7, some 7))
      ((polls.runWith (Lives "anna") start before).get h) := by
    revert h
    decide +kernel
  obtain ⟨committed, lives, steps, counts⟩ := facts runs
  obtain ⟨t, step⟩ := Option.isSome_iff_exists.mp steps
  rw [step] at counts
  obtain ⟨made, kept, started⟩ : t.made (counterName "anna" false) = 100 ∧ held t.db "anna" false = 7 ∧
      (t.base.map fun base => held base "anna" false) = some 7 := by simpa using counts
  refine ⟨_, t, answer, polledClock, System.runWith_path (Option.some_get runs).symm, committed, lives, step, made, kept,
    ?_⟩
  rintro ⟨base, here, grown⟩
  have balance := grown false
  rw [here] at started
  have seven : held base "anna" false = 7 := by simpa using started
  omega

end ThreeXNode.Panel
