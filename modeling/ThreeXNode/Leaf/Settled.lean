import ThreeXNode.Leaf.Core
import ThreeXNode.Leaf.Growth
import ThreeXNode.Leaf.Table

namespace ThreeXNode.Leaf
open Library State

/-- A state in which nothing is left for a sample at `now` to switch off or to forget. -/
structure State.Settled (now : Int) (s : State) : Prop where
  inbounds : ∀ ib ∈ s.inbounds, ib.spent now → ib.enable = false
  clients : ∀ (email : String) (t : Traffic), s.traffic[email]? = some t → t.enable = true → s.exhausted t now = false
  recent : ∀ (master : String) (rows : Rows), s.globals[master]? = some rows →
    ∀ (email : String) (g : Global), rows[email]? = some g → wrap64 (now - globalLifetime) ≤ g.updatedAt

theorem exhausted_iff {s : State} {t : Traffic} {now : Int} (range : InInt64 t.total) :
    s.exhausted t now = true ↔ (t.expiryTime > 0 ∧ t.expiryTime ≤ now) ∨ (0 < t.total ∧
      (t.up ≥ wrap64 (t.total - t.down) ∨ ∃ (master : String) (rows : Rows) (g : Global),
        s.globals[master]? = some rows ∧ rows[t.email]? = some g ∧
          g.updatedAt ≥ wrap64 (now - globalLifetime) ∧ g.up ≥ wrap64 (t.total - g.down))) := by
  unfold State.exhausted
  by_cases expired : t.expiryTime > 0 ∧ t.expiryTime ≤ now
  · simp [expired]
  by_cases unlimited : t.total ≤ 0
  · simp [expired, unlimited, not_lt.mpr unlimited]
  by_cases used : t.up ≥ wrap64 (t.total - t.down)
  · simp [expired, unlimited, used, not_le.mp unlimited]
  simp only [expired, ↓reduceIte, unlimited, used, List.any_eq_true, decide_eq_true_eq, Prod.exists,
    Std.ExtTreeMap.mem_toList_iff_getElem?_eq_some, false_or, not_le.mp unlimited, true_and]
  constructor
  · rintro ⟨master, rows, found, recent, reached⟩
    cases row : rows[t.email]? with
    | some g => exact ⟨master, rows, g, found, row, by simpa [row] using recent, by simpa [row] using reached⟩
    | none =>
        -- A client the master says nothing of counts as unused, and an unused quota is not reached.
        simp only [row, Option.getD_none, sub_zero, wrap64_eq range] at reached
        omega
  · rintro ⟨master, rows, g, found, row, recent, reached⟩
    exact ⟨master, rows, found, by simpa [row] using recent, by simpa [row] using reached⟩

theorem exhausted_congr {s t : State} (same : s.globals = t.globals) (row : Traffic) (now : Int) :
    s.exhausted row now = t.exhausted row now := by
  simp only [State.exhausted, same]

theorem disableExhausted_globals (s : State) (now : Int) (email : String) :
    (s.disableExhausted now email).globals = s.globals := by
  unfold State.disableExhausted State.disableClient
  repeat' split
  all_goals rfl

theorem disableExhausted_row {s : State} {now : Int} {email other : String} (apart : other ≠ email) :
    (s.disableExhausted now email).traffic[other]? = s.traffic[other]? := by
  unfold State.disableExhausted
  split
  · split
    · simp [State.disableClient, Std.ExtTreeMap.getElem?_insert, apart.symm]
    · rfl
  · rfl

theorem disableExhausted_settles {s : State} {now : Int} {email : String} {t : Traffic}
    (found : (s.disableExhausted now email).traffic[email]? = some t) (enabled : t.enable = true) :
    s.exhausted t now = false := by
  unfold State.disableExhausted at found
  cases row : s.traffic[email]? with
  | none => simp [row] at found
  | some u =>
      simp only [row] at found
      split at found
      · simp only [State.disableClient, setClientField_traffic, Std.ExtTreeMap.getElem?_insert_self,
          Option.some.injEq] at found
        rw [← found] at enabled
        cases enabled
      · rename_i stays
        rw [row] at found
        cases found
        simpa [enabled] using stays

theorem disableExhausted_loop (s : State) (now : Int) :
    let t := s.traffic.keys.foldl (State.disableExhausted now) s
    t.globals = s.globals ∧ ∀ (email : String) (row : Traffic), t.traffic[email]? = some row → row.enable = true →
      s.exhausted row now = false := by
  have kept := foldl_keeps (fun done t => t.globals = s.globals ∧ (∀ email : String, email ∈ t.traffic ↔ email ∈ s.traffic) ∧
      ∀ email ∈ done, ∀ row : Traffic, t.traffic[email]? = some row → row.enable = true → s.exhausted row now = false)
    (f := State.disableExhausted now) (s := s) s.traffic.keys ⟨rfl, fun _ => Iff.rfl, by simp⟩ ?_
  · refine ⟨kept.1, fun email row found enabled => kept.2.2 email ?_ row found enabled⟩
    rw [Std.ExtTreeMap.mem_keys, ← kept.2.1, mem_iff_some]
    exact ⟨row, found⟩
  · rintro done email t _ ⟨globals, same, settled⟩
    refine ⟨(disableExhausted_globals t now email).trans globals,
      fun other => ((disableExhausted_grows t now email).mem other).trans (same other), ?_⟩
    intro other mem row found enabled
    by_cases this : other = email
    · subst this
      rw [← exhausted_congr globals]
      exact disableExhausted_settles found enabled
    · rw [disableExhausted_row this] at found
      rcases List.mem_append.mp mem with mem | mem
      · exact settled other mem row found enabled
      · exact absurd (List.mem_singleton.mp mem) this

theorem total_range {s : State} (m : s.Mirrored) {email : String} {t : Traffic} (found : s.traffic[email]? = some t) :
    InInt64 t.total := by
  obtain ⟨c, there, rfl⟩ := m.owner email (mem_iff_some.mpr ⟨t, found⟩)
  obtain ⟨row, here, shows⟩ := m.shown c there
  rw [found] at here
  cases here
  rw [shows.total]
  exact Fields.number_range c "totalGB"

theorem sampled_settled {s : State} (m : s.Mirrored) (baseline : Baseline) (values : Values) (now : Int) :
    (s.sampled baseline values now).Settled now := by
  have mirrored := m.sampled baseline values now
  let read := values.foldl (State.credit now baseline) s
  let t := read.traffic.keys.foldl (State.disableExhausted now) read
  obtain ⟨globals, settled⟩ := disableExhausted_loop read now
  have sampled : s.sampled baseline values now = (t.stopSpent now).purgeGlobals now := rfl
  refine ⟨?_, ?_, ?_⟩
  · intro ib mem spent
    obtain ⟨old, _, rfl⟩ := List.mem_map.mp mem
    by_cases reached : old.spent now
    · simp [reached]
    · simp only [reached, ↓reduceIte] at spent
  · intro email row found enabled
    have before := settled email row found enabled
    by_contra reached
    rw [Bool.not_eq_false, exhausted_iff (total_range mirrored found)] at reached
    have again : read.exhausted row now = true := by
      refine (exhausted_iff (total_range mirrored found)).mpr
        (reached.imp_right (And.imp_right (Or.imp_right ?_)))
      rintro ⟨master, rows, g, there, row, recent, quota⟩
      obtain ⟨old, was, rfl⟩ := purgeGlobals_sub there
      rw [Std.ExtTreeMap.getElem?_filter', Option.filter_eq_some_iff] at row
      exact ⟨master, old, g, globals ▸ was, row.1, recent, quota⟩
    rw [before] at again
    cases again
  · intro master rows found email g row
    obtain ⟨old, _, rfl⟩ := purgeGlobals_sub found
    rw [Std.ExtTreeMap.getElem?_filter', Option.filter_eq_some_iff] at row
    simpa using row.2

theorem exhausted_mono {s : State} {t : Traffic} {asOf now : Int} (settled : s.Settled now) (range : InInt64 t.total)
    (le : asOf ≤ now) (before : s.exhausted t asOf = true) :
    s.exhausted t now = true := by
  rw [exhausted_iff range] at before ⊢
  rcases before with ⟨deadline, past⟩ | ⟨quota, used | ⟨master, rows, g, found, row, recent, reached⟩⟩
  · exact .inl ⟨deadline, past.trans le⟩
  · exact .inr ⟨quota, .inl used⟩
  · exact .inr ⟨quota, .inr ⟨master, rows, g, found, row, settled.recent master rows found t.email g row, reached⟩⟩

theorem State.Settled.desired_eq {s : State} {asOf now : Int} (settled : s.Settled now) (m : s.Mirrored)
    (le : asOf ≤ now) : s.desired asOf = s.desired now := by
  have serves : ∀ c ∈ entries s.inbounds, s.serves asOf c = s.serves now c := by
    intro c there
    obtain ⟨t, found, shows⟩ := m.shown c there
    simp only [State.serves, found]
    cases enabled : c.enabled "enable" with
    | false => rfl
    | true =>
        have fresh := settled.clients _ t found (shows.enable.trans enabled)
        have before : s.exhausted t asOf = false := by
          by_contra was
          rw [exhausted_mono settled (total_range m found) le (by simpa using was)] at fresh
          cases fresh
        rw [before, fresh]
  have users : ∀ ib ∈ s.inbounds, s.users asOf ib = s.users now ib := by
    intro ib mem
    unfold State.users
    apply List.foldl_ext
    intro users c there
    rw [serves c (mem_entries.mpr ⟨ib, mem, there⟩)]
  unfold State.desired
  apply List.filterMap_congr
  intro ib mem
  have same : s.liveInbound asOf ib = s.liveInbound now ib := by
    simp only [State.liveInbound, users ib mem]
  by_cases enabled : ib.enable = false
  · simp [enabled]
  · have fresh : ¬ib.spent now := fun spent => enabled (settled.inbounds ib mem spent)
    have before : ¬ib.spent asOf := by
      rintro (used | ⟨deadline, past⟩)
      · exact fresh (.inl used)
      · exact fresh (.inr ⟨deadline, past.trans le⟩)
    simp [enabled, fresh, before, same]

end ThreeXNode.Leaf
