import ThreeXNode.Leaf.Types
import ThreeXNode.Library.Maps

namespace ThreeXNode.Leaf
open Library

structure Traffic.Shows (t : Traffic) (c : Client) : Prop where
  uuid : t.uuid = c.text "id"
  enable : t.enable = c.enabled "enable"
  total : t.total = c.number "totalGB"
  expiryTime : t.expiryTime = c.number "expiryTime"

structure Traffic.SameUse (t u : Traffic) : Prop where
  id : t.id = u.id
  email : t.email = u.email
  up : t.up = u.up
  down : t.down = u.down
  lastOnline : t.lastOnline = u.lastOnline

theorem Traffic.SameUse.trans {t u v : Traffic} (front : t.SameUse u) (back : u.SameUse v) : t.SameUse v :=
  ⟨front.id.trans back.id, front.email.trans back.email, front.up.trans back.up, front.down.trans back.down,
    front.lastOnline.trans back.lastOnline⟩

namespace State

theorem syncRow_shows (ib : Int) (t : Traffic) (c : Client) : (syncRow ib t c).Shows c :=
  ⟨rfl, rfl, rfl, rfl⟩

theorem syncRow_sameUse (ib : Int) (t : Traffic) (c : Client) : (syncRow ib t c).SameUse t :=
  ⟨rfl, rfl, rfl, rfl, rfl⟩

/-- Where a row comes from: the table `SyncClients` found, or a new row of the client's own. -/
def RowFrom (old : Std.ExtTreeMap String Traffic) (lo hi : Int) (email : String) (t : Traffic) : Prop :=
  (∃ u, old[email]? = some u ∧ t.SameUse u) ∨
    (old[email]? = none ∧ t.email = email ∧ t.up = 0 ∧ t.down = 0 ∧ lo ≤ t.id ∧ t.id < hi)

theorem RowFrom.mono {old : Std.ExtTreeMap String Traffic} {lo hi hi' : Int} {email : String} {t : Traffic}
    (origin : RowFrom old lo hi email t) (le : hi ≤ hi') : RowFrom old lo hi' email t := by
  rcases origin with found | ⟨none, own, up, down, low, high⟩
  · exact .inl found
  · exact .inr ⟨none, own, up, down, low, high.trans_le le⟩

/-- What the loop of `SyncClients` has established after the entries `done`. -/
structure Sync.Inv (old : Std.ExtTreeMap String Traffic) (next : Int) (done : List Client) (w : Sync) : Prop where
  shown : ∀ c ∈ done, ∃ t, w.traffic[c.text "email"]? = some t ∧ t.Shows c
  agree : ∀ c ∈ done, ∃ last, w.seen[c.text "email"]? = some last ∧ sharedWith last c
  last : ∀ email c, w.seen[email]? = some c → c ∈ done ∧ c.text "email" = email
  rows : ∀ email t, w.traffic[email]? = some t → RowFrom old next w.nextClientID email t
  kept : ∀ email, email ∈ old → email ∈ w.traffic
  new : ∀ email, email ∈ w.traffic → email ∈ old ∨ email ∈ w.seen
  grows : next ≤ w.nextClientID

theorem Sync.Inv.start (old : Std.ExtTreeMap String Traffic) (next : Int) :
    Sync.Inv old next [] ⟨∅, old, next⟩ where
  shown := by simp
  agree := by simp
  last := by simp
  rows := fun _ t found => .inl ⟨t, found, ⟨rfl, rfl, rfl, rfl, rfl⟩⟩
  kept := fun _ mem => mem
  new := fun _ mem => .inl mem
  grows := le_rfl

private theorem shows_of_sharedWith {t : Traffic} {last c : Client} (shows : t.Shows c) (shared : sharedWith last c) :
    t.Shows last :=
  ⟨shows.uuid.trans shared.1.symm, shows.enable.trans shared.2.2.2.symm, shows.total.trans shared.2.1.symm,
    shows.expiryTime.trans shared.2.2.1.symm⟩

private theorem sharedWith_trans {a b c : Client} (ab : sharedWith a b) (ac : sharedWith a c) : sharedWith b c :=
  ⟨ab.1.symm.trans ac.1, ab.2.1.symm.trans ac.2.1, ab.2.2.1.symm.trans ac.2.2.1, ab.2.2.2.symm.trans ac.2.2.2⟩

private theorem Sync.Inv.put {old : Std.ExtTreeMap String Traffic} {next : Int} {done : List Client} {w : Sync}
    (inv : Sync.Inv old next done w) {ib : Int} {c : Client} {t : Traffic} {hi : Int}
    (shared : ∀ prev, w.seen[c.text "email"]? = some prev → sharedWith prev c)
    (row : RowFrom old next hi (c.text "email") t) (le : w.nextClientID ≤ hi) :
    Sync.Inv old next (done ++ [c])
      ⟨w.seen.insert (c.text "email") c, w.traffic.insert (c.text "email") (syncRow ib t c), hi⟩ where
  shown := by
    intro d mem
    rcases List.mem_append.mp mem with mem | mem
    · by_cases same : c.text "email" = d.text "email"
      · obtain ⟨last, found, agree⟩ := inv.agree d mem
        rw [← same] at found
        refine ⟨syncRow ib t c, by simp [same], ?_⟩
        exact shows_of_sharedWith (syncRow_shows ib t c) (sharedWith_trans agree (shared last found))
      · obtain ⟨u, found, shows⟩ := inv.shown d mem
        exact ⟨u, by simp [Std.ExtTreeMap.getElem?_insert, same, found], shows⟩
    · cases List.mem_singleton.mp mem
      exact ⟨syncRow ib t c, by simp, syncRow_shows ib t c⟩
  agree := by
    intro d mem
    rcases List.mem_append.mp mem with mem | mem
    · obtain ⟨last, found, agree⟩ := inv.agree d mem
      by_cases same : c.text "email" = d.text "email"
      · refine ⟨c, by simp [same], ?_⟩
        rw [← same] at found
        exact sharedWith_trans (shared last found) agree
      · exact ⟨last, by simp [Std.ExtTreeMap.getElem?_insert, same, found], agree⟩
    · cases List.mem_singleton.mp mem
      exact ⟨c, by simp, rfl, rfl, rfl, rfl⟩
  last := by
    intro email d found
    rw [Std.ExtTreeMap.getElem?_insert] at found
    split at found
    · rename_i same
      cases found
      exact ⟨by simp, by simpa using same⟩
    · obtain ⟨mem, own⟩ := inv.last email d found
      exact ⟨List.mem_append_left _ mem, own⟩
  rows := by
    intro email u found
    rw [Std.ExtTreeMap.getElem?_insert] at found
    split at found
    · rename_i same
      cases found
      rw [← show c.text "email" = email by simpa using same]
      rcases row with ⟨v, isOld, use⟩ | ⟨isNew, own⟩
      · exact .inl ⟨v, isOld, (syncRow_sameUse ib t c).trans use⟩
      · exact .inr ⟨isNew, own⟩
    · exact (inv.rows email u found).mono le
  kept := fun email mem => Std.ExtTreeMap.mem_insert.mpr (.inr (inv.kept email mem))
  new := by
    intro email mem
    rcases Std.ExtTreeMap.mem_insert.mp mem with same | mem
    · exact .inr (Std.ExtTreeMap.mem_insert.mpr (.inl same))
    · rcases inv.new email mem with isOld | isSeen
      · exact .inl isOld
      · exact .inr (Std.ExtTreeMap.mem_insert.mpr (.inr isSeen))
  grows := inv.grows.trans le

theorem Sync.Inv.syncClient {old : Std.ExtTreeMap String Traffic} {next : Int} {done : List Client} {w v : Sync}
    (inv : Sync.Inv old next done w) {ib : Int} {c : Client} (h : State.syncClient ib w c = .ok v) :
    Sync.Inv old next (done ++ [c]) v := by
  simp only [State.syncClient] at h
  split at h
  · cases h
  · rename_i clash
    have shared : ∀ prev, w.seen[c.text "email"]? = some prev → sharedWith prev c := by
      intro prev found
      by_contra differs
      exact clash ⟨prev, found, differs⟩
    cases row : w.traffic[c.text "email"]? with
    | some t =>
        simp only [row] at h
        cases h
        exact inv.put shared (inv.rows _ t row) le_rfl
    | none =>
        simp only [row] at h
        cases h
        have fresh : old[c.text "email"]? = none := by
          by_contra isOld
          obtain ⟨u, isOld⟩ := Option.ne_none_iff_exists'.mp isOld
          obtain ⟨t, found⟩ := mem_iff_some.mp (inv.kept _ (mem_iff_some.mpr ⟨u, isOld⟩))
          simp [row] at found
        refine inv.put shared (.inr ⟨fresh, rfl, rfl, rfl, inv.grows, ?_⟩) ?_
        · simp [newTraffic]
        · omega

def entries (inbounds : List Inbound) : List Client := inbounds.flatMap Inbound.clientsOrNil

theorem mem_entries {inbounds : List Inbound} {c : Client} :
    c ∈ entries inbounds ↔ ∃ ib ∈ inbounds, c ∈ ib.clientsOrNil := List.mem_flatMap

private theorem Sync.Inv.syncInbound {old : Std.ExtTreeMap String Traffic} {next : Int} {done : List Client}
    {w v : Sync} (inv : Sync.Inv old next done w) {ib : Inbound} (h : State.syncInbound w ib = .ok v) :
    (∃ cs, ib.clients = .ok cs) ∧ Sync.Inv old next (done ++ ib.clientsOrNil) v := by
  simp only [State.syncInbound, Except.bind_eq_ok] at h
  obtain ⟨cs, decoded, loop⟩ := h
  rw [Inbound.clientsOrNil_eq decoded]
  refine ⟨⟨cs, decoded⟩, ?_⟩
  exact foldlM_ok (fun part w => Sync.Inv old next (done ++ part) w) loop (by simpa using inv)
    fun part c w v _ held step => by simpa using held.syncClient step

theorem sync_inv {inbounds : List Inbound} {old : Std.ExtTreeMap String Traffic} {next : Int} {w : Sync}
    (h : inbounds.foldlM syncInbound ⟨∅, old, next⟩ = .ok w) :
    (∀ ib ∈ inbounds, ∃ cs, ib.clients = .ok cs) ∧ Sync.Inv old next (entries inbounds) w := by
  refine foldlM_ok (fun done w => (∀ ib ∈ done, ∃ cs, ib.clients = .ok cs) ∧
    Sync.Inv old next (entries done) w) h ⟨by simp, Sync.Inv.start old next⟩ ?_
  intro done ib w v _ held step
  obtain ⟨decoded, inv⟩ := held.2.syncInbound step
  refine ⟨?_, by simpa [entries] using inv⟩
  intro other mem
  rcases List.mem_append.mp mem with mem | mem
  · exact held.1 other mem
  · cases List.mem_singleton.mp mem
    exact decoded

/-! ## Dropping the clients that are gone -/

@[simp] theorem clearGlobals_globals (s : State) (email master : String) :
    (s.clearGlobals email).globals[master]? = (s.globals[master]?).map (·.erase email) := by
  simp [clearGlobals]

@[simp] theorem clearGlobals_traffic (s : State) (email : String) : (s.clearGlobals email).traffic = s.traffic := rfl

@[simp] theorem clearGlobals_inbounds (s : State) (email : String) : (s.clearGlobals email).inbounds = s.inbounds := rfl

theorem clearGlobals_size (s : State) (email : String) :
    (s.clearGlobals email).globals.size ≤ s.globals.size :=
  size_le_of_keys fun master mem => by simpa [clearGlobals] using mem

structure Narrowed (gone : List String) (s t : State) : Prop where
  master : ∀ master, master ∈ t.globals → master ∈ s.globals
  row : ∀ (master : String) (rows : Rows), t.globals[master]? = some rows → ∃ rows' : Rows, s.globals[master]? = some rows' ∧
    ∀ (email : String) (g : Global), rows[email]? = some g → rows'[email]? = some g ∧ email ∉ gone

theorem Narrowed.refl (s : State) : Narrowed [] s s :=
  ⟨fun _ mem => mem, fun _ rows found => ⟨rows, found, fun _ _ mem => ⟨mem, by simp⟩⟩⟩

theorem Narrowed.clear {gone : List String} {s t : State} (n : Narrowed gone s t) (email : String) :
    Narrowed (gone ++ [email]) s (t.clearGlobals email) where
  master := fun master mem => n.master master (by simpa [clearGlobals] using mem)
  row := by
    intro master rows found
    rw [clearGlobals_globals, Option.map_eq_some_iff] at found
    obtain ⟨before, found, rfl⟩ := found
    obtain ⟨rows', there, sub⟩ := n.row master before found
    refine ⟨rows', there, ?_⟩
    intro other g mem
    rw [Std.ExtTreeMap.getElem?_erase] at mem
    split at mem
    · cases mem
    · rename_i differs
      obtain ⟨old, kept⟩ := sub other g mem
      refine ⟨old, ?_⟩
      simp only [List.mem_append, List.mem_singleton, not_or]
      exact ⟨kept, fun same => differs (by simp [same])⟩

structure Dropped (gone : List String) (s t : State) : Prop where
  rest : t = { s with traffic := t.traffic, globals := t.globals }
  traffic : ∀ email : String, t.traffic[email]? = if email ∈ gone then none else s.traffic[email]?
  globals : Narrowed gone s t

theorem dropClient_dropped {gone : List String} {s t : State} (d : Dropped gone s t) (email : String) :
    Dropped (gone ++ [email]) s (t.dropClient email) where
  rest := by
    conv_lhs => rw [d.rest]
    rfl
  traffic := by
    intro other
    simp only [dropClient, clearGlobals_traffic, Std.ExtTreeMap.getElem?_erase, d.traffic other,
      List.mem_append, List.mem_singleton]
    by_cases same : email = other
    · simp [same]
    · simp [same, Ne.symm same]
  globals := by
    have erased : Narrowed gone s { t with traffic := t.traffic.erase email } :=
      ⟨d.globals.master, d.globals.row⟩
    exact erased.clear email

theorem foldl_dropClient (s : State) (gone : List String) : Dropped gone s (gone.foldl dropClient s) :=
  foldl_keeps (fun done t => Dropped done s t) gone ⟨rfl, fun _ => by simp, .refl s⟩
    fun _ email _ _ held => dropClient_dropped held email

structure Synced (s t : State) : Prop where
  rest : t = { s with traffic := t.traffic, globals := t.globals, nextClientID := t.nextClientID }
  decodes : ∀ ib ∈ s.inbounds, ∃ cs, ib.clients = .ok cs
  shown : ∀ c ∈ entries s.inbounds, ∃ t', t.traffic[c.text "email"]? = some t' ∧ t'.Shows c
  owner : ∀ email, email ∈ t.traffic → ∃ c ∈ entries s.inbounds, c.text "email" = email
  rows : ∀ email t', t.traffic[email]? = some t' → RowFrom s.traffic s.nextClientID t.nextClientID email t'
  few : t.traffic.size ≤ maxClients
  grows : s.nextClientID ≤ t.nextClientID
  master : ∀ master, master ∈ t.globals → master ∈ s.globals
  globals : ∀ (master : String) (rows : Rows), t.globals[master]? = some rows → ∃ rows' : Rows, s.globals[master]? = some rows' ∧
    ∀ (email : String) (g : Global), rows[email]? = some g → rows'[email]? = some g ∧ (email ∈ s.traffic → email ∈ t.traffic)

theorem syncClients_synced {s t : State} (h : s.syncClients = .ok t) : Synced s t := by
  simp only [syncClients, Except.bind_eq_ok, require_eq_ok, Except.pure_eq_ok] at h
  obtain ⟨w, loop, _, few, rfl⟩ := h
  obtain ⟨decodes, inv⟩ := sync_inv loop
  let s' : State := { s with traffic := w.traffic, nextClientID := w.nextClientID }
  let gone := s'.traffic.keys.filter (¬· ∈ w.seen)
  have d : Dropped gone s' (gone.foldl dropClient s') := foldl_dropClient s' gone
  have gone_iff : ∀ email, email ∈ gone ↔ email ∈ w.traffic ∧ email ∉ w.seen := by
    intro email
    simp [gone, s', Std.ExtTreeMap.mem_keys]
  have row_iff : ∀ email t', (gone.foldl dropClient s').traffic[email]? = some t' ↔
      w.traffic[email]? = some t' ∧ email ∈ w.seen := by
    intro email t'
    rw [d.traffic email]
    constructor
    · intro found
      split at found
      · cases found
      · rename_i stays
        have here : email ∈ w.traffic := mem_iff_some.mpr ⟨t', found⟩
        exact ⟨found, by_contra fun unseen => stays ((gone_iff email).mpr ⟨here, unseen⟩)⟩
    · rintro ⟨found, seen⟩
      rw [if_neg fun out => ((gone_iff email).mp out).2 seen]
      exact found
  have mem_iff : ∀ email, email ∈ (gone.foldl dropClient s').traffic ↔ email ∈ w.traffic ∧ email ∈ w.seen := by
    intro email
    simp only [mem_iff_some (m := (gone.foldl dropClient s').traffic), row_iff, mem_iff_some (m := w.traffic)]
    constructor
    · rintro ⟨t', found, seen⟩
      exact ⟨⟨t', found⟩, seen⟩
    · rintro ⟨⟨t', found⟩, seen⟩
      exact ⟨t', found, seen⟩
  refine ⟨?_, decodes, ?_, ?_, ?_, ?_, ?_, d.globals.master, ?_⟩
  · rw [d.rest]
  · intro c mem
    obtain ⟨t', found, shows⟩ := inv.shown c mem
    obtain ⟨last, seen, _⟩ := inv.agree c mem
    exact ⟨t', (row_iff _ _).mpr ⟨found, mem_iff_some.mpr ⟨last, seen⟩⟩, shows⟩
  · intro email mem
    obtain ⟨c, seen⟩ := mem_iff_some.mp ((mem_iff email).mp mem).2
    exact ⟨c, inv.last email c seen⟩
  · intro email t' found
    have same : (gone.foldl dropClient s').nextClientID = w.nextClientID := by rw [d.rest]
    rw [same]
    exact inv.rows email t' ((row_iff email t').mp found).1
  · exact (size_le_of_keys fun email mem => ((mem_iff email).mp mem).2).trans few
  · have same : (gone.foldl dropClient s').nextClientID = w.nextClientID := by rw [d.rest]
    rw [same]
    exact inv.grows
  · intro master rows found
    obtain ⟨rows', there, sub⟩ := d.globals.row master rows found
    refine ⟨rows', there, fun email g mem => ?_⟩
    obtain ⟨old, stays⟩ := sub email g mem
    refine ⟨old, fun present => (mem_iff email).mpr ?_⟩
    have here := inv.kept email present
    exact ⟨here, by_contra fun unseen => stays ((gone_iff email).mpr ⟨here, unseen⟩)⟩

end State

end ThreeXNode.Leaf
