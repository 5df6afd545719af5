import ThreeXNode.Leaf.Store
import ThreeXNode.Leaf.Sync

namespace ThreeXNode.Leaf
open Library

namespace State

/-- The table's rows carry their own email, and what masters pushed belongs to rows of the table. -/
structure Keyed (s : State) : Prop where
  own : ∀ (email : String) (t : Traffic), s.traffic[email]? = some t → t.email = email
  pushed : ∀ (master : String) (rows : Rows), s.globals[master]? = some rows →
    ∀ email : String, email ∈ rows → email ∈ s.traffic

/-- The traffic table mirrors the client lists. -/
structure Mirrored (s : State) : Prop extends s.Keyed where
  decodes : ∀ ib ∈ s.inbounds, ∃ cs, ib.clients = .ok cs
  shown : ∀ c ∈ entries s.inbounds, ∃ t, s.traffic[c.text "email"]? = some t ∧ t.Shows c
  owner : ∀ email : String, email ∈ s.traffic → ∃ c ∈ entries s.inbounds, c.text "email" = email

theorem fresh_mirrored (guid : String) : (fresh guid).Mirrored where
  own := by simp [fresh]
  pushed := by simp [fresh]
  decodes := by simp [fresh]
  shown := by simp [fresh, entries]
  owner := by simp [fresh]

theorem Mirrored.shared {s : State} (m : s.Mirrored) {c d : Client} (hc : c ∈ entries s.inbounds)
    (hd : d ∈ entries s.inbounds) (same : c.text "email" = d.text "email") : sharedWith c d := by
  obtain ⟨t, found, shows⟩ := m.shown c hc
  obtain ⟨u, found', shows'⟩ := m.shown d hd
  rw [same, found'] at found
  cases found
  exact ⟨shows.uuid.symm.trans shows'.uuid, shows.total.symm.trans shows'.total,
    shows.expiryTime.symm.trans shows'.expiryTime, shows.enable.symm.trans shows'.enable⟩

theorem Synced.mirrored {s t : State} (synced : Synced s t) (keyed : s.Keyed) : t.Mirrored where
  own := by
    intro email row found
    rcases synced.rows email row found with ⟨old, there, use⟩ | ⟨_, own, _⟩
    · exact use.email.trans (keyed.own email old there)
    · exact own
  pushed := by
    intro master rows found email mem
    obtain ⟨before, there, sub⟩ := synced.globals master rows found
    obtain ⟨g, here⟩ := mem_iff_some.mp mem
    obtain ⟨old, kept⟩ := sub email g here
    exact kept (keyed.pushed master before there email (mem_iff_some.mpr ⟨g, old⟩))
  decodes := by
    rw [synced.rest]
    exact synced.decodes
  shown := by
    intro c mem
    have here : c ∈ entries s.inbounds := by
      rw [synced.rest] at mem
      exact mem
    exact synced.shown c here
  owner := by
    intro email mem
    obtain ⟨c, here, own⟩ := synced.owner email mem
    refine ⟨c, ?_, own⟩
    rw [synced.rest]
    exact here

theorem Keyed.clear {s : State} (keyed : s.Keyed) (email : String) : (s.clearGlobals email).Keyed where
  own := keyed.own
  pushed := by
    intro master rows found other mem
    rw [clearGlobals_globals, Option.map_eq_some_iff] at found
    obtain ⟨before, there, rfl⟩ := found
    exact keyed.pushed master before there other (Std.ExtTreeMap.mem_of_mem_erase mem)

theorem Keyed.drop {s : State} (keyed : s.Keyed) (email : String) :
    ({ s with traffic := s.traffic.erase email }.clearGlobals email).Keyed where
  own := by
    intro other t found
    simp only [clearGlobals_traffic, Std.ExtTreeMap.getElem?_erase] at found
    split at found
    · cases found
    · exact keyed.own other t found
  pushed := by
    intro master rows found other mem
    rw [clearGlobals_globals, Option.map_eq_some_iff] at found
    obtain ⟨before, there, rfl⟩ := found
    obtain ⟨differs, mem⟩ := Std.ExtTreeMap.mem_erase.mp mem
    exact Std.ExtTreeMap.mem_erase.mpr ⟨differs, keyed.pushed master before there other mem⟩

theorem Keyed.insert {s : State} (keyed : s.Keyed) {email : String} {t : Traffic} (own : t.email = email) :
    { s with traffic := s.traffic.insert email t }.Keyed where
  own := by
    intro other u found
    simp only [Std.ExtTreeMap.getElem?_insert] at found
    split at found
    · rename_i same
      cases found
      exact own.trans (by simpa using same)
    · exact keyed.own other u found
  pushed := fun master rows found other mem =>
    Std.ExtTreeMap.mem_insert.mpr (.inr (keyed.pushed master rows found other mem))

theorem Keyed.setClientField {s : State} (keyed : s.Keyed) (email key : String) (v : Json) :
    (s.setClientField email key v).Keyed := ⟨keyed.own, keyed.pushed⟩

@[simp] theorem setClientField_traffic (s : State) (email key : String) (v : Json) :
    (s.setClientField email key v).traffic = s.traffic := rfl

@[simp] theorem setClientField_globals (s : State) (email key : String) (v : Json) :
    (s.setClientField email key v).globals = s.globals := rfl

theorem entries_setClientField (s : State) (email key : String) (v : Json) :
    entries (s.setClientField email key v).inbounds = (entries s.inbounds).map (setField email key v) := by
  simp [entries, setClientField, List.flatMap_map, List.map_flatMap, Inbound.clientsOrNil_setClients]

theorem text_setField {email key : String} {v : Json} {c : Client} {k : String} (ne : key ≠ k) :
    (setField email key v c).text k = c.text k := by
  unfold setField
  split
  · exact Fields.text_insert_of_ne c v ne
  · rfl

/-! ## What a sample does to the mirror -/

theorem Mirrored.count {s : State} (m : s.Mirrored) {email : String} {t u : Traffic}
    (row : s.traffic[email]? = some t) (own : u.email = email) (keeps : ∀ c, t.Shows c → u.Shows c) :
    { s with traffic := s.traffic.insert email u }.Mirrored where
  toKeyed := m.toKeyed.insert own
  decodes := m.decodes
  shown := by
    intro c mem
    obtain ⟨old, found, shows⟩ := m.shown c mem
    by_cases same : email = c.text "email"
    · rw [← same, row] at found
      cases found
      exact ⟨u, by simp [same], keeps c shows⟩
    · exact ⟨old, by simp [Std.ExtTreeMap.getElem?_insert, same, found], shows⟩
  owner := by
    intro other mem
    rcases Std.ExtTreeMap.mem_insert.mp mem with same | mem
    · obtain rfl : email = other := by simpa using same
      exact m.owner email (mem_iff_some.mpr ⟨t, row⟩)
    · exact m.owner other mem

theorem Mirrored.setField {s : State} (m : s.Mirrored) {email key : String} {v : Json} {t u : Traffic}
    (row : s.traffic[email]? = some t) (own : u.email = email) (ne : key ≠ "email")
    (both : ∀ c : Client, t.Shows c → u.Shows (c.insert key v)) :
    ({ s with traffic := s.traffic.insert email u }.setClientField email key v).Mirrored where
  toKeyed := (m.toKeyed.insert own).setClientField email key v
  decodes := by
    intro ib mem
    simp only [setClientField, List.mem_map] at mem
    obtain ⟨old, _, rfl⟩ := mem
    exact ⟨_, Inbound.clients_setClients _ _⟩
  shown := by
    intro c mem
    rw [entries_setClientField] at mem
    obtain ⟨old, there, rfl⟩ := List.mem_map.mp mem
    obtain ⟨was, found, shows⟩ := m.shown old there
    rw [text_setField ne]
    by_cases same : old.text "email" = email
    · rw [same, row] at found
      cases found
      refine ⟨u, by simp [same], ?_⟩
      simp only [State.setField, same, ↓reduceIte]
      exact both old shows
    · refine ⟨was, by simp [Std.ExtTreeMap.getElem?_insert, Ne.symm same, found], ?_⟩
      simp only [State.setField, same, ↓reduceIte]
      exact shows
  owner := by
    intro other mem
    rw [setClientField_traffic] at mem
    have present : other ∈ s.traffic := by
      rcases Std.ExtTreeMap.mem_insert.mp mem with same | mem
      · obtain rfl : email = other := by simpa using same
        exact mem_iff_some.mpr ⟨t, row⟩
      · exact mem
    obtain ⟨c, here, owns⟩ := m.owner other present
    refine ⟨State.setField email key v c, ?_, (text_setField ne).trans owns⟩
    rw [entries_setClientField]
    exact List.mem_map_of_mem here

theorem shows_add {t : Traffic} {c : Client} (shows : t.Shows c) (delta now : Int) (dir : Direction) :
    ({ t.add delta dir with lastOnline := now } : Traffic).Shows c := by
  cases dir <;> exact ⟨shows.uuid, shows.enable, shows.total, shows.expiryTime⟩

theorem email_add (t : Traffic) (delta : Int) (dir : Direction) : (t.add delta dir).email = t.email := by
  cases dir <;> rfl

theorem Mirrored.creditUser {s : State} (m : s.Mirrored) (now delta : Int) (email : String) (dir : Direction) :
    (s.creditUser now email dir delta).Mirrored := by
  unfold State.creditUser
  cases row : s.traffic[email]? with
  | none => exact m
  | some t =>
      have own : t.email = email := m.own email t row
      simp only
      split
      · rw [email_add, own]
        refine m.setField row rfl (by decide) ?_
        intro c shows
        have counted := shows_add shows delta now dir
        have range := wrap64_range (now - (t.add delta dir).expiryTime)
        constructor
        · rw [Fields.text_insert_of_ne _ _ (by decide)]
          exact counted.uuid
        · rw [Fields.enabled_insert_of_ne _ _ (by decide)]
          exact counted.enable
        · rw [Fields.number_insert_of_ne _ _ (by decide)]
          exact counted.total
        · rw [Fields.number_insert_self _ _ range.1 range.2]
      · exact m.count row ((email_add t delta dir).trans own) fun c shows => shows_add shows delta now dir

theorem clientsOrNil_add (ib : Inbound) (delta : Int) (dir : Direction) :
    (ib.add delta dir).clients = ib.clients := by
  cases dir <;> rfl

theorem Mirrored.mapInbounds {s : State} (m : s.Mirrored) {f : Inbound → Inbound}
    (same : ∀ ib, (f ib).clients = ib.clients) : { s with inbounds := s.inbounds.map f }.Mirrored := by
  have each : ∀ ib, (f ib).clientsOrNil = ib.clientsOrNil := by
    intro ib
    simp only [Inbound.clientsOrNil, same]
  have unchanged : entries (s.inbounds.map f) = entries s.inbounds := by
    simp [entries, List.flatMap_map, each]
  refine ⟨⟨m.own, m.pushed⟩, ?_, ?_, ?_⟩
  · intro ib mem
    obtain ⟨old, there, rfl⟩ := List.mem_map.mp mem
    rw [same]
    exact m.decodes old there
  · rw [unchanged]
    exact m.shown
  · rw [unchanged]
    exact m.owner

theorem Mirrored.creditInbound {s : State} (m : s.Mirrored) (tag : String) (dir : Direction) (delta : Int) :
    (s.creditInbound tag dir delta).Mirrored := by
  refine m.mapInbounds fun ib => ?_
  split
  · exact clientsOrNil_add ib delta dir
  · rfl

theorem Mirrored.credit {s : State} (m : s.Mirrored) (now : Int) (baseline : Baseline) (entry : String × Int) :
    (s.credit now baseline entry).Mirrored := by
  unfold State.credit
  simp only
  split
  · exact m
  · split
    · exact m
    · split
      · exact m.creditUser _ _ _ _
      · exact m.creditInbound _ _ _
      · exact m

theorem Mirrored.disableExhausted {s : State} (m : s.Mirrored) (now : Int) (email : String) :
    (s.disableExhausted now email).Mirrored := by
  unfold State.disableExhausted
  cases row : s.traffic[email]? with
  | none => exact m
  | some t =>
      simp only
      split
      · refine m.setField row (m.own email t row) (by decide) fun c shows => ?_
        constructor
        · rw [Fields.text_insert_of_ne _ _ (by decide)]
          exact shows.uuid
        · rw [Fields.enabled_insert_self]
        · rw [Fields.number_insert_of_ne _ _ (by decide)]
          exact shows.total
        · rw [Fields.number_insert_of_ne _ _ (by decide)]
          exact shows.expiryTime
      · exact m

theorem Mirrored.stopSpent {s : State} (m : s.Mirrored) (now : Int) : (s.stopSpent now).Mirrored := by
  refine m.mapInbounds fun ib => ?_
  split <;> rfl

theorem purgeGlobals_sub {s : State} {now : Int} {master : String} {rows : Rows}
    (found : (s.purgeGlobals now).globals[master]? = some rows) :
    ∃ before : Rows, s.globals[master]? = some before ∧
      rows = before.filter fun _ g => !decide (g.updatedAt < wrap64 (now - globalLifetime)) := by
  simp only [purgeGlobals, Std.ExtTreeMap.getElem?_filterMap', Option.bind_eq_some_iff] at found
  obtain ⟨before, there, kept⟩ := found
  refine ⟨before, there, ?_⟩
  split at kept
  · cases kept
  · exact (Option.some.inj kept).symm

theorem Mirrored.purgeGlobals {s : State} (m : s.Mirrored) (now : Int) : (s.purgeGlobals now).Mirrored where
  own := m.own
  pushed := by
    intro master rows found email mem
    obtain ⟨before, there, rfl⟩ := purgeGlobals_sub found
    exact m.pushed master before there email (Std.ExtTreeMap.mem_of_mem_filter mem)
  decodes := m.decodes
  shown := m.shown
  owner := m.owner

theorem Mirrored.sampled {s : State} (m : s.Mirrored) (baseline : Baseline) (values : Values) (now : Int) :
    (s.sampled baseline values now).Mirrored := by
  have credited : (values.foldl (State.credit now baseline) s).Mirrored :=
    foldl_invariant State.Mirrored m fun s entry _ held => held.credit now baseline entry
  have disabled := foldl_invariant (l := (values.foldl (State.credit now baseline) s).traffic.keys) State.Mirrored credited
    fun s email _ held => held.disableExhausted now email
  exact (disabled.stopSpent now).purgeGlobals now

end State

end ThreeXNode.Leaf
