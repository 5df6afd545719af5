import ThreeXNode.Leaf.Edit

namespace ThreeXNode.Leaf
open Library State

variable {cfg : Config} {now : Int} {r : Request} {s t : State} {obj : Reply}

theorem State.Mirrored.request (m : s.Mirrored) (h : r.next cfg now s = .ok (t, obj)) : t.Mirrored := by
  obtain ⟨mid, edited, _, _, synced⟩ := next_parts h
  exact (syncClients_synced synced).mirrored ((edit_tended edited).keyed m.toKeyed)

theorem State.Mirrored.event {e : Event} (m : s.Mirrored) (h : (store cfg).next s e = some t) : t.Mirrored := by
  cases e with
  | request now r =>
      obtain ⟨obj, step⟩ := store_request h
      exact m.request step
  | sample baseline values now =>
      cases h
      exact m.sampled baseline values now
  | mark running checkpointAt =>
      cases h
      exact ⟨⟨m.own, m.pushed⟩, m.decodes, m.shown, m.owner⟩

theorem store_mirrored {guid : String} (reached : (store cfg).Reaches (fresh guid) s) : s.Mirrored :=
  reached.invariant State.Mirrored (fresh_mirrored guid) fun _ _ _ m _ step => m.event step

theorem request_use (h : r.next cfg now s = .ok (t, obj)) {email : String} {old new : Traffic}
    (before : s.traffic[email]? = some old) (after : t.traffic[email]? = some new) (spared : ¬r.resets email) :
    new.SameUse old := by
  obtain ⟨mid, edited, _, _, synced⟩ := next_parts h
  have synced := syncClients_synced synced
  rcases synced.rows email new after with ⟨moved, here, use⟩ | ⟨absent, _⟩
  · exact use.trans ((edit_tended edited).use email old moved before here spared)
  · obtain ⟨c, there, own⟩ := synced.owner email (mem_iff_some.mpr ⟨new, after⟩)
    have gone : email ∉ mid.traffic := fun mem => by
      obtain ⟨row, found⟩ := mem_iff_some.mp mem
      rw [absent] at found
      cases found
    exact absurd own (edit_gone edited (mem_iff_some.mpr ⟨old, before⟩) gone c there)

theorem update_moves (m : s.Mirrored) {oldEmail : String} {c : Client} {ids : List Int}
    (h : (Request.changeClient oldEmail c ids .update).next cfg now s = .ok (t, obj))
    (renamed : c.text "email" ≠ oldEmail) :
    ∃ old new : Traffic, s.traffic[oldEmail]? = some old ∧ t.traffic[c.text "email"]? = some new ∧
      new.SameUse { old with email := c.text "email" } ∧ oldEmail ∉ t.traffic := by
  obtain ⟨after, edited, _, _, synced⟩ := next_parts h
  have synced := syncClients_synced synced
  obtain ⟨stored, mid, normal, present, moved, rfl⟩ := changeClient_parts edited
  simp only [storedClient, or_true, ↓reduceIte] at normal
  rw [← normalizeVLESSClient_email normal] at renamed ⊢
  obtain ⟨old, row⟩ := mem_iff_some.mp (present rfl)
  have moved_row : mid.traffic[stored.text "email"]? = some { old with email := stored.text "email" } := by
    simp only [moveTraffic, ne_eq, true_and, if_pos renamed, renameTraffic, Except.bind_eq_ok, require_eq_ok, row,
      Except.pure_eq_ok] at moved
    obtain ⟨_, _, rfl⟩ := moved
    simp
  -- An entry of the old email was there, and every one of them has become the stored client.
  obtain ⟨entry, there, own⟩ := m.owner oldEmail (present rfl)
  obtain ⟨ib, mem, here⟩ := mem_entries.mp there
  have kept : mid.inbounds = s.inbounds := by
    simp only [moveTraffic, ne_eq, true_and, if_pos renamed, renameTraffic, Except.bind_eq_ok, require_eq_ok, row,
      Except.pure_eq_ok] at moved
    obtain ⟨_, _, rfl⟩ := moved
    rfl
  have entered : stored ∈ entries (mid.inbounds.map (changeInbound oldEmail stored ids .update)) :=
    mem_entries.mpr ⟨changeInbound oldEmail stored ids .update ib,
      List.mem_map_of_mem (kept ▸ mem), stored_mem_changeInbound_update here own⟩
  obtain ⟨new, found, _⟩ := synced.shown stored entered
  refine ⟨old, new, row, found, ?_, ?_⟩
  · rcases synced.rows _ new found with ⟨origin, here, use⟩ | ⟨absent, _⟩
    · rw [moved_row] at here
      cases here
      exact use
    · rw [moved_row] at absent
      cases absent
  · intro stays
    obtain ⟨other, there, same⟩ := synced.owner oldEmail stays
    obtain ⟨ib', there, here⟩ := mem_entries.mp there
    obtain ⟨before, _, rfl⟩ := List.mem_map.mp there
    rcases mem_changeInbound_update here with rfl | ⟨_, differs⟩
    · exact renamed same
    · exact differs same

/-- What the table of a node shows, and which steps change the use it counts. -/
theorem traffic_table {guid : String} (reached : (store cfg).Reaches (fresh guid) s) :
    (∀ email : String, email ∈ s.traffic ↔ ∃ ib ∈ s.inbounds, ∃ cs, ib.clients = .ok cs ∧
      ∃ c ∈ cs, c.text "email" = email) ∧
    (∀ ib ∈ s.inbounds, ∀ ib' ∈ s.inbounds, ∀ cs cs', ib.clients = .ok cs → ib'.clients = .ok cs' →
      ∀ c ∈ cs, ∀ d ∈ cs', c.text "email" = d.text "email" → c.text "id" = d.text "id" ∧
        c.enabled "enable" = d.enabled "enable" ∧ c.number "totalGB" = d.number "totalGB" ∧
        c.number "expiryTime" = d.number "expiryTime") ∧
    (∀ ib ∈ s.inbounds, ∀ cs, ib.clients = .ok cs → ∀ c ∈ cs, ∃ row, s.traffic[c.text "email"]? = some row ∧
      row.email = c.text "email" ∧ row.enable = c.enabled "enable" ∧ row.total = c.number "totalGB" ∧
      row.expiryTime = c.number "expiryTime") ∧
    (∀ (master : String) (rows : Rows), s.globals[master]? = some rows → ∀ email : String, email ∈ rows →
      email ∈ s.traffic) ∧
    (∀ (now : Int) (r : Request) (t : State) (obj : Reply), r.next cfg now s = .ok (t, obj) →
      ∀ (email : String) (old new : Traffic), s.traffic[email]? = some old → t.traffic[email]? = some new →
      ¬r.resets email → new.up = old.up ∧ new.down = old.down ∧ new.lastOnline = old.lastOnline) ∧
    (∀ (now : Int) (oldEmail : String) (c : Client) (ids : List Int) (t : State) (obj : Reply),
      (Request.changeClient oldEmail c ids .update).next cfg now s = .ok (t, obj) → c.text "email" ≠ oldEmail →
      ∃ old new : Traffic, s.traffic[oldEmail]? = some old ∧ t.traffic[c.text "email"]? = some new ∧ new.id = old.id ∧
        new.up = old.up ∧ new.down = old.down ∧ new.lastOnline = old.lastOnline ∧ oldEmail ∉ t.traffic) := by
  have m := store_mirrored reached
  have listed {ib : Inbound} {cs : List Client} {c : Client} (mem : ib ∈ s.inbounds) (decoded : ib.clients = .ok cs)
      (here : c ∈ cs) : c ∈ entries s.inbounds :=
    mem_entries.mpr ⟨ib, mem, by rwa [Inbound.clientsOrNil_eq decoded]⟩
  refine ⟨fun email => ⟨?_, ?_⟩, ?_, ?_, m.pushed, ?_, ?_⟩
  · intro present
    obtain ⟨c, there, own⟩ := m.owner email present
    obtain ⟨ib, mem, here⟩ := mem_entries.mp there
    obtain ⟨cs, decoded⟩ := m.decodes ib mem
    rw [Inbound.clientsOrNil_eq decoded] at here
    exact ⟨ib, mem, cs, decoded, c, here, own⟩
  · rintro ⟨ib, mem, cs, decoded, c, here, rfl⟩
    obtain ⟨row, found, _⟩ := m.shown c (listed mem decoded here)
    exact mem_iff_some.mpr ⟨row, found⟩
  · intro ib mem ib' mem' cs cs' decoded decoded' c here d here' same
    obtain ⟨id, total, expiry, enable⟩ := m.shared (listed mem decoded here) (listed mem' decoded' here') same
    exact ⟨id, enable, total, expiry⟩
  · intro ib mem cs decoded c here
    obtain ⟨row, found, shows⟩ := m.shown c (listed mem decoded here)
    exact ⟨row, found, m.own _ row found, shows.enable, shows.total, shows.expiryTime⟩
  · intro now r t obj step email old new before after spared
    have use := request_use step before after spared
    exact ⟨use.up, use.down, use.lastOnline⟩
  · intro now oldEmail c ids t obj step renamed
    obtain ⟨old, new, row, found, use, gone⟩ := update_moves m step renamed
    exact ⟨old, new, row, found, use.id, use.up, use.down, use.lastOnline, gone⟩

theorem traffic_table_alice : "alice" ∈ aliceState.traffic ↔ ∃ ib ∈ aliceState.inbounds, ∃ cs,
    ib.clients = .ok cs ∧ ∃ c ∈ cs, c.text "email" = "alice" :=
  (traffic_table (System.Path.tail .refl trivial aliceState_next)).1 "alice"

end ThreeXNode.Leaf
