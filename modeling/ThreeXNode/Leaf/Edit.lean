import ThreeXNode.Leaf.Mirror

namespace ThreeXNode.Leaf
open Library

def Request.resets : Request → String → Prop
  | .resetTraffic email _, other => email = other
  | .resetClientTraffics emails, other => other ∈ emails
  | _, _ => False

namespace State

/-- What an edit does to the traffic table, `reset` being the emails whose counters start again. -/
structure Tended (reset : String → Prop) (s t : State) : Prop where
  marks : t.running = s.running ∧ t.checkpointAt = s.checkpointAt ∧ t.schema = s.schema ∧ t.guid = s.guid ∧
    t.nextClientID = s.nextClientID
  keyed : s.Keyed → t.Keyed
  use : ∀ (email : String) (old new : Traffic), s.traffic[email]? = some old → t.traffic[email]? = some new →
    ¬reset email → new.SameUse old
  row : ∀ (email : String) (new : Traffic), t.traffic[email]? = some new → ∃ (was : String) (old : Traffic),
    s.traffic[was]? = some old ∧ new.id = old.id ∧ (new.up = old.up ∨ new.up = 0) ∧ (new.down = old.down ∨ new.down = 0)

theorem Tended.frame (reset : String → Prop) {s t : State} (marks : t.running = s.running ∧
    t.checkpointAt = s.checkpointAt ∧ t.schema = s.schema ∧ t.guid = s.guid ∧ t.nextClientID = s.nextClientID)
    (traffic : t.traffic = s.traffic) (globals : t.globals = s.globals) : Tended reset s t where
  marks := marks
  keyed := fun keyed => ⟨by rw [traffic]; exact keyed.own, by rw [traffic, globals]; exact keyed.pushed⟩
  use := by
    intro email old new found found' _
    rw [traffic, found] at found'
    cases found'
    exact ⟨rfl, rfl, rfl, rfl, rfl⟩
  row := by
    intro email new found
    rw [traffic] at found
    exact ⟨email, new, found, rfl, .inl rfl, .inl rfl⟩

theorem resetClient_mem (s : State) (email other : String) :
    other ∈ (resetClient s email).traffic ↔ other ∈ s.traffic := by
  unfold resetClient
  cases row : s.traffic[email]? with
  | none => rfl
  | some t =>
      rw [setClientField_traffic, clearGlobals_traffic, Std.ExtTreeMap.mem_insert]
      constructor
      · rintro (same | mem)
        · obtain rfl : email = other := by simpa using same
          exact mem_iff_some.mpr ⟨t, row⟩
        · exact mem
      · exact .inr

theorem resetClient_tended (s : State) (email : String) : Tended (· = email) s (resetClient s email) := by
  unfold resetClient
  cases row : s.traffic[email]? with
  | none => exact .frame _ ⟨rfl, rfl, rfl, rfl, rfl⟩ rfl rfl
  | some t =>
      refine ⟨⟨rfl, rfl, rfl, rfl, rfl⟩, ?_, ?_, ?_⟩
      · intro keyed
        exact ((keyed.insert (t := { t with up := 0, down := 0, enable := true }) (keyed.own email t row)).clear
          email).setClientField email "enable" (.bool true)
      · intro other old new found found' differs
        rw [setClientField_traffic, clearGlobals_traffic, Std.ExtTreeMap.getElem?_insert] at found'
        split at found'
        · rename_i same
          exact absurd (show email = other by simpa using same).symm differs
        · rw [found] at found'
          cases found'
          exact ⟨rfl, rfl, rfl, rfl, rfl⟩
      · intro other new found
        rw [setClientField_traffic, clearGlobals_traffic, Std.ExtTreeMap.getElem?_insert] at found
        split at found
        · cases found
          exact ⟨email, t, row, rfl, .inr rfl, .inr rfl⟩
        · exact ⟨other, new, found, rfl, .inl rfl, .inl rfl⟩

theorem Tended.reset {reset : String → Prop} {s t : State} (front : Tended reset s t)
    (same : ∀ other : String, other ∈ t.traffic ↔ other ∈ s.traffic) (email : String) :
    Tended (fun other => reset other ∨ other = email) s (resetClient t email) := by
  have back := resetClient_tended t email
  refine ⟨?_, fun keyed => back.keyed (front.keyed keyed), ?_, ?_⟩
  · obtain ⟨a, b, c, d, e⟩ := front.marks
    obtain ⟨a', b', c', d', e'⟩ := back.marks
    exact ⟨a'.trans a, b'.trans b, c'.trans c, d'.trans d, e'.trans e⟩
  · intro other old new found found' spared
    obtain ⟨mid, here⟩ := mem_iff_some.mp ((same other).mpr (mem_iff_some.mpr ⟨old, found⟩))
    exact (back.use other mid new here found' fun hit => spared (.inr hit)).trans
      (front.use other old mid found here fun hit => spared (.inl hit))
  · intro other new found
    obtain ⟨was, mid, here, id, up, down⟩ := back.row other new found
    obtain ⟨was', old, there, id', up', down'⟩ := front.row was mid here
    refine ⟨was', old, there, id.trans id', ?_, ?_⟩
    · rcases up with up | up
      · rw [up]
        exact up'
      · exact .inr up
    · rcases down with down | down
      · rw [down]
        exact down'
      · exact .inr down

theorem resetClientTraffics_tended {emails : List String} {s t : State} {obj : Reply}
    (h : resetClientTraffics emails s = .ok (t, obj)) :
    Tended (· ∈ emails) s t ∧ ∀ other : String, other ∈ t.traffic ↔ other ∈ s.traffic := by
  simp only [resetClientTraffics, Except.ok.injEq, Prod.mk.injEq] at h
  obtain ⟨rfl, -⟩ := h
  have kept := foldl_keeps (fun done w => Tended (· ∈ done) s w.1 ∧
      ∀ other : String, other ∈ w.1.traffic ↔ other ∈ s.traffic)
    (f := fun (w : State × Nat) email =>
      if email ∈ w.1.traffic then (resetClient w.1 email, w.2 + 1) else (w.1, w.2)) (s := (s, 0)) emails
    ⟨.frame _ ⟨rfl, rfl, rfl, rfl, rfl⟩ rfl rfl, fun _ => Iff.rfl⟩ ?_
  · exact kept
  · rintro done email ⟨w, n⟩ - ⟨tended, same⟩
    have wider : ∀ {p q : String → Prop} {u : State}, Tended p s u → (∀ e, p e → q e) → Tended q s u :=
      fun held sub => ⟨held.marks, held.keyed,
        fun e old new a b spared => held.use e old new a b fun hit => spared (sub e hit), held.row⟩
    simp only
    split
    · refine ⟨wider (tended.reset same email) ?_, fun other => (resetClient_mem w email other).trans (same other)⟩
      rintro other (mem | rfl)
      · exact List.mem_append_left _ mem
      · simp
    · exact ⟨wider tended fun other mem => List.mem_append_left _ mem, same⟩

theorem resetTraffic_tended {email : String} {id : Int} {s t : State} {obj : Reply}
    (h : resetTraffic email id s = .ok (t, obj)) :
    Tended (email = ·) s t ∧ ∀ other : String, other ∈ t.traffic ↔ other ∈ s.traffic := by
  simp only [resetTraffic, Except.bind_eq_ok, require_eq_ok] at h
  obtain ⟨_, _, _, _, h⟩ := h
  split at h
  · simp only [Except.pure_eq_ok, Prod.mk.injEq] at h
    obtain ⟨rfl, -⟩ := h
    exact ⟨.frame _ ⟨rfl, rfl, rfl, rfl, rfl⟩ rfl rfl, fun _ => Iff.rfl⟩
  · split at h
    · simp only [Except.pure_eq_ok, Prod.mk.injEq] at h
      obtain ⟨rfl, -⟩ := h
      have tended := resetClient_tended s email
      exact ⟨⟨tended.marks, tended.keyed,
        fun e old new a b spared => tended.use e old new a b fun hit => spared hit.symm, tended.row⟩,
        resetClient_mem s email⟩
    · simp only [Except.pure_eq_ok, Prod.mk.injEq] at h
      obtain ⟨rfl, -⟩ := h
      exact ⟨.frame _ ⟨rfl, rfl, rfl, rfl, rfl⟩ rfl rfl, fun _ => Iff.rfl⟩

theorem pushRow_rest {master : String} {now : Int} {s t : State} {row : PushedRow}
    (h : pushRow master now s row = .ok t) : t = { s with globals := t.globals } ∧ (s.Keyed → t.Keyed) := by
  simp only [pushRow, Except.bind_eq_ok, require_eq_ok] at h
  obtain ⟨_, _, h⟩ := h
  split at h
  · rename_i present
    simp only [Except.pure_eq_ok] at h
    subst h
    refine ⟨rfl, fun keyed => ⟨keyed.own, ?_⟩⟩
    intro other rows found email mem
    simp only [Std.ExtTreeMap.getElem?_insert] at found
    split at found
    · cases found
      rcases Std.ExtTreeMap.mem_insert.mp mem with same | mem
      · obtain rfl : row.email = email := by simpa using same
        exact present
      · cases before : s.globals[master]? with
        | none => simp [before] at mem
        | some rows =>
            rw [before] at mem
            exact keyed.pushed master rows before email mem
    · exact keyed.pushed other rows found email mem
  · simp only [Except.pure_eq_ok] at h
    subst h
    exact ⟨rfl, id⟩

theorem pushGlobals_rest {master : String} {rows : List PushedRow} {now : Int} {s t : State} {obj : Reply}
    (h : pushGlobals master rows now s = .ok (t, obj)) :
    t = { s with globals := t.globals } ∧ (s.Keyed → t.Keyed) := by
  simp only [pushGlobals, Except.bind_eq_ok, require_eq_ok, Except.pure_eq_ok, Prod.mk.injEq] at h
  obtain ⟨_, _, _, _, w, loop, rfl, -⟩ := h
  refine foldlM_ok (fun _ w => w = { s with globals := w.globals } ∧ (s.Keyed → w.Keyed)) loop ?_ ?_
  · split
    · exact ⟨rfl, id⟩
    · refine ⟨rfl, fun keyed => ⟨keyed.own, ?_⟩⟩
      intro other rows found email mem
      simp only [Std.ExtTreeMap.getElem?_insert] at found
      split at found
      · cases found
        simp at mem
      · exact keyed.pushed other rows found email mem
  · rintro _ row v w - ⟨rest, keyed⟩ step
    obtain ⟨rest', keyed'⟩ := pushRow_rest step
    exact ⟨by rw [rest', rest], fun held => keyed' (keyed held)⟩

theorem pushGlobals_tended (reset : String → Prop) {master : String} {rows : List PushedRow} {now : Int}
    {s t : State} {obj : Reply} (h : pushGlobals master rows now s = .ok (t, obj)) : Tended reset s t := by
  obtain ⟨rest, keyed⟩ := pushGlobals_rest h
  have traffic : t.traffic = s.traffic := by rw [rest]
  have marks : t.running = s.running ∧ t.checkpointAt = s.checkpointAt ∧ t.schema = s.schema ∧
      t.guid = s.guid ∧ t.nextClientID = s.nextClientID := by
    rw [rest]
    exact ⟨rfl, rfl, rfl, rfl, rfl⟩
  have same := Tended.frame (s := s) (t := { s with traffic := t.traffic }) reset ⟨rfl, rfl, rfl, rfl, rfl⟩ traffic rfl
  exact ⟨marks, keyed, same.use, same.row⟩

theorem renameTraffic_tended (reset : String → Prop) {oldEmail email : String} {s t : State}
    (h : renameTraffic oldEmail email s = .ok t) : Tended reset s t := by
  simp only [renameTraffic, Except.bind_eq_ok, require_eq_ok] at h
  obtain ⟨_, fresh, h⟩ := h
  cases row : s.traffic[oldEmail]? with
  | none =>
      simp only [row, Except.pure_eq_ok] at h
      subst h
      exact .frame _ ⟨rfl, rfl, rfl, rfl, rfl⟩ rfl rfl
  | some t0 =>
      simp only [row, Except.pure_eq_ok] at h
      subst h
      refine ⟨⟨rfl, rfl, rfl, rfl, rfl⟩, ?_, ?_, ?_⟩
      · intro keyed
        exact (keyed.drop oldEmail).insert (t := { t0 with email }) rfl
      · intro other old new found found' _
        rw [clearGlobals_traffic, Std.ExtTreeMap.getElem?_insert] at found'
        split at found'
        · rename_i same
          obtain rfl : email = other := by simpa using same
          exact absurd (mem_iff_some.mpr ⟨old, found⟩) fresh
        · rw [Std.ExtTreeMap.getElem?_erase] at found'
          split at found'
          · cases found'
          · rw [found] at found'
            cases found'
            exact ⟨rfl, rfl, rfl, rfl, rfl⟩
      · intro other new found
        rw [clearGlobals_traffic, Std.ExtTreeMap.getElem?_insert] at found
        split at found
        · cases found
          exact ⟨oldEmail, t0, row, rfl, .inl rfl, .inl rfl⟩
        · rw [Std.ExtTreeMap.getElem?_erase] at found
          split at found
          · cases found
          · exact ⟨other, new, found, rfl, .inl rfl, .inl rfl⟩

theorem moveTraffic_tended (reset : String → Prop) {op : ClientOp} {oldEmail email : String} {s t : State}
    (h : moveTraffic op oldEmail email s = .ok t) : Tended reset s t := by
  unfold moveTraffic at h
  split at h
  · exact renameTraffic_tended reset h
  · cases h
    exact .frame _ ⟨rfl, rfl, rfl, rfl, rfl⟩ rfl rfl

theorem moveTraffic_inbounds {op : ClientOp} {oldEmail email : String} {s t : State}
    (h : moveTraffic op oldEmail email s = .ok t) : t.inbounds = s.inbounds ∧ t.nextID = s.nextID := by
  unfold moveTraffic at h
  split at h
  · simp only [renameTraffic, Except.bind_eq_ok] at h
    obtain ⟨_, _, h⟩ := h
    split at h
    · cases h
      exact ⟨rfl, rfl⟩
    · cases h
      exact ⟨rfl, rfl⟩
  · cases h
    exact ⟨rfl, rfl⟩

theorem changeClient_parts {oldEmail : String} {c : Client} {ids : List Int} {op : ClientOp} {s t : State}
    {obj : Reply} (h : changeClient oldEmail c ids op s = .ok (t, obj)) :
    ∃ (stored : Client) (mid : State), storedClient op c = .ok stored ∧ (op = .update → oldEmail ∈ s.traffic) ∧
      moveTraffic op oldEmail (stored.text "email") s = .ok mid ∧
      t = { mid with inbounds := mid.inbounds.map (changeInbound oldEmail stored ids op) } := by
  simp only [changeClient, Except.bind_eq_ok, require_eq_ok, Except.pure_eq_ok, Prod.mk.injEq] at h
  obtain ⟨stored, normal, _, _, _, _, _, present, mid, moved, rfl, -⟩ := h
  exact ⟨stored, mid, normal, present, moved, rfl⟩

theorem changeClient_tended (reset : String → Prop) {oldEmail : String} {c : Client} {ids : List Int}
    {op : ClientOp} {s t : State} {obj : Reply} (h : changeClient oldEmail c ids op s = .ok (t, obj)) :
    Tended reset s t := by
  obtain ⟨stored, mid, _, _, moved, rfl⟩ := changeClient_parts h
  have tended := moveTraffic_tended reset moved
  exact ⟨tended.marks, fun keyed => ⟨(tended.keyed keyed).own, (tended.keyed keyed).pushed⟩, tended.use, tended.row⟩

theorem putInbound_parts {cfg : Config} {ib : Inbound} {id : Int} {s t : State} {obj : Reply}
    (h : putInbound cfg ib id s = .ok (t, obj)) : ∃ stored : Inbound,
      (∃ (place : Int) (old : Inbound), 0 < place ∧ s.find place = some old ∧ t = { s with
        inbounds := updateFirst (·.id == place) (fun _ => { stored with id := place, up := old.up, down := old.down })
          s.inbounds }) ∨ t = (appendInbound stored s).1 := by
  simp only [putInbound, Except.bind_eq_ok] at h
  obtain ⟨_, _, stored, _, h⟩ := h
  refine ⟨stored, ?_⟩
  split at h
  · rename_i positive
    unfold replaceInbound at h
    cases found : s.find (targetID s stored id) with
    | none => simp [found] at h
    | some old =>
        simp only [found, Except.ok.injEq, Prod.mk.injEq] at h
        exact .inl ⟨targetID s stored id, old, positive, found, h.1.symm⟩
  · simp only [Except.pure_eq_ok] at h
    exact .inr (congrArg Prod.fst h).symm

theorem putInbound_tended (reset : String → Prop) {cfg : Config} {ib : Inbound} {id : Int} {s t : State}
    {obj : Reply} (h : putInbound cfg ib id s = .ok (t, obj)) : Tended reset s t := by
  rcases putInbound_parts h with ⟨stored, ⟨place, old, _, _, rfl⟩ | rfl⟩
  · exact .frame _ ⟨rfl, rfl, rfl, rfl, rfl⟩ rfl rfl
  · exact .frame _ ⟨rfl, rfl, rfl, rfl, rfl⟩ rfl rfl

theorem edit_tended {cfg : Config} {now : Int} {r : Request} {s t : State} {obj : Reply}
    (h : r.edit cfg now s = .ok (t, obj)) : Tended r.resets s t := by
  cases r with
  | putInbound ib id => exact putInbound_tended _ h
  | deleteInbound id =>
      simp only [Request.edit, deleteInbound, Except.ok.injEq, Prod.mk.injEq] at h
      obtain ⟨rfl, -⟩ := h
      exact .frame _ ⟨rfl, rfl, rfl, rfl, rfl⟩ rfl rfl
  | changeClient oldEmail c ids op => exact changeClient_tended _ h
  | resetTraffic email id => exact (resetTraffic_tended h).1
  | resetClientTraffics emails => exact (resetClientTraffics_tended h).1
  | pushGlobals master rows => exact pushGlobals_tended _ h
  | subSortIndex id index =>
      simp only [Request.edit, subSortIndex, Except.bind_eq_ok, require_eq_ok, Except.pure_eq_ok,
        Prod.mk.injEq] at h
      obtain ⟨_, _, rfl, -⟩ := h
      exact .frame _ ⟨rfl, rfl, rfl, rfl, rfl⟩ rfl rfl

/-! ## The client lists after an update -/

theorem mem_changeInbound_update {oldEmail : String} {stored c : Client} {ids : List Int} {ib : Inbound}
    (mem : c ∈ (changeInbound oldEmail stored ids .update ib).clientsOrNil) :
    c = stored ∨ (c ∈ ib.clientsOrNil ∧ c.text "email" ≠ oldEmail) := by
  simp only [changeInbound, reduceCtorEq, false_and, ↓reduceIte, Inbound.clientsOrNil_setClients,
    List.mem_flatMap] at mem
  obtain ⟨prev, there, mem⟩ := mem
  unfold changeEntry at mem
  split at mem
  · exact .inl (List.mem_singleton.mp mem)
  · rename_i differs
    cases List.mem_singleton.mp mem
    refine .inr ⟨there, fun same => differs ?_⟩
    simp [matchesEntry, same]

theorem stored_mem_changeInbound_update {oldEmail : String} {stored c : Client} {ids : List Int} {ib : Inbound}
    (mem : c ∈ ib.clientsOrNil) (own : c.text "email" = oldEmail) :
    stored ∈ (changeInbound oldEmail stored ids .update ib).clientsOrNil := by
  simp only [changeInbound, reduceCtorEq, false_and, ↓reduceIte, Inbound.clientsOrNil_setClients,
    List.mem_flatMap]
  exact ⟨c, mem, by simp [changeEntry, matchesEntry, own]⟩

theorem edit_gone {cfg : Config} {now : Int} {r : Request} {s t : State} {obj : Reply}
    (h : r.edit cfg now s = .ok (t, obj)) {email : String} (was : email ∈ s.traffic) (gone : email ∉ t.traffic) :
    ∀ c ∈ entries t.inbounds, c.text "email" ≠ email := by
  have stays (same : ∀ other : String, other ∈ t.traffic ↔ other ∈ s.traffic) :
      ∀ c ∈ entries t.inbounds, c.text "email" ≠ email := absurd ((same email).mpr was) gone
  cases r with
  | putInbound ib id =>
      rcases putInbound_parts h with ⟨stored, ⟨place, old, _, _, rfl⟩ | rfl⟩
      · exact stays fun _ => Iff.rfl
      · exact stays fun _ => Iff.rfl
  | deleteInbound id =>
      simp only [Request.edit, deleteInbound, Except.ok.injEq, Prod.mk.injEq] at h
      obtain ⟨rfl, -⟩ := h
      exact stays fun _ => Iff.rfl
  | changeClient oldEmail c ids op =>
      obtain ⟨stored, mid, _, _, moved, rfl⟩ := changeClient_parts h
      unfold moveTraffic at moved
      split at moved
      · rename_i moves
        obtain ⟨rfl, differs⟩ := moves
        have same : email = oldEmail := by
          by_contra other
          simp only [renameTraffic, Except.bind_eq_ok, require_eq_ok] at moved
          obtain ⟨_, _, moved⟩ := moved
          split at moved
          · simp only [Except.pure_eq_ok] at moved
            subst moved
            exact gone was
          · simp only [Except.pure_eq_ok] at moved
            subst moved
            refine gone (Std.ExtTreeMap.mem_insert.mpr (.inr (Std.ExtTreeMap.mem_erase.mpr ⟨?_, was⟩)))
            simpa using Ne.symm other
        intro entry mem
        obtain ⟨ib, there, here⟩ := mem_entries.mp mem
        obtain ⟨before, _, rfl⟩ := List.mem_map.mp there
        rcases mem_changeInbound_update here with rfl | ⟨_, other⟩
        · rwa [same]
        · rwa [same]
      · cases moved
        exact stays fun _ => Iff.rfl
  | resetTraffic email' id => exact stays (resetTraffic_tended h).2
  | resetClientTraffics emails => exact stays (resetClientTraffics_tended h).2
  | pushGlobals master rows =>
      refine stays fun other => ?_
      rw [(pushGlobals_rest h).1]
  | subSortIndex id index =>
      simp only [Request.edit, subSortIndex, Except.bind_eq_ok, require_eq_ok, Except.pure_eq_ok,
        Prod.mk.injEq] at h
      obtain ⟨_, _, rfl, -⟩ := h
      exact stays fun _ => Iff.rfl

end State

end ThreeXNode.Leaf
