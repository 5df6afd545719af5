import ThreeXNode.Leaf.Growth
import ThreeXNode.Leaf.Table

namespace ThreeXNode.Leaf
open Library State

structure Traffic.Counted (nextClientID : Int) (t : Traffic) : Prop where
  up : 0 ≤ t.up ∧ t.up < 9223372036854775808
  down : 0 ≤ t.down ∧ t.down < 9223372036854775808
  id : 1 ≤ t.id ∧ t.id < nextClientID

structure State.Pushed (s : State) : Prop where
  masters : s.globals.size ≤ 8
  counted : ∀ (master : String) (rows : Rows), s.globals[master]? = some rows →
    ∀ (email : String) (g : Global), rows[email]? = some g → 0 ≤ g.up ∧ 0 ≤ g.down

structure State.Numbered (s : State) : Prop where
  positive : 1 ≤ s.nextID
  distinct : (s.inbounds.map (·.id)).Nodup
  range : ∀ ib ∈ s.inbounds, 1 ≤ ib.id ∧ ib.id < s.nextID

/-- The states a node may write. -/
structure State.Storable (s : State) : Prop extends s.Mirrored, s.Pushed, s.Numbered where
  schema : s.schema = 1
  guid : s.guid ≠ ""
  nextClientID : 1 ≤ s.nextClientID
  few : s.inbounds.length ≤ maxInbounds
  fewClients : s.traffic.size ≤ maxClients
  ports : (s.inbounds.map (·.port)).Nodup
  tags : (s.inbounds.map (·.tag)).Nodup
  valid : ∀ ib ∈ s.inbounds, validateInbound ib = .ok ()
  rows : ∀ (email : String) (t : Traffic), s.traffic[email]? = some t → t.Counted s.nextClientID

theorem fresh_storable {guid : String} (identity : guid ≠ "") : (fresh guid).Storable where
  toMirrored := fresh_mirrored guid
  masters := by simp [fresh]
  counted := by simp [fresh]
  positive := by simp [fresh]
  distinct := by simp [fresh]
  range := by simp [fresh]
  schema := rfl
  guid := identity
  nextClientID := by simp [fresh]
  few := by simp [fresh]
  fewClients := by simp [fresh]
  ports := by simp [fresh]
  tags := by simp [fresh]
  valid := by simp [fresh]
  rows := by simp [fresh]

theorem State.Storable.marked {s : State} (w : s.Storable) (running : Bool) (checkpointAt : Int) :
    { s with running, checkpointAt }.Storable :=
  ⟨⟨⟨w.own, w.toMirrored.pushed⟩, w.decodes, w.shown, w.owner⟩, ⟨w.masters, w.counted⟩,
    ⟨w.positive, w.distinct, w.range⟩, w.schema, w.guid, w.nextClientID, w.few, w.fewClients, w.ports, w.tags, w.valid,
    w.rows⟩

/-! ## Storable states pass the checks of a start -/

theorem mapError_eq_ok {α ε ε' : Type*} {x : Except ε α} {f : ε → ε'} {a : α} : x.mapError f = .ok a ↔ x = .ok a := by
  cases x <;> simp [Except.mapError]

private theorem checkIdentities_ok {nextID : Int} {ids ports : List Int} {tags : List String} {inbounds : List Inbound}
    (range : ∀ ib ∈ inbounds, 1 ≤ ib.id ∧ ib.id < nextID) (valid : ∀ ib ∈ inbounds, validateInbound ib = .ok ())
    (newIDs : (inbounds.map (·.id)).Nodup ∧ ∀ ib ∈ inbounds, ib.id ∉ ids)
    (newPorts : (inbounds.map (·.port)).Nodup ∧ ∀ ib ∈ inbounds, ib.port ∉ ports)
    (newTags : (inbounds.map (·.tag)).Nodup ∧ ∀ ib ∈ inbounds, ib.tag ∉ tags) :
    checkIdentities nextID ids ports tags inbounds = .ok () := by
  induction inbounds generalizing ids ports tags with
  | nil => rfl
  | cons ib rest ih =>
      have apart {α : Type} [DecidableEq α] {f : Inbound → α} {met : List α}
          (new : ((ib :: rest).map f).Nodup ∧ ∀ x ∈ ib :: rest, f x ∉ met) :
          (rest.map f).Nodup ∧ ∀ x ∈ rest, f x ∉ f ib :: met := by
        obtain ⟨distinct, unmet⟩ := new
        simp only [List.map_cons, List.nodup_cons, List.mem_map, not_exists, not_and] at distinct
        refine ⟨distinct.2, fun x mem => ?_⟩
        rw [List.mem_cons, not_or]
        exact ⟨distinct.1 x mem, unmet x (List.mem_cons_of_mem _ mem)⟩
      have here := range ib List.mem_cons_self
      simp only [checkIdentities, Except.bind_eq_ok, require_eq_ok, mapError_eq_ok]
      refine ⟨(), ?_, (), valid ib List.mem_cons_self, ?_⟩
      · rintro (low | high | id | port | tag)
        · omega
        · omega
        · exact newIDs.2 ib List.mem_cons_self id
        · exact newPorts.2 ib List.mem_cons_self port
        · exact newTags.2 ib List.mem_cons_self tag
      · exact ih (fun x mem => range x (List.mem_cons_of_mem _ mem)) (fun x mem => valid x (List.mem_cons_of_mem _ mem))
          (apart newIDs) (apart newPorts) (apart newTags)

theorem State.Storable.checkStored {s : State} (w : s.Storable) : checkStored s = .ok () := by
  have positive := w.positive
  have next := w.nextClientID
  have few := w.few
  have fewClients := w.fewClients
  have masters := w.masters
  simp only [Leaf.checkStored, Except.bind_eq_ok, require_eq_ok, List.forM_eq_forM, forM_eq_ok, Prod.forall,
    Std.ExtTreeMap.mem_toList_iff_getElem?_eq_some, checkTraffic, checkRows]
  refine ⟨(), ?_, (), ?_, (), ?_, (), ?_, ?_⟩
  · rintro (schema | guid | low | low)
    · exact schema w.schema
    · exact w.guid guid
    · omega
    · omega
  · omega
  · exact checkIdentities_ok w.range w.valid ⟨w.distinct, by simp⟩ ⟨w.ports, by simp⟩ ⟨w.tags, by simp⟩
  · intro email t found
    obtain ⟨up, down, id⟩ := w.rows email t found
    rintro (other | low | low | low | high)
    · exact other (w.own email t found)
    · omega
    · omega
    · omega
    · omega
  · intro master rows found
    refine ⟨(), ?_, ?_⟩
    · exact (size_le_of_keys fun email mem => w.pushed master rows found email mem).trans w.fewClients
    · intro email g here
      obtain ⟨up, down⟩ := w.counted master rows found email g here
      omega

/-! ## Requests keep a state storable -/

theorem checkInbounds_ok {cfg : Config} {ports : List Int} {tags : List String} {inbounds : List Inbound}
    (checked : checkInbounds cfg ports tags inbounds = .ok ()) :
    (∀ ib ∈ inbounds, validateInbound ib = .ok () ∧ ib.port ≠ cfg.apiPort ∧ ib.port ∉ ports ∧ ib.tag ∉ tags) ∧
      (inbounds.map (·.port)).Nodup ∧ (inbounds.map (·.tag)).Nodup := by
  induction inbounds generalizing ports tags with
  | nil => simp
  | cons ib rest ih =>
      simp only [checkInbounds, Except.bind_eq_ok, require_eq_ok] at checked
      obtain ⟨_, valid, _, api, _, new, checked⟩ := checked
      obtain ⟨each, portsNodup, tagsNodup⟩ := ih checked
      refine ⟨?_, ?_, ?_⟩
      · intro x mem
        rcases List.mem_cons.mp mem with rfl | mem
        · exact ⟨valid, api, new.1, new.2⟩
        · obtain ⟨valid, api, port, tag⟩ := each x mem
          exact ⟨valid, api, fun met => port (List.mem_cons_of_mem _ met), fun met => tag (List.mem_cons_of_mem _ met)⟩
      · refine List.nodup_cons.mpr ⟨fun met => ?_, portsNodup⟩
        obtain ⟨x, mem, same⟩ := List.mem_map.mp met
        exact (each x mem).2.2.1 (by simp [same])
      · refine List.nodup_cons.mpr ⟨fun met => ?_, tagsNodup⟩
        obtain ⟨x, mem, same⟩ := List.mem_map.mp met
        exact (each x mem).2.2.2 (by simp [same])

theorem State.Numbered.of_map {s t : State} (n : s.Numbered) (next : t.nextID = s.nextID)
    (same : t.inbounds.map (·.id) = s.inbounds.map (·.id)) : t.Numbered where
  positive := next ▸ n.positive
  distinct := same ▸ n.distinct
  range := by
    intro ib mem
    have there : ib.id ∈ s.inbounds.map (·.id) := same ▸ List.mem_map_of_mem mem
    obtain ⟨old, mem, same⟩ := List.mem_map.mp there
    rw [next, ← same]
    exact n.range old mem

theorem resetClient_numbered {s : State} (n : s.Numbered) (email : String) : (resetClient s email).Numbered := by
  unfold resetClient
  cases s.traffic[email]? with
  | none => exact n
  | some t => exact n.of_map rfl (by simp [setClientField, clearGlobals, Function.comp_def, Inbound.setClients])

theorem edit_numbered {cfg : Config} {now : Int} {r : Request} {s t : State} {obj : Reply} (n : s.Numbered)
    (h : r.edit cfg now s = .ok (t, obj)) : t.Numbered := by
  cases r with
  | putInbound ib id =>
      rcases putInbound_parts h with ⟨stored, ⟨place, old, _, _, rfl⟩ | rfl⟩
      · refine n.of_map rfl (map_updateFirst _ ?_)
        intro ib _ found
        simpa using (show ib.id = place by simpa using found).symm
      · refine ⟨?_, ?_, ?_⟩
        · exact le_add_of_le_of_nonneg n.positive (by omega)
        · simp only [appendInbound, List.map_append, List.map_cons, List.map_nil]
          refine List.nodup_append.mpr ⟨n.distinct, by simp, ?_⟩
          intro x mem y new same
          obtain ⟨ib, there, rfl⟩ := List.mem_map.mp mem
          have below := (n.range ib there).2
          rw [List.mem_singleton.mp new] at same
          omega
        · intro ib mem
          have positive := n.positive
          rcases List.mem_append.mp mem with mem | mem
          · have range := n.range ib mem
            simp only [appendInbound]
            omega
          · rw [List.mem_singleton.mp mem]
            simp only [appendInbound]
            omega
  | deleteInbound id =>
      simp only [Request.edit, deleteInbound, Except.ok.injEq, Prod.mk.injEq] at h
      obtain ⟨rfl, -⟩ := h
      refine ⟨n.positive, n.distinct.sublist (List.Sublist.map _ List.eraseP_sublist), ?_⟩
      intro ib mem
      exact n.range ib (List.mem_of_mem_eraseP mem)
  | changeClient oldEmail c ids op =>
      obtain ⟨stored, mid, _, _, moved, rfl⟩ := changeClient_parts h
      obtain ⟨inbounds, next⟩ := moveTraffic_inbounds moved
      refine n.of_map next ?_
      simp [inbounds, Function.comp_def, changeInbound, Inbound.setClients]
  | resetTraffic email id =>
      simp only [Request.edit, resetTraffic, Except.bind_eq_ok] at h
      obtain ⟨_, _, _, _, h⟩ := h
      split at h
      · cases h
        refine n.of_map rfl ?_
        simp only [List.map_map, List.map_inj_left, Function.comp_apply]
        intro ib _
        split <;> rfl
      · split at h
        · cases h
          exact resetClient_numbered n email
        · cases h
          exact n
  | resetClientTraffics emails =>
      simp only [Request.edit, resetClientTraffics, Except.ok.injEq, Prod.mk.injEq] at h
      obtain ⟨rfl, -⟩ := h
      refine foldl_invariant (fun w : State × Nat => w.1.Numbered) n ?_
      rintro ⟨w, count⟩ email - held
      simp only
      split
      · exact resetClient_numbered held email
      · exact held
  | pushGlobals master rows =>
      have rest := (pushGlobals_rest h).1
      exact n.of_map (by rw [rest]) (by rw [rest])
  | subSortIndex id index =>
      simp only [Request.edit, subSortIndex, Except.bind_eq_ok] at h
      obtain ⟨_, _, h⟩ := h
      cases h
      exact n.of_map rfl (map_updateFirst _ fun _ _ _ => rfl)

theorem State.Pushed.clear {s : State} (p : s.Pushed) (email : String) : (s.clearGlobals email).Pushed where
  masters := (clearGlobals_size s email).trans p.masters
  counted := by
    intro master rows found other g here
    rw [clearGlobals_globals, Option.map_eq_some_iff] at found
    obtain ⟨before, there, rfl⟩ := found
    rw [Std.ExtTreeMap.getElem?_erase] at here
    split at here
    · cases here
    · exact p.counted master before there other g here

theorem resetClient_pushed {s : State} (p : s.Pushed) (email : String) : (resetClient s email).Pushed := by
  unfold resetClient
  cases s.traffic[email]? with
  | none => exact p
  | some t =>
      have cleared := p.clear email
      exact ⟨cleared.masters, cleared.counted⟩

theorem moveTraffic_pushed {op : ClientOp} {oldEmail email : String} {s t : State} (p : s.Pushed)
    (h : moveTraffic op oldEmail email s = .ok t) : t.Pushed := by
  unfold moveTraffic at h
  split at h
  · simp only [renameTraffic, Except.bind_eq_ok] at h
    obtain ⟨_, _, h⟩ := h
    split at h
    · cases h
      exact p
    · cases h
      have cleared := p.clear oldEmail
      exact ⟨cleared.masters, cleared.counted⟩
  · cases h
    exact p

theorem State.Pushed.insert {s : State} (p : s.Pushed) {master : String} {rows : Rows}
    (room : master ∈ s.globals ∨ s.globals.size < 8)
    (counted : ∀ (email : String) (g : Global), rows[email]? = some g → 0 ≤ g.up ∧ 0 ≤ g.down) :
    { s with globals := s.globals.insert master rows }.Pushed where
  masters := by
    have masters := p.masters
    simp only [Std.ExtTreeMap.size_insert]
    split
    · exact masters
    · rename_i new
      rcases room with known | room
      · exact absurd known new
      · omega
  counted := by
    intro other rows' found email g here
    rw [Std.ExtTreeMap.getElem?_insert] at found
    split at found
    · cases found
      exact counted email g here
    · exact p.counted other rows' found email g here

private theorem pushRow_pushed {master : String} {now : Int} {s t : State} {row : PushedRow}
    (p : s.Pushed ∧ master ∈ s.globals) (h : pushRow master now s row = .ok t) :
    t.Pushed ∧ master ∈ t.globals := by
  simp only [pushRow, Except.bind_eq_ok, require_eq_ok] at h
  obtain ⟨_, positive, h⟩ := h
  split at h
  · cases h
    refine ⟨p.1.insert (.inl p.2) ?_, by simp⟩
    intro email g here
    rw [Std.ExtTreeMap.getElem?_insert] at here
    split at here
    · cases here
      exact positive
    · cases before : s.globals[master]? with
      | none => simp [before] at here
      | some rows =>
          rw [before] at here
          exact p.1.counted master rows before email g here
  · cases h
    exact p

theorem pushGlobals_pushed {master : String} {rows : List PushedRow} {now : Int} {s t : State} {obj : Reply}
    (p : s.Pushed) (h : pushGlobals master rows now s = .ok (t, obj)) : t.Pushed := by
  simp only [pushGlobals, Except.bind_eq_ok, require_eq_ok, Except.pure_eq_ok, Prod.mk.injEq] at h
  obtain ⟨_, _, _, room, w, loop, rfl, -⟩ := h
  have pushed := foldlM_ok (fun _ w => w.Pushed ∧ master ∈ w.globals) loop ?_
    fun _ row v w _ held step => pushRow_pushed held step
  · exact pushed.1
  · split
    · rename_i known
      exact ⟨p, known⟩
    · rename_i new
      have fewer : s.globals.size < 8 := by
        by_contra full
        exact room ⟨by omega, new⟩
      exact ⟨p.insert (.inr fewer) (by simp), by simp⟩

theorem edit_pushed {cfg : Config} {now : Int} {r : Request} {s t : State} {obj : Reply} (p : s.Pushed)
    (h : r.edit cfg now s = .ok (t, obj)) : t.Pushed := by
  cases r with
  | putInbound ib id =>
      rcases putInbound_parts h with ⟨stored, ⟨place, old, _, _, rfl⟩ | rfl⟩
      · exact ⟨p.masters, p.counted⟩
      · exact ⟨p.masters, p.counted⟩
  | deleteInbound id =>
      cases h
      exact ⟨p.masters, p.counted⟩
  | changeClient oldEmail c ids op =>
      obtain ⟨stored, mid, _, _, moved, rfl⟩ := changeClient_parts h
      have pushed := moveTraffic_pushed p moved
      exact ⟨pushed.masters, pushed.counted⟩
  | resetTraffic email id =>
      simp only [Request.edit, resetTraffic, Except.bind_eq_ok] at h
      obtain ⟨_, _, _, _, h⟩ := h
      split at h
      · cases h
        exact ⟨p.masters, p.counted⟩
      · split at h
        · cases h
          exact resetClient_pushed p email
        · cases h
          exact p
  | resetClientTraffics emails =>
      simp only [Request.edit, resetClientTraffics, Except.ok.injEq, Prod.mk.injEq] at h
      obtain ⟨rfl, -⟩ := h
      refine foldl_invariant (fun w : State × Nat => w.1.Pushed) p ?_
      rintro ⟨w, count⟩ email - held
      simp only
      split
      · exact resetClient_pushed held email
      · exact held
  | pushGlobals master rows => exact pushGlobals_pushed p h
  | subSortIndex id index =>
      simp only [Request.edit, subSortIndex, Except.bind_eq_ok] at h
      obtain ⟨_, _, h⟩ := h
      cases h
      exact ⟨p.masters, p.counted⟩

theorem State.Storable.request {cfg : Config} {now : Int} {r : Request} {s t : State} {obj : Reply} (w : s.Storable)
    (h : r.next cfg now s = .ok (t, obj)) : t.Storable := by
  have mirrored := w.toMirrored.request h
  obtain ⟨mid, edited, few, checked, synced⟩ := next_parts h
  have synced := syncClients_synced synced
  have tended := edit_tended edited
  have numbered := edit_numbered w.toNumbered edited
  have pushed := edit_pushed w.toPushed edited
  obtain ⟨valid, ports, tags⟩ := checkInbounds_ok checked
  have inbounds : t.inbounds = mid.inbounds := by rw [synced.rest]
  obtain ⟨_, _, schema, guid, nextClientID⟩ := tended.marks
  have schema' : t.schema = mid.schema := by rw [synced.rest]
  have guid' : t.guid = mid.guid := by rw [synced.rest]
  have grows := synced.grows
  refine ⟨mirrored, ⟨?_, ?_⟩, numbered.of_map (by rw [synced.rest]) (by rw [inbounds]), schema'.trans (schema.trans
    w.schema), ?_, ?_, inbounds ▸ few, synced.few, inbounds ▸ ports, inbounds ▸ tags, ?_, ?_⟩
  · exact (size_le_of_keys synced.master).trans pushed.masters
  · intro master rows found email g here
    obtain ⟨before, there, sub⟩ := synced.globals master rows found
    exact pushed.counted master before there email g (sub email g here).1
  · rw [guid', guid]
    exact w.guid
  · have old := w.nextClientID
    omega
  · intro ib mem
    rw [inbounds] at mem
    exact (valid ib mem).1
  · intro email row found
    rcases synced.rows email row found with ⟨moved, here, use⟩ | ⟨_, _, up, down, low, high⟩
    · obtain ⟨was, old, there, id, up, down⟩ := tended.row email moved here
      have counted := w.rows was old there
      have ids := counted.id
      constructor
      · rw [use.up]
        rcases up with up | up <;> rw [up]
        · exact counted.up
        · decide
      · rw [use.down]
        rcases down with down | down <;> rw [down]
        · exact counted.down
        · decide
      · rw [use.id, id]
        omega
    · have old := w.nextClientID
      constructor
      · rw [up]
        decide
      · rw [down]
        decide
      · omega

/-! ## Samples keep a state storable -/

def Fits (baseline : Baseline) (values : Values) (s : State) : Prop :=
  ∀ (email : String) (t : Traffic), s.traffic[email]? = some t →
    t.up + credited baseline values true email .uplink < 9223372036854775808 ∧
      t.down + credited baseline values true email .downlink < 9223372036854775808

private theorem grown_nonneg {x y : Int} (range : 0 ≤ x) (more : 0 ≤ y) (fits : x + y < 9223372036854775808) :
    0 ≤ wrap64 (x + y) ∧ wrap64 (x + y) < 9223372036854775808 := by
  rw [wrap64_eq ⟨by omega, fits⟩]
  omega

theorem sampled_pushed {s : State} (p : s.Pushed) {baseline : Baseline} {values : Values} {now : Int} :
    (s.sampled baseline values now).Pushed := by
  have read : (values.foldl (State.credit now baseline) s).globals = s.globals := by
    refine foldl_frame State.globals fun t entry _ => ?_
    unfold State.credit State.creditUser State.creditInbound
    simp only
    repeat' split
    all_goals rfl
  let t := (values.foldl (State.credit now baseline) s).traffic.keys.foldl (State.disableExhausted now)
    (values.foldl (State.credit now baseline) s)
  have disabled : t.globals = s.globals := by
    refine (foldl_frame State.globals fun t email _ => ?_).trans read
    unfold State.disableExhausted State.disableClient
    repeat' split
    all_goals rfl
  have before : (t.stopSpent now).Pushed :=
    ⟨by simpa [State.stopSpent, disabled] using p.masters, by simpa [State.stopSpent, disabled] using p.counted⟩
  constructor
  · refine le_trans (size_le_of_keys fun master mem => ?_) before.masters
    obtain ⟨rows, found⟩ := mem_iff_some.mp mem
    obtain ⟨old, there, _⟩ := purgeGlobals_sub found
    exact mem_iff_some.mpr ⟨old, there⟩
  · intro master rows found email g here
    obtain ⟨old, there, rfl⟩ := purgeGlobals_sub found
    rw [Std.ExtTreeMap.getElem?_filter', Option.filter_eq_some_iff] at here
    exact before.counted master old there email g here.1

theorem State.Storable.sampled {s : State} (w : s.Storable) {baseline : Baseline} {values : Values} {now : Int}
    (fits : Fits baseline values s) : (s.sampled baseline values now).Storable := by
  have mirrored := w.toMirrored.sampled baseline values now
  have grows := sampled_grows s baseline values now
  obtain ⟨_, _, schema, guid, nextID, nextClientID⟩ := grows.marks
  obtain ⟨f, grown, inbounds⟩ := grows.inbounds
  have mapped {α : Type} (g : Inbound → α) (same : ∀ ib, g (f ib) = g ib) :
      (s.sampled baseline values now).inbounds.map g = s.inbounds.map g := by
    rw [inbounds, List.map_map]
    exact List.map_congr_left fun ib _ => same ib
  refine ⟨mirrored, ?_, w.toNumbered.of_map nextID (mapped _ grown.id), schema.trans w.schema, guid ▸ w.guid,
    nextClientID ▸ w.nextClientID, ?_, ?_, mapped _ grown.port ▸ w.ports, mapped _ grown.tag ▸ w.tags, ?_, ?_⟩
  · exact sampled_pushed w.toPushed
  · rw [inbounds, List.length_map]
    exact w.few
  · exact (size_le_of_keys fun email mem => (grows.mem email).mp mem).trans w.fewClients
  · intro ib mem
    rw [inbounds] at mem
    obtain ⟨old, there, rfl⟩ := List.mem_map.mp mem
    exact grown.valid old (w.valid old there)
  · intro email new found
    obtain ⟨old, before⟩ := mem_iff_some.mp ((grows.mem email).mp (mem_iff_some.mpr ⟨new, found⟩))
    obtain ⟨up, down, id⟩ := w.rows email old before
    obtain ⟨fitsUp, fitsDown⟩ := fits email old before
    obtain ⟨new', found', sameID, newUp, newDown⟩ :=
      grows.row email old before ⟨by omega, up.2⟩ ⟨by omega, down.2⟩
    rw [found] at found'
    cases found'
    constructor
    · rw [newUp]
      exact grown_nonneg up.1 (credited_nonneg ..) fitsUp
    · rw [newDown]
      exact grown_nonneg down.1 (credited_nonneg ..) fitsDown
    · rw [sameID, nextClientID]
      exact id

theorem request_tags {cfg : Config} {now : Int} {r : Request} {s t : State} {obj : Reply}
    (h : r.next cfg now s = .ok (t, obj)) : (t.inbounds.map (·.tag)).Nodup := by
  obtain ⟨mid, _, _, checked, synced⟩ := next_parts h
  rw [(syncClients_synced synced).rest]
  exact (checkInbounds_ok checked).2.2

def Event.Fits (s : State) : Event → Prop
  | .sample baseline values _ => Leaf.Fits baseline values s
  | _ => True

theorem State.Storable.event {cfg : Config} {s t : State} {e : Event} (w : s.Storable) (fits : e.Fits s)
    (h : (store cfg).next s e = some t) : t.Storable := by
  cases e with
  | request now r =>
      obtain ⟨obj, step⟩ := store_request h
      exact w.request step
  | sample baseline values now =>
      cases h
      exact w.sampled fits
  | mark running checkpointAt =>
      cases h
      exact w.marked running checkpointAt

theorem store_storable {cfg : Config} {guid : String} {s : State} (identity : guid ≠ "")
    (reached : (store cfg).Path (fun s e => e.Fits s) (fresh guid) s) : s.Storable :=
  reached.invariant State.Storable (fresh_storable identity) fun _ _ _ w fits step => w.event fits step

/-! ## How deep a reachable state nests -/

/-- A payload that nests so deep at most that the state it goes into can be decoded again: an inbound is two brackets deep
in it, and a client five. -/
def Event.Shallow : Event → Prop
  | .request _ (.putInbound ib _) => ib.nesting + 2 ≤ maxNesting
  | .request _ (.changeClient _ c _ _) => Fields.nesting c + 5 ≤ maxNesting
  | _ => True

theorem State.Nests.event {cfg : Config} {s t : State} {e : Event} (own : s.Nests 9994) (shallow : e.Shallow)
    (h : (store cfg).next s e = some t) : t.Nests 9994 := by
  cases e with
  | request now r =>
      obtain ⟨obj, step⟩ := store_request h
      obtain ⟨mid, edited, -, -, synced⟩ := next_parts step
      have payload : r.Nests 9994 := by
        cases r with
        | putInbound ib id => exact Nat.le_of_add_le_add_right shallow
        | changeClient oldEmail c ids op => exact Nat.le_of_add_le_add_right shallow
        | deleteInbound _ | resetTraffic _ _ | resetClientTraffics _ | pushGlobals _ _ | subSortIndex _ _ => trivial
      have inbounds : t.inbounds = mid.inbounds := by rw [(syncClients_synced synced).rest]
      intro ib mem
      rw [inbounds] at mem
      exact edit_nests own payload edited ib mem
  | sample baseline values now =>
      cases h
      obtain ⟨f, grown, inbounds⟩ := (sampled_grows s baseline values now).inbounds
      intro ib mem
      rw [inbounds] at mem
      obtain ⟨before, there, rfl⟩ := List.mem_map.mp mem
      exact grown.nesting before 9994 (own before there)
  | mark running checkpointAt =>
      cases h
      exact own

theorem State.Storable.loads_iff {length : State → Nat} {guid' : String} {s file : State} {now : Int} (w : s.Storable)
    (saved : saveState length now s = .ok file) :
    loadState length guid' (some file) = .ok file ↔ s.nesting ≤ maxNesting := by
  simp only [saveState, Except.bind_eq_ok, require_eq_ok, Except.pure_eq_ok] at saved
  obtain ⟨_, short, rfl⟩ := saved
  have stored := (w.marked s.running now).checkStored
  simp only [loadState, Except.bind_eq_ok, require_eq_ok, Except.pure_eq_ok, and_true]
  refine ⟨fun read => ?_, fun shallow => ⟨(), short, (), shallow, (), stored⟩⟩
  obtain ⟨_, _, _, shallow, _⟩ := read
  exact shallow

theorem shallow_run {cfg : Config} {guid : String} {s : State}
    (run : (store cfg).Path (fun s e => e.Fits s ∧ e.Shallow) (fresh guid) s) :
    s.nesting ≤ maxNesting ∧ (store cfg).Path (fun s e => e.Fits s ∧ s.nesting ≤ maxNesting) (fresh guid) s := by
  have start : (fresh guid).Nests 9994 := fun ib mem => absurd mem List.not_mem_nil
  have decoded : ∀ s : State, s.Nests 9994 → s.nesting ≤ maxNesting := fun s own =>
    (State.nesting_le (n := 9998) (by decide)).mpr own
  constructor
  · exact decoded s (run.invariant (State.Nests 9994) start fun _ _ _ own both step => own.event both.2 step)
  · have guarded := run.guarded (State.Nests 9994) start fun _ _ _ own both step => own.event both.2 step
    exact guarded.weaken fun s _ both => ⟨both.2.1, decoded s both.1⟩

/-- Along every run whose states so far can be decoded, a node loads what it saved exactly if the state nests no deeper than
the decoder goes; in a run whose payloads are all shallow enough it loads whatever it saved. -/
theorem saved_loads {cfg : Config} {length : State → Nat} {guid guid' : String} {s file : State} {now : Int}
    (identity : guid ≠ "") (saved : saveState length now s = .ok file) :
    ((store cfg).Path (fun s e => e.Fits s ∧ s.nesting ≤ maxNesting) (fresh guid) s →
      (loadState length guid' (some file) = .ok file ↔ s.nesting ≤ maxNesting)) ∧
    ((store cfg).Path (fun s e => e.Fits s ∧ e.Shallow) (fresh guid) s → loadState length guid' (some file) = .ok file) := by
  have loads (run : (store cfg).Path (fun s e => e.Fits s ∧ s.nesting ≤ maxNesting) (fresh guid) s) :
      loadState length guid' (some file) = .ok file ↔ s.nesting ≤ maxNesting :=
    (store_storable identity (run.weaken fun _ _ both => both.1)).loads_iff saved
  refine ⟨loads, fun run => ?_⟩
  obtain ⟨decoded, run⟩ := shallow_run run
  exact (loads run).mpr decoded

theorem saved_loads_alice : loadState (fun _ => 1) "other" (some { aliceState with checkpointAt := 0 }) =
    .ok { aliceState with checkpointAt := 0 } :=
  have shallow : aliceEvent.Fits (fresh "node") ∧ aliceEvent.Shallow :=
    ⟨trivial, (by decide +kernel : (plainInbound [plainClient "alice"]).nesting + 2 ≤ maxNesting)⟩
  have saved : saveState (fun _ => 1) 0 aliceState = .ok { aliceState with checkpointAt := 0 } := rfl
  (saved_loads (by decide) saved).2 (System.Path.tail .refl shallow aliceState_next)

/-! ## A payload that nests deeper -/

def nested : Nat → Json
  | 0 => .arr []
  | n + 1 => .arr [nested n]

theorem nested_nesting (n : Nat) : (nested n).nesting = n + 1 := by
  induction n with
  | zero => rfl
  | succ n ih => simp [nested, Json.nesting, Json.nestingItems, ih]

/-- With the brackets of the request and of its stream settings, ten thousand. -/
def deepInbound : Inbound :=
  { plainInbound [plainClient "alice"] with
    streamSettings := (plainInbound []).streamSettings.insert "externalProxy" (nested 9997) }

def deepEvent : Event := .request 0 (.putInbound deepInbound 0)

def deepState : State := ((store plainConfig).next (fresh "node") deepEvent).getD (fresh "node")

theorem deepState_next : (store plainConfig).next (fresh "node") deepEvent = some deepState := by
  have possible : ((store plainConfig).next (fresh "node") deepEvent).isSome = true := by decide +kernel
  obtain ⟨s, step⟩ := Option.isSome_iff_exists.mp possible
  simp [deepState, step]

theorem putInbound_stream {cfg : Config} {ib : Inbound} {id : Int} {s t : State} {obj : Reply} (first : s.inbounds = [])
    (h : putInbound cfg ib id s = .ok (t, obj)) : ∃ stored ∈ t.inbounds, stored.streamSettings = ib.streamSettings := by
  simp only [putInbound, Except.bind_eq_ok] at h
  obtain ⟨normal, normalized, stored, injected, h⟩ := h
  have kept : stored.streamSettings = ib.streamSettings := by
    have own : normal.streamSettings = ib.streamSettings := by
      unfold normalizeInbound at normalized
      split at normalized
      · simp only [Except.bind_eq_ok, Except.pure_eq_ok] at normalized
        obtain ⟨_, _, _, _, rfl⟩ := normalized
        rfl
      · cases normalized
        rfl
    unfold injectDefaultClient at injected
    split at injected
    · cases injected
      exact own
    · simp only [Except.bind_eq_ok, Except.pure_eq_ok] at injected
      obtain ⟨_, _, rfl⟩ := injected
      split
      · exact own
      · exact own
  split at h
  · simp [replaceInbound, State.find, first] at h
  · cases h
    exact ⟨_, List.mem_append_right _ List.mem_cons_self, kept⟩

theorem deepState_nesting : maxNesting < deepState.nesting := by
  obtain ⟨obj, step⟩ := store_request deepState_next
  obtain ⟨mid, edited, -, -, synced⟩ := next_parts step
  obtain ⟨stored, there, same⟩ := putInbound_stream rfl edited
  rw [← show deepState.inbounds = mid.inbounds by rw [(syncClients_synced synced).rest]] at there
  by_contra shallow
  have own := (State.nesting_le (n := 9998) (by decide)).mp (not_lt.mp shallow) stored there
  have stream := (Inbound.nesting_le.mp own).2.1
  rw [same] at stream
  have proxy := Fields.nesting_le.mp stream "externalProxy" (nested 9997) Std.ExtTreeMap.getElem?_insert_self
  rw [nested_nesting] at proxy
  omega

/-- A stream setting that nests 9998 deep is accepted and saved, and is two brackets too deep in the file. -/
theorem saved_unloadable : (store plainConfig).Path (fun s e => e.Fits s) (fresh "node") deepState ∧
    saveState (fun _ => 21000) 0 deepState = .ok { deepState with checkpointAt := 0 } ∧
    loadState (fun _ => 21000) "other" (some { deepState with checkpointAt := 0 }) ≠
      .ok { deepState with checkpointAt := 0 } := by
  refine ⟨.tail .refl (show deepEvent.Fits (fresh "node") from trivial) deepState_next, rfl, fun loaded => ?_⟩
  simp only [loadState, Except.bind_eq_ok, require_eq_ok, Except.pure_eq_ok] at loaded
  obtain ⟨_, _, _, shallow, _⟩ := loaded
  exact absurd deepState_nesting (not_lt.mpr shallow)

end ThreeXNode.Leaf
