import ThreeXNode.Leaf.Edit
import ThreeXNode.Leaf.Normalize

namespace ThreeXNode.Leaf
open Library State

/-! ## How deep what is stored nests -/

theorem Inbound.nesting_le {ib : Inbound} {n : Nat} : ib.nesting ≤ n + 1 ↔
    ib.settings.nesting ≤ n ∧ ib.streamSettings.nesting ≤ n ∧ ib.sniffing.nesting ≤ n := by
  unfold Inbound.nesting
  rw [Nat.add_le_add_iff_right, max_le_iff, max_le_iff]

theorem foldr_max_le {items : List Nat} {n : Nat} : items.foldr max 0 ≤ n ↔ ∀ item ∈ items, item ≤ n := by
  induction items with
  | nil => simp
  | cons item rest ih => simp [ih]

theorem State.nesting_le {s : State} {n : Nat} (room : 2 ≤ n) :
    s.nesting ≤ n + 2 ↔ ∀ ib ∈ s.inbounds, ib.nesting ≤ n := by
  unfold State.nesting
  rw [max_le_iff, Nat.add_le_add_iff_right, foldr_max_le, List.forall_mem_map]
  exact and_iff_right (by omega)

theorem mem_of_mapM {α β : Type*} {f : α → Option β} {items : List α} {out : List β} (ran : items.mapM f = some out)
    {b : β} (mem : b ∈ out) : ∃ a ∈ items, f a = some b := by
  induction items generalizing out with
  | nil =>
      simp only [List.mapM_nil, Option.pure_def, Option.some.injEq] at ran
      subst ran
      cases mem
  | cons a items ih =>
      simp only [List.mapM_cons, Option.bind_eq_bind, Option.bind_eq_some_iff, Option.pure_def, Option.some.injEq] at ran
      obtain ⟨b', first, out', rest, rfl⟩ := ran
      rcases List.mem_cons.mp mem with rfl | later
      · exact ⟨a, List.mem_cons_self, first⟩
      · obtain ⟨a', there, found⟩ := ih rest later
        exact ⟨a', List.mem_cons_of_mem _ there, found⟩

theorem mem_of_mapM_ok {α β ε : Type*} {f : α → Except ε β} {items : List α} {out : List β}
    (ran : items.mapM f = .ok out) {b : β} (mem : b ∈ out) : ∃ a ∈ items, f a = .ok b := by
  induction items generalizing out with
  | nil =>
      rw [List.mapM_nil, Except.pure_eq_ok] at ran
      subst ran
      cases mem
  | cons a items ih =>
      simp only [List.mapM_cons, Except.bind_eq_ok, Except.pure_eq_ok] at ran
      obtain ⟨b', first, out', rest, rfl⟩ := ran
      rcases List.mem_cons.mp mem with rfl | later
      · exact ⟨a, List.mem_cons_self, first⟩
      · obtain ⟨a', there, found⟩ := ih rest later
        exact ⟨a', List.mem_cons_of_mem _ there, found⟩

section

variable {n : Nat}

theorem setClients_nesting {ib : Inbound} {cs : List Client} (own : ib.nesting ≤ n + 3)
    (entries : ∀ c ∈ cs, Fields.nesting c ≤ n) : (ib.setClients cs).nesting ≤ n + 3 := by
  obtain ⟨settings, rest⟩ := Inbound.nesting_le.mp own
  refine Inbound.nesting_le.mpr ⟨Fields.nesting_insert settings (Json.nesting_arr_le.mpr fun item mem => ?_), rest⟩
  obtain ⟨c, there, rfl⟩ := List.mem_map.mp mem
  exact entries c there

theorem clientsOrNil_nesting {ib : Inbound} (own : ib.nesting ≤ n + 4) :
    ∀ c ∈ ib.clientsOrNil, Fields.nesting c ≤ n + 1 := by
  intro c mem
  unfold Inbound.clientsOrNil Inbound.clients at mem
  cases raw : ib.settings["clients"]? with
  | none => simp [raw] at mem
  | some value =>
      have inside := Fields.nesting_le.mp (Inbound.nesting_le.mp own).1 "clients" value raw
      cases value with
      | arr items =>
          cases decoded : items.mapM Json.asFields with
          | none => simp [raw, Json.asList, decoded] at mem
          | some cs =>
              simp only [raw, Json.asList, decoded] at mem
              obtain ⟨item, there, read⟩ := mem_of_mapM decoded mem
              exact Json.nesting_asFields read (Json.nesting_arr_le.mp inside item there)
      | null | bool _ | num _ | str _ | obj _ => simp [raw, Json.asList] at mem

theorem setField_nesting {email key : String} {v : Json} {c : Client} (own : Fields.nesting c ≤ n + 1)
    (inserted : v.nesting ≤ n) : Fields.nesting (setField email key v c) ≤ n + 1 := by
  unfold setField
  split
  · exact Fields.nesting_insert own inserted
  · exact own

theorem setFields_nesting {ib : Inbound} {email key : String} {v : Json} (scalar : v.nesting = 0)
    (own : ib.nesting ≤ n + 4) : (ib.setClients (ib.clientsOrNil.map (setField email key v))).nesting ≤ n + 4 := by
  refine setClients_nesting own fun c mem => ?_
  obtain ⟨prev, there, rfl⟩ := List.mem_map.mp mem
  exact setField_nesting (clientsOrNil_nesting own prev there) (scalar ▸ Nat.zero_le n)

theorem normalizeVLESSClient_nesting {source stored : Client} (normal : normalizeVLESSClient source = .ok stored) :
    Fields.nesting stored ≤ Fields.nesting source :=
  Fields.nesting_sub fun name _ found =>
    (Option.filter_eq_some_iff.mp ((normalizeVLESSClient_eq.mp normal).2.1 name ▸ found)).1

theorem normalizeInbound_nesting {ib normal : Inbound} (own : ib.nesting ≤ n + 4)
    (ok : normalizeInbound ib = .ok normal) : normal.nesting ≤ n + 4 := by
  unfold normalizeInbound at ok
  split at ok
  · simp only [Except.bind_eq_ok, Except.pure_eq_ok] at ok
    obtain ⟨cs, decoded, stored, mapped, rfl⟩ := ok
    refine setClients_nesting own fun c mem => ?_
    obtain ⟨source, there, normal⟩ := mem_of_mapM_ok mapped mem
    refine (normalizeVLESSClient_nesting normal).trans (clientsOrNil_nesting own source ?_)
    rwa [Inbound.clientsOrNil_eq decoded]
  · cases ok
    exact own

theorem defaultClient_nesting (cfg : Config) : Fields.nesting cfg.defaultClient ≤ n + 1 := by
  have empty : Fields.nesting ∅ ≤ n + 1 := Fields.nesting_le.mpr fun _ _ found => by simp at found
  have scalar : ∀ {c : Client} {name : String} {value : Json}, Fields.nesting c ≤ n + 1 → value.nesting = 0 →
      Fields.nesting (c.insert name value) ≤ n + 1 := fun own flat => Fields.nesting_insert own (flat ▸ Nat.zero_le n)
  exact scalar (scalar (scalar (scalar (scalar (scalar empty rfl) rfl) rfl) rfl) rfl) rfl

theorem injectDefaultClient_nesting {cfg : Config} {ib stored : Inbound} (own : ib.nesting ≤ n + 4)
    (ok : injectDefaultClient cfg ib = .ok stored) : stored.nesting ≤ n + 4 := by
  unfold injectDefaultClient at ok
  split at ok
  · cases ok
    exact own
  · simp only [Except.bind_eq_ok, Except.pure_eq_ok] at ok
    obtain ⟨cs, -, rfl⟩ := ok
    split
    · exact own
    · refine setClients_nesting own fun c mem => ?_
      rw [List.mem_singleton.mp mem]
      exact defaultClient_nesting cfg

theorem changeInbound_nesting {oldEmail : String} {c : Client} {ids : List Int} {op : ClientOp} {ib : Inbound}
    (own : ib.nesting ≤ n + 4) (client : Fields.nesting c ≤ n + 1) : (changeInbound oldEmail c ids op ib).nesting ≤ n + 4 := by
  have out : ∀ selected : Bool, ∀ entry ∈ ib.clientsOrNil.flatMap (changeEntry oldEmail c op selected),
      Fields.nesting entry ≤ n + 1 := by
    intro selected entry mem
    obtain ⟨prev, there, here⟩ := List.mem_flatMap.mp mem
    have kept := clientsOrNil_nesting own prev there
    have either : entry = prev ∨ entry = c := by
      unfold changeEntry at here
      repeat' split at here
      all_goals simp at here
      all_goals tauto
    rcases either with rfl | rfl
    · exact kept
    · exact client
  unfold changeInbound
  refine setClients_nesting own fun entry mem => ?_
  split at mem
  · rcases List.mem_append.mp mem with before | last
    · exact out _ entry before
    · rw [List.mem_singleton.mp last]
      exact client
  · exact out _ entry mem

end

def State.Nests (n : Nat) (s : State) : Prop := ∀ ib ∈ s.inbounds, ib.nesting ≤ n + 4

def Request.Nests (n : Nat) : Request → Prop
  | .putInbound ib _ => ib.nesting ≤ n + 4
  | .changeClient _ c _ _ => Fields.nesting c ≤ n + 1
  | _ => True

theorem resetClient_nests {n : Nat} {s : State} (own : s.Nests n) (email : String) : (resetClient s email).Nests n := by
  unfold resetClient
  cases s.traffic[email]? with
  | none => exact own
  | some t =>
      intro ib mem
      obtain ⟨before, there, rfl⟩ := List.mem_map.mp mem
      rw [clearGlobals_inbounds] at there
      exact setFields_nesting rfl (own before there)

theorem putInbound_nests {n : Nat} {cfg : Config} {ib : Inbound} {id : Int} {s t : State} {obj : Reply} (own : s.Nests n)
    (payload : ib.nesting ≤ n + 4) (h : putInbound cfg ib id s = .ok (t, obj)) : t.Nests n := by
  simp only [putInbound, Except.bind_eq_ok] at h
  obtain ⟨normal, normalized, stored, injected, h⟩ := h
  have nests : stored.nesting ≤ n + 4 :=
    injectDefaultClient_nesting (normalizeInbound_nesting payload normalized) injected
  split at h
  · unfold replaceInbound at h
    split at h
    · cases h
    · cases h
      intro other mem
      rcases mem_updateFirst mem with before | ⟨-, -, -, rfl⟩
      · exact own other before
      · exact nests
  · cases h
    intro other mem
    rcases List.mem_append.mp mem with before | last
    · exact own other before
    · rw [List.mem_singleton.mp last]
      exact nests

theorem edit_nests {n : Nat} {cfg : Config} {now : Int} {r : Request} {s t : State} {obj : Reply} (own : s.Nests n)
    (payload : r.Nests n) (h : r.edit cfg now s = .ok (t, obj)) : t.Nests n := by
  cases r with
  | putInbound ib id => exact putInbound_nests own payload h
  | deleteInbound id =>
      cases h
      exact fun ib mem => own ib (List.mem_of_mem_eraseP mem)
  | changeClient oldEmail c ids op =>
      obtain ⟨stored, mid, normal, -, moved, rfl⟩ := changeClient_parts h
      have client : Fields.nesting stored ≤ n + 1 := by
        unfold storedClient at normal
        split at normal
        · exact (normalizeVLESSClient_nesting normal).trans payload
        · cases normal
          exact payload
      intro ib mem
      obtain ⟨before, there, rfl⟩ := List.mem_map.mp mem
      rw [(moveTraffic_inbounds moved).1] at there
      exact changeInbound_nesting (own before there) client
  | resetTraffic email id =>
      simp only [Request.edit, resetTraffic, Except.bind_eq_ok] at h
      obtain ⟨_, _, _, _, h⟩ := h
      split at h
      · cases h
        intro ib mem
        obtain ⟨before, there, rfl⟩ := List.mem_map.mp mem
        split
        · exact own before there
        · exact own before there
      · split at h
        · cases h
          exact resetClient_nests own email
        · cases h
          exact own
  | resetClientTraffics emails =>
      simp only [Request.edit, resetClientTraffics, Except.ok.injEq, Prod.mk.injEq] at h
      obtain ⟨rfl, -⟩ := h
      refine foldl_invariant (fun w : State × Nat => w.1.Nests n) own ?_
      rintro ⟨w, count⟩ email - held
      simp only
      split
      · exact resetClient_nests held email
      · exact held
  | pushGlobals master rows =>
      rw [(pushGlobals_rest h).1]
      exact own
  | subSortIndex id index =>
      simp only [Request.edit, subSortIndex, Except.bind_eq_ok] at h
      obtain ⟨_, _, h⟩ := h
      cases h
      intro ib mem
      rcases mem_updateFirst mem with before | ⟨old, there, -, rfl⟩
      · exact own ib before
      · exact own old there

end ThreeXNode.Leaf
