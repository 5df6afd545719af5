import ThreeXNode.Service.DeviceLimit

namespace ThreeXNode.Service.Devices
open Library

variable (hashHwid : String → String)

/-! ## Room for a device -/

/-- The devices of a subscription are within its limit; a limit of 0 is none. -/
def Fits (s : State) (subID : String) : Prop := s.limitOf subID ≤ 0 ∨ (s.countOf subID : Int) ≤ s.limitOf subID

def Room (s : State) (subID : String) : Prop := s.limitOf subID ≤ 0 ∨ (s.countOf subID : Int) < s.limitOf subID

def State.leftOf (s : State) (subID : String) (keep : List Nat) : Nat :=
  ((devicesOf s.hwids subID).filter (·.id ∈ keep)).length

/-- A call that has counted finds room still, or its insert fails since its device is registered by now. -/
def Enforce.Secure (s : State) (e : Enforce) : Prop :=
  match e.phase with
  | .counted _ _ => Room s e.subID ∨ isRegistered hashHwid s.hwids e.subID e.hwid = true
  | .inserted _ _ _ => Room s e.subID
  | _ => True

/-- The subscription whose limit was written is the one that is trimmed, and the trim does enough for it, or it is
within its limit anyway. -/
def LimitChange.Secure (s : State) (c : LimitChange) : Prop :=
  ∀ subID ∈ c.stood,
    match c.phase with
    | .unread | .read _ _ => True
    | .written own => subID = own ∨ Fits s subID
    | .limited own effective => (subID = own ∧ effective ≤ s.limitOf subID) ∨ Fits s subID
    | .kept own _ keep => (subID = own ∧ (s.leftOf subID keep : Int) ≤ s.limitOf subID) ∨ Fits s subID

structure Secure (s : State) : Prop where
  calls : ∀ e ∈ s.calls, e.Secure hashHwid s
  changes : ∀ c ∈ s.changes, c.Secure s

/-- The next statement of a call counts under a limit that still holds, and its commit takes the place of no other call
that has counted. -/
def Enforce.Spares (s : State) (n : Nat) (e : Enforce) : Prop :=
  match e.phase with
  | .absent limit =>
      (s.countOf e.subID : Int) < limit → Room s e.subID ∨ isRegistered hashHwid s.hwids e.subID e.hwid = true
  | .inserted _ _ row => ∀ o ∈ s.calls.eraseIdx n, o.Secure hashHwid { s with hwids := s.hwids ++ [row] }
  | _ => True

/-- Clients are written so that no limit falls below what stands under it. -/
def Spared (s : State) (clients : List Client) : Prop := Secure hashHwid { s with clients := clients }

/-- Rows are taken out so that no device is left unregistered for which another call has counted without room. -/
def Left (s : State) (hwids : List ClientHwid) : Prop := ∀ e ∈ s.calls, e.Secure hashHwid { s with hwids := hwids }

/-- The next statement of a limit change; its write finds the client in the subscription that the change has read, or in
one that stays within its limit. -/
def LimitChange.Spares (s : State) (c : LimitChange) : Prop :=
  match c.phase with
  | .read id subID =>
      Spared hashHwid s (State.writeLimit s.clients id c.limit) ∧
        ∀ now ∈ State.standing s.clients id,
          now = trimSpace subID ∨ Fits { s with clients := State.writeLimit s.clients id c.limit } now
  | .kept subID _ keep => Left hashHwid s (s.hwids.filter fun row => !(row.subID = subID && row.id ∉ keep))
  | _ => True

def Orderly (s : State) : Action → Prop
  | .advance n _ => ∀ e ∈ s.calls[n]?, e.Spares hashHwid s n
  | .advanceLimit n => ∀ c ∈ s.changes[n]?, c.Spares hashHwid s
  | .setClients clients => Spared hashHwid s clients
  | .forget ids => Left hashHwid s (s.hwids.filter (·.id ∉ ids))
  | .enforce _ _ | .setLimit _ _ => True

instance (s : State) (subID : String) : Decidable (Fits s subID) := inferInstanceAs (Decidable (_ ∨ _))

instance (s : State) (subID : String) : Decidable (Room s subID) := inferInstanceAs (Decidable (_ ∨ _))

instance (s : State) (e : Enforce) : Decidable (e.Secure hashHwid s) := by
  unfold Enforce.Secure
  cases e.phase <;> infer_instance

instance (s : State) (c : LimitChange) : Decidable (c.Secure s) := by
  unfold LimitChange.Secure
  cases c.phase <;> infer_instance

instance (s : State) : Decidable (Secure hashHwid s) :=
  decidable_of_iff ((∀ e ∈ s.calls, e.Secure hashHwid s) ∧ ∀ c ∈ s.changes, c.Secure s)
    ⟨fun both => ⟨both.1, both.2⟩, fun secure => ⟨secure.calls, secure.changes⟩⟩

instance (s : State) (n : Nat) (e : Enforce) : Decidable (e.Spares hashHwid s n) := by
  unfold Enforce.Spares
  cases e.phase <;> infer_instance

instance (s : State) (c : LimitChange) : Decidable (c.Spares hashHwid s) := by
  unfold LimitChange.Spares Spared Left
  cases c.phase <;> infer_instance

instance (s : State) : ∀ a, Decidable (Orderly hashHwid s a)
  | .advance n _ => inferInstanceAs (Decidable (∀ e ∈ s.calls[n]?, e.Spares hashHwid s n))
  | .advanceLimit n => inferInstanceAs (Decidable (∀ c ∈ s.changes[n]?, c.Spares hashHwid s))
  | .setClients clients => inferInstanceAs (Decidable (Secure hashHwid { s with clients := clients }))
  | .forget ids => inferInstanceAs (Decidable (∀ e ∈ s.calls, e.Secure hashHwid { s with hwids := s.hwids.filter (·.id ∉ ids) }))
  | .enforce _ _ => inferInstanceAs (Decidable True)
  | .setLimit _ _ => inferInstanceAs (Decidable True)

/-- A commit that inserts a device leaves its subscription within the limit, and so does the last statement of a limit
change with the subscription whose limit it wrote. -/
def Lawful (s : State) (a : Action) (t : State) : Prop :=
  match a with
  | .advance n _ => ∀ e limit count row, s.calls[n]? = some e → e.phase = .inserted limit count row → Fits t e.subID
  | .advanceLimit n =>
      ∀ c, s.changes[n]? = some c → t.changes.length < s.changes.length → ∀ subID ∈ c.stood, Fits t subID
  | _ => True

/-! ## What counts depend on -/

section

variable {s t : State} (clients : t.clients = s.clients)
include clients

variable (hwids : t.hwids = s.hwids)
include hwids

theorem fits_same (subID : String) : Fits t subID ↔ Fits s subID := by
  rw [Fits, Fits, State.limitOf, State.countOf, clients, hwids]
  rfl

theorem Enforce.secure_same (e : Enforce) : e.Secure hashHwid t ↔ e.Secure hashHwid s := by
  unfold Enforce.Secure Room State.limitOf State.countOf
  rw [clients, hwids]

theorem LimitChange.secure_same (c : LimitChange) : c.Secure t ↔ c.Secure s := by
  unfold LimitChange.Secure Fits State.leftOf State.limitOf State.countOf
  rw [clients, hwids]

end

theorem secure_note (s : State) : Secure hashHwid (s.note hashHwid) ↔ Secure hashHwid s := by
  constructor
  · intro secure
    refine ⟨fun e mem => ?_, fun c mem => (LimitChange.secure_same rfl rfl c).mp (secure.changes c mem)⟩
    have noted := secure.calls _ (List.mem_map.mpr ⟨e, mem, rfl⟩)
    exact (Enforce.secure_same hashHwid (s := s) (t := s.note hashHwid) rfl rfl _).mp noted
  · intro secure
    refine ⟨fun e noted => ?_, fun c mem => (LimitChange.secure_same rfl rfl c).mpr (secure.changes c mem)⟩
    obtain ⟨o, mem, rfl⟩ := List.mem_map.mp noted
    exact (Enforce.secure_same hashHwid rfl rfl _).mpr (secure.calls o mem)

theorem LimitChange.Secure.fewer {s : State} {c : LimitChange} (secure : c.Secure s) {hwids : List ClientHwid}
    (fewer : hwids.Sublist s.hwids) : c.Secure { s with hwids := hwids } := by
  have count : ∀ subID, (devicesOf hwids subID).length ≤ (devicesOf s.hwids subID).length := fun subID =>
    (fewer.filter _).length_le
  have left : ∀ subID (keep : List Nat), ((devicesOf hwids subID).filter (·.id ∈ keep)).length ≤
      ((devicesOf s.hwids subID).filter (·.id ∈ keep)).length := fun subID keep =>
    ((fewer.filter _).filter _).length_le
  have fits : ∀ subID, Fits s subID → Fits { s with hwids := hwids } subID := by
    intro subID room
    have := count subID
    unfold Fits State.limitOf State.countOf at room ⊢
    dsimp only
    omega
  intro subID stood
  have was := secure subID stood
  cases phase : c.phase with
  | unread | read _ _ => trivial
  | written own =>
      simp only [phase] at was
      exact was.imp_right (fits subID)
  | limited own effective =>
      simp only [phase] at was
      exact was.imp_right (fits subID)
  | kept own effective keep =>
      simp only [phase] at was
      refine was.imp (fun enough => ⟨enough.1, ?_⟩) (fits subID)
      have := left subID keep
      have := enough.2
      unfold State.limitOf State.leftOf at *
      dsimp only
      omega

theorem inserted_count (s : State) {subID : String} {row : ClientHwid} (own : row.subID = subID) :
    (devicesOf (s.hwids ++ [row]) subID).length = s.countOf subID + 1 := by
  simp [devicesOf, State.countOf, own]

theorem inserted_elsewhere (s : State) {subID : String} {row : ClientHwid} (other : row.subID ≠ subID) :
    devicesOf (s.hwids ++ [row]) subID = devicesOf s.hwids subID := by
  simp [devicesOf, other]

theorem Fits.insert {s : State} {subID : String} (fits : Fits s subID) {row : ClientHwid} (room : Room s row.subID) :
    Fits { s with hwids := s.hwids ++ [row] } subID := by
  unfold Fits State.limitOf State.countOf
  dsimp only
  by_cases own : row.subID = subID
  · subst own
    rw [inserted_count s rfl]
    unfold Room State.limitOf at room
    omega
  · rw [inserted_elsewhere s own]
    exact fits

theorem LimitChange.Secure.insert {s : State} {c : LimitChange} (secure : c.Secure s) {row : ClientHwid}
    (room : Room s row.subID) (fresh : row.id ∉ c.keeps) : c.Secure { s with hwids := s.hwids ++ [row] } := by
  intro subID stood
  have was := secure subID stood
  have fits : Fits s subID → Fits { s with hwids := s.hwids ++ [row] } subID := fun fits => fits.insert room
  unfold LimitChange.keeps at fresh
  cases phase : c.phase with
  | unread | read _ _ => trivial
  | written own =>
      simp only [phase] at was
      exact was.imp_right fits
  | limited own effective =>
      simp only [phase] at was
      exact was.imp_right fits
  | kept own effective keep =>
      simp only [phase] at was fresh
      refine was.imp_left (fun enough => ⟨enough.1, ?_⟩) |>.imp_right fits
      have same : ((devicesOf (s.hwids ++ [row]) subID).filter (·.id ∈ keep)) =
          (devicesOf s.hwids subID).filter (·.id ∈ keep) := by
        simp [devicesOf, List.filter_append, List.filter_filter, fresh]
      show (((devicesOf (s.hwids ++ [row]) subID).filter (·.id ∈ keep)).length : Int) ≤ _
      rw [same]
      exact enough.2

theorem kept_count {hwids : List ClientHwid} {keep : List Nat} (distinct : (hwids.map (·.id)).Nodup) (subID : String) :
    ((devicesOf hwids subID).filter (·.id ∈ keep)).length ≤ keep.length := by
  have once : (((devicesOf hwids subID).filter (·.id ∈ keep)).map (·.id)).Nodup :=
    ((List.filter_sublist.trans List.filter_sublist).map _).nodup distinct
  have among : ((devicesOf hwids subID).filter (·.id ∈ keep)).map (·.id) ⊆ keep := by
    intro id mem
    obtain ⟨row, here, rfl⟩ := List.mem_map.mp mem
    exact of_decide_eq_true (List.mem_filter.mp here).2
  simpa using (List.subperm_of_subset once among).length_le

theorem latest_left {s : State} (sound : Sound s) (subID : String) (limit : Int) :
    s.leftOf subID (latest s.hwids subID limit) = min limit.toNat (s.countOf subID) := by
  have size : (latest s.hwids subID limit).length = min limit.toNat (s.countOf subID) := by
    rw [latest, List.length_take, List.length_map, List.length_mergeSort]
    rfl
  have distinct : (s.hwids.map (·.id)).Nodup := (List.sublist_append_left _ _).nodup sound.distinct
  have once : (latest s.hwids subID limit).Nodup := by
    refine (List.take_sublist _ _).nodup ?_
    exact ((List.mergeSort_perm _ _).map _).nodup_iff.mpr ((List.filter_sublist.map _).nodup distinct)
  have among : latest s.hwids subID limit ⊆
      ((devicesOf s.hwids subID).filter (·.id ∈ latest s.hwids subID limit)).map (·.id) := by
    intro id mem
    obtain ⟨row, there, rfl⟩ := List.mem_map.mp (latest_subset _ _ _ mem)
    exact List.mem_map_of_mem (List.mem_filter.mpr ⟨there, decide_eq_true mem⟩)
  have many := (List.subperm_of_subset once among).length_le
  rw [List.length_map] at many
  exact size ▸ le_antisymm (kept_count distinct subID) many

/-! ## What a step does to what stands -/

section Steps

variable {hashHwid} {s : State} (secure : Secure hashHwid s)
include secure

theorem Secure.rest {t : State} (clients : t.clients = s.clients) (hwids : t.hwids = s.hwids)
    (calls : ∀ e ∈ t.calls, e ∈ s.calls ∨ e.Secure hashHwid s) (changes : ∀ c ∈ t.changes, c ∈ s.changes ∨ c.Secure s) :
    Secure hashHwid t where
  calls e mem := (Enforce.secure_same hashHwid clients hwids e).mpr ((calls e mem).elim (secure.calls e) id)
  changes c mem := (LimitChange.secure_same clients hwids c).mpr ((changes c mem).elim (secure.changes c) id)

theorem Secure.answered (n : Nat) (e : Enforce) (r : HwidGateResult) : Secure hashHwid (s.answer n e r) :=
  secure.rest rfl rfl (fun _ mem => .inl (List.mem_of_mem_eraseIdx mem)) fun _ mem => .inl mem

theorem Secure.goesOn {n : Nat} {e : Enforce} (here : s.calls[n]? = some e) (phase : Enforcing) :
    Secure hashHwid (s.goOn n e phase) ↔ Enforce.Secure hashHwid s { e with phase := phase } := by
  constructor
  · intro after
    have there : { e with phase := phase } ∈ (s.goOn n e phase).calls := by
      obtain ⟨valid, -⟩ := List.getElem?_eq_some_iff.mp here
      exact List.mem_set valid _
    exact (Enforce.secure_same hashHwid (s := s) (t := s.goOn n e phase) rfl rfl _).mp (after.calls _ there)
  · intro own
    refine secure.rest rfl rfl (fun o mem => ?_) fun _ mem => .inl mem
    rcases List.mem_or_eq_of_mem_set mem with before | rfl
    · exact .inl before
    · exact .inr own

theorem Secure.changed (n : Nat) : Secure hashHwid (s.changed n) :=
  secure.rest rfl rfl (fun _ mem => .inl mem) fun _ mem => .inl (List.mem_of_mem_eraseIdx mem)

theorem Secure.changesOn {n : Nat} {c : LimitChange} {phase : Limiting}
    (own : LimitChange.Secure s { c with phase := phase }) : Secure hashHwid (s.changeOn n c phase) := by
  refine secure.rest rfl rfl (fun _ mem => .inl mem) fun o mem => ?_
  rcases List.mem_or_eq_of_mem_set mem with before | rfl
  · exact .inl before
  · exact .inr own

theorem Secure.touched {f : ClientHwid → ClientHwid} (id : ∀ row, (f row).id = row.id) (subID : ∀ row, (f row).subID = row.subID)
    (hash : ∀ row, (f row).hwidHash = row.hwidHash) : Secure hashHwid { s with hwids := s.hwids.map f } := by
  have devices : ∀ subID, devicesOf (s.hwids.map f) subID = (devicesOf s.hwids subID).map f := fun _ => by
    simp [devicesOf, List.filter_map, Function.comp_def, subID]
  have count : ∀ subID, State.countOf { s with hwids := s.hwids.map f } subID = s.countOf subID := fun _ => by
    simp [State.countOf, devices]
  have limit : ∀ subID, State.limitOf { s with hwids := s.hwids.map f } subID = s.limitOf subID := fun _ => rfl
  have left : ∀ subID keep, State.leftOf { s with hwids := s.hwids.map f } subID keep = s.leftOf subID keep := fun _ _ => by
    simp [State.leftOf, devices, List.filter_map, Function.comp_def, id]
  have registered : ∀ subID hwid, isRegistered hashHwid (s.hwids.map f) subID hwid = isRegistered hashHwid s.hwids subID hwid :=
    fun _ _ => by simp [isRegistered, List.any_map, Function.comp_def, subID, hash]
  constructor
  · intro e mem
    have own := secure.calls e mem
    unfold Enforce.Secure Room at own ⊢
    simpa only [limit, count, registered] using own
  · intro c mem
    have own := secure.changes c mem
    unfold LimitChange.Secure Fits at own ⊢
    simpa only [limit, count, left] using own

theorem enforceStep_secure (sound : Sound s) {t : State} {n : Nat} {e : Enforce} {now : Int} (here : s.calls[n]? = some e)
    (step : s.enforceStep hashHwid n e now = some t) : e.Spares hashHwid s n ↔ Secure hashHwid t := by
  have own := sound.calls e (List.mem_of_getElem? here)
  have stands := secure.calls e (List.mem_of_getElem? here)
  unfold State.enforceStep at step
  unfold Enforce.Sound at own
  unfold Enforce.Secure at stands
  unfold Enforce.Spares
  cases phase : e.phase with
  | unchecked =>
      simp only [phase] at step
      refine iff_of_true trivial ?_
      split at step
      · cases step
        exact secure.answered n e _
      · split at step
        · cases step
          exact secure.answered n e _
        · cases step
          exact (secure.goesOn here .begun).mpr trivial
  | begun =>
      simp only [phase] at step
      refine iff_of_true trivial ?_
      split at step
      · cases step
        exact secure.answered n e _
      · cases step
        exact (secure.goesOn here (.limited _)).mpr trivial
  | limited limit =>
      simp only [phase] at step
      refine iff_of_true trivial ?_
      split at step
      · cases step
        exact (secure.goesOn here (.found _ _)).mpr trivial
      · cases step
        exact (secure.goesOn here (.absent _)).mpr trivial
  | found limit id =>
      simp only [phase] at step
      cases step
      exact iff_of_true trivial ((secure.goesOn here (.touched _ _ _)).mpr trivial)
  | touched limit id lastSeen =>
      simp only [phase] at step
      cases step
      refine iff_of_true trivial (Secure.answered (secure.touched ?_ ?_ ?_) n e _)
      all_goals
        intro row
        split <;> rfl
  | absent limit =>
      simp only [phase] at step
      split at step
      · rename_i full
        cases step
        refine iff_of_true (fun room => ?_) (secure.answered n e _)
        omega
      · rename_i room
        cases step
        rw [secure.goesOn here]
        exact forall_prop_of_true (not_le.mp room)
  | counted limit count =>
      simp only [phase] at step stands
      refine iff_of_true trivial ?_
      split at step
      · cases step
        exact secure.rest rfl rfl (fun _ mem => .inl (List.mem_of_mem_eraseIdx mem)) fun _ mem => .inl mem
      · rename_i fresh
        split at step
        · cases step
        · cases step
          have on := (secure.goesOn here (.inserted limit count ⟨s.nextId, e.subID, hashHwid e.hwid, now⟩)).mpr
            (stands.resolve_right fresh)
          exact on.rest rfl rfl (fun _ mem => .inl mem) fun _ mem => .inl mem
  | inserted limit count row =>
      simp only [phase] at step own stands
      cases step
      have fresh : ∀ c ∈ s.changes, row.id ∉ c.keeps := by
        intro c mem kept
        refine (sound.kept c mem _ kept).2 (List.mem_filterMap.mpr ⟨e, List.mem_of_getElem? here, ?_⟩)
        simp [pendingId, phase]
      constructor
      · intro others
        refine ⟨fun o mem => ?_, fun c mem => ?_⟩
        · exact (Enforce.secure_same hashHwid rfl rfl o).mpr (others o mem)
        · exact (LimitChange.secure_same rfl rfl c).mpr
            ((secure.changes c mem).insert (by rw [own.2]; exact stands) (fresh c mem))
      · intro after o mem
        exact (Enforce.secure_same hashHwid rfl rfl o).mp (after.calls o mem)

theorem limitStep_secure (sound : Sound s) {n : Nat} {c : LimitChange} (here : s.changes[n]? = some c) :
    c.Spares hashHwid s ↔ Secure hashHwid (s.limitStep n c) := by
  have own := sound.changes c (List.mem_of_getElem? here)
  have stands := secure.changes c (List.mem_of_getElem? here)
  unfold LimitChange.Secure at stands
  unfold LimitChange.Spares State.limitStep
  cases phase : c.phase with
  | unread =>
      dsimp only
      refine iff_of_true trivial ?_
      split
      · exact secure.changesOn fun _ _ => trivial
      · exact secure.changed n
  | read id subID =>
      dsimp only
      obtain ⟨valid, there⟩ := List.getElem?_eq_some_iff.mp here
      constructor
      · rintro ⟨spared, stays⟩
        exact Secure.changesOn spared stays
      · intro after
        refine ⟨⟨fun e mem => (Enforce.secure_same hashHwid rfl rfl e).mp (after.calls e mem), fun o mem => ?_⟩,
          fun now stood => ?_⟩
        · obtain ⟨i, i_valid, rfl⟩ := List.getElem_of_mem mem
          by_cases same : n = i
          · subst same
            intro now _
            rw [there, phase]
            trivial
          · refine (LimitChange.secure_same rfl rfl _).mp (after.changes _ (List.mem_iff_getElem?.mpr ⟨i, ?_⟩))
            simp [State.changeOn, same, i_valid]
        · exact (LimitChange.secure_same (s := { s with clients := State.writeLimit s.clients id c.limit }) rfl rfl _).mp
            (after.changes _ (List.mem_set valid _)) now stood
  | written subID =>
      simp only [phase] at stands
      dsimp only
      refine iff_of_true trivial ?_
      split
      · exact secure.changed n
      · refine secure.changesOn fun now stood => ?_
        exact (stands now stood).imp_left fun same => ⟨same, same ▸ le_rfl⟩
  | limited subID effective =>
      simp only [phase] at stands
      refine iff_of_true trivial (secure.changesOn fun now stood => ?_)
      rcases stands now stood with ⟨rfl, current⟩ | fits
      · by_cases free : s.limitOf now ≤ 0
        · exact .inr (.inl free)
        · refine .inl ⟨rfl, ?_⟩
          rw [latest_left sound]
          omega
      · exact .inr fits
  | kept subID effective keep =>
      constructor
      · intro left
        refine ⟨fun e mem => (Enforce.secure_same hashHwid rfl rfl e).mpr (left e mem), fun o mem => ?_⟩
        exact (LimitChange.secure_same rfl rfl o).mpr
          ((secure.changes o (List.mem_of_mem_eraseIdx mem)).fewer List.filter_sublist)
      · intro after e mem
        exact (Enforce.secure_same hashHwid rfl rfl e).mp (after.calls e mem)

theorem next_secure (sound : Sound s) {t : State} {a : Action} (step : (gate hashHwid).next s a = some t) :
    Orderly hashHwid s a ↔ Secure hashHwid t := by
  cases a with
  | enforce subID hwid =>
      cases step
      rw [secure_note]
      refine iff_of_true trivial (secure.rest rfl rfl (fun e mem => ?_) fun _ mem => .inl mem)
      rcases List.mem_append.mp mem with before | new
      · exact .inl before
      · exact .inr (List.mem_singleton.mp new ▸ trivial)
  | advance n now =>
      simp only [gate, Option.bind_eq_bind, Option.bind_eq_some_iff] at step
      obtain ⟨e, here, u, did, step⟩ := step
      cases step
      rw [secure_note, ← enforceStep_secure secure sound here did]
      simp [Orderly, here]
  | setLimit email limit =>
      cases step
      refine iff_of_true trivial (secure.rest rfl rfl (fun _ mem => .inl mem) fun c mem => ?_)
      rcases List.mem_append.mp mem with before | new
      · exact .inl before
      · exact .inr (List.mem_singleton.mp new ▸ fun _ _ => trivial)
  | advanceLimit n =>
      simp only [gate, Option.bind_eq_bind, Option.bind_eq_some_iff] at step
      obtain ⟨c, here, step⟩ := step
      cases step
      rw [secure_note, ← limitStep_secure secure sound here]
      simp [Orderly, here]
  | setClients clients =>
      cases step
      exact Iff.rfl
  | forget gone =>
      cases step
      rw [secure_note]
      constructor
      · intro left
        exact ⟨left, fun c mem => (secure.changes c mem).fewer List.filter_sublist⟩
      · intro after
        exact after.calls

end Steps

end ThreeXNode.Service.Devices
