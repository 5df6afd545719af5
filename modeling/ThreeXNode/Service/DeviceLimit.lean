import ThreeXNode.Service.Devices

namespace ThreeXNode.Service.Devices
open Library

variable (hashHwid : String → String)

/-! ## What every run keeps -/

/-- The id a transaction has given to a row nobody else sees yet. -/
def pendingId (e : Enforce) : Option Nat :=
  match e.phase with
  | .inserted _ _ row => some row.id
  | _ => none

def ids (s : State) : List Nat := s.hwids.map (·.id) ++ s.calls.filterMap pendingId

def Enforce.Sound (e : Enforce) : Prop :=
  match e.phase with
  | .absent _ | .counted _ _ => e.throughout = false
  | .inserted _ _ row => e.throughout = false ∧ row.subID = e.subID
  | _ => True

def LimitChange.Sound (c : LimitChange) : Prop :=
  c.stood ≠ some "" ∧
    match c.phase with
    | .unread | .read _ _ => c.stood = none
    | _ => True

def LimitChange.keeps (c : LimitChange) : List Nat :=
  match c.phase with
  | .kept _ _ keep => keep
  | _ => []

def Answer.Sound (a : Answer) : Prop :=
  a.call.throughout = true → minHwidLength ≤ a.call.hwid.utf8ByteSize → a.result.allowed = true

structure Sound (s : State) : Prop where
  distinct : (ids s).Nodup
  below : ∀ id ∈ ids s, id < s.nextId
  calls : ∀ e ∈ s.calls, e.Sound
  changes : ∀ c ∈ s.changes, c.Sound
  kept : ∀ c ∈ s.changes, ∀ id ∈ c.keeps, id < s.nextId ∧ id ∉ s.calls.filterMap pendingId
  answers : ∀ a ∈ s.answers, a.Sound

theorem Sound.keeping {s t : State} (sound : Sound s) (changes : t.changes = s.changes) (le : s.nextId ≤ t.nextId)
    (pending : ∀ id ∈ t.calls.filterMap pendingId, id ∈ s.calls.filterMap pendingId ∨ s.nextId ≤ id) :
    ∀ c ∈ t.changes, ∀ id ∈ c.keeps, id < t.nextId ∧ id ∉ t.calls.filterMap pendingId := by
  intro c mem id kept
  obtain ⟨below, apart⟩ := sound.kept c (changes ▸ mem) id kept
  refine ⟨below.trans_le le, fun there => ?_⟩
  rcases pending id there with before | new
  · exact apart before
  · omega

theorem note_calls (s : State) : (s.note hashHwid).calls.filterMap pendingId = s.calls.filterMap pendingId := by
  simp only [State.note, List.filterMap_map]
  rfl

theorem note_pending (s : State) : ids (s.note hashHwid) = ids s := congrArg (_ ++ ·) (note_calls hashHwid s)

theorem noted_sound {e : Enforce} (sound : e.Sound) (still : Bool) :
    Enforce.Sound { e with throughout := e.throughout && still } := by
  unfold Enforce.Sound at sound ⊢
  cases h : e.phase <;> simp_all

theorem Sound.note {s : State} (sound : Sound s) : Sound (s.note hashHwid) where
  distinct := (note_pending hashHwid s).symm ▸ sound.distinct
  below := (note_pending hashHwid s).symm ▸ sound.below
  calls := by
    intro e noted
    obtain ⟨o, mem, rfl⟩ := List.mem_map.mp noted
    exact noted_sound (sound.calls o mem) _
  changes := sound.changes
  kept := sound.keeping rfl le_rfl fun id mem => .inl (note_calls hashHwid s ▸ mem)
  answers := sound.answers

theorem pending_set {calls : List Enforce} {n : Nat} {e e' : Enforce} (here : calls[n]? = some e)
    (same : pendingId e' = pendingId e) : (calls.set n e').filterMap pendingId = calls.filterMap pendingId := by
  induction calls generalizing n with
  | nil => cases here
  | cons o calls ih =>
      cases n with
      | zero =>
          cases here
          simp [List.filterMap_cons, same]
      | succ n => simp [List.filterMap_cons, ih here]

theorem pending_take {calls : List Enforce} {n : Nat} {e : Enforce} (here : calls[n]? = some e) :
    (calls.filterMap pendingId).Perm ((pendingId e).toList ++ (calls.eraseIdx n).filterMap pendingId) := by
  induction calls generalizing n with
  | nil => cases here
  | cons o calls ih =>
      cases n with
      | zero =>
          cases here
          cases h : pendingId e <;> simp [h]
      | succ n =>
          have rest := ih (n := n) here
          cases h : pendingId o with
          | none => simpa [List.filterMap_cons, h] using rest
          | some id =>
              simp only [List.filterMap_cons, h, List.eraseIdx_cons_succ]
              exact (rest.cons id).trans List.perm_middle.symm

theorem pending_give {calls : List Enforce} {n : Nat} {e e' : Enforce} {id : Nat} (here : calls[n]? = some e)
    (nothing : pendingId e = none) (something : pendingId e' = some id) :
    ((calls.set n e').filterMap pendingId).Perm (id :: calls.filterMap pendingId) := by
  induction calls generalizing n with
  | nil => cases here
  | cons o calls ih =>
      cases n with
      | zero =>
          cases here
          simp [nothing, something]
      | succ n =>
          have rest := ih (n := n) here
          cases h : pendingId o with
          | none => simpa [List.filterMap_cons, h] using rest
          | some k =>
              simp only [List.set_cons_succ, List.filterMap_cons, h]
              exact (rest.cons k).trans (List.Perm.swap id k _)

/-! ## The statements of a call -/

section Calls

variable {s : State} {n : Nat} {e : Enforce} (sound : Sound s)
include sound

theorem Sound.ended {hwids : List ClientHwid} {a : Answer} (same : hwids.map (·.id) = s.hwids.map (·.id)) (good : a.Sound) :
    Sound { s with hwids := hwids, calls := s.calls.eraseIdx n, answers := s.answers ++ [a] } := by
  have part : (ids { s with hwids := hwids, calls := s.calls.eraseIdx n, answers := s.answers ++ [a] }).Sublist (ids s) := by
    simp only [ids, same]
    exact ((List.eraseIdx_sublist s.calls n).filterMap pendingId).append_left _
  refine ⟨part.nodup sound.distinct, fun id mem => sound.below id (part.subset mem), fun o mem => ?_, sound.changes,
    sound.keeping rfl le_rfl fun id mem => .inl ?_, ?_⟩
  · exact sound.calls o (List.mem_of_mem_eraseIdx mem)
  · exact ((List.eraseIdx_sublist s.calls n).filterMap pendingId).subset mem
  · intro b mem
    rcases List.mem_append.mp mem with before | new
    · exact sound.answers b before
    · exact List.mem_singleton.mp new ▸ good

variable (here : s.calls[n]? = some e)
include here

theorem Sound.goesOn (phase : Enforcing) (was : pendingId e = none) (none : pendingId { e with phase := phase } = none)
    (good : Enforce.Sound { e with phase := phase }) : Sound (s.goOn n e phase) := by
  have pending : (s.goOn n e phase).calls.filterMap pendingId = s.calls.filterMap pendingId :=
    pending_set here (none.trans was.symm)
  have same : ids (s.goOn n e phase) = ids s := congrArg (_ ++ ·) pending
  refine ⟨same ▸ sound.distinct, same ▸ sound.below, fun o mem => ?_, sound.changes,
    sound.keeping rfl le_rfl fun id mem => .inl (pending ▸ mem), sound.answers⟩
  rcases List.mem_or_eq_of_mem_set mem with before | rfl
  · exact sound.calls o before
  · exact good

theorem Sound.missed {limit : Int} (was : pendingId e = none) (missing : isRegistered hashHwid s.hwids e.subID e.hwid = false) :
    Sound ((s.goOn n e (.absent limit)).note hashHwid) := by
  have pending : (s.goOn n e (.absent limit)).calls.filterMap pendingId = s.calls.filterMap pendingId :=
    pending_set here ((rfl : pendingId { e with phase := .absent limit } = none).trans was.symm)
  have same : ids ((s.goOn n e (.absent limit)).note hashHwid) = ids s :=
    (note_pending hashHwid _).trans (congrArg (_ ++ ·) pending)
  refine ⟨same ▸ sound.distinct, same ▸ sound.below, fun o noted => ?_, sound.changes,
    sound.keeping rfl le_rfl fun id mem => .inl (pending ▸ note_calls hashHwid _ ▸ mem), sound.answers⟩
  obtain ⟨o, mem, rfl⟩ := List.mem_map.mp noted
  rcases List.mem_or_eq_of_mem_set mem with before | rfl
  · exact noted_sound (sound.calls o before) _
  · simp [Enforce.Sound, State.goOn, missing]

theorem Sound.inserts {limit : Int} {count : Nat} {row : ClientHwid} (was : pendingId e = none) (fresh : row.id = s.nextId)
    (good : Enforce.Sound { e with phase := .inserted limit count row }) :
    Sound { s.goOn n e (.inserted limit count row) with nextId := s.nextId + 1 } := by
  have more : ((s.goOn n e (.inserted limit count row)).calls.filterMap pendingId).Perm
      (s.nextId :: s.calls.filterMap pendingId) := pending_give here was (by rw [← fresh]; rfl)
  have perm : (ids { s.goOn n e (.inserted limit count row) with nextId := s.nextId + 1 }).Perm (s.nextId :: ids s) :=
    (more.append_left _).trans List.perm_middle
  have new : s.nextId ∉ ids s := fun mem => Nat.lt_irrefl _ (sound.below _ mem)
  refine ⟨perm.symm.nodup (List.nodup_cons.mpr ⟨new, sound.distinct⟩), fun id mem => ?_, fun o mem => ?_, sound.changes,
    sound.keeping rfl (Nat.le_succ _) fun id mem => ?_, sound.answers⟩
  · rcases List.mem_cons.mp (perm.subset mem) with rfl | before
    · exact Nat.lt_succ_self _
    · exact Nat.lt_succ_of_lt (sound.below id before)
  · rcases List.mem_or_eq_of_mem_set mem with before | rfl
    · exact sound.calls o before
    · exact good
  · rcases List.mem_cons.mp (more.subset mem) with rfl | before
    · exact .inr le_rfl
    · exact .inl before

theorem Sound.commits {row : ClientHwid} {a : Answer} (was : pendingId e = some row.id) (good : a.Sound) :
    Sound { s with hwids := s.hwids ++ [row], calls := s.calls.eraseIdx n, answers := s.answers ++ [a] } := by
  have taken := pending_take here
  rw [was] at taken
  have perm : (ids { s with hwids := s.hwids ++ [row], calls := s.calls.eraseIdx n, answers := s.answers ++ [a] }).Perm
      (ids s) := by
    simp only [ids, List.map_append, List.map_cons, List.map_nil, List.append_assoc]
    exact (taken.symm).append_left _
  refine ⟨perm.symm.nodup sound.distinct, fun id mem => sound.below id (perm.subset mem), fun o mem => ?_, sound.changes,
    sound.keeping rfl le_rfl fun id mem => .inl (taken.symm.subset (List.mem_cons_of_mem _ mem)), ?_⟩
  · exact sound.calls o (List.mem_of_mem_eraseIdx mem)
  · intro b mem
    rcases List.mem_append.mp mem with before | new
    · exact sound.answers b before
    · exact List.mem_singleton.mp new ▸ good

end Calls

theorem enforceStep_sound {s t : State} {n : Nat} {e : Enforce} {now : Int} (sound : Sound s) (here : s.calls[n]? = some e)
    (step : s.enforceStep hashHwid n e now = some t) : Sound (t.note hashHwid) := by
  have own := sound.calls e (List.mem_of_getElem? here)
  have allowed : ∀ r : HwidGateResult, r.allowed = true → Answer.Sound ⟨e, r, false⟩ := fun r yes _ _ => yes
  have answers : ∀ r : HwidGateResult, Answer.Sound ⟨e, r, false⟩ → Sound (s.answer n e r) := fun r good =>
    sound.ended rfl good
  unfold State.enforceStep at step
  unfold Enforce.Sound at own
  cases phase : e.phase with
  | unchecked =>
      have was : pendingId e = none := by simp [pendingId, phase]
      simp only [phase] at step
      split at step
      · cases step
        exact (answers _ (allowed _ rfl)).note hashHwid
      · split at step
        · rename_i short
          cases step
          refine (answers _ fun _ long => ?_).note hashHwid
          exact absurd long (Nat.not_le_of_lt short)
        · cases step
          exact (sound.goesOn here .begun was rfl trivial).note hashHwid
  | begun =>
      have was : pendingId e = none := by simp [pendingId, phase]
      simp only [phase] at step
      split at step
      · cases step
        exact (answers _ (allowed _ rfl)).note hashHwid
      · cases step
        exact (sound.goesOn here (.limited (s.limitOf e.subID)) was rfl trivial).note hashHwid
  | limited limit =>
      have was : pendingId e = none := by simp [pendingId, phase]
      simp only [phase] at step
      split at step
      · cases step
        exact (sound.goesOn here (.found limit _) was rfl trivial).note hashHwid
      · rename_i missing
        cases step
        refine sound.missed hashHwid here was ?_
        simpa [isRegistered] using missing
  | found limit id =>
      have was : pendingId e = none := by simp [pendingId, phase]
      simp only [phase] at step
      cases step
      exact (sound.goesOn here (.touched limit id now) was rfl trivial).note hashHwid
  | touched limit id lastSeen =>
      simp only [phase] at step
      cases step
      refine (sound.ended ?_ (allowed _ rfl)).note hashHwid
      rw [List.map_map]
      refine List.map_congr_left fun row _ => ?_
      simp only [Function.comp_apply]
      split <;> rfl
  | absent limit =>
      have was : pendingId e = none := by simp [pendingId, phase]
      simp only [phase] at step own
      split at step
      · cases step
        refine (answers _ fun all _ => ?_).note hashHwid
        rw [own] at all
        cases all
      · cases step
        exact (sound.goesOn here (.counted limit _) was rfl own).note hashHwid
  | counted limit count =>
      have was : pendingId e = none := by simp [pendingId, phase]
      simp only [phase] at step own
      split at step
      · cases step
        refine (sound.ended rfl fun all _ => ?_).note hashHwid
        rw [own] at all
        cases all
      · split at step
        · cases step
        · cases step
          exact (sound.inserts here was rfl ⟨own, rfl⟩).note hashHwid
  | inserted limit count row =>
      simp only [phase] at step
      cases step
      exact (sound.commits here (by simp [pendingId, phase]) (allowed _ rfl)).note hashHwid

/-! ## The statements of a limit change -/

theorem Sound.moved {s t : State} (sound : Sound s) (hwids : t.hwids.Sublist s.hwids) (nextId : t.nextId = s.nextId)
    (calls : t.calls = s.calls) (answers : t.answers = s.answers)
    (changes : ∀ c ∈ t.changes, c.Sound ∧ (c ∈ s.changes ∨ c.keeps ⊆ s.hwids.map (·.id))) : Sound t := by
  have part : (ids t).Sublist (ids s) := by
    rw [ids, ids, calls]
    exact (hwids.map _).append_right _
  refine ⟨part.nodup sound.distinct, fun id mem => nextId ▸ sound.below id (part.subset mem), calls ▸ sound.calls,
    fun c mem => (changes c mem).1, fun c mem id kept => ?_, answers ▸ sound.answers⟩
  rw [nextId, calls]
  rcases (changes c mem).2 with before | visible
  · exact sound.kept c before id kept
  · have there : id ∈ s.hwids.map (·.id) := visible kept
    exact ⟨sound.below id (List.mem_append_left _ there), List.disjoint_of_nodup_append sound.distinct there⟩

theorem latest_subset (hwids : List ClientHwid) (subID : String) (limit : Int) :
    latest hwids subID limit ⊆ (devicesOf hwids subID).map (·.id) := by
  intro id mem
  have sorted := List.mem_of_mem_take mem
  obtain ⟨row, there, rfl⟩ := List.mem_map.mp sorted
  exact List.mem_map_of_mem ((List.mergeSort_perm _ _).subset there)

theorem limitStep_sound {s : State} {n : Nat} {c : LimitChange} (sound : Sound s) (here : s.changes[n]? = some c) :
    Sound ((s.limitStep n c).note hashHwid) := by
  have own := sound.changes c (List.mem_of_getElem? here)
  have going : ∀ c' : LimitChange, c'.Sound → (c'.keeps ⊆ s.hwids.map (·.id)) →
      ∀ o ∈ s.changes.set n c', o.Sound ∧ (o ∈ s.changes ∨ o.keeps ⊆ s.hwids.map (·.id)) := by
    intro c' good keeps o mem
    rcases List.mem_or_eq_of_mem_set mem with before | rfl
    · exact ⟨sound.changes o before, .inl before⟩
    · exact ⟨good, .inr keeps⟩
  have ending : ∀ o ∈ s.changes.eraseIdx n, o.Sound ∧ (o ∈ s.changes ∨ o.keeps ⊆ s.hwids.map (·.id)) := fun o mem =>
    ⟨sound.changes o (List.mem_of_mem_eraseIdx mem), .inl (List.mem_of_mem_eraseIdx mem)⟩
  have none : ([] : List Nat) ⊆ s.hwids.map (·.id) := List.nil_subset _
  unfold LimitChange.Sound at own
  refine Sound.note hashHwid ?_
  unfold State.limitStep
  cases phase : c.phase with
  | unread =>
      simp only [phase] at own
      dsimp only
      split
      · exact sound.moved (.refl _) rfl rfl rfl (going { c with phase := .read _ _ } own none)
      · exact sound.moved (.refl _) rfl rfl rfl ending
  | read id subID =>
      have stood : State.standing s.clients id ≠ some "" := fun blank => by
        simpa using (Option.filter_eq_some_iff.mp blank).2
      exact sound.moved (.refl _) rfl rfl rfl
        (going { c with stood := State.standing s.clients id, phase := .written (trimSpace subID) } ⟨stood, trivial⟩ none)
  | written subID =>
      dsimp only
      split
      · exact sound.moved (.refl _) rfl rfl rfl ending
      · exact sound.moved (.refl _) rfl rfl rfl (going { c with phase := .limited subID _ } ⟨own.1, trivial⟩ none)
  | limited subID effective =>
      refine sound.moved (.refl _) rfl rfl rfl (going { c with phase := .kept subID effective _ } ⟨own.1, trivial⟩ ?_)
      exact List.Subset.trans (latest_subset _ _ _) (List.filter_sublist.map _).subset
  | kept subID effective keep => exact sound.moved List.filter_sublist rfl rfl rfl ending

theorem next_sound {s t : State} {a : Action} (sound : Sound s) (step : (gate hashHwid).next s a = some t) : Sound t := by
  cases a with
  | enforce subID hwid =>
      cases step
      have same : ids { s with calls := s.calls ++ [⟨trimSpace subID, trimSpace hwid, .unchecked, true⟩] } = ids s := by
        rw [ids, ids, List.filterMap_append]
        exact congrArg (_ ++ ·) (List.append_nil _)
      refine Sound.note hashHwid ⟨by rw [same]; exact sound.distinct, by rw [same]; exact sound.below, fun e mem => ?_,
        sound.changes, sound.keeping rfl le_rfl fun id mem => .inl (List.append_cancel_left same ▸ mem), sound.answers⟩
      · rcases List.mem_append.mp mem with before | new
        · exact sound.calls e before
        · exact List.mem_singleton.mp new ▸ trivial
  | advance n now =>
      simp only [gate, Option.bind_eq_bind, Option.bind_eq_some_iff] at step
      obtain ⟨e, here, u, did, step⟩ := step
      cases step
      exact enforceStep_sound hashHwid sound here did
  | setLimit email limit =>
      cases step
      refine sound.moved (.refl _) rfl rfl rfl fun c mem => ?_
      rcases List.mem_append.mp mem with before | new
      · exact ⟨sound.changes c before, .inl before⟩
      · obtain rfl := List.mem_singleton.mp new
        exact ⟨⟨by simp, rfl⟩, .inr (List.nil_subset _)⟩
  | advanceLimit n =>
      simp only [gate, Option.bind_eq_bind, Option.bind_eq_some_iff] at step
      obtain ⟨c, here, step⟩ := step
      cases step
      exact limitStep_sound hashHwid sound here
  | setClients clients =>
      cases step
      exact sound.moved (.refl _) rfl rfl rfl fun c mem => ⟨sound.changes c mem, .inl mem⟩
  | forget gone =>
      cases step
      exact (sound.moved (t := { s with hwids := s.hwids.filter (·.id ∉ gone) }) List.filter_sublist rfl rfl rfl
        fun c mem => ⟨sound.changes c mem, .inl mem⟩).note hashHwid

theorem start_sound (clients : List Client) : Sound (start clients) := by
  constructor
  · exact .nil
  all_goals
    intro x mem
    simp [start, ids] at mem

theorem reached_sound {clients : List Client} {s : State} (reached : (gate hashHwid).Reaches (start clients) s) : Sound s :=
  reached.invariant Sound (start_sound clients) fun _ _ _ sound _ step => next_sound hashHwid sound step

end ThreeXNode.Service.Devices
