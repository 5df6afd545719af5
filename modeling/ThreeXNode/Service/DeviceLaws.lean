import ThreeXNode.Service.DeviceRooms

namespace ThreeXNode.Service.Devices
open Library

variable {hashHwid : String → String}

/-! ## Lawful steps -/

theorem inserted_fits {s : State} {n : Nat} {e : Enforce} {row : ClientHwid} (own : row.subID = e.subID) (r : HwidGateResult) :
    Fits ((State.answer { s with hwids := s.hwids ++ [row] } n e r).note hashHwid) e.subID ↔ Room s e.subID := by
  have after : Fits ((State.answer { s with hwids := s.hwids ++ [row] } n e r).note hashHwid) e.subID ↔
      s.limitOf e.subID ≤ 0 ∨ ((devicesOf (s.hwids ++ [row]) e.subID).length : Int) ≤ s.limitOf e.subID := .rfl
  rw [after, inserted_count s own, Room]
  omega

theorem trimmed_count (hwids : List ClientHwid) (own subID : String) (keep : List Nat) :
    devicesOf (hwids.filter fun row => !(row.subID = own && row.id ∉ keep)) subID =
      if subID = own then (devicesOf hwids subID).filter (·.id ∈ keep) else devicesOf hwids subID := by
  unfold devicesOf
  rw [List.filter_filter]
  by_cases same : subID = own
  · subst same
    rw [if_pos rfl, List.filter_filter]
    refine List.filter_congr fun row _ => ?_
    by_cases here : row.subID = subID <;> simp [here]
  · rw [if_neg same]
    refine List.filter_congr fun row _ => ?_
    by_cases here : row.subID = subID <;> simp [here, same]

theorem trimmed_fits (s : State) (n : Nat) (own subID : String) (keep : List Nat) :
    Fits ((State.changed { s with hwids := s.hwids.filter fun row => !(row.subID = own && row.id ∉ keep) } n).note hashHwid) subID ↔
      s.limitOf subID ≤ 0 ∨
        ((if subID = own then s.leftOf subID keep else s.countOf subID : Nat) : Int) ≤ s.limitOf subID := by
  have after : Fits ((State.changed { s with hwids := s.hwids.filter fun row => !(row.subID = own && row.id ∉ keep) } n).note
      hashHwid) subID ↔ s.limitOf subID ≤ 0 ∨
        ((devicesOf (s.hwids.filter fun row => !(row.subID = own && row.id ∉ keep)) subID).length : Int) ≤ s.limitOf subID := .rfl
  rw [after, trimmed_count]
  split <;> rfl

theorem next_lawful {s t : State} {a : Action} (sound : Sound s) (secure : Secure hashHwid s)
    (step : (gate hashHwid).next s a = some t) : Lawful s a t := by
  cases a with
  | enforce | setLimit | setClients | forget => trivial
  | advance n now =>
      intro e limit count row here phase
      have own := sound.calls e (List.mem_of_getElem? here)
      have room := secure.calls e (List.mem_of_getElem? here)
      simp only [Enforce.Sound, phase] at own
      simp only [Enforce.Secure, phase] at room
      simp only [gate, here, Option.bind_eq_bind, Option.bind_some, State.enforceStep, phase] at step
      cases step
      exact (inserted_fits own.2 _).mpr room
  | advanceLimit n =>
      intro c here ended subID stood
      have own := sound.changes c (List.mem_of_getElem? here)
      have stands := secure.changes c (List.mem_of_getElem? here) subID stood
      simp only [LimitChange.Sound] at own
      simp only [gate, here, Option.bind_eq_bind, Option.bind_some] at step
      cases step
      cases phase : c.phase with
      | unread =>
          simp only [phase] at own
          rw [own.2] at stood
          cases stood
      | read id own =>
          simp [State.limitStep, phase, State.changeOn, State.note] at ended
      | written own' =>
          simp only [phase] at stands
          simp only [State.limitStep, phase] at ended ⊢
          split at ended
          · rename_i done
            rw [if_pos done]
            rcases stands with rfl | fits
            · rcases done with rfl | free
              · exact absurd stood own.1
              · exact .inl free
            · exact (fits_same rfl rfl subID).mpr fits
          · simp [State.changeOn, State.note] at ended
      | limited own effective =>
          simp [State.limitStep, phase, State.changeOn, State.note] at ended
      | kept own effective keep =>
          simp only [phase] at stands
          simp only [State.limitStep, phase]
          rw [trimmed_fits]
          rcases stands with ⟨rfl, enough⟩ | free | fits
          · rw [if_pos rfl]
            exact .inr enough
          · exact .inl free
          · right
            split
            · refine le_trans ?_ fits
              exact_mod_cast (List.length_filter_le _ _)
            · exact fits

/-! ## A step that is not orderly -/

variable (hashHwid) in
/-- The run can go on to a step that is not lawful. -/
def Breaks (s : State) : Prop :=
  ∃ t a u, (gate hashHwid).Reaches s t ∧ (gate hashHwid).next t a = some u ∧ ¬Lawful t a u

theorem Breaks.step {s t : State} {a : Action} (step : (gate hashHwid).next s a = some t) (breaks : Breaks hashHwid t) :
    Breaks hashHwid s := by
  obtain ⟨u, b, v, run, last, broken⟩ := breaks
  exact ⟨u, b, v, (System.Path.refl.tail trivial step).trans run, last, broken⟩

theorem inserted_breaks {s : State} (sound : Sound s) {n : Nat} {e : Enforce} {limit : Int} {count : Nat} {row : ClientHwid}
    (here : s.calls[n]? = some e) (phase : e.phase = .inserted limit count row) (full : ¬Room s e.subID) :
    Breaks hashHwid s := by
  have own := sound.calls e (List.mem_of_getElem? here)
  simp only [Enforce.Sound, phase] at own
  have step : ∃ t, (gate hashHwid).next s (.advance n 0) = some t ∧ ¬Fits t e.subID := by
    simp only [gate, here, Option.bind_eq_bind, Option.bind_some, State.enforceStep, phase]
    exact ⟨_, rfl, fun fits => full ((inserted_fits own.2 _).mp fits)⟩
  obtain ⟨t, step, broken⟩ := step
  exact ⟨s, _, t, .refl, step, fun lawful => broken (lawful e limit count row here phase)⟩

theorem counted_breaks {s : State} (sound : Sound s) {n : Nat} {e : Enforce} {limit : Int} {count : Nat}
    (here : s.calls[n]? = some e) (phase : e.phase = .counted limit count) (full : ¬Room s e.subID)
    (fresh : isRegistered hashHwid s.hwids e.subID e.hwid = false) : Breaks hashHwid s := by
  by_cases waits : ∃ o ∈ s.calls, ∃ l k row, o.phase = .inserted l k row ∧ row.subID = e.subID
  · -- the call that it would wait for breaks the limit itself
    obtain ⟨o, mem, l, k, row, other, same⟩ := waits
    obtain ⟨m, there⟩ := List.mem_iff_getElem?.mp mem
    have own := sound.calls o mem
    simp only [Enforce.Sound, other] at own
    exact inserted_breaks sound there other (own.2 ▸ same ▸ full)
  · let row : ClientHwid := ⟨s.nextId, e.subID, hashHwid e.hwid, 0⟩
    let t : State := { s.goOn n e (.inserted limit count row) with nextId := s.nextId + 1 }
    have step : (gate hashHwid).next s (.advance n 0) = some (t.note hashHwid) := by
      simp only [gate, here, Option.bind_eq_bind, Option.bind_some, State.enforceStep, phase, fresh, Bool.false_eq_true,
        if_false]
      rw [if_neg]
      · rfl
      · intro busy
        obtain ⟨o, mem, other⟩ := List.any_eq_true.mp busy
        split at other
        · rename_i l k row other'
          exact waits ⟨o, mem, l, k, row, other', of_decide_eq_true (Bool.and_eq_true_iff.mp other).1⟩
        · cases other
    obtain ⟨valid, -⟩ := List.getElem?_eq_some_iff.mp here
    have there : (t.note hashHwid).calls[n]? = some
        { e with phase := .inserted limit count row
                 throughout := e.throughout && isRegistered hashHwid s.hwids e.subID e.hwid } := by
      simp [t, State.note, State.goOn, valid]
    exact Breaks.step step (inserted_breaks (next_sound hashHwid sound step) there rfl full)

theorem kept_breaks {s : State} {n : Nat} {c : LimitChange} {own : String} {effective : Int} {keep : List Nat}
    (here : s.changes[n]? = some c) (phase : c.phase = .kept own effective keep) (exceeds : ¬c.Secure s) : Breaks hashHwid s := by
  obtain ⟨valid, -⟩ := List.getElem?_eq_some_iff.mp here
  have step : (gate hashHwid).next s (.advanceLimit n) = some ((s.limitStep n c).note hashHwid) := by
    simp only [gate, here, Option.bind_eq_bind, Option.bind_some]
    rfl
  refine ⟨s, _, _, .refl, step, fun lawful => exceeds fun now stands => ?_⟩
  have shorter : ((s.limitStep n c).note hashHwid).changes.length < s.changes.length := by
    simp only [State.limitStep, phase, State.changed, State.note, List.length_eraseIdx_of_lt valid]
    omega
  have fits := lawful c here shorter now stands
  simp only [State.limitStep, phase] at fits
  rw [trimmed_fits] at fits
  simp only [phase]
  rcases fits with free | enough
  · exact .inr (.inl free)
  · split at enough
    · exact .inl ⟨by assumption, enough⟩
    · exact .inr (.inr enough)

theorem limited_breaks {s : State} (sound : Sound s) {n : Nat} {c : LimitChange} {own : String} {effective : Int}
    (here : s.changes[n]? = some c) (phase : c.phase = .limited own effective) (exceeds : ¬c.Secure s) :
    Breaks hashHwid s := by
  obtain ⟨valid, -⟩ := List.getElem?_eq_some_iff.mp here
  let keep := latest s.hwids own effective
  have step : (gate hashHwid).next s (.advanceLimit n) = some ((s.changeOn n c (.kept own effective keep)).note hashHwid) := by
    simp only [gate, here, Option.bind_eq_bind, Option.bind_some, State.limitStep, phase]
    rfl
  have there : ((s.changeOn n c (.kept own effective keep)).note hashHwid).changes[n]? =
      some { c with phase := .kept own effective keep } := by
    simp [State.note, State.changeOn, valid]
  refine Breaks.step step (kept_breaks there rfl fun after => exceeds fun now stood => ?_)
  have stands := (LimitChange.secure_same (s := s) rfl rfl _).mp after now stood
  simp only [phase]
  rcases stands with ⟨rfl, enough⟩ | fits
  · rw [latest_left sound] at enough
    by_cases low : effective ≤ s.limitOf now
    · exact .inl ⟨rfl, low⟩
    · refine .inr ?_
      unfold Fits
      omega
  · exact .inr fits

theorem written_breaks {s : State} (sound : Sound s) {n : Nat} {c : LimitChange} {own : String}
    (here : s.changes[n]? = some c) (phase : c.phase = .written own) (exceeds : ¬c.Secure s) : Breaks hashHwid s := by
  obtain ⟨valid, -⟩ := List.getElem?_eq_some_iff.mp here
  have step : (gate hashHwid).next s (.advanceLimit n) = some ((s.limitStep n c).note hashHwid) := by
    simp only [gate, here, Option.bind_eq_bind, Option.bind_some]
    rfl
  by_cases done : own = "" ∨ s.limitOf own ≤ 0
  · have ends : s.limitStep n c = s.changed n := by
      simp only [State.limitStep, phase]
      exact if_pos done
    rw [ends] at step
    refine ⟨s, _, _, .refl, step, fun lawful => exceeds fun now stood => ?_⟩
    have shorter : ((s.changed n).note hashHwid).changes.length < s.changes.length := by
      simp only [State.changed, State.note, List.length_eraseIdx_of_lt valid]
      omega
    simp only [phase]
    exact .inr ((fits_same rfl rfl now).mp (lawful c here shorter now stood))
  · have goes : s.limitStep n c = s.changeOn n c (.limited own (s.limitOf own)) := by
      simp only [State.limitStep, phase]
      exact if_neg done
    rw [goes] at step
    have there : ((s.changeOn n c (.limited own (s.limitOf own))).note hashHwid).changes[n]? =
        some { c with phase := .limited own (s.limitOf own) } := by
      simp [State.note, State.changeOn, valid]
    refine Breaks.step step (limited_breaks (next_sound hashHwid sound step) there rfl fun after => exceeds fun now stood => ?_)
    have stands := (LimitChange.secure_same (s := s) rfl rfl _).mp after now stood
    simp only [phase]
    exact stands.imp_left And.left

theorem insecure_breaks {s : State} (sound : Sound s) (insecure : ¬Secure hashHwid s) : Breaks hashHwid s := by
  by_cases calls : ∀ e ∈ s.calls, e.Secure hashHwid s
  · have some : ∃ c ∈ s.changes, ¬c.Secure s := by
      by_contra none
      exact insecure ⟨calls, fun c mem => by_contra fun exceeds => none ⟨c, mem, exceeds⟩⟩
    obtain ⟨c, mem, exceeds⟩ := some
    obtain ⟨n, here⟩ := List.mem_iff_getElem?.mp mem
    cases phase : c.phase with
    | unread | read _ _ =>
        refine absurd (fun now stood => ?_) exceeds
        simp only [phase]
    | written own => exact written_breaks sound here phase exceeds
    | limited own effective => exact limited_breaks sound here phase exceeds
    | kept own effective keep => exact kept_breaks here phase exceeds
  · obtain ⟨e, mem, overtaken⟩ : ∃ e ∈ s.calls, ¬e.Secure hashHwid s := by
      by_contra none
      exact calls fun e mem => by_contra fun overtaken => none ⟨e, mem, overtaken⟩
    obtain ⟨n, here⟩ := List.mem_iff_getElem?.mp mem
    unfold Enforce.Secure at overtaken
    cases phase : e.phase with
    | counted limit count =>
        simp only [phase, not_or, Bool.not_eq_true] at overtaken
        exact counted_breaks sound here phase overtaken.1 overtaken.2
    | inserted limit count row =>
        simp only [phase] at overtaken
        exact inserted_breaks sound here phase overtaken
    | _ => simp only [phase, not_true_eq_false] at overtaken

/-! ## The device limit -/

theorem start_secure (clients : List Client) : Secure hashHwid (start clients) := by
  constructor
  all_goals
    intro x mem
    simp [start] at mem

theorem path_secure {clients : List Client} {s : State}
    (run : (gate hashHwid).Path (Orderly hashHwid) (start clients) s) : Sound s ∧ Secure hashHwid s :=
  run.invariant (fun s => Sound s ∧ Secure hashHwid s) ⟨start_sound clients, start_secure clients⟩
    fun _ _ _ both orderly step =>
      ⟨next_sound hashHwid both.1 step, (next_secure both.2 both.1 step).mp orderly⟩

variable (hashHwid) in
/-- In every run a device that stays registered is admitted. In a run whose steps are all orderly every commit and every
end of a limit change is lawful; and after a step that is not orderly the run can go on to one that is not lawful. -/
theorem device_limit (clients : List Client) :
    (∀ s, (gate hashHwid).Reaches (start clients) s → ∀ a ∈ s.answers, a.call.throughout = true →
      minHwidLength ≤ a.call.hwid.utf8ByteSize → a.result.allowed = true) ∧
    ∀ s a t, (gate hashHwid).Path (Orderly hashHwid) (start clients) s → (gate hashHwid).next s a = some t →
      Lawful s a t ∧ (¬Orderly hashHwid s a → Breaks hashHwid t) := by
  refine ⟨fun s reached => (reached_sound hashHwid reached).answers, fun s a t run step => ?_⟩
  obtain ⟨sound, secure⟩ := path_secure run
  exact ⟨next_lawful sound secure step, fun disorderly =>
    insecure_breaks (next_sound hashHwid sound step) fun after => disorderly ((next_secure secure sound step).mpr after)⟩

namespace Example

def family (limit : Int) : List Client := [⟨1, "ann", "sub", true, limit⟩]

def whole (s : String) : String := s

def phone : List Action := .enforce "sub" "phone-1" :: List.replicate 6 (.advance 0 5)

def later : List Action :=
  phone ++ ([.enforce "sub" "phone-1", .setLimit "ann" 1, .advance 0 6] : List Action) ++
    List.replicate 4 (Action.advanceLimit 0) ++ List.replicate 4 (Action.advance 0 6)

def both : List Action :=
  ([.enforce "sub" "phone-1", .enforce "sub" "tablet-1"] : List Action) ++ List.replicate 4 (Action.advance 0 5) ++
    List.replicate 4 (Action.advance 1 5) ++
    ([.advance 0 6, .advance 1 6, .advance 0 7, .advance 0 7] : List Action)

end Example

open Example in
/-- The phone is admitted again while the limit is lowered, and the change ends within the limit. -/
theorem device_limit_phone :
    ∃ s t, (gate whole).Path (Orderly whole) (start (family 2)) s ∧ (gate whole).next s (.advanceLimit 0) = some t ∧
      t.limitOf "sub" = 1 ∧ Fits t "sub" ∧ ∀ a ∈ s.answers, a.call.throughout = true →
        minHwidLength ≤ a.call.hwid.utf8ByteSize → a.result.allowed = true := by
  have runs : ((gate whole).runWith (Orderly whole) (start (family 2)) later).isSome = true := by decide +kernel
  have facts (h) : (fun s : State => ((gate whole).next s (.advanceLimit 0)).isSome = true ∧
      (((gate whole).next s (.advanceLimit 0)).map fun t => (t.limitOf "sub", t.changes.length)) = some (1, 0) ∧
      s.changes.map (·.stood) = [some "sub"]) (((gate whole).runWith (Orderly whole) (start (family 2)) later).get h) := by
    revert h
    decide +kernel
  obtain ⟨steps, ends, stood⟩ := facts runs
  obtain ⟨t, step⟩ := Option.isSome_iff_exists.mp steps
  rw [step] at ends
  obtain ⟨lowered, none⟩ : t.limitOf "sub" = 1 ∧ t.changes.length = 0 := by simpa using ends
  have path := System.runWith_path (Option.some_get runs).symm
  have limit := device_limit whole (family 2)
  obtain ⟨c, one, own⟩ := List.map_eq_singleton_iff.mp stood
  refine ⟨_, t, path, step, lowered, (limit.2 _ _ t path step).1 c ?_ ?_ "sub" own, limit.1 _ path.reaches⟩
  · rw [one]
    rfl
  · rw [none, one]
    exact Nat.zero_lt_one

open Example in
/-- Both devices are admitted to a subscription for one. -/
theorem device_limit_exceeded :
    ∃ s, (gate whole).Reaches (start (family 1)) s ∧ s.limitOf "sub" = 1 ∧ s.countOf "sub" = 2 ∧
      s.answers.map (·.result.allowed) = [true, true] := by
  have runs : ((gate whole).run (start (family 1)) both).isSome = true := by decide +kernel
  have facts (h) : (fun s : State => s.limitOf "sub" = 1 ∧ s.countOf "sub" = 2 ∧
      s.answers.map (·.result.allowed) = [true, true]) (((gate whole).run (start (family 1)) both).get h) := by
    revert h
    decide +kernel
  exact ⟨_, System.run_reaches (Option.some_get runs).symm, facts runs⟩

end ThreeXNode.Service.Devices
