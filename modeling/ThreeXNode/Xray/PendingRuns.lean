import ThreeXNode.Xray.Reconciled

namespace ThreeXNode.Xray
open Library
open Inbounds

variable {r : Reader}

/-! ## Restarts -/

structure Settled (r : Reader) (p : XrayService) : Prop where
  desired : Starts r p.desired
  snapshot : p.live.isSome = true → Starts r p.snapshot
  housed : ∀ c, p.live = some c → c.Housed
  stopped : p.stopped = true → p.live = none

/-- What a restart does to the core. -/
inductive Restarted (r : Reader) (p : XrayService) (isForce : Bool) (luck : Fortune) (p' : XrayService) : Bool → Prop where
  | stopped (still : p.stopped = true) (same : p' = p) : Restarted r p isForce luck p' true
  | failed (same : p' = { p with stopped := false }) (unread : luck.config = false) : Restarted r p isForce luck p' false
  | idle (known : p.snapshot = p.desired) (up : p.stopped = false ∧ luck.config = true)
      (same : p' = { p with stopped := false }) : Restarted r p isForce luck p' true
  | hot (c c' : Inbounds) (live : p.live = some c) (moved : p.snapshot ≠ p.desired)
      (gentle : isForce = false ∧ p.stopped = false ∧ luck.config = true)
      (applied : tryHotApply r p.snapshot p.desired c luck.api = some c')
      (same : p' = { p with
        stopped := false, live := some c', snapshot := p.desired, failed := leaves r p.snapshot p.desired p.failed }) :
      Restarted r p isForce luck p' true
  | launched (same : p' = { p with
      stopped := false, live := some (serving r p.desired), snapshot := p.desired, failed := [] }) :
      Restarted r p isForce luck p' true
  | dead (same : p' = { p with stopped := false, live := none, snapshot := p.desired }) : Restarted r p isForce luck p' false

theorem launch_restarted (p : XrayService) (isForce : Bool) (luck : Fortune) :
    Restarted r p isForce luck ({ p with stopped := false }.launch r luck).1 ({ p with stopped := false }.launch r luck).2 := by
  unfold XrayService.launch
  by_cases ok : luck.starts = true ∧ Starts r p.desired
  · rw [if_pos ok]
    exact .launched rfl
  · rw [if_neg ok]
    exact .dead rfl

theorem restartXray_restarted (p : XrayService) (isForce : Bool) (luck : Fortune) :
    Restarted r p isForce luck (p.restartXray r isForce luck).1 (p.restartXray r isForce luck).2 := by
  unfold XrayService.restartXray
  by_cases still : (!isForce) = true ∧ p.stopped = true
  · rw [if_pos still]
    exact .stopped still.2 rfl
  rw [if_neg still]
  dsimp only
  by_cases unread : (!luck.config) = true
  · rw [if_pos unread]
    exact .failed rfl (by simpa using unread)
  rw [if_neg unread]
  cases live : p.live with
  | none =>
      have none := launch_restarted (r := r) p isForce luck
      rwa [live] at none
  | some c =>
      dsimp only
      have launch := launch_restarted (r := r) p isForce luck
      rw [live] at launch
      by_cases quiet : (!isForce) = true ∧ p.snapshot = p.desired ∧ (!p.needRestart) = true
      · rw [if_pos quiet]
        have calm : isForce = false := by simpa using quiet.1
        exact .idle quiet.2.1 ⟨by simpa [calm] using still, by simpa using unread⟩ (by rw [live])
      rw [if_neg quiet]
      by_cases gentle : (!isForce) = true ∧ p.snapshot ≠ p.desired
      · rw [if_pos gentle]
        cases applied : tryHotApply r p.snapshot p.desired c luck.api with
        | none => exact launch
        | some c' =>
            have calm : isForce = false := by simpa using gentle.1
            have up : p.stopped = false := by simpa [calm] using still
            exact .hot c c' live gentle.2 ⟨calm, up, by simpa using unread⟩ applied rfl
      · rw [if_neg gentle]
        exact launch

/-! ## What failed calls leave behind -/

def Agrees (failed : List Spot) (c c' : Inbounds) : Prop :=
  (∀ tag, .handler tag ∉ failed → c.handlers tag = c'.handlers tag) ∧
    ∀ k : String × String, .handler k.1 ∉ failed → .user k.1 k.2 ∉ failed → c.users k = c'.users k

theorem Agrees.same {c c' : Inbounds} (agrees : Agrees [] c c') : c = c' := by
  obtain ⟨handlers, users⟩ := agrees
  cases c
  cases c'
  rw [Inbounds.mk.injEq]
  exact ⟨funext fun tag => handlers tag List.not_mem_nil, funext fun k => users k List.not_mem_nil List.not_mem_nil⟩

theorem Agrees.perform {failed : List Spot} {c c' : Inbounds} (agrees : Agrees failed c c') (housed : c.Housed)
    (housed' : c'.Housed) (call : Call) :
    Agrees (failed.filter (!call.spot.covers ·)) (c.perform r call) (c'.perform r call) := by
  obtain ⟨handlers, users⟩ := agrees
  have stays : ∀ {spot : Spot}, spot ∉ failed.filter (!call.spot.covers ·) → call.spot.covers spot = false → spot ∉ failed :=
    fun out free mem => out (List.mem_filter.mpr ⟨mem, by simp [free]⟩)
  cases call with
  | addUser tag name user =>
      have handler : ∀ t, Spot.handler t ∉ failed.filter (!(Call.addUser tag name user).spot.covers ·) → .handler t ∉ failed :=
        fun t out => stays out rfl
      constructor
      · intro t out
        have same := handlers t (handler t out)
        unfold Inbounds.perform
        dsimp only
        split <;> split <;> exact same
      · intro k outer out
        have there := handlers k.1 (handler _ outer)
        unfold Inbounds.perform
        dsimp only
        by_cases own : k = (tag, name)
        · subst own
          dsimp only at there
          rw [there]
          by_cases some : (c'.handlers tag).isSome = true
          · simp [some, Inbounds.setUser]
          · have none : c'.handlers tag = none := by simpa using some
            rw [if_neg some, if_neg some, housed (tag, name) (there.trans none), housed' (tag, name) none]
        · have free : (Call.addUser tag name user).spot.covers (.user k.1 k.2) = false := by
            simp only [Call.spot, Spot.covers, Bool.and_eq_false_iff, decide_eq_false_iff_not]
            by_contra both
            push Not at both
            exact own (Prod.ext both.1.symm both.2.symm)
          have same := users k (handler _ outer) (stays out free)
          split <;> split <;> simpa [Inbounds.setUser, Function.update_of_ne own] using same
  | removeUser tag name =>
      have handler : ∀ t, Spot.handler t ∉ failed.filter (!(Call.removeUser tag name).spot.covers ·) → .handler t ∉ failed :=
        fun t out => stays out rfl
      refine ⟨fun t out => handlers t (handler t out), fun k outer out => ?_⟩
      show Function.update c.users (tag, name) none k = Function.update c'.users (tag, name) none k
      by_cases own : k = (tag, name)
      · rw [own, Function.update_self, Function.update_self]
      · have free : (Call.removeUser tag name).spot.covers (.user k.1 k.2) = false := by
          simp only [Call.spot, Spot.covers, Bool.and_eq_false_iff, decide_eq_false_iff_not]
          by_contra both
          push Not at both
          exact own (Prod.ext both.1.symm both.2.symm)
        rw [Function.update_of_ne own, Function.update_of_ne own]
        exact users k (handler _ outer) (stays out free)
  | addInbound ib =>
      constructor
      · intro t out
        show Function.update c.handlers ib.tag _ t = Function.update c'.handlers ib.tag _ t
        by_cases own : t = ib.tag
        · rw [own, Function.update_self, Function.update_self]
        · rw [Function.update_of_ne own, Function.update_of_ne own]
          exact handlers t (stays out (decide_eq_false (Ne.symm own)))
      · intro k outer out
        show (if k.1 = ib.tag then _ else c.users k) = if k.1 = ib.tag then _ else c'.users k
        by_cases own : k.1 = ib.tag
        · rw [if_pos own, if_pos own]
        · rw [if_neg own, if_neg own]
          exact users k (stays outer (decide_eq_false (Ne.symm own))) (stays out (decide_eq_false (Ne.symm own)))
  | delInbound tag =>
      constructor
      · intro t out
        show Function.update c.handlers tag none t = Function.update c'.handlers tag none t
        by_cases own : t = tag
        · rw [own, Function.update_self, Function.update_self]
        · rw [Function.update_of_ne own, Function.update_of_ne own]
          exact handlers t (stays out (decide_eq_false (Ne.symm own)))
      · intro k outer out
        show (if k.1 = tag then none else c.users k) = if k.1 = tag then none else c'.users k
        by_cases own : k.1 = tag
        · rw [if_pos own, if_pos own]
        · rw [if_neg own, if_neg own]
          exact users k (stays outer (decide_eq_false (Ne.symm own))) (stays out (decide_eq_false (Ne.symm own)))

theorem Agrees.miss {failed : List Spot} {c c' : Inbounds} (agrees : Agrees failed c c') (call : Call) :
    Agrees (call.spot :: failed) c (c'.perform r call) := by
  obtain ⟨handlers, users⟩ := agrees
  constructor
  · intro t out
    rw [List.mem_cons, not_or] at out
    rw [handlers t out.2]
    cases call with
    | addUser tag name user =>
        unfold Inbounds.perform
        dsimp only
        split <;> rfl
    | removeUser tag name => rfl
    | addInbound ib => exact (Function.update_of_ne (fun same => out.1 (congrArg Spot.handler same)) _ _).symm
    | delInbound tag => exact (Function.update_of_ne (fun same => out.1 (congrArg Spot.handler same)) _ _).symm
  · intro k outer out
    rw [List.mem_cons, not_or] at outer out
    rw [users k outer.2 out.2]
    cases call with
    | addUser tag name user =>
        have other : k ≠ (tag, name) := fun same => out.1 (by rw [same]; rfl)
        unfold Inbounds.perform
        dsimp only
        split
        · exact (Function.update_of_ne other _ _).symm
        · rfl
    | removeUser tag name => exact (Function.update_of_ne (fun same => out.1 (by rw [same]; rfl)) _ _).symm
    | addInbound ib => exact (if_neg fun same => outer.1 (congrArg Spot.handler same)).symm
    | delInbound tag => exact (if_neg fun same => outer.1 (congrArg Spot.handler same)).symm

theorem Agrees.track {failed : List Spot} {c c' : Inbounds} (agrees : Agrees failed c c') (calls : List (Call × Bool))
    (housed : c.Housed) (housed' : c'.Housed) :
    Agrees (Xray.track failed calls) ((calls.filter (·.2)).foldl (fun c call => c.perform r call.1) c)
      (calls.foldl (fun c call => c.perform r call.1) c') := by
  induction calls generalizing failed c c' with
  | nil => exact agrees
  | cons call calls ih =>
      obtain ⟨call, worked⟩ := call
      cases worked with
      | true => exact ih (agrees.perform housed housed' call) (housed.perform call) (housed'.perform call)
      | false => exact ih (agrees.miss call) housed (housed'.perform call)

theorem Agrees.trans {failed failed' : List Spot} {c c' c'' : Inbounds} (first : Agrees failed c c')
    (second : Agrees failed' c' c'') : Agrees (failed' ++ failed) c c'' := by
  constructor
  · intro t out
    rw [List.mem_append, not_or] at out
    exact (first.1 t out.2).trans (second.1 t out.1)
  · intro k outer out
    rw [List.mem_append, not_or] at outer out
    exact (first.2 k outer.2 out.2).trans (second.2 k outer.1 out.1)

theorem track_settled {calls : List (Call × Bool)} (settled : ∀ call ∈ calls, call.2 = true) : Xray.track [] calls = [] := by
  induction calls with
  | nil => rfl
  | cons call calls ih =>
      rw [Xray.track, List.foldl_cons, if_pos (settled call List.mem_cons_self), List.filter_nil]
      exact ih fun other mem => settled other (List.mem_cons_of_mem _ mem)

theorem Agrees.untouched {d : HotDiff} {new : Config} {failed : List Spot} {c : Inbounds}
    (agrees : Agrees failed c (serving r new)) (touches : ∀ spot ∈ failed, d.touches r spot = true) :
    Untouched r d new c := by
  have outside : ∀ {tag}, Outside d tag → Spot.handler tag ∉ failed := by
    intro tag out mem
    have touched := touches _ mem
    simp only [HotDiff.touches, Bool.or_eq_true, decide_eq_true_eq, List.any_eq_true] at touched
    rcases touched with removed | ⟨ib, added, same⟩
    · exact out.1 removed
    · exact out.2 ib added same
  refine ⟨fun tag out => agrees.1 tag (outside out), fun k out quiet quiet' => agrees.2 k (outside out) fun mem => ?_⟩
  have touched := touches _ mem
  simp only [HotDiff.touches, Bool.or_eq_true, Bool.and_eq_true, decide_eq_true_eq, List.any_eq_true] at touched
  rcases touched with (removed | ⟨ib, added, same⟩) | ⟨op, here, tag, name⟩
  · exact out.1 removed
  · exact out.2 ib added same
  · have own : key r.toLoader op = k := Prod.ext tag name
    rcases List.mem_append.mp here with lost | won
    · exact quiet (own ▸ List.mem_map_of_mem lost)
    · exact quiet' (own ▸ List.mem_map_of_mem won)

/-! ## The invariant -/

/-- The core that runs serves the config of the database, but for the spots whose last call failed, and where the flag is
clear there are none. -/
structure Sound (r : Reader) (p : XrayService) : Prop where
  settled : Settled r p
  agrees : ∀ c, p.live = some c → Agrees p.failed c (serving r p.desired)
  quiet : p.needRestart = false → p.live.isSome = true → p.failed = []

/-- Where a diff can be applied, the users it adds are those the core makes of their clients, and it touches every handler
and user whose last call failed. -/
def HotCovered (r : Reader) (p : XrayService) (luck : Fortune) : Prop :=
  ∀ d, p.live.isSome = true → p.snapshot ≠ p.desired → computeHotDiff p.snapshot p.desired = .ok d →
    luck.api = true ∨ d.empty = true → Carries r d ∧ ∀ spot ∈ p.failed, d.touches r spot = true

/-- Made in full, the calls of a request change the core as the request changes the config, but for what it changes without
a call. Where it asks for no restart there is none of that, and errors it overlooks are made good by its later calls. No
handler or user that is left behind meets a restart that does nothing, the config being the one last applied, or a diff
that does not touch it. -/
def Covered (r : Reader) (p : XrayService) : Action → Prop
  | .request desired uncalled runs => Starts r desired ∧
      Agrees uncalled ((runs.flatMap (·.calls r.fold)).foldl (fun c call => c.perform r call.1) (serving r p.desired))
        (serving r desired) ∧
      (p.live.isSome = true → p.needRestart = false → runs.any (·.asks r.fold) = false → uncalled = [] ∧
        (runs.any (·.overlooks) = true → track [] (XrayService.settledBy (runs.flatMap (·.calls r.fold))) = []))
  | .applyPendingRestart luck => p.needRestart = true → p.stopped = false → luck.config = true → HotCovered r p luck ∧
      (p.live.isSome = true → p.snapshot = p.desired → p.failed = [])
  | .restartXray isForce luck => isForce = false → p.stopped = false → luck.config = true → HotCovered r p luck
  | .stopXray | .crash => True

theorem leaves_nothing {p : XrayService} {luck : Fortune} (covered : HotCovered r p luck) {c c' : Inbounds}
    (live : p.live = some c) (moved : p.snapshot ≠ p.desired)
    (applied : tryHotApply r p.snapshot p.desired c luck.api = some c') : leaves r p.snapshot p.desired p.failed = [] := by
  unfold tryHotApply at applied
  unfold leaves
  cases computed : computeHotDiff p.snapshot p.desired with
  | error _ =>
      rw [computed] at applied
      cases applied
  | ok d =>
      rw [computed] at applied
      dsimp only at applied ⊢
      have works : luck.api = true ∨ d.empty = true := by
        by_cases idle : d.empty = true
        · exact .inr idle
        · rw [if_neg idle] at applied
          by_cases api : luck.api = true
          · exact .inl api
          · rw [if_neg api] at applied
            cases applied
      obtain ⟨-, touches⟩ := covered d (by rw [live]; rfl) moved computed works
      rw [List.filter_eq_nil_iff]
      intro spot mem
      simp [touches spot mem]

theorem Settled.restarted {p p' : XrayService} {isForce : Bool} {luck : Fortune} {done : Bool} (settled : Settled r p)
    (agrees : ∀ c, p.live = some c → Agrees p.failed c (serving r p.desired))
    (covered : isForce = false → p.stopped = false → luck.config = true → HotCovered r p luck)
    (restarted : Restarted r p isForce luck p' done) :
    Settled r p' ∧ p'.desired = p.desired ∧ p'.needRestart = p.needRestart ∧
      (p'.live = none ∨ (p'.live = some (serving r p.desired) ∧ p'.failed = []) ∨
        (p'.live = p.live ∧ p'.failed = p.failed ∧
          (done = true → p.live = none ∨ p.snapshot = p.desired ∧ p.stopped = false ∧ luck.config = true))) := by
  obtain ⟨desired, snapshot, housed, stopped⟩ := settled
  cases restarted with
  | stopped still same =>
      rw [same]
      exact ⟨⟨desired, snapshot, housed, stopped⟩, rfl, rfl, .inl (stopped still)⟩
  | failed same unread =>
      rw [same]
      exact ⟨⟨desired, snapshot, housed, fun still => by cases still⟩, rfl, rfl, .inr (.inr ⟨rfl, rfl, fun ok => by cases ok⟩)⟩
  | idle known up same =>
      rw [same]
      exact ⟨⟨desired, snapshot, housed, fun still => by cases still⟩, rfl, rfl,
        .inr (.inr ⟨rfl, rfl, fun _ => .inr ⟨known, up⟩⟩)⟩
  | hot c c' live moved gentle applied same =>
      obtain ⟨calm, up, read⟩ := gentle
      have hot := covered calm up read
      have serves : c' = serving r p.desired := by
        refine tryHotApply_serves (snapshot (by rw [live]; rfl)) desired (housed c live) (fun d computed works => ?_) applied
        obtain ⟨carries, touches⟩ := hot d (by rw [live]; rfl) moved computed works
        exact ⟨carries, (agrees c live).untouched touches⟩
      rw [same, serves]
      refine ⟨⟨desired, fun _ => desired, fun c' here => ?_, fun still => by cases still⟩, rfl, rfl,
        .inr (.inl ⟨rfl, leaves_nothing hot live moved applied⟩)⟩
      cases here
      exact housed_serving p.desired
  | launched same =>
      rw [same]
      refine ⟨⟨desired, fun _ => desired, fun c' here => ?_, fun still => by cases still⟩, rfl, rfl, .inr (.inl ⟨rfl, rfl⟩)⟩
      cases here
      exact housed_serving p.desired
  | dead same =>
      rw [same]
      exact ⟨⟨desired, fun up => (by cases up), fun c' here => (by cases here), fun _ => rfl⟩, rfl, rfl, .inl rfl⟩

theorem quiet_settled {fold : String → String} {runs : List Run} (quiet : runs.any (·.asks fold) = false)
    (made : runs.any (·.overlooks) = true → track [] (XrayService.settledBy (runs.flatMap (·.calls fold))) = []) :
    track [] (XrayService.settledBy (runs.flatMap (·.calls fold))) = [] := by
  by_cases overlooks : runs.any (·.overlooks) = true
  · exact made overlooks
  · rw [Bool.not_eq_true, List.any_eq_false] at overlooks
    rw [List.any_eq_false] at quiet
    refine track_settled fun call mem => ?_
    obtain ⟨made, there, rfl⟩ := List.mem_map.mp mem
    obtain ⟨run, here, own⟩ := List.mem_flatMap.mp there
    exact Run.settled_of_quiet fold (by simpa using overlooks run here) (by simpa using quiet run here) made own

theorem Sound.request {p p' : XrayService} (sound : Sound r p) {desired : Config} {uncalled : List Spot} {runs : List Run}
    (covered : Covered r p (.request desired uncalled runs)) (step : p.request r desired uncalled runs = some p') :
    Sound r p' := by
  obtain ⟨settled, agrees, quiet⟩ := sound
  obtain ⟨starts, follows, made⟩ := covered
  simp only [XrayService.request] at step
  split at step
  · cases step
  · cases here : p.live with
    | none =>
        rw [here] at step
        dsimp only at step
        split at step
        · cases step
          exact ⟨⟨starts, fun up => (by cases up), fun c live => (by cases live), fun _ => rfl⟩,
            fun c live => (by cases live), fun _ up => by cases up⟩
        · cases step
    | some c =>
        rw [here] at step
        obtain ⟨c', answers, rfl⟩ := Option.map_eq_some_iff.mp step
        have up : p.live.isSome = true := by rw [here]; rfl
        obtain ⟨performed, housed⟩ := (settled.housed c here).answering answers
        refine ⟨⟨starts, fun _ => settled.snapshot up, fun c live => ?_, fun still => ?_⟩, fun c live => ?_, fun clear _ => ?_⟩
        · cases live
          exact housed
        · rw [settled.stopped still] at here
          cases here
        · cases live
          have after := (agrees _ here).track (r := r) (XrayService.settledBy (runs.flatMap (·.calls r.fold)))
            (settled.housed _ here) (housed_serving p.desired)
          rw [performed, XrayService.settledBy, List.foldl_map] at after
          exact after.trans follows
        · obtain ⟨flag, asks⟩ := Bool.or_eq_false_iff.mp clear
          obtain ⟨none, overlooked⟩ := made up flag asks
          show uncalled ++ track p.failed _ = []
          rw [none, quiet flag up]
          exact quiet_settled asks overlooked

theorem Sound.next {p p' : XrayService} {a : Action} (sound : Sound r p) (covered : Covered r p a)
    (step : (xrayService r).next p a = some p') : Sound r p' := by
  cases a with
  | request desired uncalled runs => exact sound.request covered step
  | applyPendingRestart luck =>
      cases step
      unfold XrayService.applyPendingRestart
      by_cases still : (!p.needRestart) = true
      · rw [if_pos still]
        exact sound
      · rw [if_neg still]
        have pending : p.needRestart = true := by simpa using still
        have settled : Settled r { p with needRestart := false } :=
          ⟨sound.settled.desired, sound.settled.snapshot, sound.settled.housed, sound.settled.stopped⟩
        obtain ⟨after, desired, flag, outcome⟩ := @Settled.restarted r _ _ false luck _ settled sound.agrees
          (fun _ up read => (covered pending up read).1) (restartXray_restarted _ false luck)
        dsimp only
        generalize XrayService.restartXray r { p with needRestart := false } false luck = result at after desired flag outcome
        obtain ⟨p', done⟩ := result
        dsimp only at after desired flag outcome ⊢
        have agrees : ∀ c, p'.live = some c → Agrees p'.failed c (serving r p'.desired) := by
          intro c live
          rw [desired]
          rcases outcome with gone | ⟨serves, settled⟩ | ⟨same, failed, -⟩
          · rw [gone] at live
            cases live
          · rw [serves] at live
            cases live
            exact ⟨fun _ _ => rfl, fun _ _ _ => rfl⟩
          · rw [failed]
            exact sound.agrees c (same ▸ live)
        cases done with
        | false =>
            rw [if_neg Bool.false_ne_true]
            exact ⟨⟨after.desired, after.snapshot, after.housed, after.stopped⟩, agrees, fun clear => by cases clear⟩
        | true =>
            rw [if_pos rfl]
            refine ⟨after, agrees, fun _ some => ?_⟩
            rcases outcome with gone | ⟨-, settled⟩ | ⟨same, failed, left⟩
            · rw [gone] at some
              cases some
            · exact settled
            · rw [failed]
              rcases left rfl with none | ⟨known, up, read⟩
              · rw [same, none] at some
                cases some
              · exact (covered pending up read).2 (same ▸ some) known
  | restartXray isForce luck =>
      cases step
      obtain ⟨after, desired, flag, outcome⟩ :=
        sound.settled.restarted sound.agrees covered (restartXray_restarted p isForce luck)
      refine ⟨after, fun c live => ?_, fun clear some => ?_⟩
      · rw [desired]
        rcases outcome with gone | ⟨serves, -⟩ | ⟨same, failed, -⟩
        · rw [gone] at live
          cases live
        · rw [serves] at live
          cases live
          exact ⟨fun _ _ => rfl, fun _ _ _ => rfl⟩
        · rw [failed]
          exact sound.agrees c (same ▸ live)
      · rcases outcome with gone | ⟨-, settled⟩ | ⟨same, failed, -⟩
        · rw [gone] at some
          cases some
        · exact settled
        · rw [failed]
          exact sound.quiet (flag ▸ clear) (same ▸ some)
  | stopXray =>
      cases step
      exact ⟨⟨sound.settled.desired, fun up => (by cases up), fun c live => (by cases live), fun _ => rfl⟩,
        fun c live => (by cases live), fun _ up => by cases up⟩
  | crash =>
      cases step
      exact ⟨⟨sound.settled.desired, fun up => (by cases up), fun c live => (by cases live), fun _ => rfl⟩,
        fun c live => (by cases live), fun _ up => by cases up⟩

/-! ## Pending changes -/

def fresh (r : Reader) (cfg : Config) : XrayService := ⟨some (serving r cfg), cfg, cfg, false, false, []⟩

namespace Example

def reader : Reader where
  toLoader := loader
  rest _ settings := settings
  peers _ _ := []

def works : Fortune := ⟨true, true, true⟩

def newBob : Handed := ⟨"bob", true, loader.user "vless" (.ofList [("email", Json.str "bob"), ("id", Json.str "id of bob")])⟩

def addBob : Call := .addUser "in" "bob" newBob.user

def adds : Run := { edit := .addInboundClient true "in" [newBob], answers := [.done] }

def adding : Action := .request bob [] [adds]

def deleting : Action := .request alice [] [{ edit := .delInboundClientByEmail true true "in" "bob", answers := [.failed] }]

def removalFails : List Action := [adding, deleting, .applyPendingRestart works]

theorem addBob_serves : (serving reader alice).perform reader addBob = serving reader bob := by
  have single : ∀ (cfg : Config) (tag : String), cfg = alice ∨ cfg = bob → tag ≠ "in" → findTag cfg.inbounds tag = none := by
    intro cfg tag known other
    apply findTag_none
    intro ib mem
    rcases known with rfl | rfl <;> rw [List.mem_singleton.mp mem] <;> exact Ne.symm other
  have frames : (serving reader alice).handlers "in" = (serving reader bob).handlers "in" ∧
      ((serving reader alice).handlers "in").isSome = true := by decide +kernel
  have users : ∃ a b : InboundConfig, findTag alice.inbounds "in" = some a ∧ findTag bob.inbounds "in" = some b ∧
      loaded reader a = [("alice", loader.user "vless" (.ofList [("email", Json.str "alice"), ("id", Json.str "id of alice")]))] ∧
      loaded reader b = loaded reader a ++
        [("bob", loader.user "vless" (.ofList [("email", Json.str "bob"), ("id", Json.str "id of bob")]))] :=
    ⟨alice.inbounds.head (by decide), bob.inbounds.head (by decide), by decide +kernel, by decide +kernel,
      by decide +kernel, by decide +kernel⟩
  obtain ⟨a, b, foundA, foundB, loadedA, loadedB⟩ := users
  rw [addBob, Inbounds.perform, if_pos frames.2]
  simp only [Inbounds.setUser, serving, Inbounds.mk.injEq]
  constructor
  · funext tag
    by_cases here : tag = "in"
    · rw [here]
      exact frames.1
    · rw [single alice tag (.inl rfl) here, single bob tag (.inr rfl) here]
  · funext k
    obtain ⟨tag, name⟩ := k
    by_cases here : tag = "in"
    · subst here
      by_cases same : name = "bob"
      · subst same
        rw [Function.update_self, foundB, Option.bind_some, loadedB, entryAt_append, loadedA]
        rfl
      · rw [Function.update_of_ne (by simpa using same), foundA, foundB, Option.bind_some, Option.bind_some, loadedB,
          entryAt_append, entryAt_cons, if_neg (Ne.symm same)]
        exact (Option.or_none).symm
    · rw [Function.update_of_ne (by simp [here])]
      dsimp only
      rw [single alice tag (.inl rfl) here, single bob tag (.inr rfl) here]

theorem adds_calls : adds.calls reader.fold = [(addBob, .done)] := by
  have handed : (decide (newBob.email ≠ "") && newBob.enable) = true := by decide +kernel
  have named : reader.fold newBob.email = "bob" := by decide +kernel
  have kept : ([newBob].filter fun client => client.email ≠ "" && client.enable) = [newBob] := by
    rw [List.filter_cons]
    exact if_pos handed
  show (addUsers reader.fold "in" ([newBob].filter fun client => client.email ≠ "" && client.enable)).zip [Answer.done] = _
  rw [kept]
  show [(Call.addUser "in" (reader.fold newBob.email) newBob.user, Answer.done)] = _
  rw [named, addBob]

end Example

open Example

end ThreeXNode.Xray
