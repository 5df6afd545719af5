import ThreeXNode.Xray.Pending

namespace ThreeXNode.Xray
open Library

/-! ## What the operations of a diff do in a row -/

variable {r : Reader}

namespace Inbounds

def Housed (c : Inbounds) : Prop := ∀ k : String × String, c.handlers k.1 = none → c.users k = none

theorem housed_serving (cfg : Config) : (serving r cfg).Housed := by
  intro k gone
  have absent : findTag cfg.inbounds k.1 = none := Option.map_eq_none_iff.mp gone
  simp [serving, absent]

theorem Housed.dropUser {c : Inbounds} (housed : c.Housed) (tag name : String) : (c.dropUser tag name).Housed := by
  intro k gone
  show Function.update c.users (tag, name) none k = none
  by_cases same : k = (tag, name)
  · rw [same, Function.update_self]
  · rw [Function.update_of_ne same]
    exact housed k gone

theorem Housed.setUser {c : Inbounds} (housed : c.Housed) {tag : String} (there : (c.handlers tag).isSome = true)
    (name : String) (user : User) : (c.setUser tag name user).Housed := by
  intro k gone
  show Function.update c.users (tag, name) (some user) k = none
  have other : k ≠ (tag, name) := by
    rintro rfl
    rw [show c.handlers tag = none from gone] at there
    cases there
  rw [Function.update_of_ne other]
  exact housed k gone

theorem Housed.setInbound {c : Inbounds} (housed : c.Housed) (ib : InboundConfig) : (c.setInbound r ib).Housed := by
  intro k gone
  have gone : Function.update c.handlers ib.tag (some (handlerOf r ib)) k.1 = none := gone
  show (if k.1 = ib.tag then _ else c.users k) = none
  by_cases same : k.1 = ib.tag
  · rw [same, Function.update_self] at gone
    cases gone
  · rw [Function.update_of_ne same] at gone
    rw [if_neg same]
    exact housed k gone

theorem Housed.dropInbound {c : Inbounds} (housed : c.Housed) (tag : String) : (c.dropInbound tag).Housed := by
  intro k gone
  have gone : Function.update c.handlers tag none k.1 = none := gone
  show (if k.1 = tag then none else c.users k) = none
  by_cases same : k.1 = tag
  · rw [if_pos same]
  · rw [Function.update_of_ne same] at gone
    rw [if_neg same]
    exact housed k gone

theorem Housed.perform {c : Inbounds} (housed : c.Housed) (call : Call) : (c.perform r call).Housed := by
  cases call with
  | addUser tag name user =>
      show (if (c.handlers tag).isSome then c.setUser tag name user else c).Housed
      by_cases there : (c.handlers tag).isSome = true
      · rw [if_pos there]
        exact housed.setUser there name user
      · rw [if_neg there]
        exact housed
  | removeUser tag name => exact housed.dropUser tag name
  | addInbound ib => exact housed.setInbound ib
  | delInbound tag => exact housed.dropInbound tag

theorem Housed.removeUser {c : Inbounds} (housed : c.Housed) (op : UserOp) :
    c.removeUser r op = c.dropUser op.tag (r.fold op.email) := by
  unfold Inbounds.removeUser
  split
  · rfl
  · rename_i missing
    have absent := housed (op.tag, r.fold op.email) (by simpa using missing)
    rw [Inbounds.dropUser, ← absent, Function.update_eq_self]

theorem Housed.delInbound {c : Inbounds} (housed : c.Housed) (tag : String) : c.delInbound tag = c.dropInbound tag := by
  unfold Inbounds.delInbound
  split
  · rfl
  · rename_i missing
    have absent : c.handlers tag = none := by simpa using missing
    rw [Inbounds.dropInbound, ← absent, Function.update_eq_self]
    have users : (fun k : String × String => if k.1 = tag then none else c.users k) = c.users := by
      funext k
      by_cases same : k.1 = tag
      · rw [if_pos same, housed k (same ▸ absent)]
      · rw [if_neg same]
    rw [users]

/-- A removal of what is not there changes nothing. -/
theorem Housed.perform_lacking {c : Inbounds} (housed : c.Housed) {call : Call} (lacks : c.lacks call = true)
    (removes : call.removes = true) : c.perform r call = c := by
  cases call with
  | removeUser tag name =>
      have absent : c.users (tag, name) = none := Option.isNone_iff_eq_none.mp lacks
      show c.dropUser tag name = c
      rw [Inbounds.dropUser, ← absent, Function.update_eq_self]
  | delInbound tag =>
      have absent : (c.handlers tag).isSome = false := by simpa [Inbounds.lacks] using lacks
      show c.dropInbound tag = c
      rw [← housed.delInbound, Inbounds.delInbound, if_neg (by simp [absent])]
  | addUser | addInbound => cases removes

theorem Housed.answering {c c' : Inbounds} (housed : c.Housed) {calls : List (Call × Answer)}
    (answers : c.answering r calls = some c') :
    ((XrayService.settledBy calls).filter (·.2)).foldl (fun c call => c.perform r call.1) c = c' ∧ c'.Housed := by
  induction calls generalizing c with
  | nil =>
      cases answers
      exact ⟨rfl, housed⟩
  | cons call calls ih =>
      obtain ⟨call, answer⟩ := call
      have next : ∀ worked : Bool, call.settled answer = worked → XrayService.settledBy ((call, answer) :: calls) =
          (call, worked) :: XrayService.settledBy calls := by
        rintro worked rfl
        rfl
      cases answer with
      | done =>
          rw [next true rfl]
          exact ih (housed.perform call) answers
      | failed =>
          rw [next false rfl]
          exact ih housed answers
      | missing =>
          simp only [Inbounds.answering] at answers
          split at answers
          · rename_i lacks
            cases removes : call.removes with
            | true =>
                rw [next true (by simp [Call.settled, removes]), List.filter_cons_of_pos rfl, List.foldl_cons,
                  housed.perform_lacking lacks removes]
                exact ih housed answers
            | false =>
                rw [next false (by simp [Call.settled, removes])]
                exact ih housed answers
          · cases answers

theorem addInboundReconciling_eq {c : Inbounds} (housed : c.Housed) (ib : InboundConfig) :
    c.addInboundReconciling r ib = c.setInbound r ib := by
  unfold Inbounds.addInboundReconciling
  split
  · rw [housed.delInbound, Inbounds.setInbound, Inbounds.setInbound, Inbounds.dropInbound]
    dsimp only
    rw [Function.update_idem]
    have users : (fun k : String × String => if k.1 = ib.tag then entryAt (loaded r ib) k.2
        else if k.1 = ib.tag then none else c.users k) =
        fun k => if k.1 = ib.tag then entryAt (loaded r ib) k.2 else c.users k := by
      funext k
      by_cases same : k.1 = ib.tag
      · rw [if_pos same, if_pos same]
      · rw [if_neg same, if_neg same, if_neg same]
    rw [users]
  · rfl

theorem addUserReconciling_some {c c' : Inbounds} (housed : c.Housed) {op : UserOp} {user : User}
    (sends : apiUser (fun _ => none) op.protocol (op.user.getD ∅) = .ok (some user))
    (added : c.addUserReconciling r op = some c') :
    (c.handlers op.tag).isSome = true ∧ c' = c.setUser op.tag (r.fold op.email) user := by
  unfold Inbounds.addUserReconciling at added
  rw [sends] at added
  dsimp only at added
  split at added
  · cases added
  · rename_i there
    have there : (c.handlers op.tag).isSome = true := by simpa [Option.isSome_iff_ne_none] using there
    split at added
    · cases added
      refine ⟨there, ?_⟩
      rw [housed.removeUser, Inbounds.setUser, Inbounds.setUser, Inbounds.dropUser]
      dsimp only
      rw [Function.update_idem]
    · cases added
      exact ⟨there, rfl⟩

theorem removeUsers_eq {c : Inbounds} (housed : c.Housed) (ops : List UserOp) :
    (ops.foldl (removeUser r) c).Housed ∧ ops.foldl (removeUser r) c = { c with
      users := fun k => if k ∈ ops.map (key r.toLoader) then none else c.users k } := by
  induction ops generalizing c with
  | nil => exact ⟨housed, by simp⟩
  | cons op ops ih =>
      rw [List.foldl_cons, housed.removeUser]
      obtain ⟨after, same⟩ := ih (housed.dropUser op.tag (r.fold op.email))
      refine ⟨after, same.trans ?_⟩
      have users : (fun k => if k ∈ ops.map (key r.toLoader) then none
          else (c.dropUser op.tag (r.fold op.email)).users k) =
          fun k => if k ∈ (op :: ops).map (key r.toLoader) then none else c.users k := by
        funext k
        rw [List.map_cons]
        by_cases later : k ∈ ops.map (key r.toLoader)
        · rw [if_pos later, if_pos (List.mem_cons_of_mem _ later)]
        · rw [if_neg later]
          by_cases now : k = key r.toLoader op
          · rw [now, if_pos List.mem_cons_self]
            exact Function.update_self ..
          · rw [if_neg (by simpa [now] using later)]
            exact Function.update_of_ne now ..
      rw [users]
      rfl

theorem delInbounds_eq {c : Inbounds} (housed : c.Housed) (tags : List String) :
    (tags.foldl Inbounds.delInbound c).Housed ∧ tags.foldl Inbounds.delInbound c = {
      handlers := fun tag => if tag ∈ tags then none else c.handlers tag
      users := fun k => if k.1 ∈ tags then none else c.users k } := by
  induction tags generalizing c with
  | nil => exact ⟨housed, by simp⟩
  | cons tag tags ih =>
      rw [List.foldl_cons, housed.delInbound]
      obtain ⟨after, same⟩ := ih (housed.dropInbound tag)
      refine ⟨after, same.trans ?_⟩
      simp only [Inbounds.mk.injEq]
      constructor
      · funext other
        by_cases later : other ∈ tags
        · rw [if_pos later, if_pos (List.mem_cons_of_mem _ later)]
        · rw [if_neg later]
          by_cases now : other = tag
          · rw [now, if_pos List.mem_cons_self]
            exact Function.update_self ..
          · rw [if_neg (by simpa [now] using later)]
            exact Function.update_of_ne now ..
      · funext k
        by_cases later : k.1 ∈ tags
        · rw [if_pos later, if_pos (List.mem_cons_of_mem _ later)]
        · rw [if_neg later]
          show (if k.1 = tag then none else c.users k) = _
          by_cases now : k.1 = tag
          · rw [if_pos now, if_pos (now ▸ List.mem_cons_self)]
          · rw [if_neg now, if_neg (by simpa [now] using later)]

theorem addInbounds_eq {c : Inbounds} (housed : c.Housed) {ibs : List InboundConfig}
    (distinct : (ibs.map (·.tag)).Nodup) :
    (ibs.foldl (addInboundReconciling r) c).Housed ∧ ibs.foldl (addInboundReconciling r) c = {
      handlers := fun tag => ((findTag ibs tag).map (handlerOf r)).or (c.handlers tag)
      users := fun k => match findTag ibs k.1 with
        | some ib => entryAt (loaded r ib) k.2
        | none => c.users k } := by
  induction ibs generalizing c with
  | nil => exact ⟨housed, rfl⟩
  | cons ib ibs ih =>
      rw [List.foldl_cons, addInboundReconciling_eq housed]
      rw [List.map_cons, List.nodup_cons] at distinct
      obtain ⟨after, same⟩ := ih (housed.setInbound ib) distinct.2
      refine ⟨after, same.trans ?_⟩
      have first (tag : String) : findTag (ib :: ibs) tag = if ib.tag = tag then some ib else findTag ibs tag := by
        by_cases here : ib.tag = tag <;> simp [findTag, here]
      have alone : findTag ibs ib.tag = none :=
        findTag_none fun other mem tag => distinct.1 (tag ▸ List.mem_map_of_mem mem)
      simp only [Inbounds.mk.injEq]
      constructor
      · funext tag
        rw [first]
        by_cases here : ib.tag = tag
        · rw [if_pos here, ← here, alone]
          simp [Inbounds.setInbound]
        · rw [if_neg here]
          simp [Inbounds.setInbound, Ne.symm here]
      · funext k
        rw [first]
        by_cases here : ib.tag = k.1
        · rw [if_pos here, ← here, alone]
          simp [Inbounds.setInbound, here]
        · rw [if_neg here]
          simp [Inbounds.setInbound, Ne.symm here]

theorem addUsers_eq {c c' : Inbounds} (housed : c.Housed) {ops : List UserOp} {user : UserOp → User}
    (distinct : (ops.map (key r.toLoader)).Nodup)
    (sends : ∀ op ∈ ops, apiUser (fun _ => none) op.protocol (op.user.getD ∅) = .ok (some (user op)))
    (added : ops.foldlM (addUserReconciling r) c = some c') :
    c'.Housed ∧ c' = { c with
      users := fun k => (entryAt (ops.map fun op => (key r.toLoader op, user op)) k).or (c.users k) } := by
  induction ops generalizing c with
  | nil =>
      cases added
      exact ⟨housed, rfl⟩
  | cons op ops ih =>
      rw [List.foldlM_cons] at added
      obtain ⟨mid, one, rest⟩ := Option.bind_eq_some_iff.mp added
      obtain ⟨there, rfl⟩ := addUserReconciling_some housed (sends op List.mem_cons_self) one
      rw [List.map_cons, List.nodup_cons] at distinct
      obtain ⟨after, same⟩ := ih (housed.setUser there (r.fold op.email) (user op)) distinct.2
        (fun op mem => sends op (List.mem_cons_of_mem _ mem)) rest
      refine ⟨after, same.trans ?_⟩
      have alone : entryAt (ops.map fun op => (key r.toLoader op, user op)) (key r.toLoader op) = none := by
        rw [entryAt_none, List.map_map]
        exact distinct.1
      have users : (fun k => (entryAt (ops.map fun op => (key r.toLoader op, user op)) k).or
          ((c.setUser op.tag (r.fold op.email) (user op)).users k)) =
          fun k => (entryAt ((op :: ops).map fun op => (key r.toLoader op, user op)) k).or (c.users k) := by
        funext k
        rw [List.map_cons, entryAt_cons]
        by_cases now : key r.toLoader op = k
        · rw [if_pos now, ← now, alone]
          exact Function.update_self ..
        · rw [if_neg now]
          exact congrArg _ (Function.update_of_ne (Ne.symm now) ..)
      rw [users]
      rfl

/-- A diff touches neither the handler of such a tag nor, beyond its own operations, the users under it. -/
def Outside (d : HotDiff) (tag : String) : Prop := tag ∉ d.removedInboundTags ∧ ∀ ib ∈ d.addedInbounds, ib.tag ≠ tag

/-- What a diff leaves alone is already what the config asks for. -/
structure Untouched (r : Reader) (d : HotDiff) (new : Config) (c : Inbounds) : Prop where
  handlers : ∀ tag, Outside d tag → c.handlers tag = (serving r new).handlers tag
  users : ∀ k : String × String, Outside d k.1 → k ∉ d.removedUsers.map (key r.toLoader) →
    k ∉ d.addedUsers.map (key r.toLoader) → c.users k = (serving r new).users k

def Carries (r : Reader) (d : HotDiff) : Prop :=
  ∀ op ∈ d.addedUsers, apiUser (fun _ => none) op.protocol (op.user.getD ∅) =
    .ok (some (r.user op.protocol (op.user.getD ∅)))

theorem reconcile_eq {old new : Config} {d : HotDiff} {c c' : Inbounds} (described : Described old new d)
    (startable : Startable r.toLoader old) (startable' : Startable r.toLoader new) (housed : c.Housed)
    (carries : Carries r d) (done : c.reconcile r d = some c') :
    c'.handlers = (fun tag => ((findTag d.addedInbounds tag).map (handlerOf r)).or
      (if tag ∈ d.removedInboundTags then none else c.handlers tag)) ∧
    c'.users = fun k => (entryAt (d.addedUsers.map fun op =>
      (key r.toLoader op, r.user op.protocol (op.user.getD ∅))) k).or
        (match findTag d.addedInbounds k.1 with
          | some ib => entryAt (loaded r ib) k.2
          | none => if k.1 ∈ d.removedInboundTags then none
              else if k ∈ d.removedUsers.map (key r.toLoader) then none else c.users k) := by
  obtain ⟨housed₁, first⟩ := removeUsers_eq housed d.removedUsers
  obtain ⟨housed₂, second⟩ := delInbounds_eq housed₁ d.removedInboundTags
  obtain ⟨housed₃, third⟩ := addInbounds_eq housed₂ described.addedOnce
  obtain ⟨-, last⟩ := addUsers_eq housed₃ (described.addedKeys startable startable') carries done
  rw [third, second, first] at last
  rw [last]
  exact ⟨rfl, rfl⟩

end Inbounds

open Inbounds

theorem Starts.startable {cfg : Config} (starts : Starts r cfg) : Startable r.toLoader cfg := by
  intro ib mem
  by_cases diffable : ib.protocol ∈ userDiffableProtocols
  · have own := starts ib mem
    rwa [loaded, if_pos diffable] at own
  · rw [usersOf, clientsOf, if_neg diffable]
    exact List.nodup_nil

theorem Kept.same {old new : Config} {d : HotDiff} {tag : String} {o n : InboundConfig} (kept : Kept old new d tag o n) :
    handlerOf r o = handlerOf r n ∧ (n.protocol ∉ userDiffableProtocols → loaded r o = loaded r n) := by
  have protocol : o.protocol = n.protocol := congrArg Frame.protocol kept.frame
  have settings := congrArg Frame.settings kept.frame
  by_cases diffable : n.protocol ∈ userDiffableProtocols
  · rw [handlerOf, handlerOf, protocol, if_pos diffable, if_pos diffable]
    exact ⟨kept.frame, fun apart => absurd diffable apart⟩
  · have whole : canonicalJSON o.settings = canonicalJSON n.settings := by
      simpa only [frameOf, settingsOf, protocol, if_neg diffable] using settings
    rw [handlerOf, handlerOf, loaded, loaded, protocol, if_neg diffable, if_neg diffable, if_neg diffable, if_neg diffable,
      whole, kept.frame]
    exact ⟨rfl, fun _ => rfl⟩

theorem Kept.lostUser {old new : Config} {d : HotDiff} {tag name : String} {o n : InboundConfig}
    (kept : Kept old new d tag o n) (startable : Startable r.toLoader old) (startable' : Startable r.toLoader new)
    (gone : (tag, name) ∈ d.removedUsers.map (key r.toLoader)) (quiet : (tag, name) ∉ d.addedUsers.map (key r.toLoader)) :
    entryAt (loaded r n) name = none := by
  have lostName := kept.removedNames.mp gone
  have diffable : n.protocol ∈ userDiffableProtocols := by
    obtain ⟨client, before, -⟩ := List.mem_map.mp lostName
    have mem := ((mem_lost_iff (startable'.names kept.newFound)).mp before).1
    by_contra apart
    have protocol : o.protocol = n.protocol := congrArg Frame.protocol kept.frame
    rw [clientsOf, protocol, if_neg apart] at mem
    exact List.not_mem_nil mem
  have ungained : entryAt ((gained (clientsOf o) (clientsOf n)).map fun client =>
      (r.fold client.1, r.user n.protocol client.2)) name = none := by
    rw [entryAt_none, List.map_map]
    intro mem
    obtain ⟨client, here, named⟩ := List.mem_map.mp mem
    exact quiet (List.mem_map.mpr ⟨_, ((kept.addedUsers _).mpr ⟨client, here, rfl⟩).1, congrArg (Prod.mk tag) named⟩)
  have users := entryAt_gained (m := fun client : String × Fields => r.user n.protocol client.2)
    (startable.names kept.oldFound) (startable'.names kept.newFound) (fun _ _ _ => rfl) name
  rw [ungained, Option.none_or, if_pos lostName] at users
  rw [loaded, if_pos diffable]
  exact users.symm

theorem reconcile_serves {old new : Config} {d : HotDiff} {c c' : Inbounds} (described : Described old new d)
    (starts : Starts r old) (starts' : Starts r new) (housed : c.Housed) (carries : Carries r d)
    (untouched : Untouched r d new c) (done : c.reconcile r d = some c') : c' = serving r new := by
  have startable := starts.startable
  have startable' := starts'.startable
  obtain ⟨handlers, users⟩ := reconcile_eq described startable startable' housed carries done
  obtain ⟨handlers', users'⟩ := c'
  dsimp only at handlers users
  rw [handlers, users, serving, Inbounds.mk.injEq]
  constructor
  · funext tag
    cases described.outcome tag with
    | kept o n kept =>
        rw [findTag_none kept.added, Option.map_none, Option.none_or, if_neg kept.removed]
        exact untouched.handlers tag ⟨kept.removed, kept.added⟩
    | rebuilt removed added quiet apart =>
        rw [described.addedAt added]
        cases newFound : findTag new.inbounds tag with
        | some n => rfl
        | none =>
            rw [Option.map_none, Option.none_or]
            by_cases gone : tag ∈ d.removedInboundTags
            · rw [if_pos gone]
            · rw [if_neg gone, untouched.handlers tag ⟨gone, fun ib mem same => ?_⟩]
              · simp [serving, newFound]
              · have found := (added ib).mp ⟨mem, same⟩
                rw [newFound] at found
                cases found
  · funext k
    obtain ⟨tag, name⟩ := k
    cases described.outcome tag with
    | kept o n kept =>
        have keys : ((d.addedUsers.map fun op => (key r.toLoader op, r.user op.protocol (op.user.getD ∅))).map (·.1)).Nodup := by
          simpa [Function.comp_def] using described.addedKeys startable startable'
        dsimp only
        rw [findTag_none kept.added, if_neg kept.removed]
        dsimp only
        have stays := untouched.users (tag, name) ⟨kept.removed, kept.added⟩
        simp only [serving, kept.newFound, Option.bind_some] at stays ⊢
        cases sent : entryAt (d.addedUsers.map fun op => (key r.toLoader op, r.user op.protocol (op.user.getD ∅))) (tag, name) with
        | some user =>
            rw [Option.some_or]
            obtain ⟨op, mem, same⟩ := List.mem_map.mp ((entryAt_some keys).mp sent)
            obtain ⟨place, rfl⟩ := Prod.mk.injEq .. ▸ same
            obtain ⟨rfl, rfl⟩ := Prod.mk.injEq .. ▸ place
            obtain ⟨client, here, named⟩ := (kept.addedUsers op).mp ⟨mem, rfl⟩
            obtain ⟨after, fresh⟩ :=
              (mem_gained_iff (startable.names kept.oldFound) (startable'.names kept.newFound)).mp here
            have diffable : n.protocol ∈ userDiffableProtocols := by
              by_contra apart
              rw [clientsOf, if_neg apart] at after
              exact List.not_mem_nil after
            rw [loaded, if_pos diffable]
            have names := startable' n (findTag_mem kept.newFound).1
            refine ((entryAt_some names).mpr (List.mem_map.mpr ⟨client, after, ?_⟩)).symm
            rw [named]
            rfl
        | none =>
            rw [Option.none_or]
            have quiet : (tag, name) ∉ d.addedUsers.map (key r.toLoader) := by
              have absent := entryAt_none.mp sent
              rwa [List.map_map] at absent
            by_cases gone : (tag, name) ∈ d.removedUsers.map (key r.toLoader)
            · rw [if_pos gone]
              exact (kept.lostUser startable startable' gone quiet).symm
            · rw [if_neg gone]
              exact stays gone quiet
    | rebuilt removed added quiet apart =>
        have silent : ∀ ops : List UserOp, (∀ op ∈ ops, op.tag ≠ tag) → (tag, name) ∉ ops.map (key r.toLoader) := by
          intro ops elsewhere mem
          obtain ⟨op, there, place⟩ := List.mem_map.mp mem
          exact elsewhere op there (congrArg Prod.fst place)
        have nothing : entryAt (d.addedUsers.map fun op => (key r.toLoader op, r.user op.protocol (op.user.getD ∅)))
            (tag, name) = none := by
          rw [entryAt_none, List.map_map]
          exact silent _ quiet.2
        dsimp only
        rw [nothing, Option.none_or, described.addedAt added]
        cases newFound : findTag new.inbounds tag with
        | some n => rfl
        | none =>
            dsimp only
            by_cases gone : tag ∈ d.removedInboundTags
            · rw [if_pos gone]
              rfl
            · rw [if_neg gone, if_neg (silent _ quiet.1)]
              have outside : Outside d tag := by
                refine ⟨gone, fun ib mem same => ?_⟩
                have found := (added ib).mp ⟨mem, same⟩
                rw [newFound] at found
                cases found
              rw [untouched.users (tag, name) outside (silent _ quiet.1) (silent _ quiet.2)]
              simp [serving, newFound]

theorem tryHotApply_serves {old new : Config} {c c' : Inbounds} {api : Bool} (starts : Starts r old)
    (starts' : Starts r new) (housed : c.Housed)
    (clear : ∀ d, computeHotDiff old new = .ok d → api = true ∨ d.empty = true → Carries r d ∧ Untouched r d new c)
    (done : tryHotApply r old new c api = some c') : c' = serving r new := by
  unfold tryHotApply at done
  cases computed : computeHotDiff old new with
  | error _ =>
      rw [computed] at done
      cases done
  | ok d =>
      rw [computed] at done
      dsimp only at done
      have described := (computeHotDiff_computed computed).inbounds
      by_cases idle : d.empty = true
      · rw [if_pos idle] at done
        obtain ⟨carries, untouched⟩ := clear d computed (.inr idle)
        refine reconcile_serves described starts starts' housed carries untouched (c := c) ?_
        simp only [HotDiff.empty, Bool.and_eq_true, List.isEmpty_iff] at idle
        obtain ⟨⟨⟨⟨⟨⟨tags, inbounds⟩, removed⟩, added⟩, -⟩, -⟩, -⟩ := idle
        rw [reconcile, tags, inbounds, removed, added]
        exact done
      · rw [if_neg idle] at done
        by_cases works : api = true
        · rw [if_pos works] at done
          obtain ⟨carries, untouched⟩ := clear d computed (.inl works)
          exact reconcile_serves described starts starts' housed carries untouched done
        · rw [if_neg works] at done
          cases done

end ThreeXNode.Xray
