import ThreeXNode.Xray.Sound

namespace ThreeXNode.Xray
open Library

variable {l : Loader}

/-! ## What the operations of each kind do in a row -/

/-- Where a core keeps the user of an operation. -/
def key (l : Loader) (op : UserOp) : String × String := (op.tag, l.fold op.email)

namespace Core

theorem removeUsers {c : Core} {ops : List UserOp} (distinct : (ops.map (key l)).Nodup)
    (there : ∀ op ∈ ops, (c.handlers op.tag).isSome = true ∧ (c.users (key l op)).isSome = true) :
    ops.foldlM (removeUser l) c = .ok { c with
      users := fun k => if k ∈ ops.map (key l) then none else c.users k } := by
  refine foldlM_prefixes (fun done : List UserOp => { c with
    users := fun k => if k ∈ done.map (key l) then none else c.users k }) ?_
  rintro done op rest rfl
  obtain ⟨handler, user⟩ := there op (by simp)
  rw [List.map_append, List.map_cons, List.nodup_append] at distinct
  have fresh : key l op ∉ done.map (key l) := fun mem =>
    distinct.2.2 _ mem _ List.mem_cons_self rfl
  have after : take _ (op.tag, l.fold op.email) = _ := take_after fresh user
  simp only [removeUser, Option.isNone_iff_eq_none, Option.ne_none_iff_isSome.mpr handler, ↓reduceIte,
    after, List.map_append, List.map_singleton]
  rfl

theorem removeInbounds {c : Core} {tags : List String} (distinct : tags.Nodup)
    (there : ∀ tag ∈ tags, (c.handlers tag).isSome = true) :
    tags.foldlM removeInbound c = .ok { c with
      handlers := fun tag => if tag ∈ tags then none else c.handlers tag
      users := fun k => if k.1 ∈ tags then none else c.users k } := by
  refine foldlM_prefixes (fun done => { c with
    handlers := fun tag => if tag ∈ done then none else c.handlers tag
    users := fun k => if k.1 ∈ done then none else c.users k }) ?_
  rintro done tag rest rfl
  have fresh : tag ∉ done := fun mem => (List.nodup_append.mp distinct).2.2 _ mem _ List.mem_cons_self rfl
  simp only [removeInbound, take_after fresh (there tag (by simp))]
  refine congrArg Except.ok (congrArg (fun users => Core.mk _ users _ _ _ _) ?_)
  funext k
  by_cases same : k.1 = tag <;> simp [same]

theorem removeOutbounds {c : Core} {tags : List String} (distinct : tags.Nodup)
    (there : ∀ tag ∈ tags, (c.outbounds tag).isSome = true) (behind : ∀ tag ∈ tags, c.first ≠ some tag) :
    tags.foldlM removeOutbound c = .ok { c with
      outbounds := fun tag => if tag ∈ tags then none else c.outbounds tag } := by
  refine foldlM_prefixes (fun done => { c with
    outbounds := fun tag => if tag ∈ done then none else c.outbounds tag }) ?_
  rintro done tag rest rfl
  have fresh : tag ∉ done := fun mem => (List.nodup_append.mp distinct).2.2 _ mem _ List.mem_cons_self rfl
  simp only [removeOutbound, take_after fresh (there tag (by simp)), behind tag (by simp), ↓reduceIte]
  rfl

theorem addOutbounds {c : Core} {entries : List (String × Json)} (distinct : (entries.map (·.1)).Nodup)
    (free : ∀ e ∈ entries, c.outbounds e.1 = none) (behind : ∀ e ∈ entries, c.first.isSome = true) :
    entries.foldlM addOutbound c = .ok { c with
      outbounds := fun tag => (entryAt entries tag).or (c.outbounds tag) } := by
  refine foldlM_prefixes (fun done => { c with
    outbounds := fun tag => (entryAt done tag).or (c.outbounds tag) }) ?_
  rintro done e rest rfl
  rw [List.map_append, List.map_cons, List.nodup_append] at distinct
  have fresh : e.1 ∉ done.map (·.1) := fun mem => distinct.2.2 _ mem _ List.mem_cons_self rfl
  have kept : c.first.or (some e.1) = c.first := by
    obtain ⟨tag, first⟩ := Option.isSome_iff_exists.mp (behind e (by simp))
    simp [first]
  simp only [addOutbound, put_after fresh (free e (by simp)), kept]
  rfl

theorem addInbounds {c : Core} {ibs : List InboundConfig} (distinct : (ibs.map (·.tag)).Nodup)
    (free : ∀ ib ∈ ibs, c.handlers ib.tag = none) :
    ibs.foldlM (addInbound l) c = .ok { c with
      handlers := fun tag => (entryAt (ibs.map fun ib => (ib.tag, frameOf ib)) tag).or (c.handlers tag)
      users := fun k => match findTag ibs k.1 with
        | some ib => entryAt (usersOf l ib) k.2
        | none => c.users k } := by
  refine foldlM_prefixes (fun done : List InboundConfig => { c with
    handlers := fun tag => (entryAt (done.map fun ib : InboundConfig => (ib.tag, frameOf ib)) tag).or (c.handlers tag)
    users := fun k => match findTag done k.1 with
      | some ib => entryAt (usersOf l ib) k.2
      | none => c.users k }) ?_
  rintro done ib rest rfl
  rw [List.map_append, List.map_cons, List.nodup_append] at distinct
  have fresh : ib.tag ∉ (done.map fun ib => (ib.tag, frameOf ib)).map (·.1) := by
    simpa [Function.comp_def] using fun mem => distinct.2.2 _ mem _ List.mem_cons_self rfl
  have after := put_after (e := (ib.tag, frameOf ib)) fresh (free ib (by simp))
  simp only [addInbound, after, List.map_append, List.map_singleton]
  refine congrArg Except.ok (congrArg (fun users => Core.mk _ users _ _ _ _) ?_)
  funext k
  by_cases same : k.1 = ib.tag
  · have absent : done.find? (·.tag = ib.tag) = none := by
      rw [List.find?_eq_none]
      intro other mem
      simpa using fun tag : other.tag = ib.tag => distinct.2.2 _ (List.mem_map_of_mem mem) _ List.mem_cons_self tag
    simp [same, findTag, absent]
  · simp [same, findTag, Ne.symm same]

def sent (op : UserOp) : User :=
  match apiUser (fun _ => none) op.protocol (op.user.getD ∅) with
  | .ok (some user) => user
  | _ => ⟨"", 0, { type := .vless }⟩

theorem addUsers {c : Core} {ops : List UserOp} (distinct : (ops.map (key l)).Nodup)
    (free : ∀ op ∈ ops, (c.handlers op.tag).isSome = true ∧ c.users (key l op) = none)
    (sends : ∀ op ∈ ops, apiUser (fun _ => none) op.protocol (op.user.getD ∅) = .ok (some (sent op))) :
    ops.foldlM (addUser l) c = .ok { c with
      users := fun k => (entryAt (ops.map fun op => (key l op, sent op)) k).or (c.users k) } := by
  refine foldlM_prefixes (fun done : List UserOp => { c with
    users := fun k => (entryAt (done.map fun op => (key l op, sent op)) k).or (c.users k) }) ?_
  rintro done op rest rfl
  obtain ⟨handler, user⟩ := free op (by simp)
  rw [List.map_append, List.map_cons, List.nodup_append] at distinct
  have fresh : key l op ∉ (done.map fun op => (key l op, sent op)).map (·.1) := by
    rw [List.map_map]
    exact fun mem => distinct.2.2 _ mem _ List.mem_cons_self rfl
  have after : put _ ((op.tag, l.fold op.email), sent op) = _ := put_after (e := (key l op, sent op)) fresh user
  simp only [addUser, sends op (by simp), Option.isNone_iff_eq_none, Option.ne_none_iff_isSome.mpr handler, ↓reduceIte,
    after, List.map_append, List.map_singleton]
  rfl

end Core

/-! ## The rest of a computed diff -/

/-- The same diff, with the operations on users in another order. -/
structure HotDiff.Shuffles (d e : HotDiff) : Prop where
  removedInboundTags : d.removedInboundTags = e.removedInboundTags
  addedInbounds : d.addedInbounds = e.addedInbounds
  removedUsers : d.removedUsers.Perm e.removedUsers
  addedUsers : d.addedUsers.Perm e.addedUsers
  removedOutboundTags : d.removedOutboundTags = e.removedOutboundTags
  addedOutbounds : d.addedOutbounds = e.addedOutbounds
  routingConfig : d.routingConfig = e.routingConfig

theorem Described.shuffled {old new : Config} {d e : HotDiff} (described : Described old new e)
    (tags : d.removedInboundTags = e.removedInboundTags) (inbounds : d.addedInbounds = e.addedInbounds)
    (removed : d.removedUsers.Perm e.removedUsers) (added : d.addedUsers.Perm e.addedUsers) :
    Described old new d := by
  refine ⟨described.oldTags, described.newTags, tags ▸ described.removedOnce, inbounds ▸ described.addedOnce,
    (removed.map _).nodup_iff.mpr described.removedUsersOnce, (added.map _).nodup_iff.mpr described.addedUsersOnce,
    fun tag => ?_⟩
  cases described.outcome tag with
  | kept o n kept =>
      refine .kept o n { kept with
        removed := tags ▸ kept.removed
        added := inbounds ▸ kept.added
        removedUsers := fun op => ?_
        addedUsers := fun op => ?_ }
      · rw [removed.mem_iff]
        exact kept.removedUsers op
      · rw [added.mem_iff]
        exact kept.addedUsers op
  | rebuilt gone fresh quiet apart =>
      refine .rebuilt (tags ▸ gone) (inbounds ▸ fresh) ⟨fun op mem => ?_, fun op mem => ?_⟩ apart
      · exact quiet.1 op (removed.mem_iff.mp mem)
      · exact quiet.2 op (added.mem_iff.mp mem)

def InboundsOnly (d : HotDiff) : Prop :=
  d.removedOutboundTags = [] ∧ d.addedOutbounds = [] ∧ d.routingConfig = none

theorem gather_inboundsOnly {piece : InboundConfig → Except Unit HotDiff} {items : List InboundConfig} {d e : HotDiff}
    (h : items.foldlM (gather piece) d = .ok e) (each : ∀ ib p, piece ib = .ok p → InboundsOnly p)
    (start : InboundsOnly d) : InboundsOnly e := by
  refine foldlM_ok (fun _ => InboundsOnly) h start ?_
  rintro _ ib d e _ ⟨tags, outbounds, routing⟩ one
  simp only [gather, Except.bind_eq_ok, Except.pure_eq_ok] at one
  obtain ⟨p, here, rfl⟩ := one
  obtain ⟨tags', outbounds', routing'⟩ := each ib p here
  exact ⟨by simp [HotDiff.append, tags, tags'], by simp [HotDiff.append, outbounds, outbounds'],
    by simp [HotDiff.append, routing, routing']⟩

theorem diffInbounds_inboundsOnly {old new : Config} {d : HotDiff} (h : diffInbounds old new .none = .ok d) :
    InboundsOnly d := by
  simp only [diffInbounds, Except.bind_eq_ok] at h
  obtain ⟨_, _, _, _, mid, first, second⟩ := h
  refine gather_inboundsOnly second (fun ib p here => diffNewInbound_ok here ▸ ⟨rfl, rfl, rfl⟩) ?_
  refine gather_inboundsOnly first (fun ib p here => ?_) ⟨rfl, rfl, rfl⟩
  cases diffOldInbound_change here <;> exact ⟨rfl, rfl, rfl⟩

theorem diffRouting_ok {old new : Config} {d e : HotDiff} (h : diffRouting old new d = .ok e)
    (fresh : d.routingConfig = none) : e = { d with routingConfig := e.routingConfig } ∧
      ∀ c : Core, c.routing = old.routing.map routingOf → c.applyRouting e.routingConfig =
        { c with routing := new.routing.map routingOf } := by
  unfold diffRouting at h
  split at h
  · rename_i same
    cases h
    refine ⟨rfl, fun c routing => ?_⟩
    rw [fresh, ← same, ← routing]
    rfl
  · split at h
    · rename_i oldRouting newRouting oldSome newSome
      split at h
      · rename_i oldRest newRest oldSplit newSplit
        split at h
        · rename_i rest
          cases h
          refine ⟨rfl, fun c routing => ?_⟩
          simp [Core.applyRouting, routing, oldSome, newSome, routingOf, oldSplit, newSplit, rest]
        · cases h
      · cases h
    · cases h

structure Computed (old new : Config) (d : HotDiff) : Prop where
  inbounds : Described old new d
  outbounds : ∃ oldOut newOut, parseOutbounds old.outbounds = some oldOut ∧ parseOutbounds new.outbounds = some newOut ∧
    oldOut.head? = newOut.head? ∧ d.removedOutboundTags = (lost oldOut newOut).map (·.1) ∧
    d.addedOutbounds = gained oldOut newOut
  sections : old.static.map canonicalJSON = new.static.map canonicalJSON
  routing : ∀ c : Core, c.routing = old.routing.map routingOf → c.applyRouting d.routingConfig =
    { c with routing := new.routing.map routingOf }

theorem computeHotDiff_computed {old new : Config} {d : HotDiff} (h : computeHotDiff old new = .ok d) :
    Computed old new d := by
  simp only [computeHotDiff, Except.bind_eq_ok, require_eq_ok] at h
  obtain ⟨_, sections, d₁, inbounds, d₂, outbounds, routing⟩ := h
  obtain ⟨tags, added, fresh⟩ := diffInbounds_inboundsOnly inbounds
  unfold diffOutbounds at outbounds
  split at outbounds
  · rename_i oldOut newOut oldParsed newParsed
    split at outbounds
    · cases outbounds
    · rename_i heads
      cases outbounds
      obtain ⟨whole, routing⟩ := diffRouting_ok routing (by simp [HotDiff.append, fresh, HotDiff.none])
      rw [whole] at routing ⊢
      refine ⟨?_, ⟨oldOut, newOut, oldParsed, newParsed, not_not.mp heads, ?_, ?_⟩, ?_, routing⟩
      · refine (diffInbounds_described inbounds).shuffled ?_ ?_ ?_ ?_ <;> simp [HotDiff.append, HotDiff.none]
      · simp [HotDiff.append, tags]
      · simp [HotDiff.append, added]
      · simp only [Config.static, List.zip_cons_cons, List.zip_nil_left, List.all_cons, List.all_nil, Bool.and_eq_true,
          rawEqualNormalized_iff, Bool.and_true] at sections
        simp only [Config.static, List.map_cons, List.map_nil, List.cons.injEq, and_true]
        exact sections
  · cases outbounds

/-! ## The users an operation meets -/

section
variable {old new : Config} {d : HotDiff}

theorem Startable.names {cfg : Config} (startable : Startable l cfg) {tag : String} {ib : InboundConfig}
    (found : findTag cfg.inbounds tag = some ib) : ((clientsOf ib).map (l.fold ·.1)).Nodup := by
  have names := startable ib (findTag_mem found).1
  simpa [usersOf, Function.comp_def] using names

theorem Described.removedUser (described : Described old new d) {op : UserOp} (mem : op ∈ d.removedUsers) :
    ∃ o n, Kept old new d op.tag o n := by
  cases described.outcome op.tag with
  | kept o n kept => exact ⟨o, n, kept⟩
  | rebuilt removed added quiet apart => exact absurd rfl (quiet.1 op mem)

theorem Described.addedUser (described : Described old new d) {op : UserOp} (mem : op ∈ d.addedUsers) :
    ∃ o n, Kept old new d op.tag o n := by
  cases described.outcome op.tag with
  | kept o n kept => exact ⟨o, n, kept⟩
  | rebuilt removed added quiet apart => exact absurd rfl (quiet.2 op mem)

theorem Described.removedKeys (described : Described old new d) (startable : Startable l old)
    (startable' : Startable l new) : (d.removedUsers.map (key l)).Nodup := by
  refine List.Nodup.map_on ?_ described.removedUsersOnce.of_map
  intro op mem op' mem' same
  obtain ⟨tag, name⟩ := Prod.mk.injEq .. ▸ same
  obtain ⟨o, n, kept⟩ := described.removedUser mem
  obtain ⟨client, before, named⟩ := (kept.removedUsers op).mp ⟨mem, rfl⟩
  obtain ⟨client', before', named'⟩ := (kept.removedUsers op').mp ⟨mem', tag.symm⟩
  rw [named, named'] at name
  have one := List.inj_on_of_nodup_map (startable.names kept.oldFound)
    ((mem_lost_iff (startable'.names kept.newFound)).mp before).1
    ((mem_lost_iff (startable'.names kept.newFound)).mp before').1 name
  rw [named, named', one]

theorem Described.addedKeys (described : Described old new d) (startable : Startable l old)
    (startable' : Startable l new) : (d.addedUsers.map (key l)).Nodup := by
  refine List.Nodup.map_on ?_ described.addedUsersOnce.of_map
  intro op mem op' mem' same
  obtain ⟨tag, name⟩ := Prod.mk.injEq .. ▸ same
  obtain ⟨o, n, kept⟩ := described.addedUser mem
  obtain ⟨client, here, named⟩ := (kept.addedUsers op).mp ⟨mem, rfl⟩
  obtain ⟨client', here', named'⟩ := (kept.addedUsers op').mp ⟨mem', tag.symm⟩
  rw [named, named'] at name
  have one := List.inj_on_of_nodup_map (startable'.names kept.newFound)
    ((mem_gained_iff (startable.names kept.oldFound) (startable'.names kept.newFound)).mp here).1
    ((mem_gained_iff (startable.names kept.oldFound) (startable'.names kept.newFound)).mp here').1 name
  rw [named, named', one]

theorem Kept.removedNames {tag : String} {o n : InboundConfig} (kept : Kept old new d tag o n) {name : String} :
    (tag, name) ∈ d.removedUsers.map (key l) ↔
      name ∈ (lost (clientsOf o) (clientsOf n)).map (l.fold ·.1) := by
  simp only [List.mem_map, key, Prod.mk.injEq]
  constructor
  · rintro ⟨op, mem, tagged, named⟩
    obtain ⟨client, before, rfl⟩ := (kept.removedUsers op).mp ⟨mem, tagged⟩
    exact ⟨client, before, named⟩
  · rintro ⟨client, before, named⟩
    exact ⟨_, ((kept.removedUsers _).mpr ⟨client, before, rfl⟩).1, rfl, named⟩

def sentFor (n : InboundConfig) (client : String × Fields) : User := Core.sent ⟨n.tag, n.protocol, client.1, some client.2⟩

theorem Kept.addedEntry {tag : String} {o n : InboundConfig} (kept : Kept old new d tag o n)
    (described : Described old new d) (startable : Startable l old) (startable' : Startable l new) (name : String) :
    entryAt (d.addedUsers.map fun op => (key l op, Core.sent op)) (tag, name) =
      entryAt ((gained (clientsOf o) (clientsOf n)).map fun client => (l.fold client.1, sentFor n client)) name := by
  have keys : ((d.addedUsers.map fun op => (key l op, Core.sent op)).map (·.1)).Nodup := by
    simpa [Function.comp_def] using described.addedKeys startable startable'
  have names : (((gained (clientsOf o) (clientsOf n)).map fun client => (l.fold client.1, sentFor n client)).map
      (·.1)).Nodup := by
    simpa [Function.comp_def] using gained_names (startable.names kept.oldFound) (startable'.names kept.newFound)
  obtain rfl := (findTag_mem kept.newFound).2
  refine Option.ext fun user => ?_
  rw [entryAt_some keys, entryAt_some names]
  simp only [List.mem_map, key, Prod.mk.injEq]
  constructor
  · rintro ⟨op, mem, ⟨tagged, named⟩, sent⟩
    obtain ⟨client, here, rfl⟩ := (kept.addedUsers op).mp ⟨mem, tagged⟩
    exact ⟨client, here, named, sent⟩
  · rintro ⟨client, here, named, sent⟩
    exact ⟨_, ((kept.addedUsers _).mpr ⟨client, here, rfl⟩).1, ⟨rfl, named⟩, sent⟩

end

/-! ## A diff leads from the one core to the other -/

section
variable {old new : Config} {d : HotDiff}

def usersBetween (l : Loader) (old : Config) (d : HotDiff) (k : String × String) : Option User :=
  match findTag d.addedInbounds k.1 with
  | some ib => entryAt (usersOf l ib) k.2
  | none =>
      if k.1 ∈ d.removedInboundTags then none
      else if k ∈ d.removedUsers.map (key l) then none
      else (start l old).users k

theorem findTag_none {inbounds : List InboundConfig} {tag : String} (absent : ∀ ib ∈ inbounds, ib.tag ≠ tag) :
    findTag inbounds tag = none := by
  rw [findTag, List.find?_eq_none]
  intro ib mem
  simpa using absent ib mem

theorem Kept.usersBetween {tag : String} {o n : InboundConfig} (kept : Kept old new d tag o n) (name : String) :
    usersBetween l old d (tag, name) =
      if name ∈ (lost (clientsOf o) (clientsOf n)).map (l.fold ·.1) then none else entryAt (usersOf l o) name := by
  simp only [Xray.usersBetween, findTag_none kept.added, kept.removed, ↓reduceIte, kept.removedNames, start,
    kept.oldFound, Option.bind_some]

theorem Described.addedAt (described : Described old new d) {tag : String}
    (added : ∀ ib, (ib ∈ d.addedInbounds ∧ ib.tag = tag) ↔ findTag new.inbounds tag = some ib) :
    findTag d.addedInbounds tag = findTag new.inbounds tag := by
  refine Option.ext fun ib => ?_
  rw [← added ib]
  constructor
  · exact findTag_mem
  · rintro ⟨mem, rfl⟩
    exact findTag_of_mem described.addedOnce mem

theorem entryAt_frames (inbounds : List InboundConfig) (tag : String) :
    entryAt (inbounds.map fun ib => (ib.tag, frameOf ib)) tag = (findTag inbounds tag).map frameOf := by
  simp [entryAt, findTag, List.find?_map, Function.comp_def]

theorem Described.handlers (described : Described old new d) (tag : String) :
    (entryAt (d.addedInbounds.map fun ib => (ib.tag, frameOf ib)) tag).or
      (if tag ∈ d.removedInboundTags then none else (start l old).handlers tag) = (start l new).handlers tag := by
  rw [entryAt_frames]
  cases described.outcome tag with
  | kept o n kept =>
      simp [findTag_none kept.added, kept.removed, start, kept.oldFound, kept.newFound, kept.frame]
  | rebuilt removed added quiet apart =>
      rw [described.addedAt added]
      cases newFound : findTag new.inbounds tag with
      | some n => simp [start, newFound]
      | none => cases oldFound : findTag old.inbounds tag <;> simp [start, newFound, oldFound, removed]

theorem Described.removable (described : Described old new d) {tag : String} (mem : tag ∈ d.removedInboundTags) :
    ((start l old).handlers tag).isSome = true := by
  cases described.outcome tag with
  | kept o n kept => exact absurd mem kept.removed
  | rebuilt removed added quiet apart => simpa [start] using removed.mp mem

theorem Described.addable (described : Described old new d) {ib : InboundConfig} (mem : ib ∈ d.addedInbounds) :
    (if ib.tag ∈ d.removedInboundTags then none else (start l old).handlers ib.tag) = none := by
  cases described.outcome ib.tag with
  | kept o n kept => exact absurd rfl (kept.added ib mem)
  | rebuilt removed added quiet apart => cases oldFound : findTag old.inbounds ib.tag <;> simp [start, oldFound, removed]

theorem Described.userRemovable (described : Described old new d) (startable' : Startable l new)
    {op : UserOp} (mem : op ∈ d.removedUsers) :
    ((start l old).handlers op.tag).isSome = true ∧ ((start l old).users (key l op)).isSome = true := by
  obtain ⟨o, n, kept⟩ := described.removedUser mem
  have gone := kept.removedNames.mp (List.mem_map_of_mem (f := key l) mem)
  obtain ⟨client, lost, named⟩ := List.mem_map.mp gone
  have before := ((mem_lost_iff (startable'.names kept.newFound)).mp lost).1
  refine ⟨by simp [start, kept.oldFound], ?_⟩
  have used : l.fold op.email ∈ (usersOf l o).map (·.1) := by
    simp only [usersOf, List.map_map]
    exact List.mem_map.mpr ⟨client, before, named⟩
  rw [← Option.ne_none_iff_isSome]
  simpa only [start, key, kept.oldFound, Option.bind_some, ne_eq, entryAt_none, not_not]

theorem Described.userAddable (described : Described old new d) (startable : Startable l old)
    (startable' : Startable l new) {op : UserOp} (mem : op ∈ d.addedUsers) :
    ((start l new).handlers op.tag).isSome = true ∧ usersBetween l old d (key l op) = none := by
  obtain ⟨o, n, kept⟩ := described.addedUser mem
  obtain ⟨client, here, named⟩ := (kept.addedUsers op).mp ⟨mem, rfl⟩
  refine ⟨by simp [start, kept.newFound], ?_⟩
  rw [key, kept.usersBetween, named]
  rcases gained_free (startable.names kept.oldFound) (startable'.names kept.newFound) here with emptied | unused
  · exact if_pos emptied
  · rw [ite_eq_left_iff, entryAt_none]
    intro _ used
    simp only [usersOf, List.map_map] at used
    exact unused used

def between (l : Loader) (old new : Config) (d : HotDiff) : Core :=
  { start l new with users := usersBetween l old d, routing := (start l old).routing }

theorem hotApply_between (computed : Computed old new d) (startable : Startable l old)
    (startable' : Startable l new) : (start l old).hotApply l d = (do
      let c ← d.addedUsers.foldlM (Core.addUser l) (between l old new d)
      return c.applyRouting d.routingConfig) := by
  obtain ⟨described, ⟨oldOut, newOut, oldParsed, newParsed, heads, outTags, outAdded⟩, sections, routing⟩ := computed
  have oldDistinct := parseOutbounds_distinct oldParsed
  have newDistinct := parseOutbounds_distinct newParsed
  have oldKeys : (oldOut.map (id ·.1)).Nodup := oldDistinct
  have newKeys : (newOut.map (id ·.1)).Nodup := newDistinct
  have outbounds (tag : String) : (entryAt d.addedOutbounds tag).or
      (if tag ∈ d.removedOutboundTags then none else entryAt oldOut tag) = entryAt newOut tag := by
    rw [outTags, outAdded]
    simpa using entryAt_gained oldKeys newKeys (m := (·.2)) (s := (·.2)) (fun _ _ _ => rfl) tag
  have head {e : String × Json} (first : oldOut.head? = some e) : e ∈ oldOut ∧ e ∈ newOut :=
    ⟨List.mem_of_head? first, List.mem_of_head? (heads ▸ first)⟩
  rw [Core.hotApply, Core.removeUsers (described.removedKeys startable startable')
      fun op mem => described.userRemovable startable' mem, Except.ok_bind,
    Core.removeInbounds described.removedOnce ?removable, Except.ok_bind,
    Core.removeOutbounds (outTags ▸ lost_nodup newOut oldDistinct) ?outRemovable ?behind, Except.ok_bind,
    Core.addOutbounds (outAdded ▸ gained_nodup oldDistinct newDistinct) ?outAddable ?behind', Except.ok_bind,
    Core.addInbounds described.addedOnce ?addable, Except.ok_bind]
  case removable => exact fun tag mem => described.removable (l := l) mem
  case addable => exact fun ib mem => described.addable (l := l) mem
  case outRemovable =>
    intro tag mem
    obtain ⟨v, before, _⟩ := (mem_lost oldDistinct).mp (outTags ▸ mem)
    simp [start, oldParsed, before]
  case behind =>
    intro tag mem first
    obtain ⟨v, here, differs⟩ := (mem_lost oldDistinct).mp (outTags ▸ mem)
    simp only [start, oldParsed, Option.getD_some, Option.map_eq_some_iff] at first
    obtain ⟨e, first, rfl⟩ := first
    have before := (entryAt_some oldDistinct).mpr (head first).1
    have after := (entryAt_some newDistinct).mpr (head first).2
    exact differs (after.trans (before.symm.trans here))
  case outAddable =>
    intro e mem
    obtain ⟨after, differs⟩ := (mem_gained oldDistinct newDistinct).mp (outAdded ▸ mem)
    rw [ite_eq_left_iff]
    intro stays
    simp only [start, oldParsed, Option.getD_some]
    by_contra used
    obtain ⟨v, before⟩ := Option.ne_none_iff_exists'.mp used
    refine stays (outTags ▸ (mem_lost oldDistinct).mpr ⟨v, before, fun same => ?_⟩)
    exact differs (before.trans (same.symm.trans after))
  case behind' =>
    intro e mem
    obtain ⟨after, _⟩ := (mem_gained oldDistinct newDistinct).mp (outAdded ▸ mem)
    have here := (entryAt_some newDistinct).mp after
    rw [← Option.ne_none_iff_isSome]
    simp only [start, oldParsed, Option.getD_some, ne_eq, Option.map_eq_none_iff, heads, List.head?_eq_none_iff]
    exact List.ne_nil_of_mem here
  · refine congrArg (fun c => List.foldlM (Core.addUser l) c d.addedUsers >>= _) ?_
    simp only [between, Core.mk.injEq]
    refine ⟨funext described.handlers, funext fun k => ?_, funext fun tag => ?_, ?_, trivial, sections⟩
    · simp only [usersBetween]
    · simpa only [start, oldParsed, newParsed, Option.getD_some] using outbounds tag
    · simp [start, oldParsed, newParsed, heads]

end

end ThreeXNode.Xray
