import ThreeXNode.Runtime.Calls

namespace ThreeXNode.Runtime
open Library

variable {β : Type*} {nodeID : Nat}

/-! ## What the cache knows -/

/-- The inbound of a tag, by the names a node may have for it. -/
def Names (nodeID : Nat) (aliases : List (String × String)) (tag name : String) : Prop :=
  name = tag ∨ name = flipped nodeID tag ∨ (tag, name) ∈ aliases

def Unchained (aliases : List (String × String)) : Prop := ∀ a ∈ aliases, ∀ b ∈ aliases, a.2 ≠ b.1

/-- Under its other form a tag is not taken for a third one. -/
def Plain (nodeID : Nat) (r : Remote β) (tag : String) : Prop :=
  flipped nodeID (flipped nodeID tag) ∈ [tag, flipped nodeID tag] ∧ ∀ a ∈ r.adoptedAliases, a.1 ≠ flipped nodeID tag

namespace World

def Hits (nodeID : Nat) (w : World β) (tag : String) (id : Nat) : Prop :=
  ∃ name, w.node.Lists id name ∧ Names nodeID w.remote.adoptedAliases tag name

def Current (nodeID : Nat) (w : World β) : Prop :=
  ∀ key id, w.remote.remoteIDByTag key = some id → w.Hits nodeID key id

end World

theorem reported_lists (node : Listing β) (tag : String) (id : Nat) (here : Remote.reported node tag = some id) :
    node.Lists id tag := by
  have run : ∀ (rest : Listing β) (next : String → Option Nat), (∀ ib ∈ rest, ib ∈ node) →
      (∀ (tag : String) (id : Nat), next tag = some id → node.Lists id tag) → ∀ (tag : String) (id : Nat),
      rest.foldl (fun (next : String → Option Nat) ib => if ib.wire.tag = "" then next
        else Function.update next ib.wire.tag (some ib.id)) next tag = some id → node.Lists id tag := by
    intro rest
    induction rest with
    | nil => exact fun next _ before => before
    | cons ib rest ih =>
        intro next part before
        apply ih _ fun o mem => part o (List.mem_cons_of_mem _ mem)
        intro tag id here
        dsimp only at here
        split at here
        · exact before tag id here
        · by_cases same : tag = ib.wire.tag
          · rw [same, Function.update_self] at here
            cases here
            exact ⟨ib, part ib List.mem_cons_self, rfl, same.symm⟩
          · rw [Function.update_of_ne same] at here
            exact before tag id here
  exact run node _ (fun _ mem => mem) (fun _ _ nothing => by cases nothing) tag id here

theorem fillAliases_lists {node : Listing β} {aliases : List (String × String)} (unchained : Unchained aliases)
    {next : String → Option Nat}
    (before : ∀ tag id, next tag = some id → node.Lists id tag ∨ ∃ name, node.Lists id name ∧ (tag, name) ∈ aliases)
    (rest : List (String × String)) (part : ∀ a ∈ rest, a ∈ aliases) (tag : String) (id : Nat)
    (here : rest.foldl Remote.fillAlias next tag = some id) :
    node.Lists id tag ∨ ∃ name, node.Lists id name ∧ (tag, name) ∈ aliases := by
  induction rest generalizing next with
  | nil => exact before tag id here
  | cons a rest ih =>
      refine ih ?_ (fun b mem => part b (List.mem_cons_of_mem _ mem)) here
      intro tag id here
      unfold Remote.fillAlias at here
      cases taken : next a.1 with
      | some _ =>
          rw [taken] at here
          exact before tag id here
      | none =>
          rw [taken] at here
          cases filled : next a.2 with
          | none =>
              rw [filled] at here
              exact before tag id here
          | some found =>
              rw [filled] at here
              dsimp only at here
              by_cases same : tag = a.1
              · rw [same, Function.update_self] at here
                cases here
                -- What stands under the alias is what the node reports there, for the alias has no alias.
                rcases before a.2 id filled with lists | ⟨name, -, chained⟩
                · exact .inr ⟨a.2, lists, same ▸ part a List.mem_cons_self⟩
                · exact absurd rfl (unchained a (part a List.mem_cons_self) _ chained)
              · rw [Function.update_of_ne same] at here
                exact before tag id here

namespace World

variable {w : World β}

theorem Hits.mono {w' : World β} {tag : String} {id : Nat} (hits : w.Hits nodeID tag id)
    (aliases : w'.remote.adoptedAliases = w.remote.adoptedAliases) (lists : ∀ name, w.node.Lists id name → w'.node.Lists id name) :
    w'.Hits nodeID tag id := by
  obtain ⟨name, here, names⟩ := hits
  exact ⟨name, lists name here, aliases ▸ names⟩

theorem refreshed_current (unchained : Unchained w.remote.adoptedAliases) :
    Current nodeID { node := w.node, remote := w.remote.refreshRemoteIDs w.node } := by
  intro key id here
  rcases fillAliases_lists unchained (fun tag id here => .inl (reported_lists w.node tag id here)) _ (fun _ mem => mem)
    key id here with lists | ⟨name, lists, adopted⟩
  · exact ⟨key, lists, .inl rfl⟩
  · exact ⟨name, lists, .inr (.inr adopted)⟩

theorem Current.found (current : w.Current nodeID) {tag : String} (plain : Plain nodeID w.remote tag) {id : Nat}
    (found : w.remote.cacheGetTag nodeID tag = some id) : w.Hits nodeID tag id := by
  unfold Remote.cacheGetTag at found
  cases own : w.remote.remoteIDByTag tag with
  | some id' =>
      rw [own, Option.some_or, Option.some.injEq] at found
      exact found ▸ current tag id' own
  | none =>
      rw [own, Option.none_or] at found
      obtain ⟨name, lists, same | other | adopted⟩ := current _ id found
      · exact ⟨name, lists, .inr (.inl same)⟩
      · rcases List.mem_cons.mp plain.1 with back | again
        · exact ⟨name, lists, .inl (other.trans back)⟩
        · exact ⟨name, lists, .inr (.inl (other.trans (List.mem_singleton.mp again)))⟩
      · exact absurd rfl (plain.2 _ adopted)

/-! ## What a step asks of the node and of the cache -/

variable (nodeID) in
def Keeps (w : World β) (rpc : Rpc β) : Prop :=
  ∀ node ∈ rpc.between, Current nodeID { node := node, remote := w.remote.refreshRemoteIDs w.node }

variable (nodeID) in
/-- The deletion of an inbound is confirmed, and no other tag of the cache has its id. -/
def Deletes (w : World β) (rpc : Rpc β) (tag : String) : Prop :=
  match w.resolveRemoteID nodeID rpc tag with
  | (w, some id) => rpc.reply = .refused ∨ rpc.reply = .done ∧ ∀ key, w.remote.remoteIDByTag key = some id → key = tag
  | (_, none) => True

variable (nodeID) in
/-- The tag that an updated inbound gets on the node is a name of each tag under which the cache goes on to have its id. -/
def Updates (w : World β) (rpc : Rpc β) (oldTag : String) (ib : Inbound β) : Prop :=
  match w.resolveRemoteID nodeID rpc oldTag with
  | (w, some id) =>
      match w.replyFor rpc id with
      | .refused => True
      | .lost => ∀ key, w.remote.remoteIDByTag key = some id → Names nodeID w.remote.adoptedAliases key rpc.newTag
      | .done => Names nodeID w.remote.adoptedAliases ib.tag rpc.newTag ∧
          ∀ key, key ≠ oldTag → w.remote.remoteIDByTag key = some id → Names nodeID w.remote.adoptedAliases key rpc.newTag
  | (_, none) => True

/-- An adopted inbound still stands on the node, and the adoption joins two tags none of which is the end or the start of
another alias. -/
def Joins (w : World β) (ib : Inbound β) (remote : RemoteInbound β) : Prop :=
  w.node.Lists remote.id remote.wire.tag ∧ remote.wire.tag ≠ ib.tag ∧
    ∀ a ∈ w.remote.adoptedAliases, a.2 ≠ ib.tag ∧ a.1 ≠ remote.wire.tag

/-! ## What a step leaves current -/

structure Known (nodeID : Nat) (w : World β) : Prop where
  current : w.Current nodeID
  unchained : Unchained w.remote.adoptedAliases

namespace Known

variable (known : Known nodeID w)
include known

theorem refresh {rpc : Rpc β} (keeps : w.Keeps nodeID rpc) : Known nodeID (w.refresh rpc) := by
  unfold World.refresh
  split
  · refine ⟨?_, known.unchained⟩
    cases between : rpc.between with
    | none => exact refreshed_current known.unchained
    | some node => exact keeps node between
  · exact known

theorem resolve {rpc : Rpc β} {tag : String}
    (keeps : w.remote.cacheGetTag nodeID tag = none → w.Keeps nodeID rpc) :
    Known nodeID (w.resolveRemoteID nodeID rpc tag).1 := by
  unfold resolveRemoteID
  cases cached : w.remote.cacheGetTag nodeID tag with
  | some id => exact known
  | none =>
      dsimp only
      split
      · exact known.refresh (keeps cached)
      · exact known

theorem record (ib : Inbound β) : Known nodeID { w with remote := w.remote.recordPushedInbound nodeID ib } :=
  ⟨known.current, known.unchained⟩

theorem cacheSet {tag : String} {id : Nat} (hits : w.Hits nodeID tag id) :
    Known nodeID { w with remote := w.remote.cacheSet tag id } := by
  refine ⟨fun key id' here => ?_, known.unchained⟩
  have here : Function.update w.remote.remoteIDByTag tag (some id) key = some id' := here
  by_cases same : key = tag
  · rw [same, Function.update_self] at here
    cases here
    exact same ▸ hits
  · rw [Function.update_of_ne same] at here
    exact known.current key id' here

theorem cacheDel (tag : String) : Known nodeID { w with remote := w.remote.cacheDel tag } := by
  refine ⟨fun key id here => ?_, known.unchained⟩
  have here : Function.update w.remote.remoteIDByTag tag none key = some id := here
  by_cases same : key = tag
  · rw [same, Function.update_self] at here
    cases here
  · rw [Function.update_of_ne same] at here
    exact known.current key id here

theorem moved {node : Listing β} (lists : ∀ id name, w.node.Lists id name → node.Lists id name) :
    Known nodeID { w with node := node } :=
  ⟨fun key id here => (known.current key id here).mono rfl (lists id), known.unchained⟩

theorem addInbound (rpc : Rpc β) (ib : Inbound β) : Known nodeID (w.addInbound nodeID rpc ib).1 := by
  have more : ∀ id name, w.node.Lists id name →
      (w.node.add rpc.newId { wireInbound nodeID ib with tag := rpc.newTag }).Lists id name := by
    rintro id name ⟨o, mem, here⟩
    exact ⟨o, List.mem_append_left _ mem, here⟩
  have added := known.moved more
  unfold World.addInbound send
  dsimp only
  cases reply : rpc.reply with
  | done =>
      simp only [reduceCtorEq, if_false, if_true]
      split
      · refine (added.cacheSet ⟨rpc.newTag, ?_, .inl rfl⟩).record ib
        exact ⟨_, List.mem_append_right _ (List.mem_singleton_self _), rfl, rfl⟩
      · exact added.record ib
  | lost => exact added
  | refused => exact known

theorem delInbound {rpc : Rpc β} {tag : String} (keeps : w.remote.cacheGetTag nodeID tag = none → w.Keeps nodeID rpc)
    (deletes : w.Deletes nodeID rpc tag) : Known nodeID (w.delInbound nodeID rpc tag).1 := by
  have after := known.resolve keeps
  unfold Deletes at deletes
  unfold World.delInbound
  generalize w.resolveRemoteID nodeID rpc tag = resolved at after deletes
  obtain ⟨w, found⟩ := resolved
  cases found with
  | none => exact after
  | some id =>
      dsimp only at deletes after ⊢
      rcases deletes with refused | ⟨done, alone⟩
      · simp only [refused, send, reduceCtorEq, if_false, if_true]
        exact after
      · simp only [done, send, reduceCtorEq, if_false, if_true]
        refine ⟨fun key id' here => ?_, after.unchained⟩
        have here : Function.update w.remote.remoteIDByTag tag none key = some id' := here
        by_cases same : key = tag
        · rw [same, Function.update_self] at here
          cases here
        · rw [Function.update_of_ne same] at here
          obtain ⟨name, ⟨o, mem, own, listed⟩, names⟩ := after.current key id' here
          have other : id' ≠ id := fun equal => same (alone key (equal ▸ here))
          exact ⟨name, ⟨o, List.mem_filter.mpr ⟨mem, by simpa [own] using other⟩, own, listed⟩, names⟩

theorem updateInbound {rpc : Rpc β} {oldTag : String} {ib : Inbound β}
    (keeps : w.remote.cacheGetTag nodeID oldTag = none → w.Keeps nodeID rpc) (updates : w.Updates nodeID rpc oldTag ib) :
    Known nodeID (w.updateInbound nodeID rpc oldTag ib).1 := by
  have after := known.resolve keeps
  unfold Updates at updates
  unfold World.updateInbound
  generalize w.resolveRemoteID nodeID rpc oldTag = resolved at after updates
  obtain ⟨w, found⟩ := resolved
  cases found with
  | none => exact after.addInbound rpc ib
  | some id =>
      dsimp only at updates after ⊢
      let wire : Wire β := { wireInbound nodeID ib with tag := rpc.newTag }
      -- an inbound with another id keeps its name, those with this one get the new tag
      have others : ∀ id' name, id' ≠ id → w.node.Lists id' name → (w.node.update id wire).Lists id' name := by
        rintro id' name other ⟨o, mem, own, listed⟩
        exact ⟨o, List.mem_map.mpr ⟨o, mem, if_neg (own ▸ other)⟩, own, listed⟩
      have listed : ∀ name, w.node.Lists id name → (w.node.update id wire).Lists id rpc.newTag := by
        rintro name ⟨o, mem, own, -⟩
        exact ⟨⟨id, wire⟩, List.mem_map.mpr ⟨o, mem, if_pos own⟩, rfl, rfl⟩
      have hits : ∀ key id', w.remote.remoteIDByTag key = some id' →
          (id' = id → Names nodeID w.remote.adoptedAliases key rpc.newTag) →
          Hits nodeID { w with node := w.node.update id wire } key id' := by
        intro key id' here fits
        obtain ⟨name, lists, names⟩ := after.current key id' here
        by_cases same : id' = id
        · exact ⟨rpc.newTag, same ▸ listed name (same ▸ lists), fits same⟩
        · exact ⟨name, others id' name same lists, names⟩
      cases reply : w.replyFor rpc id with
      | refused =>
          simp only [send, reduceCtorEq, if_false, if_true]
          exact after
      | lost =>
          simp only [reply] at updates
          simp only [send, reduceCtorEq, if_false]
          exact ⟨fun key id' here => hits key id' here fun same => updates key (same ▸ here), after.unchained⟩
      | done =>
          simp only [reply] at updates
          simp only [send, reduceCtorEq, if_false, if_true]
          obtain ⟨named, fits⟩ := updates
          have there : ∃ name, w.node.Lists id name := by
            unfold replyFor at reply
            split at reply
            · rename_i has
              obtain ⟨o, mem, own⟩ := List.any_eq_true.mp has
              exact ⟨_, o, mem, of_decide_eq_true own, rfl⟩
            · cases reply
          obtain ⟨name, lists⟩ := there
          let r := if oldTag ≠ ib.tag then w.remote.cacheDel oldTag else w.remote
          have aliases : r.adoptedAliases = w.remote.adoptedAliases := by
            simp only [r]
            split <;> rfl
          have kept : ∀ key id', key ≠ ib.tag → r.remoteIDByTag key = some id' →
              key ≠ oldTag ∧ w.remote.remoteIDByTag key = some id' := by
            intro key id' other here
            simp only [r] at here
            split at here
            · have here : Function.update w.remote.remoteIDByTag oldTag none key = some id' := here
              by_cases old : key = oldTag
              · rw [old, Function.update_self] at here
                cases here
              · rw [Function.update_of_ne old] at here
                exact ⟨old, here⟩
            · rename_i unchanged
              exact ⟨fun old => other (old.trans (not_not.mp unchanged)), here⟩
          refine ⟨fun key id' here => ?_, ?_⟩
          · have here : Function.update r.remoteIDByTag ib.tag (some id) key = some id' := here
            by_cases same : key = ib.tag
            · rw [same, Function.update_self] at here
              cases here
              refine ⟨rpc.newTag, listed name lists, ?_⟩
              show Names nodeID r.adoptedAliases key rpc.newTag
              rw [aliases, same]
              exact named
            · rw [Function.update_of_ne same] at here
              obtain ⟨old, before⟩ := kept key id' same here
              obtain ⟨name', lists', names'⟩ := hits key id' before fun equal => fits key old (equal ▸ before)
              refine ⟨name', lists', ?_⟩
              show Names nodeID r.adoptedAliases key name'
              rw [aliases]
              exact names'
          · show Unchained r.adoptedAliases
            rw [aliases]
            exact after.unchained

theorem narrowCall {rpc : Rpc β} {tag : String} (keeps : w.remote.cacheGetTag nodeID tag = none → w.Keeps nodeID rpc)
    (effect : β → β) : Known nodeID (w.narrowCall nodeID rpc tag effect).1 := by
  have after := known.resolve keeps
  unfold World.narrowCall
  generalize w.resolveRemoteID nodeID rpc tag = resolved at after
  obtain ⟨w, found⟩ := resolved
  cases found with
  | none => exact after
  | some id =>
      dsimp only at after ⊢
      unfold send
      split
      · exact after
      · refine after.moved ?_
        rintro id' name ⟨o, mem, own, listed⟩
        refine ⟨_, List.mem_map.mpr ⟨o, mem, rfl⟩, ?_⟩
        split <;> exact ⟨own, listed⟩

theorem adopt {ib : Inbound β} {remote : RemoteInbound β} (joins : w.Joins ib remote) :
    Known nodeID { w with remote := w.remote.adoptInboundAlias nodeID ib remote } := by
  obtain ⟨stands, apart, fresh⟩ := joins
  constructor
  · intro key id here
    have here : Function.update (Function.update w.remote.remoteIDByTag remote.wire.tag (some remote.id)) ib.tag
        (some remote.id) key = some id := here
    by_cases own : key = ib.tag
    · rw [own, Function.update_self] at here
      cases here
      exact ⟨_, stands, own ▸ .inr (.inr List.mem_cons_self)⟩
    · rw [Function.update_of_ne own] at here
      by_cases reported : key = remote.wire.tag
      · rw [reported, Function.update_self] at here
        cases here
        exact ⟨_, stands, .inl reported.symm⟩
      · rw [Function.update_of_ne reported] at here
        obtain ⟨name, lists, names⟩ := known.current key id here
        refine ⟨name, lists, names.imp_right fun later => later.imp_right fun mem => ?_⟩
        exact List.mem_cons_of_mem _ (List.mem_filter.mpr ⟨mem, by simpa using own⟩)
  · intro a mem b mem'
    rcases List.mem_cons.mp mem with rfl | mem <;> rcases List.mem_cons.mp mem' with rfl | mem'
    · exact apart
    · exact ((fresh b (List.mem_of_mem_filter mem')).2).symm
    · exact (fresh a (List.mem_of_mem_filter mem)).1
    · exact known.unchained a (List.mem_of_mem_filter mem) b (List.mem_of_mem_filter mem')

theorem advance [DecidableEq β] (prevIb ib : Inbound β) :
    Known nodeID { w with remote := w.remote.advancePushedInbound nodeID prevIb ib } := by
  unfold Remote.advancePushedInbound
  split
  · exact known.record ib
  · exact known

end Known

end World

end ThreeXNode.Runtime
