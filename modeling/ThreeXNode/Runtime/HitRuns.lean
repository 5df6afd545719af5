import ThreeXNode.Runtime.Hits

namespace ThreeXNode.Runtime
open Library

variable {β : Type*} {nodeID : Nat}

/-! ## Sweeps -/

/-- A sweep spares the tags that are desired and those outside the selection. -/
def Fair : Planned β → Prop
  | .sweep tag desired selected => tag ∉ desired ∧ ∀ tags ∈ selected, tag ∈ tags
  | _ => True

theorem reconcileNode_fair (n : NodeConfig) (remoteInbounds : Listing β) (inbounds : List (Inbound β)) :
    ∀ step ∈ reconcileNode n remoteInbounds inbounds, Fair step := by
  intro step mem
  rcases List.mem_append.mp mem with mem | mem
  · obtain ⟨ib, -, mem⟩ := List.mem_flatMap.mp mem
    unfold plannedFor at mem
    split at mem
    · rw [List.mem_singleton.mp mem]
      trivial
    · split at mem
      · rw [List.mem_singleton.mp mem]
        trivial
      · rcases List.mem_cons.mp mem with rfl | mem
        · trivial
        · rw [List.mem_singleton.mp mem]
          trivial
      · cases mem
  · split at mem
    · obtain ⟨tag, kept, rfl⟩ := List.mem_map.mp mem
      have spared := (List.mem_filter.mp kept).2
      rw [decide_eq_true_eq] at spared
      exact spared
    · cases mem

/-- A swept tag has no alias, and its other form is swept as well as it is. -/
def SweptAlone (nodeID : Nat) (r : Remote β) (tag : String) (desired : List String) (selected : Option (List String)) : Prop :=
  (∀ a ∈ r.adoptedAliases, a.1 ≠ tag) ∧ flipped nodeID tag ∉ desired ∧ ∀ tags ∈ selected, flipped nodeID tag ∈ tags

/-! ## Runs -/

section
variable [DecidableEq β]

def Keeps (nodeID : Nat) (s : Sync β) : Push β → Prop
  | .change node => World.Current nodeID { s.world with node := node }
  | .listRemoteTags rpc => s.world.Keeps nodeID rpc
  | .delInbound rpc tag => s.world.Deletes nodeID rpc tag
  | .updateInbound rpc oldTag ib => s.world.Updates nodeID rpc oldTag ib
  | .carryOut rpc =>
      match s.todo with
      | .adopt ib remote :: _ => s.world.Joins ib remote
      | .reconcile ib true :: _ =>
          s.world.remote.pushedFP ib.tag = some (wireInbound nodeID ib) ∨ s.world.Updates nodeID rpc ib.tag ib
      | .sweep tag desired selected :: _ =>
          s.world.Deletes nodeID rpc tag ∧ SweptAlone nodeID s.world.remote tag desired selected
      | _ => True
  | .addInbound _ _ | .narrowCall _ _ _ | .recordAdoptedInbound _ | .advancePushedInbound _ _ | .reconcileNode _ _ => True

/-- The node keeps what the cache knows, and the tag of a call is not taken for a third one. -/
structure Steady (nodeID : Nat) (s : Sync β) (a : Push β) : Prop where
  keeps : Keeps nodeID s a
  listed : ∀ rpc tag, s.about nodeID a = some (rpc, tag) → s.world.remote.cacheGetTag nodeID tag = none → s.world.Keeps nodeID rpc
  plain : ∀ rpc tag, s.about nodeID a = some (rpc, tag) → Plain nodeID s.world.remote tag

structure Sound (nodeID : Nat) (s : Sync β) : Prop where
  known : World.Known nodeID s.world
  fair : ∀ step ∈ s.todo, Fair step

theorem Sound.next {s s' : Sync β} {a : Push β} (sound : Sound nodeID s) (steady : Steady nodeID s a)
    (step : (pushes nodeID).next s a = some s') : Sound nodeID s' := by
  obtain ⟨known, fair⟩ := sound
  obtain ⟨keeps, listed, -⟩ := steady
  cases a with
  | change node =>
      cases step
      exact ⟨⟨keeps, known.unchained⟩, fair⟩
  | addInbound rpc ib =>
      cases step
      exact ⟨known.addInbound rpc ib, fair⟩
  | delInbound rpc tag =>
      cases step
      exact ⟨known.delInbound (listed rpc tag rfl) keeps, fair⟩
  | updateInbound rpc oldTag ib =>
      cases step
      exact ⟨known.updateInbound (listed rpc oldTag rfl) keeps, fair⟩
  | narrowCall rpc tag effect =>
      cases step
      exact ⟨known.narrowCall (listed rpc tag rfl) effect, fair⟩
  | listRemoteTags rpc =>
      cases step
      exact ⟨known.refresh keeps, fair⟩
  | recordAdoptedInbound ib =>
      cases step
      exact ⟨known.record ib, fair⟩
  | advancePushedInbound prevIb ib =>
      cases step
      exact ⟨known.advance prevIb ib, fair⟩
  | reconcileNode n inbounds =>
      unfold pushes at step
      dsimp only at step
      split at step
      · cases step
        exact ⟨known, reconcileNode_fair n s.world.node inbounds⟩
      · cases step
  | carryOut rpc =>
      unfold pushes at step
      dsimp only at step
      split at step
      · rename_i planned todo pending
        cases step
        refine ⟨?_, fun step mem => fair step (pending ▸ List.mem_cons_of_mem _ mem)⟩
        unfold Keeps at keeps
        rw [pending] at keeps
        cases planned with
        | adopt ib remote => exact known.adopt keeps
        | reconcile ib existsOnNode =>
            show World.Known nodeID (s.world.reconcileInbound nodeID rpc ib existsOnNode).1
            unfold World.reconcileInbound
            cases existsOnNode with
            | false => exact (known.cacheDel ib.tag).addInbound rpc ib
            | true =>
                by_cases pushed : s.world.remote.pushedFP ib.tag = some (wireInbound nodeID ib)
                · simp only [pushed, Bool.not_true, Bool.false_eq_true, if_false, if_true]
                  exact known
                · simp only [pushed, Bool.not_true, Bool.false_eq_true, if_false]
                  refine known.updateInbound (listed rpc ib.tag ?_) (keeps.resolve_left pushed)
                  simp [Sync.about, pending, pushed]
        | sweep tag desired selected =>
            refine known.delInbound (listed rpc tag ?_) keeps.1
            simp [Sync.about, pending]
      · cases step

theorem Sound.sent_hits {s : Sync β} {a : Push β} (sound : Sound nodeID s) (steady : Steady nodeID s a) {tag : String}
    {id : Nat} {now : Listing β} (sends : s.sent nodeID a = some (tag, id, now)) :
    ∃ name, now.Lists id name ∧ Names nodeID s.world.remote.adoptedAliases tag name := by
  obtain ⟨⟨rpc, about⟩, asks, resolved⟩ := Option.bind_eq_some_iff.mp sends
  dsimp only at resolved
  have keeps := steady.listed rpc about asks
  have plain := steady.plain rpc about asks
  have after := sound.known.resolve keeps
  unfold World.resolveRemoteID at resolved after
  cases cached : s.world.remote.cacheGetTag nodeID about with
  | some id' =>
      rw [cached] at resolved
      cases resolved
      exact sound.known.current.found plain cached
  | none =>
      rw [cached] at resolved after
      dsimp only at resolved after
      by_cases read : rpc.listed = true
      · rw [if_pos read] at resolved after
        have same : (s.world.refresh rpc).remote.adoptedAliases = s.world.remote.adoptedAliases := by
          simp only [World.refresh, read, if_true]
          rfl
        cases found : (s.world.refresh rpc).remote.cacheGetTag nodeID about with
        | none =>
            rw [found] at resolved
            cases resolved
        | some id' =>
            rw [found] at resolved
            simp only [Option.some.injEq, Prod.mk.injEq] at resolved
            obtain ⟨rfl, rfl, rfl⟩ := resolved
            have plain' : Plain nodeID (s.world.refresh rpc).remote about := by
              rw [Plain, same]
              exact plain
            obtain ⟨name, lists, names⟩ := after.current.found plain' found
            rw [same] at names
            exact ⟨name, lists, names⟩
      · rw [if_neg read] at resolved
        cases resolved

end

namespace Example

def inbound (tag : String) : Inbound Unit := ⟨tag, "", 443, "vless", false, ()⟩

def listed (id : Nat) (tag : String) : RemoteInbound Unit := ⟨id, ⟨tag, "", 443, "vless", ()⟩⟩

def works (newTag : String) : Rpc Unit := ⟨true, none, .done, 9, newTag, true⟩

def sync : Sync Unit := { world := { node := [listed 1 "a", listed 2 "b"], remote := {} } }

def reset : List (Push Unit) := [.updateInbound (works "a") "a" (inbound "a"), .change [listed 1 "b"]]

end Example

open Example

end ThreeXNode.Runtime
