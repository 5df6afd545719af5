import ThreeXNode.Xray.Running

namespace ThreeXNode.Xray
open Library

/-! ## What a diff sees of a config is what a core sees of it -/

theorem rawEqualNormalized_iff {a b : RawMessage} :
    rawEqualNormalized a b = true ↔ canonicalJSON a = canonicalJSON b := by
  simp only [rawEqualNormalized, Bool.or_eq_true, decide_eq_true_eq, or_iff_right_iff_imp]
  exact congrArg canonicalJSON

private theorem splitSettingsClients_canonical (raw : RawMessage) : splitSettingsClients raw =
    (canonicalJSON raw).bind fun j => j.asFields.bind splitSettings := by
  cases raw with
  | none => rfl
  | some w =>
      by_cases null : w.value = .null
      · simp [splitSettingsClients, fieldsOf, canonicalJSON, null, canon, Json.asFields, splitSettings]
      · simp [splitSettingsClients, fieldsOf, canonicalJSON, null]

theorem indexClients_distinct {seen clients : List (String × Fields)} {items : List Json}
    (indexed : indexClients seen items = some clients) (distinct : (seen.map (·.1)).Nodup) :
    (clients.map (·.1)).Nodup := by
  induction items generalizing seen with
  | nil =>
      cases indexed
      exact distinct
  | cons j rest ih =>
      cases j with
      | obj members =>
          simp only [indexClients] at indexed
          split at indexed
          · cases indexed
          · rename_i fine
            rw [not_or] at fine
            refine ih indexed ?_
            rw [List.map_append, List.map_singleton, List.nodup_append]
            refine ⟨distinct, List.nodup_singleton _, fun a mem b last => ?_⟩
            rw [List.mem_singleton.mp last]
            intro (same : a = Fields.text (Std.ExtTreeMap.ofList members compare) "email")
            exact fine.2 (same ▸ mem)
      | null | bool _ | num _ | str _ | arr _ => cases indexed

theorem splitSettingsClients_some {raw : RawMessage} {clients : List (String × Fields)} {rest : Fields}
    (h : splitSettingsClients raw = some (clients, rest)) : (clients.map (·.1)).Nodup := by
  obtain ⟨settings, _, h⟩ := Option.bind_eq_some_iff.mp h
  unfold splitSettings at h
  split at h
  · obtain ⟨found, indexed, same⟩ := Option.map_eq_some_iff.mp h
    cases same
    exact indexClients_distinct indexed List.nodup_nil
  · cases h

theorem clientsOf_distinct (ib : InboundConfig) : ((clientsOf ib).map (·.1)).Nodup := by
  unfold clientsOf
  split
  · cases split : splitSettingsClients ib.settings with
    | none => exact List.nodup_nil
    | some pair => exact splitSettingsClients_some split
  · exact List.nodup_nil

theorem indexOutbounds_distinct {seen outbounds : List (String × Json)} {items : List Json}
    (indexed : indexOutbounds seen items = some outbounds) (distinct : (seen.map (·.1)).Nodup) :
    (outbounds.map (·.1)).Nodup := by
  induction items generalizing seen with
  | nil =>
      cases indexed
      exact distinct
  | cons j rest ih =>
      simp only [indexOutbounds, Option.bind_eq_bind, Option.bind_eq_some_iff] at indexed
      obtain ⟨fields, _, tag, _, indexed⟩ := indexed
      split at indexed
      · cases indexed
      · rename_i fine
        rw [not_or] at fine
        refine ih indexed ?_
        rw [List.map_append, List.map_singleton, List.nodup_append]
        refine ⟨distinct, List.nodup_singleton _, fun a mem b last => ?_⟩
        rw [List.mem_singleton.mp last]
        intro (same : a = tag)
        exact fine.2 (same ▸ mem)

theorem parseOutbounds_distinct {raw : RawMessage} {outbounds : List (String × Json)}
    (h : parseOutbounds raw = some outbounds) : (outbounds.map (·.1)).Nodup := by
  unfold parseOutbounds at h
  split at h
  · cases h
    exact List.nodup_nil
  · split at h
    · cases h
      exact List.nodup_nil
    · exact indexOutbounds_distinct h List.nodup_nil
    · cases h

/-! ## The kinds of change of an inbound -/

/-- Two inbounds of one tag that differ in their clients at most. -/
structure SameButClients (a b : InboundConfig) : Prop where
  tag : a.tag = b.tag
  frame : frameOf a = frameOf b
  diffable : a.protocol ∈ userDiffableProtocols
  split : (splitSettingsClients a.settings).isSome = true ∧ (splitSettingsClients b.settings).isSome = true

theorem inboundEqualNormalized_same {a b : InboundConfig} (same : inboundEqualNormalized a b = true) :
    frameOf a = frameOf b ∧ clientsOf a = clientsOf b ∧ a.protocol = b.protocol := by
  simp only [inboundEqualNormalized, Bool.and_eq_true, decide_eq_true_eq, rawEqualNormalized_iff] at same
  obtain ⟨⟨⟨⟨⟨⟨port, protocol⟩, tag⟩, listen⟩, settings⟩, stream⟩, sniffing⟩ := same
  have split : splitSettingsClients a.settings = splitSettingsClients b.settings := by
    rw [splitSettingsClients_canonical, settings, ← splitSettingsClients_canonical]
  refine ⟨?_, ?_, protocol⟩
  · simp only [frameOf, settingsOf, port, protocol, listen, settings, stream, sniffing, split]
  · simp only [clientsOf, protocol, split]

theorem diffInboundUsers_some {a b : InboundConfig} {piece : HotDiff} (h : diffInboundUsers a b = some piece) :
    SameButClients a b ∧ piece = { HotDiff.none with
      removedUsers := (lost (clientsOf a) (clientsOf b)).map fun client => ⟨a.tag, a.protocol, client.1, none⟩
      addedUsers := (gained (clientsOf a) (clientsOf b)).map fun client => ⟨a.tag, a.protocol, client.1, some client.2⟩ } := by
  unfold diffInboundUsers at h
  split at h
  · cases h
  · rename_i fine
    simp only [not_or, not_not, Bool.not_eq_true', rawEqualNormalized_iff, Bool.not_eq_false] at fine
    obtain ⟨port, protocol, tag, diffable, listen, stream, sniffing⟩ := fine
    simp only [Option.bind_eq_bind, Option.bind_eq_some_iff] at h
    obtain ⟨⟨oldClients, oldRest⟩, splitOld, ⟨newClients, newRest⟩, splitNew, h⟩ := h
    simp only at h
    split at h
    · cases h
    · rename_i rest
      rw [not_not] at rest
      have diffable' : b.protocol ∈ userDiffableProtocols := protocol ▸ diffable
      have old : clientsOf a = oldClients := by simp [clientsOf, diffable, splitOld]
      have new : clientsOf b = newClients := by simp [clientsOf, diffable', splitNew]
      cases h
      refine ⟨⟨tag, ?_, diffable, by simp [splitOld], by simp [splitNew]⟩, by rw [old, new]⟩
      simp only [frameOf, settingsOf, port, protocol, listen, stream, sniffing, diffable', ↓reduceIte, splitOld,
        splitNew, rest]

theorem SameButClients.diffed {a b : InboundConfig} (same : SameButClients a b) : diffInboundUsers a b ≠ none := by
  obtain ⟨tag, frame, diffable, splitOld, splitNew⟩ := same
  obtain ⟨⟨oldClients, oldRest⟩, old⟩ := Option.isSome_iff_exists.mp splitOld
  obtain ⟨⟨newClients, newRest⟩, new⟩ := Option.isSome_iff_exists.mp splitNew
  simp only [frameOf, Frame.mk.injEq] at frame
  obtain ⟨listen, port, protocol, settings, stream, sniffing⟩ := frame
  have rest : oldRest = newRest := by
    simp only [settingsOf, protocol ▸ diffable, diffable, ↓reduceIte, old, new, Option.some.injEq] at settings
    simpa using congrArg Json.asFields settings
  simp [diffInboundUsers, port, protocol ▸ diffable, protocol, tag, rawEqualNormalized_iff, listen, stream, sniffing,
    old, new, rest]

def usersPiece (a b : InboundConfig) : HotDiff :=
  { HotDiff.none with
    removedUsers := (lost (clientsOf a) (clientsOf b)).map fun client => ⟨a.tag, a.protocol, client.1, none⟩
    addedUsers := (gained (clientsOf a) (clientsOf b)).map fun client => ⟨a.tag, a.protocol, client.1, some client.2⟩ }

/-- What the diff makes of an inbound of the old config, given those of the new one. -/
inductive Change (news : List InboundConfig) (ib : InboundConfig) : HotDiff → Prop where
  | users (n : InboundConfig) (found : findTag news ib.tag = some n) (frame : frameOf ib = frameOf n)
      (protocol : ib.protocol = n.protocol)
      (only : clientsOf ib = clientsOf n ∨ SameButClients ib n) : Change news ib (usersPiece ib n)
  | replaced (n : InboundConfig) (found : findTag news ib.tag = some n) (apart : ¬SameButClients ib n) :
      Change news ib { HotDiff.none with removedInboundTags := [ib.tag], addedInbounds := [n] }
  | gone (found : findTag news ib.tag = none) : Change news ib { HotDiff.none with removedInboundTags := [ib.tag] }

theorem lost_self {clients : List (String × Fields)} (distinct : (clients.map (·.1)).Nodup) :
    lost clients clients = [] := by
  refine List.filter_eq_nil_iff.mpr fun e mem => ?_
  simpa using (entryAt_some distinct).mpr mem

theorem gained_self {clients : List (String × Fields)} (distinct : (clients.map (·.1)).Nodup) :
    gained clients clients = [] := by
  refine List.eq_nil_iff_forall_not_mem.mpr fun e mem => ?_
  obtain ⟨here, differs⟩ := (mem_gained distinct distinct).mp mem
  exact differs here

theorem diffOldInbound_change {apiTag : String} {news : List InboundConfig} {ib : InboundConfig} {piece : HotDiff}
    (h : diffOldInbound apiTag news ib = .ok piece) : Change news ib piece := by
  unfold diffOldInbound at h
  cases found : findTag news ib.tag with
  | none =>
      rw [found] at h
      simp only at h
      split at h
      · cases h
      · cases h
        exact .gone found
  | some n =>
      rw [found] at h
      simp only at h
      split at h
      · rename_i same
        cases h
        obtain ⟨frame, clients, protocol⟩ := inboundEqualNormalized_same same
        have nothing : usersPiece ib n = .none := by
          simp [usersPiece, clients, lost_self (clientsOf_distinct n), gained_self (clientsOf_distinct n), HotDiff.none]
        exact nothing ▸ .users n found frame protocol (.inl clients)
      · split at h
        · cases h
        · split at h
          · cases h
          · cases users : diffInboundUsers ib n with
            | some piece' =>
                rw [users] at h
                cases h
                obtain ⟨only, rfl⟩ := diffInboundUsers_some users
                exact .users n found only.frame (congrArg Frame.protocol only.frame) (.inr only)
            | none =>
                rw [users] at h
                simp only at h
                split at h
                · cases h
                · split at h
                  · cases h
                  · split at h
                    · cases h
                    · cases h
                      exact .replaced n found fun same => same.diffed users

theorem diffNewInbound_ok {apiTag : String} {olds : List InboundConfig} {ib : InboundConfig} {piece : HotDiff}
    (h : diffNewInbound apiTag olds ib = .ok piece) :
    piece = { HotDiff.none with addedInbounds := if (findTag olds ib.tag).isSome then [] else [ib] } := by
  unfold diffNewInbound at h
  cases found : findTag olds ib.tag with
  | some o =>
      rw [found] at h
      cases h
      rfl
  | none =>
      rw [found] at h
      simp only at h
      split at h
      · cases h
      · split at h
        · cases h
        · split at h
          · cases h
          · cases h
            rfl

/-! ## Gathering the pieces -/

def got (piece : InboundConfig → Except Unit HotDiff) (ib : InboundConfig) : HotDiff :=
  match piece ib with
  | .ok d => d
  | .error _ => .none

theorem gather_ok {piece : InboundConfig → Except Unit HotDiff} {items : List InboundConfig} {d d' : HotDiff}
    (h : items.foldlM (gather piece) d = .ok d') : ∀ ib ∈ items, piece ib = .ok (got piece ib) := by
  induction items generalizing d with
  | nil => simp
  | cons a items ih =>
      rw [List.foldlM_cons, Except.bind_eq_ok] at h
      obtain ⟨mid, one, rest⟩ := h
      simp only [gather, Except.bind_eq_ok, Except.pure_eq_ok] at one
      obtain ⟨p, here, _⟩ := one
      rintro ib (_ | ⟨_, mem⟩)
      · simp [got, here]
      · exact ih rest ib mem

theorem gather_field {β : Type} {piece : InboundConfig → Except Unit HotDiff} {items : List InboundConfig}
    {d d' : HotDiff} (field : HotDiff → List β) (appends : ∀ d e, field (d.append e) = field d ++ field e)
    (h : items.foldlM (gather piece) d = .ok d') : field d' = field d ++ items.flatMap (field <| got piece ·) := by
  induction items generalizing d with
  | nil =>
      cases h
      simp
  | cons a items ih =>
      rw [List.foldlM_cons, Except.bind_eq_ok] at h
      obtain ⟨mid, one, rest⟩ := h
      simp only [gather, Except.bind_eq_ok, Except.pure_eq_ok] at one
      obtain ⟨p, here, rfl⟩ := one
      have own : got piece a = p := by simp [got, here]
      rw [ih rest, appends, List.flatMap_cons, own, List.append_assoc]

theorem findTag_mem {inbounds : List InboundConfig} {tag : String} {ib : InboundConfig}
    (found : findTag inbounds tag = some ib) : ib ∈ inbounds ∧ ib.tag = tag :=
  ⟨List.mem_of_find?_eq_some found, by simpa using List.find?_some found⟩

theorem findTag_of_mem {inbounds : List InboundConfig} (distinct : (inbounds.map (·.tag)).Nodup) {ib : InboundConfig}
    (mem : ib ∈ inbounds) : findTag inbounds ib.tag = some ib := by
  cases found : findTag inbounds ib.tag with
  | none => simpa using List.find?_eq_none.mp found ib mem
  | some other =>
      obtain ⟨there, same⟩ := findTag_mem found
      rw [List.inj_on_of_nodup_map distinct there mem same]

theorem mem_flatMap_tag {β : Type} {inbounds : List InboundConfig} {f : InboundConfig → List β} {g : β → String}
    (distinct : (inbounds.map (·.tag)).Nodup) (tagged : ∀ ib ∈ inbounds, ∀ x ∈ f ib, g x = ib.tag) {x : β} {tag : String} :
    (x ∈ inbounds.flatMap f ∧ g x = tag) ↔ ∃ ib, findTag inbounds tag = some ib ∧ x ∈ f ib := by
  simp only [List.mem_flatMap]
  constructor
  · rintro ⟨⟨ib, mem, here⟩, rfl⟩
    exact ⟨ib, (tagged ib mem x here) ▸ findTag_of_mem distinct mem, here⟩
  · rintro ⟨ib, found, here⟩
    obtain ⟨mem, rfl⟩ := findTag_mem found
    exact ⟨⟨ib, mem, here⟩, tagged ib mem x here⟩

theorem flatMap_tag_nodup {β κ : Type} {inbounds : List InboundConfig} {f : InboundConfig → List β} {g : β → String}
    {k : β → κ} (distinct : (inbounds.map (·.tag)).Nodup) (tagged : ∀ ib ∈ inbounds, ∀ x ∈ f ib, g x = ib.tag)
    (keyed : ∀ x y, k x = k y → g x = g y) (each : ∀ ib ∈ inbounds, ((f ib).map k).Nodup) :
    ((inbounds.flatMap f).map k).Nodup := by
  rw [List.map_flatMap, List.nodup_flatMap]
  refine ⟨each, ?_⟩
  rw [List.Nodup, List.pairwise_map] at distinct
  refine distinct.imp_of_mem fun {a b} memA memB differs => ?_
  intro k inA inB
  obtain ⟨x, hereX, rfl⟩ := List.mem_map.mp inA
  obtain ⟨y, hereY, same⟩ := List.mem_map.mp inB
  exact differs ((tagged a memA x hereX).symm.trans ((keyed x y same.symm).trans (tagged b memB y hereY)))

/-! ## What a computed diff contains -/

/-- The inbounds a tag that is kept stands for, and what is done to its users. -/
structure Kept (old new : Config) (d : HotDiff) (tag : String) (o n : InboundConfig) : Prop where
  oldFound : findTag old.inbounds tag = some o
  newFound : findTag new.inbounds tag = some n
  frame : frameOf o = frameOf n
  only : clientsOf o = clientsOf n ∨ SameButClients o n
  removed : tag ∉ d.removedInboundTags
  added : ∀ ib ∈ d.addedInbounds, ib.tag ≠ tag
  removedUsers : ∀ op, (op ∈ d.removedUsers ∧ op.tag = tag) ↔
    ∃ client ∈ lost (clientsOf o) (clientsOf n), op = ⟨tag, n.protocol, client.1, none⟩
  addedUsers : ∀ op, (op ∈ d.addedUsers ∧ op.tag = tag) ↔
    ∃ client ∈ gained (clientsOf o) (clientsOf n), op = ⟨tag, n.protocol, client.1, some client.2⟩

/-- What becomes of a tag: its handler stays and only users come and go, or it is removed and added as a whole. -/
inductive Outcome (old new : Config) (d : HotDiff) (tag : String) : Prop where
  | kept (o n : InboundConfig) (kept : Kept old new d tag o n) : Outcome old new d tag
  | rebuilt (removed : tag ∈ d.removedInboundTags ↔ (findTag old.inbounds tag).isSome = true)
      (added : ∀ ib, (ib ∈ d.addedInbounds ∧ ib.tag = tag) ↔ findTag new.inbounds tag = some ib)
      (quiet : (∀ op ∈ d.removedUsers, op.tag ≠ tag) ∧ ∀ op ∈ d.addedUsers, op.tag ≠ tag)
      (apart : ∀ o n, findTag old.inbounds tag = some o → findTag new.inbounds tag = some n → ¬SameButClients o n) :
      Outcome old new d tag

structure Described (old new : Config) (d : HotDiff) : Prop where
  oldTags : (old.inbounds.map (·.tag)).Nodup
  newTags : (new.inbounds.map (·.tag)).Nodup
  removedOnce : d.removedInboundTags.Nodup
  addedOnce : (d.addedInbounds.map (·.tag)).Nodup
  removedUsersOnce : (d.removedUsers.map fun op => (op.tag, op.email)).Nodup
  addedUsersOnce : (d.addedUsers.map fun op => (op.tag, op.email)).Nodup
  outcome : ∀ tag, Outcome old new d tag

theorem Change.tagged {news : List InboundConfig} {ib : InboundConfig} {piece : HotDiff} (change : Change news ib piece) :
    (∀ tag ∈ piece.removedInboundTags, tag = ib.tag) ∧ (∀ n ∈ piece.addedInbounds, n.tag = ib.tag) ∧
      (∀ op ∈ piece.removedUsers, op.tag = ib.tag) ∧ ∀ op ∈ piece.addedUsers, op.tag = ib.tag := by
  cases change with
  | users n found frame protocol only =>
      refine ⟨by simp [usersPiece, HotDiff.none], by simp [usersPiece, HotDiff.none], ?_, ?_⟩
      all_goals
        intro op mem
        obtain ⟨client, _, rfl⟩ := List.mem_map.mp mem
        rfl
  | replaced n found apart => simp [HotDiff.none, (findTag_mem found).2]
  | gone found => simp [HotDiff.none]

theorem Change.once {news : List InboundConfig} {ib : InboundConfig} {piece : HotDiff} (change : Change news ib piece) :
    piece.removedInboundTags.Nodup ∧ (piece.addedInbounds.map (·.tag)).Nodup ∧
      (piece.removedUsers.map fun op => (op.tag, op.email)).Nodup ∧
      (piece.addedUsers.map fun op => (op.tag, op.email)).Nodup := by
  cases change with
  | users n found frame protocol only =>
      have removed := (lost_nodup (clientsOf n) (clientsOf_distinct ib)).map (f := (ib.tag, ·)) (by simp [Function.Injective])
      have added := (gained_nodup (clientsOf_distinct ib) (clientsOf_distinct n)).map (f := (ib.tag, ·))
        (by simp [Function.Injective])
      simp only [List.map_map, Function.comp_def] at removed added
      refine ⟨List.nodup_nil, List.nodup_nil, ?_, ?_⟩ <;> simpa [usersPiece, Function.comp_def]
  | replaced n found apart => simp [HotDiff.none]
  | gone found => simp [HotDiff.none]

theorem diffInbounds_described {old new : Config} {d : HotDiff} (h : diffInbounds old new .none = .ok d) :
    Described old new d := by
  simp only [diffInbounds, Except.bind_eq_ok, require_eq_ok, inboundsByTag, Bool.and_eq_true, decide_eq_true_eq] at h
  obtain ⟨_, ⟨_, oldTags⟩, _, ⟨_, newTags⟩, mid, first, second⟩ := h
  let oldP := got (diffOldInbound (apiTagFromConfig new.api) new.inbounds)
  let newP := got (diffNewInbound (apiTagFromConfig new.api) old.inbounds)
  have change : ∀ ib ∈ old.inbounds, Change new.inbounds ib (oldP ib) := fun ib mem =>
    diffOldInbound_change (gather_ok first ib mem)
  have fresh : ∀ ib ∈ new.inbounds, newP ib =
      { HotDiff.none with addedInbounds := if (findTag old.inbounds ib.tag).isSome then [] else [ib] } := fun ib mem =>
    diffNewInbound_ok (gather_ok second ib mem)
  have silent {β : Type} (field : HotDiff → List β) (empty : ∀ ibs, field { HotDiff.none with addedInbounds := ibs } = []) :
      (new.inbounds.flatMap fun ib => field (newP ib)) = [] :=
    List.flatMap_eq_nil_iff.mpr fun ib mem => by rw [fresh ib mem, empty]
  have whole {β : Type} (field : HotDiff → List β) (appends : ∀ d e, field (d.append e) = field d ++ field e)
      (start : field .none = []) (empty : ∀ ibs, field { HotDiff.none with addedInbounds := ibs } = []) :
      field d = old.inbounds.flatMap fun ib => field (oldP ib) := by
    rw [gather_field field appends second, gather_field field appends first, start, silent field empty]
    simp [oldP]
  have removedTags := whole HotDiff.removedInboundTags (fun _ _ => rfl) rfl fun _ => rfl
  have removedUsers := whole HotDiff.removedUsers (fun _ _ => rfl) rfl fun _ => rfl
  have addedUsers := whole HotDiff.addedUsers (fun _ _ => rfl) rfl fun _ => rfl
  have addedInbounds : d.addedInbounds = (old.inbounds.flatMap fun ib => (oldP ib).addedInbounds) ++
      new.inbounds.flatMap fun ib => (newP ib).addedInbounds := by
    rw [gather_field HotDiff.addedInbounds (fun _ _ => rfl) second,
      gather_field HotDiff.addedInbounds (fun _ _ => rfl) first]
    rfl
  have freshTagged : ∀ ib ∈ new.inbounds, ∀ n ∈ (newP ib).addedInbounds, n.tag = ib.tag := by
    intro ib mem n here
    rw [fresh ib mem] at here
    simp only at here
    split at here
    · cases here
    · rw [List.mem_singleton.mp here]
  have removedAt {tag : String} : tag ∈ d.removedInboundTags ↔
      ∃ ib, findTag old.inbounds tag = some ib ∧ tag ∈ (oldP ib).removedInboundTags := by
    rw [removedTags, ← mem_flatMap_tag oldTags (g := id) (fun ib mem => (change ib mem).tagged.1)]
    simp
  have addedAt {tag : String} {n : InboundConfig} : (n ∈ d.addedInbounds ∧ n.tag = tag) ↔
      (∃ ib, findTag old.inbounds tag = some ib ∧ n ∈ (oldP ib).addedInbounds) ∨
        ∃ ib, findTag new.inbounds tag = some ib ∧ n ∈ (newP ib).addedInbounds := by
    rw [addedInbounds, List.mem_append, or_and_right]
    exact or_congr (mem_flatMap_tag oldTags fun ib mem => (change ib mem).tagged.2.1)
      (mem_flatMap_tag newTags freshTagged)
  have removedUsersAt {tag : String} {op : UserOp} : (op ∈ d.removedUsers ∧ op.tag = tag) ↔
      ∃ ib, findTag old.inbounds tag = some ib ∧ op ∈ (oldP ib).removedUsers := by
    rw [removedUsers]
    exact mem_flatMap_tag oldTags fun ib mem => (change ib mem).tagged.2.2.1
  have addedUsersAt {tag : String} {op : UserOp} : (op ∈ d.addedUsers ∧ op.tag = tag) ↔
      ∃ ib, findTag old.inbounds tag = some ib ∧ op ∈ (oldP ib).addedUsers := by
    rw [addedUsers]
    exact mem_flatMap_tag oldTags fun ib mem => (change ib mem).tagged.2.2.2
  refine ⟨oldTags, newTags, ?_, ?_, ?_, ?_, ?_⟩
  · have once := flatMap_tag_nodup oldTags (g := id) (k := id) (fun ib mem => (change ib mem).tagged.1)
      (fun _ _ same => same) fun ib mem => by simpa using (change ib mem).once.1
    simpa [removedTags] using once
  · rw [addedInbounds, List.map_append, List.nodup_append]
    refine ⟨flatMap_tag_nodup oldTags (g := InboundConfig.tag) (fun ib mem => (change ib mem).tagged.2.1) (fun _ _ same => same)
        fun ib mem => (change ib mem).once.2.1,
      flatMap_tag_nodup newTags (g := InboundConfig.tag) freshTagged (fun _ _ same => same) fun ib mem => ?_, ?_⟩
    · rw [fresh ib mem]
      simp only
      split <;> simp
    · rintro tag before _ after rfl
      obtain ⟨n, here, rfl⟩ := List.mem_map.mp before
      obtain ⟨n', there, same⟩ := List.mem_map.mp after
      obtain ⟨ib, found, _⟩ := (mem_flatMap_tag oldTags (g := InboundConfig.tag) fun ib mem => (change ib mem).tagged.2.1).mp ⟨here, rfl⟩
      obtain ⟨ib', found', here'⟩ := (mem_flatMap_tag newTags (g := InboundConfig.tag) freshTagged).mp ⟨there, same⟩
      obtain ⟨mem', tag'⟩ := findTag_mem found'
      rw [fresh ib' mem', tag', found] at here'
      simp at here'
  · exact removedUsers ▸ flatMap_tag_nodup oldTags (g := UserOp.tag) (fun ib mem => (change ib mem).tagged.2.2.1)
      (fun _ _ same => congrArg Prod.fst same) fun ib mem => (change ib mem).once.2.2.1
  · exact addedUsers ▸ flatMap_tag_nodup oldTags (g := UserOp.tag) (fun ib mem => (change ib mem).tagged.2.2.2)
      (fun _ _ same => congrArg Prod.fst same) fun ib mem => (change ib mem).once.2.2.2
  · intro tag
    cases oldFound : findTag old.inbounds tag with
    | none =>
        refine .rebuilt ?_ ?_ ⟨fun op mem same => ?_, fun op mem same => ?_⟩ (by simp [oldFound])
        · simp [removedAt, oldFound]
        · intro n
          rw [addedAt]
          simp only [oldFound, reduceCtorEq, false_and, exists_false, false_or]
          constructor
          · rintro ⟨ib, found, here⟩
            obtain ⟨mem, tag'⟩ := findTag_mem found
            rw [fresh ib mem, tag', oldFound] at here
            rw [List.mem_singleton.mp here]
            exact found
          · intro found
            obtain ⟨mem, tag'⟩ := findTag_mem found
            refine ⟨n, found, ?_⟩
            rw [fresh n mem, tag', oldFound]
            exact List.mem_singleton_self n
        · obtain ⟨ib, found, _⟩ := removedUsersAt.mp ⟨mem, same⟩
          rw [oldFound] at found
          cases found
        · obtain ⟨ib, found, _⟩ := addedUsersAt.mp ⟨mem, same⟩
          rw [oldFound] at found
          cases found
    | some o =>
        obtain ⟨mem, rfl⟩ := findTag_mem oldFound
        have own {β : Type} {x : β} {f : HotDiff → List β} :
            (∃ ib, findTag old.inbounds o.tag = some ib ∧ x ∈ f (oldP ib)) ↔ x ∈ f (oldP o) := by
          simp [oldFound]
        -- No inbound of the new config is added as a new one under a tag the old config has.
        have old : ∀ n, ¬∃ ib, findTag new.inbounds o.tag = some ib ∧ n ∈ (newP ib).addedInbounds := by
          rintro n ⟨ib, found, here⟩
          obtain ⟨mem', tag'⟩ := findTag_mem found
          rw [fresh ib mem', tag', oldFound] at here
          cases here
        have kind := change o mem
        generalize oldP o = piece at kind own
        cases kind with
        | users n found frame protocol only =>
            refine .kept o n ⟨oldFound, found, frame, only, ?_, ?_, ?_, ?_⟩
            · rw [removedAt, own]
              simp [usersPiece, HotDiff.none]
            · intro ib there same
              have := addedAt.mp ⟨there, same⟩
              rw [own, or_iff_left (old ib)] at this
              cases this
            · intro op
              rw [removedUsersAt, own]
              simp [usersPiece, eq_comm, protocol]
            · intro op
              rw [addedUsersAt, own]
              simp [usersPiece, eq_comm, protocol]
        | replaced n found apart =>
            refine .rebuilt ?_ ?_ ⟨fun op mem same => ?_, fun op mem same => ?_⟩ (by simp [oldFound, found, apart])
            · rw [removedAt, own]
              simp [oldFound]
            · intro ib
              rw [addedAt, own, or_iff_left (old ib), found]
              simp [eq_comm]
            · have := removedUsersAt.mp ⟨mem, same⟩
              rw [own] at this
              cases this
            · have := addedUsersAt.mp ⟨mem, same⟩
              rw [own] at this
              cases this
        | gone found =>
            refine .rebuilt ?_ ?_ ⟨fun op mem same => ?_, fun op mem same => ?_⟩ (by simp [found])
            · rw [removedAt, own]
              simp [oldFound]
            · intro ib
              rw [addedAt, own, or_iff_left (old ib), found]
              simp [HotDiff.none]
            · have := removedUsersAt.mp ⟨mem, same⟩
              rw [own] at this
              cases this
            · have := addedUsersAt.mp ⟨mem, same⟩
              rw [own] at this
              cases this

end ThreeXNode.Xray
