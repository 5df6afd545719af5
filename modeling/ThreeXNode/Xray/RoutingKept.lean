import ThreeXNode.Xray.RoutingSaved

namespace ThreeXNode.Xray
open Library

section
variable {groups : List DnsAllowPortGroup} {γ : Type*} {test : String → Json → γ → Bool}

/-! ## Renaming an inbound -/

theorem renaming_rewrites (oldTag newTag : String) :
    Rewrites fun rule => some (replaceInboundTagInRule oldTag newTag rule).1 where
  rest := by
    intro rule new image
    cases image
    unfold replaceInboundTagInRule
    dsimp only
    split
    · exact writeInboundTags_rest rule _
    · exact fun _ _ => rfl
  plain := by
    intro rule unnamed
    simp [replaceInboundTagInRule, unnamed]
  dropped := fun _ image => by cases image

theorem replaceInboundTagInRule_tags {oldTag newTag : String} (nonempty : newTag ≠ "") (rule : Rule) :
    Rule.inboundTags (replaceInboundTagInRule oldTag newTag rule).1 = rule.inboundTags.map (renamed oldTag newTag) := by
  unfold replaceInboundTagInRule
  dsimp only
  split
  · apply inboundTags_write
    intro tag mem
    obtain ⟨old, there, rfl⟩ := List.mem_map.mp mem
    unfold renamed
    split
    · exact nonempty
    · exact readInboundTags_nonempty _ old there
  · rename_i absent
    symm
    have same : ∀ tag ∈ rule.inboundTags, renamed oldTag newTag tag = tag := by
      intro tag mem
      unfold renamed
      rw [if_neg]
      rintro rfl
      exact absent mem
    rw [List.map_congr_left same, List.map_id']

theorem matchesRule_renamed {oldTag newTag : String} (nonempty : newTag ≠ "") {rule : Rule}
    (unused : newTag ∉ rule.inboundTags) {connection : Connection γ} (elsewhere : connection.inbound ≠ newTag) :
    matchesRule test { connection with inbound := renamed oldTag newTag connection.inbound }
      (replaceInboundTagInRule oldTag newTag rule).1 = matchesRule test connection rule := by
  have rest := (renaming_rewrites oldTag newTag).rest rule _ rfl
  have mem : renamed oldTag newTag connection.inbound ∈ rule.inboundTags.map (renamed oldTag newTag) ↔
      connection.inbound ∈ rule.inboundTags := by
    rw [List.mem_map]
    constructor
    · rintro ⟨tag, there, same⟩
      have apart : tag ≠ newTag := fun eq => unused (eq ▸ there)
      unfold renamed at same
      split at same <;> split at same
      · rename_i left right
        rw [right, ← left]
        exact there
      · exact absurd same.symm elsewhere
      · exact absurd same apart
      · exact same ▸ there
    · intro there
      exact ⟨_, there, rfl⟩
  have inbound : matchesInbound (replaceInboundTagInRule oldTag newTag rule).1 (renamed oldTag newTag connection.inbound) =
      matchesInbound rule connection.inbound := by
    unfold matchesInbound
    rw [replaceInboundTagInRule_tags nonempty, Bool.eq_iff_iff, Bool.or_eq_true, Bool.or_eq_true,
      List.contains_iff_mem, List.contains_iff_mem, mem, List.isEmpty_map]
  unfold matchesRule
  rw [rest.matchesRest, inbound]

theorem isApiRule_renamed {oldTag newTag : String} (nonempty : newTag ≠ "") (rule : Rule) :
    isApiRule (replaceInboundTagInRule oldTag newTag rule).1 =
      (Fields.text rule "outboundTag" == "api" && (rule.inboundTags.map (renamed oldTag newTag)).contains "api") := by
  have rest := (renaming_rewrites oldTag newTag).rest rule _ rfl
  rw [isApiRule_tags, replaceInboundTagInRule_tags nonempty, rest.text (by decide)]

theorem decision_renamed {oldTag newTag : String} (nonempty : newTag ≠ "") (differ : oldTag ≠ newTag) {rules : List Rule}
    (saved : Saved groups rules) (unused : ∀ rule ∈ rules, newTag ∉ rule.inboundTags) {connection : Connection γ}
    (elsewhere : connection.inbound ≠ newTag) :
    decision test (rebuildDnsAllowRules groups (ensureStatsRouting (replaceInboundTagInRules oldTag newTag rules).1))
      { connection with inbound := renamed oldTag newTag connection.inbound } = decision test rules connection := by
  have rewrites := renaming_rewrites oldTag newTag
  have mapped : (replaceInboundTagInRules oldTag newTag rules).1 =
      rules.filterMap fun rule => some (replaceInboundTagInRule oldTag newTag rule).1 := by
    rw [List.filterMap_eq_map']
    rfl
  have stays : decision test (rules.filterMap (settled groups fun rule => some (replaceInboundTagInRule oldTag newTag rule).1))
      { connection with inbound := renamed oldTag newTag connection.inbound } = decision test rules connection := by
    apply decision_filterMap
    · intro rule mem gone
      obtain ⟨untagged, tagged, -⟩ := settled_none rewrites rfl gone
      rw [replaceInboundTagInRule_tags nonempty, List.map_eq_nil_iff] at untagged
      exact absurd untagged tagged
    · intro rule mem new out
      obtain ⟨image, -⟩ := Option.filter_eq_some_iff.mp out
      cases image
      exact ⟨matchesRule_renamed nonempty (unused rule mem) elsewhere, (rewrites.rest rule _ rfl).target⟩
  rw [mapped]
  by_cases own : oldTag = "api"
  · -- No rule names the api inbound any more, and the save adds one that only `api` matches.
    have lost : ∀ rule ∈ rules, ∀ new, some (replaceInboundTagInRule oldTag newTag rule).1 = some new →
        isApiRule new = false := by
      intro rule mem new image
      cases image
      have absent : "api" ∉ rule.inboundTags.map (renamed oldTag newTag) := by
        intro there
        obtain ⟨tag, -, same⟩ := List.mem_map.mp there
        unfold renamed at same
        split at same
        · exact differ (own.trans same.symm)
        · rename_i other
          exact other (same.trans own.symm)
      rw [isApiRule_renamed nonempty, List.contains_eq_mem, decide_eq_false absent, Bool.and_false]
    have outside : renamed oldTag newTag connection.inbound ≠ "api" := by
      unfold renamed
      split
      · exact fun same => differ (own.trans same.symm)
      · rename_i other
        exact fun same => other (same.trans own.symm)
    rw [saved_without_api rewrites saved lost, decision_api outside, stays]
  · have kept : ∀ rule ∈ rules, isApiRule rule = true →
        ∃ new, some (replaceInboundTagInRule oldTag newTag rule).1 = some new ∧ isApiRule new = true := by
      intro rule mem api
      refine ⟨_, rfl, ?_⟩
      rw [isApiRule_tags, Bool.and_eq_true, List.contains_iff_mem] at api
      rw [isApiRule_renamed nonempty, api.1, Bool.true_and, List.contains_iff_mem, List.mem_map]
      exact ⟨"api", api.2, if_neg (Ne.symm own)⟩
    rw [saved_rewritten rewrites saved kept, stays]

/-! ## Deleting an inbound -/

theorem deletion_rewrites (deletedTag : String) : Rewrites (withoutInboundTag deletedTag) where
  rest := by
    intro rule new image
    unfold withoutInboundTag at image
    dsimp only at image
    split at image
    · cases image
      exact fun _ _ => rfl
    · split at image
      · cases image
      · split at image
        · cases image
          exact writeInboundTags_rest rule []
        · cases image
          exact writeInboundTags_rest rule _
  plain := by
    intro rule unnamed
    simp [withoutInboundTag, unnamed]
  dropped := by
    intro rule gone
    unfold withoutInboundTag at gone
    dsimp only at gone
    split at gone
    · cases gone
    · split at gone
      · rename_i alone
        simpa using (Bool.and_eq_true_iff.mp alone).2
      · split at gone <;> cases gone

theorem withoutInboundTag_tags {deletedTag : String} {rule new : Rule} (image : withoutInboundTag deletedTag rule = some new) :
    new.inboundTags = rule.inboundTags.filter (· ≠ deletedTag) := by
  unfold withoutInboundTag at image
  dsimp only at image
  split at image
  · rename_i absent
    cases image
    symm
    rw [List.filter_eq_self]
    intro tag mem
    simpa using fun same : tag = deletedTag => absent (same ▸ mem)
  · split at image
    · cases image
    · split at image
      · rename_i alone
        cases image
        have nothing := List.isEmpty_iff.mp alone
        rw [nothing]
        exact @inboundTags_write rule [] (by simp)
      · cases image
        apply inboundTags_write
        intro tag mem
        exact readInboundTags_nonempty _ tag (List.mem_of_mem_filter mem)

/-- The rule names the deleted inbound and no other. -/
def NamesOnly (deletedTag : String) (rule : Rule) : Prop :=
  rule.inboundTags ≠ [] ∧ ∀ tag ∈ rule.inboundTags, tag = deletedTag

theorem NamesOnly.elsewhere {deletedTag : String} {rule : Rule} (only : NamesOnly deletedTag rule)
    {connection : Connection γ} (other : connection.inbound ≠ deletedTag) : matchesRule test connection rule = false := by
  have outside : connection.inbound ∉ rule.inboundTags := fun mem => other (only.2 _ mem)
  have inbound : matchesInbound rule connection.inbound = false := by
    unfold matchesInbound
    rw [List.contains_eq_mem, decide_eq_false outside, Bool.or_false]
    simpa using only.1
  unfold matchesRule
  rw [inbound, Bool.false_and]

theorem withoutInboundTag_none {deletedTag : String} {rule : Rule} (gone : withoutInboundTag deletedTag rule = none) :
    NamesOnly deletedTag rule := by
  unfold withoutInboundTag at gone
  dsimp only at gone
  split at gone
  · cases gone
  · rename_i named
    split at gone
    · rename_i alone
      have nothing := List.isEmpty_iff.mp (Bool.and_eq_true_iff.mp alone).1
      rw [List.filter_eq_nil_iff] at nothing
      exact ⟨List.ne_nil_of_mem (not_not.mp named), fun tag mem => by simpa using nothing tag mem⟩
    · split at gone <;> cases gone

theorem matchesRule_without {deletedTag : String} {rule new : Rule} (image : withoutInboundTag deletedTag rule = some new)
    {connection : Connection γ} (other : connection.inbound ≠ deletedTag)
    (narrow : NamesOnly deletedTag rule → matchesRest test rule connection.rest = false) :
    matchesRule test connection new = matchesRule test connection rule := by
  have rest := (deletion_rewrites deletedTag).rest rule new image
  have tags := withoutInboundTag_tags image
  by_cases only : NamesOnly deletedTag rule
  · rw [only.elsewhere other]
    unfold matchesRule
    rw [rest.matchesRest, narrow only, Bool.and_false]
  · have inbound : matchesInbound new connection.inbound = matchesInbound rule connection.inbound := by
      unfold matchesInbound
      rw [tags, Bool.eq_iff_iff, Bool.or_eq_true, Bool.or_eq_true, List.contains_iff_mem, List.contains_iff_mem,
        List.isEmpty_iff, List.isEmpty_iff, List.mem_filter]
      have emptied : rule.inboundTags.filter (· ≠ deletedTag) = [] ↔ rule.inboundTags = [] := by
        constructor
        · intro nothing
          by_contra named
          rw [List.filter_eq_nil_iff] at nothing
          exact only ⟨named, fun tag mem => by simpa using nothing tag mem⟩
        · intro nothing
          rw [nothing]
          rfl
      rw [emptied]
      simp [other]
    unfold matchesRule
    rw [rest.matchesRest, inbound]

theorem decision_without {deletedTag : String} {rules : List Rule} (saved : Saved groups rules) {connection : Connection γ}
    (other : connection.inbound ≠ deletedTag)
    (narrow : ∀ rule ∈ rules, NamesOnly deletedTag rule → ruleHasNonInboundMatchers rule = true →
      matchesRest test rule connection.rest = false) :
    decision test (rebuildDnsAllowRules groups (ensureStatsRouting (rules.filterMap (withoutInboundTag deletedTag))))
      connection = decision test rules connection := by
  have rewrites := deletion_rewrites deletedTag
  have stays : decision test (rules.filterMap (settled groups (withoutInboundTag deletedTag))) connection =
      decision test rules connection := by
    apply decision_filterMap
    · intro rule mem gone
      cases image : withoutInboundTag deletedTag rule with
      | none => exact (withoutInboundTag_none image).elsewhere other
      | some new =>
          obtain ⟨untagged, tagged, -⟩ := settled_none rewrites image gone
          rw [withoutInboundTag_tags image, List.filter_eq_nil_iff] at untagged
          have only : NamesOnly deletedTag rule := ⟨tagged, fun tag mem => by simpa using untagged tag mem⟩
          exact only.elsewhere other
    · intro rule mem new out
      obtain ⟨image, -⟩ := Option.filter_eq_some_iff.mp out
      refine ⟨matchesRule_without image other fun only => ?_, (rewrites.rest rule new image).target⟩
      -- A rule that named the deleted inbound alone and is still there has another matcher.
      apply narrow rule mem only
      by_contra plain
      rw [Bool.not_eq_true] at plain
      have emptied : rule.inboundTags.filter (· ≠ deletedTag) = [] := by
        rw [List.filter_eq_nil_iff]
        intro tag there
        simpa using only.2 tag there
      obtain ⟨tag, there⟩ := List.exists_mem_of_ne_nil _ only.1
      have named : deletedTag ∈ rule.inboundTags := only.2 tag there ▸ there
      simp only [withoutInboundTag, emptied, plain, named, not_true_eq_false, List.isEmpty_nil, Bool.not_false,
        Bool.and_self, ↓reduceIte] at image
      cases image
  by_cases own : deletedTag = "api"
  · have lost : ∀ rule ∈ rules, ∀ new, withoutInboundTag deletedTag rule = some new → isApiRule new = false := by
      intro rule mem new image
      have absent : "api" ∉ new.inboundTags := by
        rw [withoutInboundTag_tags image]
        simp [own]
      rw [isApiRule_tags, List.contains_eq_mem, decide_eq_false absent, Bool.and_false]
    rw [saved_without_api rewrites saved lost, decision_api (own ▸ other), stays]
  · have kept : ∀ rule ∈ rules, isApiRule rule = true →
        ∃ new, withoutInboundTag deletedTag rule = some new ∧ isApiRule new = true := by
      intro rule mem api
      rw [isApiRule_tags, Bool.and_eq_true, List.contains_iff_mem] at api
      cases image : withoutInboundTag deletedTag rule with
      | none => exact absurd ((withoutInboundTag_none image).2 "api" api.2).symm own
      | some new =>
          refine ⟨new, rfl, ?_⟩
          rw [isApiRule_tags, (rewrites.rest rule new image).text (by decide), withoutInboundTag_tags image, api.1,
            Bool.true_and, List.contains_iff_mem, List.mem_filter]
          exact ⟨api.2, by simpa using Ne.symm own⟩
    rw [saved_rewritten rewrites saved kept, stays]

end

/-! ## Loopback outbounds -/

def loopbackTarget (out : Json) : Option String := (loopback out).map (·.2.2)

theorem loopback_put {out : Json} {fields settings : Fields} {tag : String} (found : loopback out = some (fields, settings, tag))
    (new : Fields) : loopbackTarget (.ofFields (fields.insert "settings" (.ofFields new))) = some (new.text "inboundTag") := by
  unfold loopback at found
  obtain ⟨o, read, found⟩ := Option.bind_eq_some_iff.mp found
  split at found
  · rename_i protocol
    obtain ⟨inner, -, same⟩ := Option.bind_eq_some_iff.mp found
    cases same
    unfold loopbackTarget loopback
    rw [Json.asFields_ofFields]
    simp [Fields.text_insert_of_ne, protocol]
  · cases found

theorem loopbackTarget_replaced (oldTag newTag : String) (out : Json) :
    loopbackTarget (replaceInboundTagInOutbound oldTag newTag out).1 = (loopbackTarget out).map (renamed oldTag newTag) := by
  unfold replaceInboundTagInOutbound
  cases found : loopback out with
  | none => simp [loopbackTarget, found]
  | some parts =>
      obtain ⟨fields, settings, tag⟩ := parts
      have own : loopbackTarget out = some tag := by simp [loopbackTarget, found]
      rw [own]
      dsimp only
      split
      · rename_i same
        rw [loopback_put found, Fields.text_insert_self]
        simp [renamed, same]
      · rename_i other
        rw [own]
        simp [renamed, other]

theorem loopbackTarget_removed (deletedTag : String) (out : Json) :
    loopbackTarget (removeInboundTagFromOutbound deletedTag out).1 =
      (loopbackTarget out).map fun tag => if tag = deletedTag then "" else tag := by
  unfold removeInboundTagFromOutbound
  cases found : loopback out with
  | none => simp [loopbackTarget, found]
  | some parts =>
      obtain ⟨fields, settings, tag⟩ := parts
      have own : loopbackTarget out = some tag := by simp [loopbackTarget, found]
      rw [own]
      dsimp only
      split
      · rename_i same
        rw [loopback_put found]
        simp [same, Fields.text]
      · rename_i other
        rw [own]
        simp [other]

/-! ## The two calls -/

section
variable {check : Template → Except String Unit} {groups : Json → List DnsAllowPortGroup} {t new : Template} {changed : Bool}

theorem saveXraySetting_parts (h : saveXraySetting check groups t = .ok new) : new.outbounds = t.outbounds ∧
    new.rules = rebuildDnsAllowRules (groups t.dns) (ensureStatsRouting t.rules) := by
  unfold saveXraySetting at h
  rw [Except.bind_eq_ok] at h
  obtain ⟨_, -, h⟩ := h
  cases h
  exact ⟨rfl, rfl⟩

theorem map_unchanged {α : Type*} {f : α → α × Bool} (same : ∀ a, (f a).2 = false → (f a).1 = a) {l : List α}
    (still : l.any (fun a => (f a).2) = false) : l.map (fun a => (f a).1) = l := by
  conv_rhs => rw [← List.map_id l]
  apply List.map_congr_left
  intro a mem
  exact same a (by simpa using List.any_eq_false.mp still a mem)

theorem propagate_parts {oldTag newTag : String} (old : oldTag ≠ "") (nonempty : newTag ≠ "") (differ : oldTag ≠ newTag)
    (h : propagateInboundTagRename check groups oldTag newTag t = .ok (new, changed)) :
    new.outbounds = t.outbounds.map (fun out => (replaceInboundTagInOutbound oldTag newTag out).1) ∧
      (new.rules = (replaceInboundTagInRules oldTag newTag t.rules).1 ∨ new.rules = rebuildDnsAllowRules (groups t.dns)
        (ensureStatsRouting (replaceInboundTagInRules oldTag newTag t.rules).1)) := by
  unfold propagateInboundTagRename at h
  rw [if_neg (by simp [old, nonempty, differ])] at h
  dsimp only at h
  split at h
  · rw [Except.bind_eq_ok] at h
    obtain ⟨stored, saved, h⟩ := h
    simp only [pure, Except.pure, Except.ok.injEq, Prod.mk.injEq] at h
    obtain ⟨outbounds, rules⟩ := saveXraySetting_parts saved
    rw [← h.1]
    refine ⟨?_, .inr rules⟩
    rw [outbounds, List.map_map]
    rfl
  · rename_i still
    simp only [Except.ok.injEq, Prod.mk.injEq] at h
    rw [Bool.or_eq_true, not_or, Bool.not_eq_true, Bool.not_eq_true, List.any_map] at still
    rw [← h.1]
    constructor
    · symm
      refine map_unchanged (fun out => ?_) still.2
      unfold replaceInboundTagInOutbound
      split
      · split <;> simp
      · simp
    · left
      symm
      refine map_unchanged (fun rule => ?_) still.1
      unfold replaceInboundTagInRule
      dsimp only
      split <;> simp

theorem remove_parts {deletedTag : String} (nonempty : deletedTag ≠ "")
    (h : removeInboundTagReferences check groups deletedTag t = .ok (new, changed)) :
    new.outbounds = t.outbounds.map (fun out => (removeInboundTagFromOutbound deletedTag out).1) ∧
      (new.rules = t.rules ∨ new.rules = rebuildDnsAllowRules (groups t.dns)
        (ensureStatsRouting (t.rules.filterMap (withoutInboundTag deletedTag)))) := by
  unfold removeInboundTagReferences removeInboundTagFromRules at h
  rw [if_neg nonempty, if_neg nonempty] at h
  dsimp only at h
  split at h
  · rw [Except.bind_eq_ok] at h
    obtain ⟨stored, saved, h⟩ := h
    simp only [pure, Except.pure, Except.ok.injEq, Prod.mk.injEq] at h
    obtain ⟨outbounds, rules⟩ := saveXraySetting_parts saved
    rw [← h.1]
    refine ⟨?_, .inr rules⟩
    rw [outbounds, List.map_map]
    rfl
  · rename_i still
    simp only [Except.ok.injEq, Prod.mk.injEq] at h
    rw [Bool.or_eq_true, not_or, Bool.not_eq_true, Bool.not_eq_true, List.any_map] at still
    rw [← h.1]
    refine ⟨?_, .inl rfl⟩
    symm
    refine map_unchanged (fun out => ?_) still.2
    unfold removeInboundTagFromOutbound
    split
    · split <;> simp
    · simp

end

theorem decision_replaced {γ : Type*} {test : String → Json → γ → Bool} {oldTag newTag : String} (nonempty : newTag ≠ "")
    {rules : List Rule} (unused : ∀ rule ∈ rules, newTag ∉ rule.inboundTags) {connection : Connection γ}
    (elsewhere : connection.inbound ≠ newTag) :
    decision test (replaceInboundTagInRules oldTag newTag rules).1
      { connection with inbound := renamed oldTag newTag connection.inbound } = decision test rules connection := by
  have mapped : (replaceInboundTagInRules oldTag newTag rules).1 =
      rules.filterMap fun rule => some (replaceInboundTagInRule oldTag newTag rule).1 := by
    rw [List.filterMap_eq_map']
    rfl
  rw [mapped]
  apply decision_filterMap
  · intro rule mem gone
    cases gone
  · intro rule mem new image
    cases image
    exact ⟨matchesRule_renamed nonempty (unused rule mem) elsewhere, ((renaming_rewrites oldTag newTag).rest rule _ rfl).target⟩

/-- In a saved template a rename moves every decision to the new tag, and a deletion keeps the decisions for the
other inbounds but those that a rule for the deleted inbound alone would match without it. -/
theorem references_kept {γ : Type*} {test : String → Json → γ → Bool} {check : Template → Except String Unit}
    {groups : Json → List DnsAllowPortGroup} {t : Template} (saved : Saved (groups t.dns) t.rules) :
    (∀ (oldTag newTag : String) (new : Template) (changed : Bool), oldTag ≠ "" → newTag ≠ "" →
      (∀ rule ∈ t.rules, newTag ∉ rule.inboundTags) →
      propagateInboundTagRename check groups oldTag newTag t = .ok (new, changed) →
        (∀ connection : Connection γ, connection.inbound ≠ newTag →
          decision test new.rules { connection with inbound := renamed oldTag newTag connection.inbound } =
            decision test t.rules connection) ∧
        new.outbounds.map loopbackTarget = t.outbounds.map fun out => (loopbackTarget out).map (renamed oldTag newTag)) ∧
    ∀ (deletedTag : String) (new : Template) (changed : Bool),
      removeInboundTagReferences check groups deletedTag t = .ok (new, changed) →
        (∀ connection : Connection γ, connection.inbound ≠ deletedTag →
          (∀ rule ∈ t.rules, NamesOnly deletedTag rule → ruleHasNonInboundMatchers rule = true →
            matchesRest test rule connection.rest = false) →
          decision test new.rules connection = decision test t.rules connection) ∧
        new.outbounds.map loopbackTarget = t.outbounds.map fun out =>
          (loopbackTarget out).map fun tag => if tag = deletedTag then "" else tag := by
  constructor
  · intro oldTag newTag new changed old nonempty unused h
    by_cases same : oldTag = newTag
    · have still : renamed oldTag newTag = id := by
        funext tag
        unfold renamed
        split
        · rename_i hit
          exact same.symm.trans hit.symm
        · rfl
      unfold propagateInboundTagRename at h
      rw [if_pos (.inr (.inr same))] at h
      cases h
      simp [still]
    · obtain ⟨outbounds, rules⟩ := propagate_parts old nonempty same h
      constructor
      · intro connection elsewhere
        rcases rules with kept | stored
        · rw [kept]
          exact decision_replaced nonempty unused elsewhere
        · rw [stored]
          exact decision_renamed nonempty same saved unused elsewhere
      · rw [outbounds, List.map_map]
        exact List.map_congr_left fun out _ => loopbackTarget_replaced oldTag newTag out
  · intro deletedTag new changed h
    by_cases nonempty : deletedTag = ""
    · unfold removeInboundTagReferences at h
      rw [if_pos nonempty] at h
      cases h
      refine ⟨fun _ _ _ => rfl, ?_⟩
      apply List.map_congr_left
      intro out _
      cases loopbackTarget out with
      | none => rfl
      | some tag =>
          rw [Option.map_some]
          split
          · rename_i blank
            rw [blank, nonempty]
          · rfl
    · obtain ⟨outbounds, rules⟩ := remove_parts nonempty h
      constructor
      · intro connection other narrow
        rcases rules with kept | stored
        · rw [kept]
        · rw [stored]
          exact decision_without saved other narrow
      · rw [outbounds, List.map_map]
        exact List.map_congr_left fun out _ => loopbackTarget_removed deletedTag out

/-! ## A template with a rule for two inbounds -/

def tagged (tags : List String) (outbound : String) : Rule :=
  .ofList [("type", Json.str "field"), ("inboundTag", Json.arr (tags.map .str)), ("outboundTag", Json.str outbound)]

def plainTemplate (rules : List Rule) : Template where
  rules
  outbounds := [.obj [("protocol", .str "loopback"), ("settings", .obj [("inboundTag", .str "in-1")])]]
  dns := .null

def through : String → Json → Unit → Bool := fun _ _ _ => true

def accept : Template → Except String Unit := fun _ => .ok ()

def noGroups : Json → List DnsAllowPortGroup := fun _ => []

def twoInbounds : Template := plainTemplate [apiRule, tagged ["in-1", "in-2"] "direct"]

theorem ran_of_changed {result : Except String (Template × Bool)} (changed : result.toOption.map (·.2) = some true) :
    ∃ new, result = .ok (new, true) := by
  cases result with
  | error e => cases changed
  | ok r =>
      obtain ⟨new, flag⟩ := r
      cases changed
      exact ⟨new, rfl⟩

theorem references_kept_two : ∃ new removed : Template,
    propagateInboundTagRename accept noGroups "in-1" "in-3" twoInbounds = .ok (new, true) ∧
    removeInboundTagReferences accept noGroups "in-1" twoInbounds = .ok (removed, true) ∧
    decision through new.rules ⟨"in-3", ()⟩ = decision through twoInbounds.rules ⟨"in-1", ()⟩ ∧
    decision through removed.rules ⟨"in-2", ()⟩ = decision through twoInbounds.rules ⟨"in-2", ()⟩ := by
  have saved : Saved (noGroups twoInbounds.dns) twoInbounds.rules := by
    unfold Saved
    decide +kernel
  obtain ⟨new, rename⟩ := @ran_of_changed (propagateInboundTagRename accept noGroups "in-1" "in-3" twoInbounds)
    (by decide +kernel)
  obtain ⟨removed, remove⟩ := @ran_of_changed (removeInboundTagReferences accept noGroups "in-1" twoInbounds)
    (by decide +kernel)
  have kept := @references_kept _ through accept noGroups twoInbounds saved
  have unused : ∀ rule ∈ twoInbounds.rules, "in-3" ∉ rule.inboundTags := by decide +kernel
  refine ⟨new, removed, rename, remove, ?_, ?_⟩
  · exact (kept.1 "in-1" "in-3" new true (by decide) (by decide) unused rename).1 ⟨"in-1", ()⟩ (by decide)
  · refine (kept.2 "in-1" removed true remove).1 ⟨"in-2", ()⟩ (by decide) ?_
    intro rule mem only
    have two : ∀ rule ∈ twoInbounds.rules, ∃ tag ∈ rule.inboundTags, tag ≠ "in-1" := by decide +kernel
    obtain ⟨tag, there, other⟩ := two rule mem
    exact absurd (only.2 tag there) other

/-- A rule for the deleted inbound and one domain then holds for that domain everywhere, a loopback outbound loses
its target, a save puts the api rule in front, and a connection of an inbound that has the new tag already is matched. -/
theorem references_moved :
    (decision through [apiRule, (tagged ["in-1"] "direct").insert "domain" (.arr [.str "example.com"])] ⟨"in-2", ()⟩ = none ∧
      (removeInboundTagReferences accept noGroups "in-1"
        (plainTemplate [apiRule, (tagged ["in-1"] "direct").insert "domain" (.arr [.str "example.com"])])).toOption.map
          (fun r => (decision through r.1.rules ⟨"in-2", ()⟩, r.1.outbounds.map loopbackTarget)) =
        some (some (some (.str "direct"), none), [some ""])) ∧
    (decision through [tagged [] "proxy", tagged ["in-1"] "direct"] ⟨"api", ()⟩ = some (some (.str "proxy"), none) ∧
      (propagateInboundTagRename accept noGroups "in-1" "in-2"
        (plainTemplate [tagged [] "proxy", tagged ["in-1"] "direct"])).toOption.map
          (fun r => decision through r.1.rules ⟨"api", ()⟩) = some (some (some (.str "api"), none))) ∧
    (decision through [apiRule, tagged ["in-1"] "direct"] ⟨"in-2", ()⟩ = none ∧
      (propagateInboundTagRename accept noGroups "in-1" "in-2"
        (plainTemplate [apiRule, tagged ["in-1"] "direct"])).toOption.map
          (fun r => decision through r.1.rules ⟨"in-2", ()⟩) = some (some (some (.str "direct"), none))) := by
  decide +kernel

end ThreeXNode.Xray
