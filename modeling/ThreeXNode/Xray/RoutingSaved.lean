import ThreeXNode.Xray.RoutingSync
import ThreeXNode.Library.Fold

namespace ThreeXNode.Xray
open Library

/-! ## The first rule that matches -/

/-- What a rule is matched against: the inbound, and all that the other matchers look at. -/
structure Connection (γ : Type*) where
  inbound : String
  rest : γ

section
variable {γ : Type*} (test : String → Json → γ → Bool)

/-- Every matcher but the inbound tags that the rule has a value for lets the connection through. -/
def matchesRest (rule : Rule) (rest : γ) : Bool :=
  routingMatcherKeys.all fun key => !hasRoutingMatcherValue rule[key]? || test key (rule[key]?.getD .null) rest

def matchesInbound (rule : Rule) (tag : String) : Bool := rule.inboundTags.isEmpty || rule.inboundTags.contains tag

def matchesRule (connection : Connection γ) (rule : Rule) : Bool :=
  matchesInbound rule connection.inbound && matchesRest test rule connection.rest

def target (rule : Rule) : Option Json × Option Json := (rule["outboundTag"]?, rule["balancerTag"]?)

def decision (rules : List Rule) (connection : Connection γ) : Option (Option Json × Option Json) :=
  (rules.find? (matchesRule test connection)).map target

end

/-! ## What the two rewrites leave of a rule -/

def SameRest (rule new : Rule) : Prop := ∀ key : String, key ≠ "inboundTag" → new[key]? = rule[key]?

theorem writeInboundTags_rest (rule : Rule) (tags : List String) : SameRest rule (writeInboundTags rule tags) := by
  intro key other
  unfold writeInboundTags
  split
  · rw [Std.ExtTreeMap.getElem?_erase, if_neg (by simpa using other.symm)]
  · rw [Std.ExtTreeMap.getElem?_insert, if_neg (by simpa using other.symm)]

theorem readInboundTags_nonempty (raw : Option Json) : ∀ tag ∈ readInboundTags raw, tag ≠ "" := by
  have named {item : Json} {tag : String} (read : nonEmptyText item = some tag) : tag ≠ "" := by
    cases item with
    | str s =>
        by_cases blank : s = ""
        · simp [nonEmptyText, blank] at read
        · simp only [nonEmptyText, blank, ↓reduceIte, Option.some.injEq] at read
          exact read ▸ blank
    | null | bool _ | num _ | arr _ | obj _ => cases read
  intro tag mem
  cases raw with
  | none => cases mem
  | some raw =>
      cases raw with
      | str s => exact named (Option.mem_toList.mp mem)
      | arr items =>
          obtain ⟨item, -, read⟩ := List.mem_filterMap.mp mem
          exact named read
      | null | bool _ | num _ | obj _ => cases mem

theorem inboundTags_write {rule : Rule} {tags : List String} (nonempty : ∀ tag ∈ tags, tag ≠ "") :
    Rule.inboundTags (writeInboundTags rule tags) = tags := by
  unfold Rule.inboundTags writeInboundTags
  cases tags with
  | nil => simp [readInboundTags]
  | cons tag tags =>
      rw [if_neg (by simp), Std.ExtTreeMap.getElem?_insert_self]
      have read : ∀ l : List String, (∀ tag ∈ l, tag ≠ "") → (l.map Json.str).filterMap nonEmptyText = l := by
        intro l
        induction l with
        | nil => simp
        | cons first l ih =>
            intro all
            have this := all first List.mem_cons_self
            simp [nonEmptyText, this, ih fun t mem => all t (List.mem_cons_of_mem _ mem)]
      exact read _ nonempty

theorem SameRest.matchesRest {rule new : Rule} (same : SameRest rule new) {γ : Type*} (test : String → Json → γ → Bool)
    (rest : γ) : matchesRest test new rest = matchesRest test rule rest := by
  unfold Xray.matchesRest
  rw [Bool.eq_iff_iff, List.all_eq_true, List.all_eq_true]
  apply forall₂_congr
  intro key mem
  have other : key ≠ "inboundTag" := by
    rintro rfl
    revert mem
    decide
  rw [same key other]

theorem SameRest.target {rule new : Rule} (same : SameRest rule new) : target new = target rule := by
  unfold Xray.target
  rw [same _ (by decide), same _ (by decide)]

theorem SameRest.text {rule new : Rule} (same : SameRest rule new) {key : String} (other : key ≠ "inboundTag") :
    Fields.text new key = Fields.text rule key := by
  unfold Fields.text
  rw [same key other]

/-! ## What saving makes of rewritten rules -/

/-- A rewrite of rules that touches their inbound tags only, and drops no rule with another matcher. -/
structure Rewrites (g : Rule → Option Rule) : Prop where
  rest : ∀ rule new : Rule, g rule = some new → SameRest rule new
  plain : ∀ rule : Rule, rule.inboundTags = [] → g rule = some rule
  dropped : ∀ rule : Rule, g rule = none → ruleHasNonInboundMatchers rule = false

section
variable {groups : List DnsAllowPortGroup}

def insertBefore {α : Type*} (p : α → Bool) (extra : List α) (l : List α) : List α :=
  match l.findIdx? p with
  | none => l
  | some i => l.take i ++ (extra ++ l.drop i)

theorem insertBefore_cons {α : Type*} {p : α → Bool} {extra : List α} (a : α) (l : List α) :
    insertBefore p extra (a :: l) = if p a then extra ++ a :: l else a :: insertBefore p extra l := by
  unfold insertBefore
  rw [List.findIdx?_cons]
  cases p a with
  | true => rfl
  | false => cases List.findIdx? p l <;> rfl

theorem insertBefore_filterMap {α : Type*} {p : α → Bool} {extra : List α} {h : α → Option α} {l : List α}
    (stays : extra.filterMap h = extra) (kept : ∀ a new, h a = some new → p new = p a)
    (dropped : ∀ a ∈ l, h a = none → p a = false) :
    insertBefore p extra (l.filterMap h) = (insertBefore p extra l).filterMap h := by
  induction l with
  | nil => rfl
  | cons a l ih =>
      have rest := ih fun b mem => dropped b (List.mem_cons_of_mem _ mem)
      rw [insertBefore_cons]
      cases image : h a with
      | none =>
          have off := dropped a List.mem_cons_self image
          rw [List.filterMap_cons_none image, if_neg (by simp [off]), List.filterMap_cons_none image, rest]
      | some new =>
          have same := kept a new image
          rw [List.filterMap_cons_some image, insertBefore_cons, same, rest]
          split
          · rw [List.filterMap_append, stays, List.filterMap_cons_some image]
          · rw [List.filterMap_cons_some image]

theorem rebuild_eq (groups : List DnsAllowPortGroup) (rules : List Rule) : rebuildDnsAllowRules groups rules =
    insertBefore isPrivateBlockRule (groups.map dnsAllowRule) (rules.filter fun rule => !managedDnsAllowRule groups rule) := by
  unfold rebuildDnsAllowRules insertBefore
  simp only
  cases List.findIdx? isPrivateBlockRule (rules.filter fun rule => !managedDnsAllowRule groups rule) with
  | none => rfl
  | some i =>
      cases groups with
      | nil => simp
      | cons group groups => rfl

theorem dnsAllowRule_managed (group : DnsAllowPortGroup) : managedDnsAllowRule groups (dnsAllowRule group) = true := by
  have tag : (dnsAllowRule group)["ruleTag"]? = some (.str dnsAllowRuleTag) :=
    Std.ExtTreeMap.getElem?_ofList_of_mem Std.compare_self (by simp) (by simp)
  unfold managedDnsAllowRule Fields.text
  rw [tag]
  rfl

theorem dnsAllowRule_tags (group : DnsAllowPortGroup) : (dnsAllowRule group).inboundTags = [] := by
  have absent : (dnsAllowRule group)["inboundTag"]? = none :=
    Std.ExtTreeMap.getElem?_ofList_of_contains_eq_false (by simp)
  unfold Rule.inboundTags
  rw [absent]
  rfl

theorem shape_untagged {rule : Rule} (shape : dnsAllowRuleShape rule = true) : rule.inboundTags = [] := by
  have absent : rule["inboundTag"]? = none := by
    by_contra present
    obtain ⟨value, found⟩ := Option.ne_none_iff_exists'.mp present
    unfold dnsAllowRuleShape at shape
    have all := (Bool.and_eq_true_iff.mp shape).2
    have entry := List.all_eq_true.mp all ("inboundTag", value) (Std.ExtTreeMap.mem_toList_iff_getElem?_eq_some.mpr found)
    revert entry
    simp
  unfold Rule.inboundTags
  rw [absent]
  rfl

theorem managed_kept {g : Rule → Option Rule} (rewrites : Rewrites g) {rule new : Rule}
    (managed : managedDnsAllowRule groups rule = true) (image : g rule = some new) :
    managedDnsAllowRule groups new = true := by
  have same := rewrites.rest rule new image
  unfold managedDnsAllowRule at managed
  rw [Bool.or_eq_true] at managed
  rcases managed with tagged | shaped
  · unfold managedDnsAllowRule
    rw [same.text (by decide), tagged, Bool.true_or]
  · have shape := (Bool.and_eq_true_iff.mp shaped).1
    rw [rewrites.plain rule (shape_untagged shape)] at image
    cases image
    unfold managedDnsAllowRule
    rw [shaped, Bool.or_true]

theorem block_congr {rule new : Rule} (same : SameRest rule new) : isPrivateBlockRule new = isPrivateBlockRule rule := by
  unfold isPrivateBlockRule
  rw [same.text (by decide), same _ (by decide)]

theorem block_matcher {rule : Rule} (plain : ruleHasNonInboundMatchers rule = false) : isPrivateBlockRule rule = false := by
  have empty : hasRoutingMatcherValue rule["ip"]? = false := by
    have all := List.any_eq_false.mp plain "ip" (by decide)
    simpa using all
  have unread : readRuleIPs rule["ip"]? = [] := by
    cases found : rule["ip"]? with
    | none => rfl
    | some value =>
        rw [found] at empty
        cases value with
        | str s =>
            have blank : s = "" := by simpa [hasRoutingMatcherValue] using empty
            simp [readRuleIPs, nonEmptyText, blank]
        | arr items =>
            have blank : items = [] := by simpa [hasRoutingMatcherValue] using empty
            simp [readRuleIPs, blank]
        | null | bool _ | num _ | obj _ => rfl
  unfold isPrivateBlockRule
  rw [unread, List.any_nil, Bool.and_false]

theorem block_unmanaged {rule : Rule} (direct : Fields.text rule "outboundTag" = "direct") :
    isPrivateBlockRule rule = false := by
  unfold isPrivateBlockRule
  rw [direct]
  rfl

/-- What becomes of a rule when a rewritten template is saved: a rule that now looks like one of the panel's own
is dropped with them. -/
def settled (groups : List DnsAllowPortGroup) (g : Rule → Option Rule) (rule : Rule) : Option Rule :=
  (g rule).filter fun new => managedDnsAllowRule groups rule || !managedDnsAllowRule groups new

theorem settled_none {g : Rule → Option Rule} (rewrites : Rewrites g) {rule new : Rule} (image : g rule = some new)
    (gone : settled groups g rule = none) :
    new.inboundTags = [] ∧ rule.inboundTags ≠ [] ∧ Fields.text rule "outboundTag" = "direct" := by
  have same := rewrites.rest rule new image
  unfold settled at gone
  rw [image, Option.filter_eq_none_iff] at gone
  have taken := gone new rfl
  rw [Bool.or_eq_true, not_or, Bool.not_eq_true, Bool.not_eq_true', Bool.not_eq_false] at taken
  obtain ⟨unmanaged, managed⟩ := taken
  have changed : rule.inboundTags ≠ [] := by
    intro plain
    rw [rewrites.plain rule plain, Option.some.injEq] at image
    rw [image, managed] at unmanaged
    cases unmanaged
  unfold managedDnsAllowRule at managed unmanaged
  rw [Bool.or_eq_false_iff] at unmanaged
  rw [same.text (by decide), unmanaged.1, Bool.false_or, Bool.and_eq_true] at managed
  refine ⟨shape_untagged managed.1, changed, ?_⟩
  have shape := managed.1
  simp only [dnsAllowRuleShape, Bool.and_eq_true, beq_iff_eq] at shape
  rw [← same.text (by decide)]
  exact shape.1.1.1.2

theorem rebuild_rewritten {g : Rule → Option Rule} (rewrites : Rewrites g) (rules : List Rule) :
    rebuildDnsAllowRules groups (rules.filterMap g) = (rebuildDnsAllowRules groups rules).filterMap (settled groups g) := by
  have clean : (rules.filterMap g).filter (fun rule => !managedDnsAllowRule groups rule) =
      (rules.filter fun rule => !managedDnsAllowRule groups rule).filterMap (settled groups g) := by
    rw [List.filter_filterMap, List.filterMap_filter]
    apply List.filterMap_congr
    intro rule _
    cases managed : managedDnsAllowRule groups rule with
    | true =>
        cases image : g rule with
        | none => rfl
        | some new => simp [managed_kept rewrites managed image]
    | false => simp [settled, managed]
  have own : (groups.map dnsAllowRule).filterMap (settled groups g) = groups.map dnsAllowRule := by
    have each : ∀ rule ∈ groups.map dnsAllowRule, settled groups g rule = some rule := by
      intro rule mem
      obtain ⟨group, -, rfl⟩ := List.mem_map.mp mem
      unfold settled
      rw [rewrites.plain _ (dnsAllowRule_tags group), dnsAllowRule_managed]
      rfl
    rw [List.filterMap_congr each, List.filterMap_some]
  rw [rebuild_eq, rebuild_eq, clean]
  apply insertBefore_filterMap own
  · intro rule new image
    obtain ⟨image, -⟩ := Option.filter_eq_some_iff.mp image
    exact block_congr (rewrites.rest rule new image)
  · intro rule mem image
    cases rewritten : g rule with
    | none => exact block_matcher (rewrites.dropped rule rewritten)
    | some new => exact block_unmanaged (settled_none rewrites rewritten image).2.2

theorem isApiRule_tags (rule : Rule) :
    isApiRule rule = (Fields.text rule "outboundTag" == "api" && rule.inboundTags.contains "api") := by
  unfold isApiRule Rule.inboundTags
  congr 1
  cases rule["inboundTag"]? with
  | none => rfl
  | some value =>
      cases value with
      | str s =>
          by_cases blank : s = ""
          · subst blank
            rfl
          · rw [Bool.eq_iff_iff]
            show (s == "api") = true ↔ (nonEmptyText (.str s)).toList.contains "api" = true
            rw [show nonEmptyText (.str s) = some s from if_neg blank, beq_iff_eq]
            exact ⟨fun same => by simp [same], fun mem => (List.mem_singleton.mp (List.contains_iff_mem.mp mem)).symm⟩
      | arr items =>
          rw [Bool.eq_iff_iff, List.any_eq_true, List.contains_iff_mem]
          unfold readInboundTags
          rw [List.mem_filterMap]
          apply exists_congr
          intro item
          apply and_congr_right
          intro _
          cases item with
          | str s =>
              by_cases blank : s = ""
              · subst blank
                simp [nonEmptyText]
              · simp [nonEmptyText, blank]
          | null | bool _ | num _ | arr _ | obj _ => simp [nonEmptyText]
      | null | bool _ | num _ | obj _ => rfl

theorem apiRule_isApi : isApiRule apiRule = true := by
  decide +kernel

theorem apiRule_unmanaged : managedDnsAllowRule groups apiRule = false := by
  have tag : Fields.text apiRule "ruleTag" ≠ dnsAllowRuleTag := by decide +kernel
  have shape : dnsAllowRuleShape apiRule = false := by decide +kernel
  simp [managedDnsAllowRule, tag, shape]

theorem block_api {rule : Rule} (api : isApiRule rule = true) : isPrivateBlockRule rule = false := by
  rw [isApiRule_tags, Bool.and_eq_true, beq_iff_eq] at api
  unfold isPrivateBlockRule
  rw [api.1]
  rfl

theorem rebuild_api {rule : Rule} {rules : List Rule} (api : isApiRule rule = true)
    (unmanaged : managedDnsAllowRule groups rule = false) :
    rebuildDnsAllowRules groups (rule :: rules) = rule :: rebuildDnsAllowRules groups rules := by
  rw [rebuild_eq, rebuild_eq, List.filter_cons_of_pos (by simp [unmanaged]), insertBefore_cons, block_api api]
  rfl

theorem mem_insertBefore {α : Type*} {p : α → Bool} {extra l : List α} {x : α} (mem : x ∈ insertBefore p extra l) :
    x ∈ extra ∨ x ∈ l := by
  unfold insertBefore at mem
  cases found : l.findIdx? p with
  | none =>
      rw [found] at mem
      exact .inr mem
  | some i =>
      rw [found] at mem
      rcases List.mem_append.mp mem with front | behind
      · exact .inr (List.mem_of_mem_take front)
      · rcases List.mem_append.mp behind with new | back
        · exact .inl new
        · exact .inr (List.mem_of_mem_drop back)

theorem saved_api {rules : List Rule} {rule : Rule} (mem : rule ∈ rebuildDnsAllowRules groups rules)
    (api : Fields.text rule "outboundTag" = "api") : managedDnsAllowRule groups rule = false := by
  rw [rebuild_eq] at mem
  rcases mem_insertBefore mem with own | kept
  · obtain ⟨group, -, rfl⟩ := List.mem_map.mp own
    have direct : (dnsAllowRule group)["outboundTag"]? = some (.str "direct") :=
      Std.ExtTreeMap.getElem?_ofList_of_mem Std.compare_self (by simp) (by simp)
    unfold Fields.text at api
    rw [direct] at api
    exact absurd api (by decide)
  · simpa using (List.mem_filter.mp kept).2

/-- Saving the rules of a template again changes nothing. -/
def Saved (groups : List DnsAllowPortGroup) (rules : List Rule) : Prop :=
  rebuildDnsAllowRules groups (ensureStatsRouting rules) = rules

theorem ensure_front {rule : Rule} (rest : List Rule) (api : isApiRule rule = true) :
    ensureStatsRouting (rule :: rest) = rule :: rest := by
  unfold ensureStatsRouting
  rw [List.findIdx?_cons, if_pos api]
  rfl

theorem isApiRule_erase {rule : Rule} : isApiRule (rule.erase "enabled") = isApiRule rule := by
  have text : Fields.text (rule.erase "enabled") "outboundTag" = Fields.text rule "outboundTag" := by
    simp [Fields.text, Std.ExtTreeMap.getElem?_erase]
  have tags : Rule.inboundTags (rule.erase "enabled") = rule.inboundTags := by
    simp [Rule.inboundTags, Std.ExtTreeMap.getElem?_erase]
  rw [isApiRule_tags, isApiRule_tags, text, tags]

theorem ensure_shape (rules : List Rule) :
    ∃ rule rest, ensureStatsRouting rules = rule :: rest ∧ isApiRule rule = true ∧
      (rules = rule :: rest ∨ rule = apiRule ∨ ∃ old ∈ rules, rule = old.erase "enabled") := by
  unfold ensureStatsRouting
  cases found : rules.findIdx? isApiRule with
  | none => exact ⟨apiRule, rules, rfl, apiRule_isApi, .inr (.inl rfl)⟩
  | some i =>
      obtain ⟨bound, hit, -⟩ := List.findIdx?_eq_some_iff_getElem.mp found
      cases i with
      | zero =>
          cases rules with
          | nil => cases found
          | cons rule rest => exact ⟨rule, rest, rfl, hit, .inl rfl⟩
      | succ i =>
          have place : rules.getD (i + 1) ∅ = rules[i + 1] := List.getD_eq_getElem _ _ bound
          simp only [place]
          exact ⟨_, _, rfl, isApiRule_erase.trans hit, .inr (.inr ⟨_, List.getElem_mem bound, rfl⟩)⟩

theorem Saved.front {rules : List Rule} (saved : Saved groups rules) :
    rebuildDnsAllowRules groups rules = rules ∧ ∃ rule rest, rules = rule :: rest ∧ isApiRule rule = true := by
  unfold Saved at saved
  obtain ⟨rule, rest, shape, api, origin⟩ := ensure_shape rules
  have direct : Fields.text rule "outboundTag" = "api" := by
    rw [isApiRule_tags, Bool.and_eq_true, beq_iff_eq] at api
    exact api.1
  have unmanaged : managedDnsAllowRule groups rule = false := by
    rcases origin with rfl | rfl | ⟨old, mem, rfl⟩
    · rw [shape] at saved
      refine @saved_api groups (rule :: rest) rule ?_ direct
      rw [saved]
      exact List.mem_cons_self
    · exact apiRule_unmanaged
    · have text {key : String} (other : key ≠ "enabled") :
          Fields.text (old.erase "enabled") key = Fields.text old key := by
        simp [Fields.text, Std.ExtTreeMap.getElem?_erase, other.symm]
      rw [text (by decide)] at direct
      rw [← saved] at mem
      have before := saved_api mem direct
      unfold managedDnsAllowRule dnsAllowRuleShape at before ⊢
      rw [Bool.or_eq_false_iff] at before
      rw [text (by decide), before.1, text (by decide), text (by decide), direct]
      simp
  rw [shape, rebuild_api api unmanaged] at saved
  have same : ensureStatsRouting rules = rules := by
    rw [← saved]
    exact ensure_front _ api
  rw [same] at shape
  refine ⟨?_, rule, rest, shape, api⟩
  rw [shape, rebuild_api api unmanaged, saved, shape]

theorem saved_rewritten {g : Rule → Option Rule} (rewrites : Rewrites g) {rules : List Rule} (saved : Saved groups rules)
    (kept : ∀ rule ∈ rules, isApiRule rule = true → ∃ new, g rule = some new ∧ isApiRule new = true) :
    rebuildDnsAllowRules groups (ensureStatsRouting (rules.filterMap g)) = rules.filterMap (settled groups g) := by
  obtain ⟨same, first, rest, shape, front⟩ := saved.front
  have rebuilt := @rebuild_rewritten groups g rewrites rules
  obtain ⟨new, image, stays⟩ := kept first (by simp [shape]) front
  have still : ensureStatsRouting (rules.filterMap g) = rules.filterMap g := by
    rw [shape, List.filterMap_cons_some image]
    exact ensure_front _ stays
  rw [still, rebuilt, same]

theorem saved_without_api {g : Rule → Option Rule} (rewrites : Rewrites g) {rules : List Rule} (saved : Saved groups rules)
    (lost : ∀ rule ∈ rules, ∀ new, g rule = some new → isApiRule new = false) :
    rebuildDnsAllowRules groups (ensureStatsRouting (rules.filterMap g)) = apiRule :: rules.filterMap (settled groups g) := by
  have rebuilt := @rebuild_rewritten groups g rewrites rules
  have absent : (rules.filterMap g).findIdx? isApiRule = none := by
    rw [List.findIdx?_eq_none_iff]
    intro new mem
    obtain ⟨rule, there, image⟩ := List.mem_filterMap.mp mem
    exact lost rule there new image
  have added : ensureStatsRouting (rules.filterMap g) = apiRule :: rules.filterMap g := by
    unfold ensureStatsRouting
    rw [absent]
  rw [added, rebuild_api apiRule_isApi apiRule_unmanaged, rebuilt, saved.front.1]

section
variable {γ : Type*} {test : String → Json → γ → Bool}

theorem decision_filterMap {h : Rule → Option Rule} {connection moved : Connection γ} {rules : List Rule}
    (dropped : ∀ rule ∈ rules, h rule = none → matchesRule test connection rule = false)
    (kept : ∀ rule ∈ rules, ∀ new, h rule = some new →
      matchesRule test moved new = matchesRule test connection rule ∧ target new = target rule) :
    decision test (rules.filterMap h) moved = decision test rules connection := by
  induction rules with
  | nil => rfl
  | cons rule rules ih =>
      have rest := ih (fun r mem => dropped r (List.mem_cons_of_mem _ mem)) fun r mem => kept r (List.mem_cons_of_mem _ mem)
      unfold decision at rest ⊢
      cases image : h rule with
      | none =>
          have off := dropped rule List.mem_cons_self image
          rw [List.filterMap_cons_none image, List.find?_cons_of_neg (by simp [off]), rest]
      | some new =>
          obtain ⟨same, sends⟩ := kept rule List.mem_cons_self new image
          rw [List.filterMap_cons_some image]
          cases hit : matchesRule test connection rule with
          | true =>
              rw [List.find?_cons_of_pos (same.trans hit), List.find?_cons_of_pos hit, Option.map_some, Option.map_some, sends]
          | false =>
              rw [List.find?_cons_of_neg (by simp [same, hit]), List.find?_cons_of_neg (by simp [hit]), rest]

theorem decision_api {connection : Connection γ} (other : connection.inbound ≠ "api") (rules : List Rule) :
    decision test (apiRule :: rules) connection = decision test rules connection := by
  have tags : Rule.inboundTags apiRule = ["api"] := by decide +kernel
  have off : matchesRule test connection apiRule = false := by
    simp [matchesRule, matchesInbound, tags, other]
  unfold decision
  rw [List.find?_cons_of_neg (by simp [off])]

end

end

end ThreeXNode.Xray
