import ThreeXNode.Sub.ClashNames

namespace ThreeXNode.Sub.Clash
open ThreeXNode.Library

/-! # The route graph of a document -/

/-! ## Targets of rules -/

def ruleTarget (rule : String) : Option String := ((ruleParts rule).tail.rdropWhile isRuleOption).getLast?

theorem targetIndex_take (parts : List String) {i : Nat} (inside : i ≤ parts.length - 1) :
    ((parts.tail.take i).rdropWhile isRuleOption).getLast? =
      if targetIndex parts i = 0 then none else some (parts.getD (targetIndex parts i) "") := by
  induction i with
  | zero => rfl
  | succ i ih =>
      have below : i < parts.tail.length := by
        rw [List.length_tail]
        omega
      have part : parts.tail[i] = parts.getD (i + 1) "" := by
        rw [List.getElem_tail, List.getD_eq_getElem?_getD, List.getElem?_eq_getElem, Option.getD_some]
      rw [List.take_succ_eq_append_getElem below, part, targetIndex]
      by_cases option : isRuleOption (parts.getD (i + 1) "") = true
      · rw [List.rdropWhile_concat_pos _ _ _ option, if_pos option]
        exact ih (by omega)
      · rw [List.rdropWhile_concat_neg _ _ _ option, if_neg option, List.getLast?_concat, if_neg (Nat.succ_ne_zero i)]

theorem ruleTarget_eq (rule : String) :
    ruleTarget rule = if targetIndex (ruleParts rule) ((ruleParts rule).length - 1) = 0 then none
      else some ((ruleParts rule).getD (targetIndex (ruleParts rule) ((ruleParts rule).length - 1)) "") := by
  have whole := targetIndex_take (ruleParts rule) (Nat.le_refl _)
  rw [List.take_of_length_le (by rw [List.length_tail])] at whole
  exact whole

theorem all_of_trimSpace {cs : List Char} (empty : Service.Ports.trimSpace cs = []) :
    ∀ c ∈ cs, Service.Ports.isSpace c = true := by
  unfold Service.Ports.trimSpace at empty
  rw [List.reverse_eq_nil_iff, List.dropWhile_eq_nil_iff] at empty
  intro c mem
  rw [← List.takeWhile_append_dropWhile (p := Service.Ports.isSpace) (l := cs)] at mem
  rcases List.mem_append.mp mem with front | back
  · exact List.mem_takeWhile_imp front
  · exact empty c (List.mem_reverse.mpr back)

theorem splitOnChar_of_not_mem {sep : Char} {cs : List Char} (absent : sep ∉ cs) : Net.splitOnChar sep cs = [cs] := by
  induction cs with
  | nil => rfl
  | cons c cs ih =>
      have ne : c ≠ sep := fun same => absent (same ▸ List.mem_cons_self)
      rw [Net.splitOnChar, if_neg ne, ih fun mem => absent (List.mem_cons_of_mem _ mem)]

theorem trimSpace_ne_empty {rule target : String} (found : ruleTarget rule = some target) : trimSpace rule ≠ "" := by
  intro empty
  have blank := all_of_trimSpace (String.ofList_injective empty)
  have absent : ',' ∉ rule.toList := fun mem => absurd (blank ',' mem) (by decide)
  unfold ruleTarget ruleParts splitComma at found
  rw [splitOnChar_of_not_mem absent] at found
  simp at found

theorem two_le_parts {rule target : String} (found : ruleTarget rule = some target) : 2 ≤ (ruleParts rule).length := by
  by_contra short
  have tail : (ruleParts rule).tail = [] := by
    rw [← List.length_eq_zero_iff, List.length_tail]
    omega
  unfold ruleTarget at found
  rw [tail] at found
  cases found

/-! ## References -/

/-- The references of a document, spelled by `spell` and with targets of rules by `target`, are among the names. -/
structure Resolves (spell : String → String) (target : String → Option String) (names : List String)
    (config : Document) : Prop where
  groups : ∀ value ∈ itemsAt config "proxy-groups", ∀ refs, (asMap value).bind (·.get "proxies") = some refs →
    ∃ items, refs = .arr items ∧ ∀ item ∈ items, ∃ ref, item = .str ref ∧ spell ref ∈ names
  providers : ∀ entry ∈ (providersOf config).entries, ∀ via, (asMap entry.2).bind (·.text "proxy") = some via →
    spell via = "" ∨ spell via ∈ names
  rules : ∀ value ∈ itemsAt config "rules", ∃ rule, value = .str rule ∧ (∃ name ∈ names, target rule = some name) ∧
    (equalFold ((ruleParts rule).getD 0 "") "RULE-SET" →
      3 ≤ (ruleParts rule).length ∧ ((providersOf config).get ((ruleParts rule).getD 1 "")).isSome)

theorem empty_not_known (config : Document) : "" ∉ known config := by
  unfold known groupNames
  simp [builtins]

theorem validateRef_ok {names : List String} (named : "" ∉ names) {group : String} {value : Json} :
    validateRef names group value = .ok () ↔ ∃ ref, value = .str ref ∧ trimSpace ref ∈ names := by
  cases value with
  | str ref =>
      simp only [validateRef]
      by_cases empty : trimSpace ref = ""
      · rw [if_pos empty]
        simp only [reduceCtorEq, Json.str.injEq, exists_eq_left', false_iff]
        exact fun mem => named (empty ▸ mem)
      · rw [if_neg empty, require_eq_ok]
        simp only [Json.str.injEq, exists_eq_left']
  | null => simp [validateRef]
  | bool b => simp [validateRef]
  | num n => simp [validateRef]
  | arr items => simp [validateRef]
  | obj members => simp [validateRef]

theorem validateGroupRefs_ok {names : List String} (named : "" ∉ names) {value : Json} :
    validateGroupRefs names value = .ok () ↔ ∀ refs, (asMap value).bind (·.get "proxies") = some refs →
      ∃ items, refs = .arr items ∧ ∀ item ∈ items, ∃ ref, item = .str ref ∧ trimSpace ref ∈ names := by
  unfold validateGroupRefs
  cases (asMap value).bind (·.get "proxies") with
  | none => simp
  | some refs =>
      simp only [Option.some.injEq, forall_eq']
      cases refs with
      | arr items =>
          simp only [asAnySlice, forM_eq_ok, Json.arr.injEq, exists_eq_left']
          exact forall₂_congr fun item _ => validateRef_ok named
      | str s => simp [asAnySlice]
      | null => simp [asAnySlice]
      | bool b => simp [asAnySlice]
      | num n => simp [asAnySlice]
      | obj members => simp [asAnySlice]

theorem validateProviderVia_ok {names : List String} {entry : String × Json} :
    validateProviderVia names entry = .ok () ↔ ∀ via, (asMap entry.2).bind (·.text "proxy") = some via →
      trimSpace via = "" ∨ trimSpace via ∈ names := by
  unfold validateProviderVia
  cases (asMap entry.2).bind (·.text "proxy") with
  | none => simp
  | some via => simp

theorem Except.andThen_eq_ok {x : Except ClashError Unit} {y : Except ClashError Unit} :
    (x >>= fun _ => y) = .ok () ↔ x = .ok () ∧ y = .ok () := by
  rw [Except.bind_eq_ok]
  exact ⟨fun ⟨_, first, second⟩ => ⟨first, second⟩, fun ⟨first, second⟩ => ⟨(), first, second⟩⟩

theorem target_checked {names : List String} {rule : String} :
    (1 ≤ targetIndex (ruleParts rule) ((ruleParts rule).length - 1) ∧
        (ruleParts rule).getD (targetIndex (ruleParts rule) ((ruleParts rule).length - 1)) "" ∈ names) ↔
      ∃ name ∈ names, ruleTarget rule = some name := by
  rw [ruleTarget_eq]
  split
  · rename_i zero
    simp [zero]
  · rename_i positive
    simp only [Nat.one_le_iff_ne_zero.mpr positive, true_and, Option.some.injEq, exists_eq_right']

theorem validateRule_ok {names : List String} {providers : Document} {value : Json} :
    validateRule names providers value = .ok () ↔ ∃ rule, value = .str rule ∧
      (∃ name ∈ names, ruleTarget rule = some name) ∧
      (equalFold ((ruleParts rule).getD 0 "") "RULE-SET" →
        3 ≤ (ruleParts rule).length ∧ (providers.get ((ruleParts rule).getD 1 "")).isSome) := by
  cases value with
  | str rule =>
      simp only [validateRule, Json.str.injEq, exists_eq_left']
      constructor
      · intro ok
        split at ok
        · cases ok
        split at ok
        · cases ok
        split at ok
        · simp only [Except.andThen_eq_ok, require_eq_ok] at ok
          obtain ⟨long, provided, target⟩ := ok
          exact ⟨target_checked.mp target, fun _ => ⟨long, provided⟩⟩
        · rename_i other
          simp only [Except.andThen_eq_ok, require_eq_ok] at ok
          exact ⟨target_checked.mp ok, fun set => absurd set other⟩
      · rintro ⟨⟨name, mem, found⟩, provided⟩
        have target := target_checked.mpr ⟨name, mem, found⟩
        rw [if_neg (trimSpace_ne_empty found), if_neg (Nat.not_lt.mpr (two_le_parts found))]
        split
        · rename_i set
          simp only [Except.andThen_eq_ok, require_eq_ok]
          exact ⟨(provided set).1, (provided set).2, target⟩
        · simp only [Except.andThen_eq_ok, require_eq_ok]
          exact target
  | null => simp [validateRule]
  | bool b => simp [validateRule]
  | num n => simp [validateRule]
  | arr items => simp [validateRule]
  | obj members => simp [validateRule]

theorem validateClashRouteGraph_ok (config : Document) :
    validateClashRouteGraph config = .ok () ↔ Resolves trimSpace ruleTarget (known config) config := by
  have named := empty_not_known config
  unfold validateClashRouteGraph
  simp only [Except.andThen_eq_ok, forM_eq_ok, validateGroupRefs_ok named, validateProviderVia_ok, validateRule_ok]
  constructor
  · rintro ⟨groups, providers, rules⟩
    exact ⟨groups, providers, rules⟩
  · intro resolves
    exact ⟨resolves.groups, resolves.providers, resolves.rules⟩

end ThreeXNode.Sub.Clash
