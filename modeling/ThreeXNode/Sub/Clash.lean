import ThreeXNode.Library.Fold
import ThreeXNode.Library.Json
import ThreeXNode.Library.Net
import ThreeXNode.Service.Ports

namespace ThreeXNode.Sub.Clash
open ThreeXNode.Library

/-! # The Clash subscription -/

/-! ## Documents -/

structure Document where
  entries : List (String × Json)
  distinct : (entries.map (·.1)).Nodup
  deriving DecidableEq

namespace Document

def empty : Document := ⟨[], List.nodup_nil⟩

def get (d : Document) (key : String) : Option Json := d.entries.lookup key

theorem set_distinct (d : Document) (key : String) (value : Json) :
    (((key, value) :: d.entries.filter (·.1 ≠ key)).map (·.1)).Nodup := by
  rw [List.map_cons, List.nodup_cons]
  refine ⟨fun mem => ?_, (List.filter_sublist.map _).nodup d.distinct⟩
  obtain ⟨entry, here, same⟩ := List.mem_map.mp mem
  have other := (List.mem_filter.mp here).2
  simp only [ne_eq, decide_eq_true_eq] at other
  exact other same

def set (d : Document) (key : String) (value : Json) : Document :=
  ⟨(key, value) :: d.entries.filter (·.1 ≠ key), d.set_distinct key value⟩

def ofMembers (members : List (String × Json)) : Document := members.foldl (fun d m => d.set m.1 m.2) empty

def toJson (d : Document) : Json := .obj d.entries

def text (d : Document) (key : String) : Option String :=
  match d.get key with
  | some (.str s) => some s
  | _ => none

end Document

def asMap : Json → Option Document
  | .obj members => some (.ofMembers members)
  | _ => none

def asAnySlice : Json → Option (List Json)
  | .arr items => some items
  | _ => none

def itemsAt (d : Document) (key : String) : List Json := ((d.get key).bind asAnySlice).getD []

/-! ## Texts -/

def trimSpace (s : String) : String := String.ofList (Service.Ports.trimSpace s.toList)

def splitComma (s : String) : List String := (Net.splitOnChar ',' s.toList).map String.ofList

/-- The simple folding of the letters that fold to ASCII ones. -/
def foldChar (c : Char) : Char := if c = 'ſ' then 's' else if c = '\u212A' then 'k' else c.toLower

def equalFold (s t : String) : Bool := s.toList.map foldChar == t.toList.map foldChar

/-! ## Errors -/

inductive ClashError where
  | remoteNotMap
  | rulesNotList
  | rulesNotTexts
  | groupsNotList
  | groupUnnamed
  | groupDuplicated (name : String)
  | groupUsesProviders (name : String)
  | providersNotMap
  | providerUnnamed
  | providerNotMap (name : String)
  | refsNotList (group : String)
  | refInvalid (group : String)
  | refUnknown (group ref : String)
  | providerUnknownVia (provider via : String)
  | ruleEmpty
  | ruleInvalid (rule : String)
  | ruleSetInvalid (rule : String)
  | ruleProviderUnknown (name : String)
  | ruleTargetInvalid (rule : String)
  | ruleTargetUnknown (target : String)
  deriving DecidableEq

/-! ## Names of proxies -/

structure Env where
  unmarshal : String → Option Json
  /-- `%v` of a value that may be missing. -/
  print : Option Json → String

def fallbackProxyName (env : Env) (proxy : Document) (idx : Nat) : String :=
  let typ := (proxy.text "type").getD ""
  let server := (proxy.text "server").getD ""
  if typ ≠ "" ∧ server ≠ "" then typ ++ "-" ++ server ++ "-" ++ env.print (proxy.get "port")
  else "proxy-" ++ toString (idx + 1)

def freeName (seen : List String) (base : String) : (fuel n : Nat) → (name : String) → String
  | 0, _, name => name
  | fuel + 1, n, name => if name ∈ seen then freeName seen base fuel (n + 1) (base ++ "-" ++ toString n) else name

def uniqueName (seen : List String) (base : String) : String := freeName seen base (seen.length + 1) 2 base

def baseName (env : Env) (proxy : Document) (idx : Nat) : String :=
  let base := (proxy.text "name").getD ""
  if base = "" then fallbackProxyName env proxy idx else base

def ensureUnique (env : Env) (seen : List String) (idx : Nat) : List Document → List Document
  | [] => []
  | proxy :: rest =>
      let name := uniqueName seen (baseName env proxy idx)
      proxy.set "name" (.str name) :: ensureUnique env (name :: seen) (idx + 1) rest

def ensureUniqueProxyNames (env : Env) (proxies : List Document) : List Document := ensureUnique env [] 0 proxies

/-! ## Rules -/

def ruleParts (rule : String) : List String := (splitComma rule).map trimSpace

def ruleKind (rule : String) : String := trimSpace ((splitComma rule).headD "")

def isMatchRule : Json → Bool
  | .str rule => equalFold (ruleKind rule) "MATCH"
  | _ => false

def hasClashMatchRule (rules : List Json) : Bool := rules.any isMatchRule

def mergeClashRules (base : Document) (customRules : List Json) : Document :=
  if customRules = [] then base
  else if hasClashMatchRule customRules then base.set "rules" (.arr customRules)
  else base.set "rules" (.arr (customRules ++ itemsAt base "rules"))

def linesToClashRules (raw : String) : List Json :=
  ((Net.splitOnChar '\n' raw.toList).map fun line => trimSpace (String.ofList line)).filter
    (fun line => line ≠ "" ∧ ¬['#'] <+: line.toList) |>.map .str

/-! ## Local sources -/

def mergeLocalEntry (base : Document) (entry : String × Json) : Document :=
  if entry.1 = "rules" then
    match asAnySlice entry.2 with
    | some ruleList => mergeClashRules base ruleList
    | none => base
  else base.set entry.1 entry.2

def mergeClashRulesYAML (env : Env) (base : Document) (raw : String) : Document :=
  let raw := trimSpace raw
  if raw = "" then base
  else match env.unmarshal raw with
    | some (.arr items) => mergeClashRules base items
    | some (.obj members) => (Document.ofMembers members).entries.foldl mergeLocalEntry base
    | _ => mergeClashRules base (linesToClashRules raw)

/-! ## Groups -/

def clashProxyGroupName (value : Json) : String := trimSpace (((asMap value).bind (·.text "name")).getD "")

/-- The groups with a name, the first of each name. -/
def firstNamed (groups : List Json) : List Json :=
  groups.foldl (fun merged group =>
    if clashProxyGroupName group = "" ∨ clashProxyGroupName group ∈ merged.map clashProxyGroupName then merged
    else merged ++ [group]) []

/-- The last group of a name. -/
def groupNamed (groups : List Json) (name : String) : Option Json :=
  groups.reverse.find? fun group => clashProxyGroupName group = name

def mergeClashProxyGroups (baseGroups remoteGroups : List Json) : List Json :=
  let merged := firstNamed remoteGroups
  let baseOrder := (baseGroups.map clashProxyGroupName).filter (· ≠ "")
  merged ++ (baseOrder.filter (· ∉ merged.map clashProxyGroupName)).filterMap (groupNamed baseGroups)

/-! ## Remote sources -/

def remoteClashAllowedKey (key : String) : Bool := key = "proxy-groups" ∨ key = "rule-providers" ∨ key = "rules"

def validateRemoteGroup (seen : List String) (groupValue : Json) : Except ClashError (List String) :=
  match asMap groupValue with
  | none => .error .groupUnnamed
  | some group =>
      match group.text "name", group.text "type" with
      | some name, some groupType =>
          if trimSpace name = "" ∨ trimSpace groupType = "" then .error .groupUnnamed
          else if trimSpace name ∈ seen then .error (.groupDuplicated (trimSpace name))
          else if (group.get "use").any fun use => (asAnySlice use).all (· ≠ []) then
            .error (.groupUsesProviders (trimSpace name))
          else .ok (trimSpace name :: seen)
      | _, _ => .error .groupUnnamed

def validateRemoteRule : Json → Except ClashError Unit
  | .str text => require (trimSpace text ≠ "") .rulesNotTexts
  | _ => .error .rulesNotTexts

def validateRemoteProvider (entry : String × Json) : Except ClashError Unit :=
  if trimSpace entry.1 = "" then .error .providerUnnamed
  else require (asMap entry.2).isSome (.providerNotMap entry.1)

def validateRemoteClashValue (key : String) (value : Json) : Except ClashError Unit :=
  if key = "rules" then
    match asAnySlice value with
    | none => .error .rulesNotList
    | some rules => forM rules validateRemoteRule
  else if key = "proxy-groups" then
    match asAnySlice value with
    | none => .error .groupsNotList
    | some groups => do discard (groups.foldlM validateRemoteGroup [])
  else if key = "rule-providers" then
    match asMap value with
    | none => .error .providersNotMap
    | some providers => forM providers.entries validateRemoteProvider
  else .ok ()

def builtins : List String := ["DIRECT", "REJECT", "REJECT-DROP", "REJECT-TINYGIF", "PASS", "GLOBAL"]

def proxyNames (config : Document) : List String :=
  (itemsAt config "proxies").filterMap fun value => (asMap value).bind (·.text "name")

def groupNames (config : Document) : List String :=
  ((itemsAt config "proxy-groups").map clashProxyGroupName).filter (· ≠ "")

def known (config : Document) : List String :=
  builtins ++ ((proxyNames config).map trimSpace).filter (· ≠ "") ++ groupNames config

def validateRef (known : List String) (name : String) : Json → Except ClashError Unit
  | .str ref =>
      if trimSpace ref = "" then .error (.refInvalid name)
      else require (trimSpace ref ∈ known) (.refUnknown name (trimSpace ref))
  | _ => .error (.refInvalid name)

def validateGroupRefs (known : List String) (value : Json) : Except ClashError Unit :=
  match (asMap value).bind (·.get "proxies") with
  | none => .ok ()
  | some refs =>
      match asAnySlice refs with
      | none => .error (.refsNotList (clashProxyGroupName value))
      | some proxies => forM proxies (validateRef known (clashProxyGroupName value))

def validateProviderVia (known : List String) (entry : String × Json) : Except ClashError Unit :=
  match (asMap entry.2).bind (·.text "proxy") with
  | none => .ok ()
  | some via =>
      require (trimSpace via = "" ∨ trimSpace via ∈ known) (.providerUnknownVia entry.1 (trimSpace via))

def isRuleOption (part : String) : Bool := equalFold part "no-resolve" || equalFold part "src"

/-- Goes back from an index over the options; zero if there is nothing before them. -/
def targetIndex (parts : List String) : Nat → Nat
  | 0 => 0
  | i + 1 => if isRuleOption (parts.getD (i + 1) "") then targetIndex parts i else i + 1

def validateRule (known : List String) (providers : Document) : Json → Except ClashError Unit
  | .str rule =>
      let parts := ruleParts rule
      let index := targetIndex parts (parts.length - 1)
      if trimSpace rule = "" then .error .ruleEmpty
      else if parts.length < 2 then .error (.ruleInvalid rule)
      else do
        if equalFold (parts.getD 0 "") "RULE-SET" then
          require (3 ≤ parts.length) (.ruleSetInvalid rule)
          require (providers.get (parts.getD 1 "")).isSome (.ruleProviderUnknown (parts.getD 1 ""))
        require (1 ≤ index) (.ruleTargetInvalid rule)
        require (parts.getD index "" ∈ known) (.ruleTargetUnknown (parts.getD index ""))
  | _ => .error .ruleEmpty

def providersOf (config : Document) : Document := ((config.get "rule-providers").bind asMap).getD .empty

def validateClashRouteGraph (config : Document) : Except ClashError Unit := do
  forM (itemsAt config "proxy-groups") (validateGroupRefs (known config))
  forM (providersOf config).entries (validateProviderVia (known config))
  forM (itemsAt config "rules") (validateRule (known config) (providersOf config))

def mergeRemoteEntry (base : Document) (entry : String × Json) : Except ClashError Document :=
  if remoteClashAllowedKey entry.1 then do
    validateRemoteClashValue entry.1 entry.2
    if entry.1 = "rules" then
      return mergeClashRules base ((asAnySlice entry.2).getD [])
    else if entry.1 = "proxy-groups" then
      return base.set "proxy-groups"
        (.arr (mergeClashProxyGroups (itemsAt base "proxy-groups") ((asAnySlice entry.2).getD [])))
    else
      return base.set entry.1 entry.2
  else .ok base

def mergeRemoteClashRules (base remote : Document) : Except ClashError Document :=
  if remote.entries = [] then .error .remoteNotMap
  else do
    let merged ← remote.entries.foldlM mergeRemoteEntry base
    validateClashRouteGraph merged
    return merged

/-! ## The document -/

/-- A routing source: its content, and its document if it is a remote one. -/
structure Routing where
  content : String
  remote : Option Document

def baseConfig (proxies : List Document) : Document :=
  let names := (proxies.filterMap (·.text "name")).filter (· ≠ "") ++ ["DIRECT"]
  Document.ofMembers
    [("proxies", .arr (proxies.map Document.toJson)),
      ("proxy-groups", .arr [.obj [("name", .str "PROXY"), ("type", .str "select"), ("proxies", .arr (names.map .str))]]),
      ("rules", .arr [.str "MATCH,PROXY"])]

/-- The source that is merged; an unresolved or empty one is not. -/
def routed (enableRouting : Bool) (resolved : Option Routing) : Option Routing :=
  resolved.filter fun r => enableRouting && trimSpace r.content ≠ ""

def getClash (env : Env) (proxies : List Document) (enableRouting : Bool) (resolved : Option Routing) :
    Except ClashError (Option Document) :=
  if proxies = [] then .ok none
  else
    let config := baseConfig (ensureUniqueProxyNames env proxies)
    match routed enableRouting resolved with
    | none => .ok (some config)
    | some ⟨_, some remote⟩ => some <$> mergeRemoteClashRules config remote
    | some ⟨content, none⟩ => .ok (some (mergeClashRulesYAML env config content))

end ThreeXNode.Sub.Clash
