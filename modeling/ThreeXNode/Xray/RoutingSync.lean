import ThreeXNode.Library.Json

namespace ThreeXNode.Xray
open Library

/-! ## Routing rules of a template -/

abbrev Rule := Fields

def routingMatcherKeys : List String :=
  ["domain", "domains", "ip", "port", "sourcePort", "localPort", "network", "source", "sourceIP", "localIP", "user",
    "vlessRoute", "protocol", "attrs", "process"]

def nonEmptyText : Json → Option String
  | .str s => if s = "" then none else some s
  | _ => none

def readInboundTags : Option Json → List String
  | some (.str tag) => (nonEmptyText (.str tag)).toList
  | some (.arr items) => items.filterMap nonEmptyText
  | _ => []

def Rule.inboundTags (rule : Rule) : List String := readInboundTags rule["inboundTag"]?

def writeInboundTags (rule : Rule) (tags : List String) : Rule :=
  if tags.isEmpty then rule.erase "inboundTag" else rule.insert "inboundTag" (.arr (tags.map .str))

def hasRoutingMatcherValue : Option Json → Bool
  | none | some .null => false
  | some (.str s) => s != ""
  | some (.arr items) => !items.isEmpty
  | some (.obj members) => !members.isEmpty
  | some _ => true

def ruleHasNonInboundMatchers (rule : Rule) : Bool :=
  routingMatcherKeys.any fun key => hasRoutingMatcherValue rule[key]?

def renamed (oldTag newTag tag : String) : String := if tag = oldTag then newTag else tag

def replaceInboundTagInRule (oldTag newTag : String) (rule : Rule) : Rule × Bool :=
  let tags := rule.inboundTags
  if oldTag ∈ tags then (writeInboundTags rule (tags.map (renamed oldTag newTag)), true) else (rule, false)

def replaceInboundTagInRules (oldTag newTag : String) (rules : List Rule) : List Rule × Bool :=
  (rules.map fun rule => (replaceInboundTagInRule oldTag newTag rule).1,
    rules.any fun rule => (replaceInboundTagInRule oldTag newTag rule).2)

/-- What is left of a rule when an inbound is deleted, `none` where nothing is. -/
def withoutInboundTag (deletedTag : String) (rule : Rule) : Option Rule :=
  let tags := rule.inboundTags
  let nextTags := tags.filter (· ≠ deletedTag)
  if deletedTag ∉ tags then some rule
  else if nextTags.isEmpty && !ruleHasNonInboundMatchers rule then none
  else if nextTags.isEmpty then some (rule.erase "inboundTag")
  else some (writeInboundTags rule nextTags)

def removeInboundTagFromRules (deletedTag : String) (rules : List Rule) : List Rule × Bool :=
  if deletedTag = "" then (rules, false)
  else (rules.filterMap (withoutInboundTag deletedTag), rules.any fun rule => decide (deletedTag ∈ rule.inboundTags))

/-! ## Loopback outbounds -/

def loopback (out : Json) : Option (Fields × Fields × String) := do
  let out ← out.asFields
  if out.text "protocol" = "loopback" then
    let settings ← out["settings"]?.bind Json.asFields
    return (out, settings, settings.text "inboundTag")
  else none

def replaceInboundTagInOutbound (oldTag newTag : String) (out : Json) : Json × Bool :=
  match loopback out with
  | some (fields, settings, tag) =>
      if tag = oldTag then (.ofFields (fields.insert "settings" (.ofFields (settings.insert "inboundTag" (.str newTag)))), true)
      else (out, false)
  | none => (out, false)

def removeInboundTagFromOutbound (deletedTag : String) (out : Json) : Json × Bool :=
  match loopback out with
  | some (fields, settings, tag) =>
      if tag = deletedTag then (.ofFields (fields.insert "settings" (.ofFields (settings.erase "inboundTag"))), true)
      else (out, false)
  | none => (out, false)

/-! ## Saving a template -/

structure Template where
  rules : List Rule
  outbounds : List Json
  dns : Json

def isApiRule (rule : Rule) : Bool :=
  rule.text "outboundTag" == "api" && match rule["inboundTag"]? with
    | some (.arr items) => items.any fun item => match item with
      | .str s => s == "api"
      | _ => false
    | some (.str tag) => tag == "api"
    | _ => false

def apiRule : Rule :=
  .ofList [("type", Json.str "field"), ("inboundTag", Json.arr [.str "api"]), ("outboundTag", Json.str "api")]

def ensureStatsRouting (rules : List Rule) : List Rule :=
  match rules.findIdx? isApiRule with
  | some 0 => rules
  | some i => (rules.getD i ∅).erase "enabled" :: rules.eraseIdx i
  | none => apiRule :: rules

def dnsAllowRuleTag : String := "xui-dns-allow"

structure DnsAllowPortGroup where
  port : Int
  ips : List String

def textItem : Json → Option String
  | .str s => some s
  | _ => none

def readRuleIPs : Option Json → List String
  | some (.arr items) => items.filterMap textItem
  | some (.str s) => (nonEmptyText (.str s)).toList
  | _ => []

def dnsAllowRuleShape (rule : Rule) : Bool :=
  rule.text "type" == "field" && rule.text "outboundTag" == "direct" && rule.contains "ip" && rule.contains "port" &&
    rule.toList.all fun (key, value) => ["type", "outboundTag", "ip", "port"].contains key || (key == "enabled" && value == .bool true)

def managedDnsAllowRule (groups : List DnsAllowPortGroup) (rule : Rule) : Bool :=
  rule.text "ruleTag" == dnsAllowRuleTag || (dnsAllowRuleShape rule &&
    groups.any fun group => toString group.port == rule.text "port" && (readRuleIPs rule["ip"]?).mergeSort == group.ips)

def isPrivateBlockRule (rule : Rule) : Bool :=
  rule.text "outboundTag" == "blocked" &&
    (readRuleIPs rule["ip"]?).any fun ip => ip.toLower == "geoip:private"

def dnsAllowRule (group : DnsAllowPortGroup) : Rule :=
  .ofList [("type", Json.str "field"), ("ruleTag", Json.str dnsAllowRuleTag), ("ip", Json.arr (group.ips.map .str)),
    ("port", Json.str (toString group.port)), ("outboundTag", Json.str "direct")]

def rebuildDnsAllowRules (groups : List DnsAllowPortGroup) (rules : List Rule) : List Rule :=
  let clean := rules.filter fun rule => !managedDnsAllowRule groups rule
  match clean.findIdx? isPrivateBlockRule with
  | none => clean
  | some i => if groups.isEmpty then clean else clean.take i ++ (groups.map dnsAllowRule ++ clean.drop i)

section
variable (check : Template → Except String Unit) (groups : Json → List DnsAllowPortGroup)

def saveXraySetting (t : Template) : Except String Template := do
  check t
  return { t with rules := rebuildDnsAllowRules (groups t.dns) (ensureStatsRouting t.rules) }

/-- The template after the call, and whether it was saved. -/
def propagateInboundTagRename (oldTag newTag : String) (t : Template) : Except String (Template × Bool) :=
  if oldTag = "" ∨ newTag = "" ∨ oldTag = newTag then .ok (t, false)
  else
    let (rules, rulesChanged) := replaceInboundTagInRules oldTag newTag t.rules
    let outbounds := t.outbounds.map (replaceInboundTagInOutbound oldTag newTag)
    if rulesChanged || outbounds.any (·.2) then do
      let saved ← saveXraySetting check groups { t with rules, outbounds := outbounds.map (·.1) }
      return (saved, true)
    else .ok (t, false)

def removeInboundTagReferences (deletedTag : String) (t : Template) : Except String (Template × Bool) :=
  if deletedTag = "" then .ok (t, false)
  else
    let (rules, rulesChanged) := removeInboundTagFromRules deletedTag t.rules
    let outbounds := t.outbounds.map (removeInboundTagFromOutbound deletedTag)
    if rulesChanged || outbounds.any (·.2) then do
      let saved ← saveXraySetting check groups { t with rules, outbounds := outbounds.map (·.1) }
      return (saved, true)
    else .ok (t, false)

end

end ThreeXNode.Xray
