import ThreeXNode.Leaf.Routes
import ThreeXNode.Library.Maps
import ThreeXNode.Service.Ports
import ThreeXNode.Xray.HotDiff
import ThreeXNode.Xray.RoutingSaved

namespace ThreeXNode.Xray
open Library

/-! ## Addresses -/

def dotted : List Nat → Option (List Nat)
  | [0, 0, 0, 0, 0, 65535, high, low] => some [high / 256, high % 256, low / 256, low % 256]
  | _ => none

def zeroRun (groups : List Nat) : Nat × Nat :=
  (List.range 8).foldl (fun best i =>
    let length := ((groups.drop i).takeWhile (· == 0)).length
    if 2 ≤ length ∧ best.2 < length then (i, length) else best) (8, 0)

def ipText (groups : List Nat) : String :=
  match dotted groups with
  | some octets => ".".intercalate (octets.map toString)
  | none =>
      let (start, length) := zeroRun groups
      let hex := groups.map fun group => String.ofList (Nat.toDigits 16 group)
      if length = 0 then ":".intercalate hex
      else ":".intercalate (hex.take start) ++ "::" ++ ":".intercalate (hex.drop (start + length))

def isBlockedIPv4 : List Nat → Bool
  | [a, b, c, d] =>
      a = 127 || (a = 10 || (a = 172 && b / 16 = 1) || (a = 192 && b = 168)) || (a = 169 && b = 254) ||
        (a = 224 && b = 0 && c = 0) || [a, b, c, d] = [0, 0, 0, 0] || (a = 100 && b / 64 = 1)
  | _ => false

def isBlockedIP (groups : List Nat) : Bool :=
  match dotted groups, groups with
  | some octets, _ => isBlockedIPv4 octets
  | none, [a, b, c, d, e, f, g, h] =>
      groups = [0, 0, 0, 0, 0, 0, 0, 1] || a / 0x200 = 0x7e || a / 0x40 = 0x3fa || (a / 0x100 = 0xff && a % 0x10 = 2) ||
        groups = [0, 0, 0, 0, 0, 0, 0, 0] || a = 0x2002 || (a = 0x2001 && b = 0) ||
        (a = 0x64 && b = 0xff9b && c = 1) || a / 0x40 = 0x3fb ||
        -- NAT64: judged by the address it embeds
        ([a, b, c, d, e, f] = [0x64, 0xff9b, 0, 0, 0, 0] && isBlockedIPv4 [g / 256, g % 256, h / 256, h % 256])
  | none, _ => false

example : (["127.0.0.1", "10.1.2.3", "172.31.0.1", "::1", "fd00::53", "64:ff9b::10.0.0.1", "100.64.0.1"].filterMap
    Net.ipValue).all isBlockedIP = true := by decide

example : (["1.1.1.1", "172.32.0.1", "2606:4700::1111", "64:ff9b::1.1.1.1", "100.128.0.1"].filterMap
    Net.ipValue).any isBlockedIP = false := by decide

example : (["FD00:0:0:1::0:53", "::ffff:10.0.0.1", "1:0:0:2:0:0:0:3", "::", "1:2:3:4:5:6:0:8"].filterMap Net.ipValue).map
    ipText = ["fd00:0:0:1::53", "10.0.0.1", "1:0:0:2::3", "::", "1:2:3:4:5:6:0:8"] := by decide

/-! ## The private servers of the `dns` section -/

structure DnsServerEndpoint where
  ip : String
  port : Int
  deriving DecidableEq

def afterFirst (sep s : List Char) : List Char :=
  match splitOn sep s with
  | _ :: piece :: pieces => sep.intercalate (piece :: pieces)
  | _ => s

def splitHostPort (s : List Char) : Option (List Char × List Char) :=
  match Net.splitOnChar ':' s with
  | [host, port] => if '[' ∈ s ∨ ']' ∈ s then none else some (host, port)
  | _ => none

def splitAddressHostPort (address : String) : List Char × Int :=
  let address := Service.Ports.trimSpace address.toList
  if address = [] then ([], 0)
  else
    let host := (afterFirst "://".toList address).takeWhile (· ≠ '/')
    match host with
    | '[' :: bracketed =>
        if ']' ∈ bracketed then
          let port := match (bracketed.dropWhile (· ≠ ']')).drop 1 with
            | ':' :: port => (Leaf.atoi port).getD 53
            | _ => 53
          (bracketed.takeWhile (· ≠ ']'), port)
        else (host, 53)
    | _ =>
        match splitHostPort host with
        | some (host, port) => (host, (Leaf.atoi port).getD 53)
        | none => (host, 53)

section
-- the integer part of a number
variable (truncated : NumLit → Int)

def explicitPort (entry : Fields) : Int :=
  match entry["port"]? with
  | some (.num n) => if n.neg then 0 else truncated n
  | _ => 0

def endpointAt (address : String) (explicit : Int) : Option DnsServerEndpoint := do
  let (host, port) := splitAddressHostPort address
  if host = [] then none
  else
    let ip ← Net.ipValue (.ofList host)
    if isBlockedIP ip then return ⟨ipText ip, if 0 < explicit then explicit else port⟩ else none

def privateDnsServerEndpoint : Json → Option DnsServerEndpoint
  | .str address => endpointAt address 0
  | .obj members =>
      let entry : Fields := .ofList members
      endpointAt (entry.text "address") (explicitPort truncated entry)
  | _ => none

/-- The `servers` of the `dns` section; one that cannot be decoded has none. -/
def dnsServers (dns : Option Json) : List Json :=
  ((dns.bind Json.asFields).bind fun dns => (dns["servers"]?.getD .null).asList some).getD []

def privateEndpoints (dns : Option Json) : List DnsServerEndpoint :=
  (dnsServers dns).filterMap (privateDnsServerEndpoint truncated)

def collectPrivateDnsAllowGroups (dns : Option Json) : List DnsAllowPortGroup :=
  let endpoints := privateEndpoints truncated dns
  let ports := (endpoints.map (·.port)).dedup.mergeSort
  ports.map fun port => ⟨port, ((endpoints.filter (·.port = port)).map (·.ip)).dedup.mergeSort⟩

/-! ## `EnsureDnsServerRouting` -/

/-- The members of a rule; `null` has none. -/
def ruleOf (item : Json) : Rule := item.asFields.getD ∅

def readRules (rules : Json) : Option (List Json) :=
  (canon rules).asList fun item => if item.asFields.isSome then some item else none

def rebuildRules (groups : List DnsAllowPortGroup) (rules : List Json) : List Json :=
  let clean := rules.filter fun rule => !managedDnsAllowRule groups (ruleOf rule)
  match clean.findIdx? (isPrivateBlockRule <| ruleOf ·) with
  | none => clean
  | some i =>
      if groups.isEmpty then clean
      else clean.take i ++ (groups.map (.ofFields <| dnsAllowRule ·) ++ clean.drop i)

def routingRules (routing : Fields) : Option (List Json) := readRules (routing["rules"]?.getD (.arr []))

def jsonEqual (a b : Json) : Bool := canon a = canon b

/-- The template after the call, `none` where it cannot be decoded. -/
def ensureDnsServerRouting (raw : Json) : Option Json := do
  let cfg ← raw.asFields
  let groups := collectPrivateDnsAllowGroups truncated cfg["dns"]?
  match cfg["routing"]?.getD .null with
  | .null => return raw
  | section' => do
      let routing ← section'.asFields
      let original ← routingRules routing
      let rules := .arr (rebuildRules groups original)
      if jsonEqual (routing["rules"]?.getD (.arr [])) rules then return raw
      else return .ofFields (cfg.insert "routing" (.ofFields (routing.insert "rules" rules)))

end

/-! ## Canonical values -/

theorem canonMembers_map (members : List (String × Json)) :
    canonMembers members = members.map fun member => (member.1, canon member.2) := by
  induction members with
  | nil => rfl
  | cons member members ih =>
      obtain ⟨key, j⟩ := member
      simp only [canonMembers, ih, List.map_cons]

theorem canonItems_map (items : List Json) : canonItems items = items.map canon := by
  induction items with
  | nil => rfl
  | cons j items ih => simp only [canonItems, ih, List.map_cons]

theorem canon_arr {items : List Json} (canonical : ∀ j ∈ items, canon j = j) : canon (.arr items) = .arr items := by
  rw [canon, canonItems_map, List.map_congr_left canonical, List.map_id']

theorem canon_ofFields {o : Fields} (canonical : ∀ (key : String) (j : Json), o[key]? = some j → canon j = j) :
    canon (.ofFields o) = .ofFields o := by
  have members : o.toList.map (fun member => (member.1, canon member.2)) = o.toList := by
    conv_rhs => rw [← List.map_id o.toList]
    apply List.map_congr_left
    intro member mem
    have found := Std.ExtTreeMap.mem_toList_iff_getElem?_eq_some.mp mem
    rw [canonical _ _ found, id]
  have same := Json.asFields_ofFields o
  simp only [Json.asFields, Json.ofFields, Option.some.injEq] at same
  rw [Json.ofFields, canon, canonMembers_map, members, same]
  rfl

mutual

theorem canon_canon : ∀ j : Json, canon (canon j) = canon j
  | .null => rfl
  | .bool _ => rfl
  | .num _ => rfl
  | .str _ => rfl
  | .arr items => by
      rw [canon]
      exact canon_arr (canonItems_canonical items)
  | .obj members => by
      rw [canon]
      apply canon_ofFields
      intro key j found
      exact ofList_values (p := fun j => canon j = j) _ (canonMembers_canonical members) found

theorem canonItems_canonical : ∀ items : List Json, ∀ j ∈ canonItems items, canon j = j
  | [] => by simp [canonItems]
  | j :: items => by
      rw [canonItems, List.forall_mem_cons]
      exact ⟨canon_canon j, canonItems_canonical items⟩

theorem canonMembers_canonical : ∀ members : List (String × Json), ∀ e ∈ canonMembers members, canon e.2 = e.2
  | [] => by simp [canonMembers]
  | (_, j) :: members => by
      rw [canonMembers, List.forall_mem_cons]
      exact ⟨canon_canon j, canonMembers_canonical members⟩

end

/-! ## Rebuilding the rules -/

section
variable (groups : List DnsAllowPortGroup)

def allowItem (group : DnsAllowPortGroup) : Json := .ofFields (dnsAllowRule group)

def unmanaged (rules : List Json) : List Json := rules.filter fun rule => !managedDnsAllowRule groups (ruleOf rule)

theorem rebuildRules_eq (rules : List Json) : rebuildRules groups rules =
    insertBefore (isPrivateBlockRule <| ruleOf ·) (groups.map allowItem) (unmanaged groups rules) := by
  unfold rebuildRules insertBefore unmanaged
  simp only
  cases List.findIdx? (isPrivateBlockRule <| ruleOf ·) (rules.filter fun rule => !managedDnsAllowRule groups (ruleOf rule)) with
  | none => rfl
  | some i =>
      cases groups with
      | nil => simp
      | cons group groups => rfl

@[simp] theorem ruleOf_allowItem (group : DnsAllowPortGroup) : ruleOf (allowItem group) = dnsAllowRule group := by
  simp [ruleOf, allowItem]

theorem insertBefore_parts {α : Type*} (p : α → Bool) (extra l : List α) :
    ∃ before after, before ++ after = l ∧ (∀ a ∈ before, p a = false) ∧ (∀ first ∈ after.head?, p first = true) ∧
      insertBefore p extra l = before ++ ((if after = [] then [] else extra) ++ after) := by
  induction l with
  | nil => exact ⟨[], [], rfl, by simp, by simp, rfl⟩
  | cons a l ih =>
      rw [insertBefore_cons]
      cases picked : p a with
      | true => exact ⟨[], a :: l, rfl, by simp, by simp [picked], by simp⟩
      | false =>
          obtain ⟨before, after, whole, unpicked, first, inserted⟩ := ih
          refine ⟨a :: before, after, by simp [whole], ?_, first, by simp [inserted]⟩
          rw [List.forall_mem_cons]
          exact ⟨picked, unpicked⟩

theorem rebuildRules_again (rules : List Json) : rebuildRules groups (rebuildRules groups rules) = rebuildRules groups rules := by
  have clean : unmanaged groups (rebuildRules groups rules) = unmanaged groups rules := by
    rw [rebuildRules_eq]
    obtain ⟨before, after, whole, -, -, inserted⟩ :=
      insertBefore_parts (isPrivateBlockRule <| ruleOf ·) (groups.map allowItem) (unmanaged groups rules)
    have own : unmanaged groups (if after = [] then [] else groups.map allowItem) = [] := by
      split
      · rfl
      · simp [unmanaged, List.filter_eq_nil_iff, dnsAllowRule_managed]
    have kept : unmanaged groups (unmanaged groups rules) = unmanaged groups rules := by
      simp [unmanaged, List.filter_filter]
    rw [inserted]
    unfold unmanaged at own kept ⊢
    rw [List.filter_append, List.filter_append, own, List.nil_append, ← List.filter_append, whole]
    exact kept
  rw [rebuildRules_eq, clean, ← rebuildRules_eq]

theorem dnsAllowRule_canonical (group : DnsAllowPortGroup) : canon (allowItem group) = allowItem group := by
  apply canon_ofFields
  intro key j found
  have strings : canon (.arr (group.ips.map .str)) = .arr (group.ips.map .str) := by
    apply canon_arr
    intro j mem
    obtain ⟨ip, -, rfl⟩ := List.mem_map.mp mem
    rfl
  refine ofList_values (p := fun j => canon j = j) _ ?_ found
  simp only [List.forall_mem_cons]
  exact ⟨rfl, rfl, strings, rfl, rfl, by simp⟩

theorem rebuildRules_canonical {rules : List Json} (canonical : ∀ j ∈ rules, canon j = j) :
    ∀ j ∈ rebuildRules groups rules, canon j = j := by
  intro j mem
  rw [rebuildRules_eq] at mem
  rcases mem_insertBefore mem with own | kept
  · obtain ⟨group, -, rfl⟩ := List.mem_map.mp own
    exact dnsAllowRule_canonical group
  · exact canonical j (List.mem_of_mem_filter kept)

end

/-! ## The rules of a template -/

def isRule (item : Json) : Bool := item.asFields.isSome

theorem mapM_checked {α : Type*} {check : α → Bool} {items out : List α} :
    items.mapM (fun a => if check a then some a else none) = some out ↔ out = items ∧ ∀ a ∈ items, check a = true := by
  induction items generalizing out with
  | nil =>
      rw [List.mapM_nil, Option.pure_def, Option.some.injEq, eq_comm]
      simp
  | cons a items ih =>
      cases checked : check a with
      | false => simp [checked]
      | true =>
          simp only [List.mapM_cons, checked, ↓reduceIte, Option.bind_eq_bind, Option.bind_some, Option.bind_eq_some_iff,
            Option.pure_def, Option.some.injEq, List.forall_mem_cons, true_and]
          constructor
          · rintro ⟨rest, read, rfl⟩
            obtain ⟨rfl, all⟩ := ih.mp read
            exact ⟨rfl, all⟩
          · rintro ⟨rfl, all⟩
            exact ⟨items, ih.mpr ⟨rfl, all⟩, rfl⟩

theorem readRules_sound {rules : Json} {items : List Json} (read : readRules rules = some items) :
    (∀ j ∈ items, canon j = j) ∧ ∀ j ∈ items, isRule j = true := by
  unfold readRules Json.asList at read
  cases form : canon rules with
  | arr decoded =>
      rw [form] at read
      obtain ⟨rfl, each⟩ := mapM_checked.mp read
      refine ⟨?_, each⟩
      have fixed := canon_canon rules
      rw [form, canon, canonItems_map, Json.arr.injEq] at fixed
      exact List.map_inj_left.mp (fixed.trans (List.map_id _).symm)
  | null =>
      rw [form] at read
      cases read
      simp
  | bool _ | num _ | str _ | obj _ =>
      rw [form] at read
      cases read

theorem readRules_arr {items : List Json} (canonical : ∀ j ∈ items, canon j = j) (each : ∀ j ∈ items, isRule j = true) :
    readRules (.arr items) = some items := by
  unfold readRules
  rw [canon_arr canonical]
  exact mapM_checked.mpr ⟨rfl, each⟩

theorem rebuildRules_isRule (groups : List DnsAllowPortGroup) {rules : List Json} (each : ∀ j ∈ rules, isRule j = true) :
    ∀ j ∈ rebuildRules groups rules, isRule j = true := by
  intro j mem
  rw [rebuildRules_eq] at mem
  rcases mem_insertBefore mem with own | kept
  · obtain ⟨group, -, rfl⟩ := List.mem_map.mp own
    simp [isRule, allowItem]
  · exact each j (List.mem_of_mem_filter kept)

def routingSection (raw : Json) : Option Fields := do
  let cfg ← raw.asFields
  cfg["routing"]?.bind Json.asFields

def templateRules (raw : Json) : Option (List Json) := (routingSection raw).bind routingRules

def dnsOf (raw : Json) : Option Json := raw.asFields.bind (·["dns"]?)

section
variable (truncated : NumLit → Int) {raw : Json} {rules : List Json}

theorem ensure_eq {cfg routing : Fields} {routed : Json} (decoded : raw.asFields = some cfg)
    (found : cfg["routing"]? = some routed) (present : routed ≠ .null) (fields : routed.asFields = some routing)
    (read : routingRules routing = some rules) :
    ensureDnsServerRouting truncated raw =
      let rebuilt := .arr (rebuildRules (collectPrivateDnsAllowGroups truncated cfg["dns"]?) rules)
      if jsonEqual (routing["rules"]?.getD (.arr [])) rebuilt then some raw
      else some (.ofFields (cfg.insert "routing" (.ofFields (routing.insert "rules" rebuilt)))) := by
  unfold ensureDnsServerRouting
  rw [decoded]
  simp only [Option.bind_eq_bind, Option.bind_some, found, Option.getD_some]
  cases routed with
  | null => exact absurd rfl present
  | obj members =>
      simp only [fields, Option.bind_some, read]
      split <;> rfl
  | bool _ | num _ | str _ | arr _ => cases fields

theorem ensure_rebuilds (read : templateRules raw = some rules) :
    ∃ out, ensureDnsServerRouting truncated raw = some out ∧ ensureDnsServerRouting truncated out = some out ∧
      dnsOf out = dnsOf raw ∧
      templateRules out = some (rebuildRules (collectPrivateDnsAllowGroups truncated (dnsOf raw)) rules) := by
  obtain ⟨routing, route, ruled⟩ := Option.bind_eq_some_iff.mp read
  obtain ⟨cfg, decoded, route⟩ := Option.bind_eq_some_iff.mp route
  obtain ⟨routed, found, fields⟩ := Option.bind_eq_some_iff.mp route
  have dns : dnsOf raw = cfg["dns"]? := by rw [dnsOf, decoded, Option.bind_some]
  obtain ⟨canonical, each⟩ := readRules_sound ruled
  rw [dns]
  generalize same : collectPrivateDnsAllowGroups truncated cfg["dns"]? = groups
  have rebuiltRead := readRules_arr (rebuildRules_canonical groups canonical) (rebuildRules_isRule groups each)
  by_cases absent : routed = .null
  · subst absent
    cases fields
    have empty : rules = [] := by
      have nothing : readRules (.arr []) = some [] := readRules_arr (by simp) (by simp)
      exact Option.some.inj (ruled.symm.trans nothing)
    have kept : ensureDnsServerRouting truncated raw = some raw := by
      unfold ensureDnsServerRouting
      rw [decoded]
      simp only [Option.bind_eq_bind, Option.bind_some, found, Option.getD_some]
      rfl
    refine ⟨raw, kept, kept, dns, ?_⟩
    rw [read, empty]
    rfl
  · have step := ensure_eq truncated decoded found absent fields ruled
    simp only [same] at step
    by_cases equal : jsonEqual (routing["rules"]?.getD (.arr [])) (.arr (rebuildRules groups rules)) = true
    · rw [if_pos equal] at step
      refine ⟨raw, step, step, dns, ?_⟩
      have spelled : canon (routing["rules"]?.getD (.arr [])) = canon (.arr (rebuildRules groups rules)) := by
        simpa [jsonEqual] using equal
      have reread : readRules (routing["rules"]?.getD (.arr [])) = readRules (.arr (rebuildRules groups rules)) := by
        unfold readRules
        rw [spelled]
      rw [read, ← rebuiltRead, ← reread]
      exact ruled.symm
    · rw [if_neg equal] at step
      generalize new : routing.insert "rules" (.arr (rebuildRules groups rules)) = routing' at step
      have own : routing'["rules"]? = some (.arr (rebuildRules groups rules)) := by
        rw [← new, Std.ExtTreeMap.getElem?_insert_self]
      have reread : routingRules routing' = some (rebuildRules groups rules) := by
        rw [routingRules, own]
        exact rebuiltRead
      have servers : (cfg.insert "routing" (.ofFields routing'))["dns"]? = cfg["dns"]? := by
        rw [Std.ExtTreeMap.getElem?_insert, if_neg (by decide)]
      refine ⟨_, step, ?_, ?_, ?_⟩
      · rw [ensure_eq truncated (Json.asFields_ofFields _) Std.ExtTreeMap.getElem?_insert_self (by simp [Json.ofFields])
          (Json.asFields_ofFields _) reread]
        simp only [servers, same, rebuildRules_again, own, Option.getD_some, jsonEqual, decide_true, ↓reduceIte]
      · rw [dnsOf, Json.asFields_ofFields, Option.bind_some, servers]
      · simpa [templateRules, routingSection] using reread

end

/-! ## The groups of the private servers -/

/-- One group for each port of the endpoints, with the addresses of the endpoints that have it. -/
structure Grouped (endpoints : List DnsServerEndpoint) (groups : List DnsAllowPortGroup) : Prop where
  distinct : (groups.map (·.port)).Nodup
  ports : ∀ port, port ∈ groups.map (·.port) ↔ ∃ e ∈ endpoints, e.port = port
  once : ∀ group ∈ groups, group.ips.Nodup
  sorted : ∀ group ∈ groups, group.ips.Pairwise (· ≤ ·)
  ips : ∀ group ∈ groups, ∀ ip, ip ∈ group.ips ↔ ∃ e ∈ endpoints, e.port = group.port ∧ e.ip = ip

theorem mem_sorted {α : Type*} [DecidableEq α] (le : α → α → Bool) (l : List α) (a : α) :
    a ∈ l.dedup.mergeSort le ↔ a ∈ l := by
  rw [List.mem_mergeSort, List.mem_dedup]

theorem nodup_sorted {α : Type*} [DecidableEq α] (le : α → α → Bool) (l : List α) : (l.dedup.mergeSort le).Nodup :=
  (List.mergeSort_perm l.dedup le).nodup_iff.mpr l.nodup_dedup

theorem collect_grouped (truncated : NumLit → Int) (dns : Option Json) :
    Grouped (privateEndpoints truncated dns) (collectPrivateDnsAllowGroups truncated dns) := by
  have ports : (collectPrivateDnsAllowGroups truncated dns).map (·.port) =
      ((privateEndpoints truncated dns).map (·.port)).dedup.mergeSort := by
    unfold collectPrivateDnsAllowGroups
    rw [List.map_map]
    exact List.map_id _
  constructor
  · rw [ports]
    exact nodup_sorted _ _
  · intro port
    rw [ports, mem_sorted, List.mem_map]
  · intro group mem
    obtain ⟨port, -, rfl⟩ := List.mem_map.mp mem
    exact nodup_sorted _ _
  · intro group mem
    obtain ⟨port, -, rfl⟩ := List.mem_map.mp mem
    have sorted := @List.pairwise_mergeSort _ (fun a b : String => decide (a ≤ b))
      (by simpa using fun a b c => le_trans) (by simpa using le_total)
      ((((privateEndpoints truncated dns).filter (·.port = port)).map (·.ip)).dedup)
    exact sorted.imp (by simp)
  · intro group mem ip
    obtain ⟨port, -, rfl⟩ := List.mem_map.mp mem
    simp only [mem_sorted, List.mem_map, List.mem_filter, decide_eq_true_eq, and_assoc]

/-! ## The law -/

def switchedOff (rule : Rule) : Bool := rule["enabled"]? = some (.bool false)

def owned (groups : List DnsAllowPortGroup) (rule : Json) : Bool :=
  managedDnsAllowRule groups (ruleOf rule) && !switchedOff (ruleOf rule)

/-- `before` and `after` are the rules that are not the panel's, in their order, and its own stand between them,
in front of the first rule that blocks private addresses. -/
structure Placed (groups : List DnsAllowPortGroup) (rules result before after : List Json) : Prop where
  kept : before ++ after = rules.filter fun rule => !owned groups rule
  clear : ∀ rule ∈ before, isPrivateBlockRule (ruleOf rule) = false
  block : ∀ rule ∈ after.head?, isPrivateBlockRule (ruleOf rule) = true
  result : result = before ++ ((if after = [] then [] else groups.map allowItem) ++ after)

/-- A call on a template with these rules places the rules of its private servers, and a second one changes nothing. -/
def DnsRouted (truncated : NumLit → Int) (raw : Json) (rules : List Json) : Prop :=
  ∃ out result, ensureDnsServerRouting truncated raw = some out ∧ ensureDnsServerRouting truncated out = some out ∧
    templateRules out = some result ∧
    ∃ groups, Grouped (privateEndpoints truncated (dnsOf raw)) groups ∧ ∃ before after, Placed groups rules result before after

/-- No rule that carries the panel's tag is switched off. -/
def TaggedOn (rules : List Json) : Prop :=
  ∀ rule ∈ rules, Fields.text (ruleOf rule) "ruleTag" = dnsAllowRuleTag → switchedOff (ruleOf rule) = false

theorem shape_on {rule : Rule} (shape : dnsAllowRuleShape rule = true) : switchedOff rule = false := by
  unfold switchedOff
  rw [decide_eq_false_iff_not]
  intro off
  unfold dnsAllowRuleShape at shape
  have all := (Bool.and_eq_true_iff.mp shape).2
  have entry := List.all_eq_true.mp all _ (Std.ExtTreeMap.mem_toList_iff_getElem?_eq_some.mpr off)
  revert entry
  decide

theorem owned_eq {groups : List DnsAllowPortGroup} {rules : List Json} (on : TaggedOn rules) {rule : Json} (mem : rule ∈ rules) :
    owned groups rule = managedDnsAllowRule groups (ruleOf rule) := by
  unfold owned
  cases managed : managedDnsAllowRule groups (ruleOf rule) with
  | false => rfl
  | true =>
      unfold managedDnsAllowRule at managed
      rw [Bool.or_eq_true] at managed
      rcases managed with tagged | shaped
      · rw [on rule mem (by simpa using tagged)]
        rfl
      · rw [shape_on (Bool.and_eq_true_iff.mp shaped).1]
        rfl

theorem off_gone {groups : List DnsAllowPortGroup} {rules : List Json} {rule : Json}
    (tagged : Fields.text (ruleOf rule) "ruleTag" = dnsAllowRuleTag) (off : switchedOff (ruleOf rule) = true) :
    rule ∉ rebuildRules groups rules := by
  intro mem
  rw [rebuildRules_eq] at mem
  rcases mem_insertBefore mem with own | kept
  · obtain ⟨group, -, rfl⟩ := List.mem_map.mp own
    have absent : (dnsAllowRule group)["enabled"]? = none := Std.ExtTreeMap.getElem?_ofList_of_contains_eq_false (by simp)
    rw [ruleOf_allowItem, switchedOff, absent] at off
    cases off
  · have unmanaged := (List.mem_filter.mp kept).2
    simp [managedDnsAllowRule, tagged] at unmanaged

theorem taggedOn_of_routed {truncated : NumLit → Int} {raw : Json} {rules : List Json} (read : templateRules raw = some rules)
    (routed : DnsRouted truncated raw rules) : TaggedOn rules := by
  obtain ⟨out, step, -, -, rebuilt⟩ := ensure_rebuilds truncated read
  obtain ⟨out', result, step', -, read', groups, -, before, after, placed⟩ := routed
  cases step.symm.trans step'
  cases rebuilt.symm.trans read'
  intro rule mem tagged
  by_contra off
  rw [Bool.not_eq_false] at off
  apply off_gone tagged off
  have stays : rule ∈ before ++ after := by
    rw [placed.kept, List.mem_filter]
    exact ⟨mem, by simp [owned, off]⟩
  rw [placed.result]
  rcases List.mem_append.mp stays with front | back
  · exact List.mem_append_left _ front
  · exact List.mem_append_right _ (List.mem_append_right _ back)

/-- For every template whose routing rules can be read: a call leaves the rules that are not the panel's and puts its own
in their place, and a second call changes nothing, exactly where no rule that carries its tag is switched off. -/
theorem dns_routed {truncated : NumLit → Int} {raw : Json} {rules : List Json} (read : templateRules raw = some rules) :
    DnsRouted truncated raw rules ↔ TaggedOn rules := by
  constructor
  · exact taggedOn_of_routed read
  · intro on
    obtain ⟨out, step, again, -, rebuilt⟩ := ensure_rebuilds truncated read
    have grouped := collect_grouped truncated (dnsOf raw)
    generalize collectPrivateDnsAllowGroups truncated (dnsOf raw) = groups at rebuilt grouped
    obtain ⟨before, after, whole, clear, block, inserted⟩ :=
      insertBefore_parts (isPrivateBlockRule <| ruleOf ·) (groups.map allowItem) (unmanaged groups rules)
    refine ⟨out, _, step, again, rebuilt, groups, grouped, before, after, ?_, clear, block, ?_⟩
    · rw [whole]
      apply List.filter_congr
      intro rule mem
      rw [owned_eq on mem]
    · rw [rebuildRules_eq, inserted]

/-! ## Two templates -/

def blockRule : Json :=
  .obj [("ip", .arr [.str "geoip:private"]), ("outboundTag", .str "blocked"), ("type", .str "field")]

def toggledRule : Json :=
  .obj [("enabled", .bool false), ("ip", .arr [.str "10.0.0.1"]), ("outboundTag", .str "direct"), ("port", .str "53"),
    ("ruleTag", .str "xui-dns-allow"), ("type", .str "field")]

def dnsTemplate (servers : List String) (rules : List Json) : Json :=
  .obj [("dns", .obj [("servers", .arr (servers.map .str))]), ("routing", .obj [("rules", .arr rules)])]

theorem dns_routed_plain : templateRules (dnsTemplate ["tcp://10.0.0.1:5353", "1.1.1.1", "localhost"] [blockRule]) =
      some [blockRule] ∧
    DnsRouted (fun n => n.digits) (dnsTemplate ["tcp://10.0.0.1:5353", "1.1.1.1", "localhost"] [blockRule]) [blockRule] :=
  have read : templateRules (dnsTemplate ["tcp://10.0.0.1:5353", "1.1.1.1", "localhost"] [blockRule]) =
    some [blockRule] := by decide +kernel
  have on : TaggedOn [blockRule] := by
    unfold TaggedOn
    decide +kernel
  ⟨read, (dns_routed read).mpr on⟩

/-- The rule that the admin has switched off is replaced by one that is on. -/
theorem dns_toggled : templateRules (dnsTemplate ["10.0.0.1"] [toggledRule, blockRule]) = some [toggledRule, blockRule] ∧
    ¬ DnsRouted (fun n => n.digits) (dnsTemplate ["10.0.0.1"] [toggledRule, blockRule]) [toggledRule, blockRule] := by
  have read : templateRules (dnsTemplate ["10.0.0.1"] [toggledRule, blockRule]) = some [toggledRule, blockRule] := by
    decide +kernel
  refine ⟨read, ?_⟩
  intro routed
  have on := taggedOn_of_routed read routed toggledRule List.mem_cons_self (by decide +kernel)
  revert on
  decide +kernel

end ThreeXNode.Xray
