import ThreeXNode.MTProto.Lines

namespace ThreeXNode.MTProto
open Library Toml

variable {isPrint : Char → Bool}

/-! ## The document of an instance -/

def entryIf (p : Prop) [Decidable p] (key : String) (value : Value) : List (Text × Value) :=
  if p then [(key.toList, value)] else []

def text (s : String) : Value := .str s.toList

def rootTable (inst : Instance) (apiPort : Nat) (apiToken : String) : Table where
  path := []
  entries :=
    [("bind-to".toList, text inst.bindTo)] ++
    entryIf inst.debug "debug" (.bool true) ++
    entryIf inst.proxyProtocolListener "proxy-protocol-listener" (.bool true) ++
    entryIf (inst.preferIP ≠ "") "prefer-ip" (text inst.preferIP) ++
    [("api-bind-to".toList, .str ("127.0.0.1:".toList ++ (toString apiPort).toList))] ++
    entryIf (apiToken ≠ "") "api-token" (text apiToken) ++
    entryIf (inst.publicIPv4 ≠ "") "public-ipv4" (text inst.publicIPv4) ++
    entryIf (inst.publicIPv6 ≠ "") "public-ipv6" (text inst.publicIPv6)

def frontingTable (inst : Instance) : Table where
  path := ["domain-fronting".toList]
  entries :=
    entryIf (inst.frontingIP ≠ "") "host" (text inst.frontingIP) ++
    entryIf (inst.frontingPort > 0) "port" (.int inst.frontingPort) ++
    entryIf inst.frontingProxyProtocol "proxy-protocol" (.bool true)

def networkTable (inst : Instance) : Table where
  path := ["network".toList]
  entries := [("proxies".toList, .strs ["socks5://127.0.0.1:".toList ++ (toString inst.xrayRoutePort).toList])]

def throttleTable (inst : Instance) : Table where
  path := ["throttle".toList]
  entries := [("max-connections".toList, .int inst.throttleMaxConnections)]

def tagTable (tagged : List SecretEntry) : Table where
  path := ["secret-ad-tags".toList]
  entries := tagged.map fun e => (e.name.toList, text e.adTag)

def limitTable (e : SecretEntry) : Table where
  path := ["secret-limits".toList, e.name.toList]
  entries :=
    entryIf (e.quotaBytes > 0) "quota" (text (quotaString e.quotaBytes)) ++
    entryIf (e.expiresUnix > 0) "expires" (text (expiresString e.expiresUnix))

def secretTable (inst : Instance) : Table where
  path := ["secrets".toList]
  entries := inst.secrets.map fun e => (e.name.toList, text e.secret)

def tableIf (p : Prop) [Decidable p] (table : Table) : List Table := if p then [table] else []

def configTables (inst : Instance) : List Table :=
  let tagged := inst.secrets.filter (·.adTag ≠ "")
  let limited := inst.secrets.filter fun e => e.quotaBytes > 0 ∨ e.expiresUnix > 0
  tableIf (inst.frontingIP ≠ "" ∨ inst.frontingPort > 0 ∨ inst.frontingProxyProtocol) (frontingTable inst) ++
  tableIf (inst.routeThroughXray ∧ inst.xrayRoutePort > 0) (networkTable inst) ++
  tableIf (inst.throttleMaxConnections > 0) (throttleTable inst) ++
  tableIf (tagged ≠ []) (tagTable tagged) ++
  limited.map limitTable ++
  [secretTable inst]

/-- Every text of an instance has a form that a basic string has too, and no two secrets share a name. -/
structure Clean (inst : Instance) : Prop where
  bindTo : Renderable inst.bindTo
  preferIP : Renderable inst.preferIP
  frontingIP : Renderable inst.frontingIP
  publicIPv4 : Renderable inst.publicIPv4
  publicIPv6 : Renderable inst.publicIPv6
  names : ∀ e ∈ inst.secrets, Renderable e.name
  secrets : ∀ e ∈ inst.secrets, Renderable e.secret
  adTags : ∀ e ∈ inst.secrets, Renderable e.adTag
  distinct : (inst.secrets.map (·.name)).Nodup

def entryLines (entries : List (Text × Value)) : List Line := entries.map fun entry => .entry entry.1 entry.2

theorem entryLines_append (front back : List (Text × Value)) :
    entryLines (front ++ back) = entryLines front ++ entryLines back := List.map_append

theorem Reads.entries {texts texts' : List Text} {entries entries' : List (Text × Value)}
    (front : Reads texts (entryLines entries)) (back : Reads texts' (entryLines entries')) :
    Reads (texts ++ texts') (entryLines (entries ++ entries')) := by
  rw [entryLines_append]
  exact front.append back

theorem reads_if {p : Prop} [Decidable p] {line : Text} {k : String} {value : Value}
    (reads : p → Reads [line] [.entry k.toList value]) : Reads (lineIf p line) (entryLines (entryIf p k value)) := by
  unfold lineIf entryIf
  by_cases holds : p
  · rw [if_pos holds, if_pos holds]
    exact reads holds
  · rw [if_neg holds, if_neg holds]
    exact Reads.nil

theorem reads_header {line : Text} {path : List Text} (single : '\n' ∉ line) (read : readLine line = some (.header path)) :
    Reads [[], line] [.blank, .header path] :=
  (Reads.single (by simp) rfl : Reads [[]] [.blank]).append (Reads.single single read)

theorem reads_table {texts : List Text} {lines : List Line} (p : Prop) [Decidable p] (table : Table)
    (same : p → table.lines = lines) (reads : p → Reads texts lines) :
    Reads (if p then texts else []) ((tableIf p table).flatMap Table.lines) := by
  unfold tableIf
  by_cases holds : p
  · rw [if_pos holds, if_pos holds, List.flatMap_cons, List.flatMap_nil, List.append_nil, same holds]
    exact reads holds
  · rw [if_neg holds, if_neg holds]
    exact Reads.nil

def Shown (s : String) : Prop := ∀ c ∈ s.toList, 32 ≤ c.toNat ∧ c.toNat < 127

theorem Shown.renderable {s : String} (shown : Shown s) : Renderable s := by
  intro c mem awkward
  have := shown c mem
  have := awkward.1
  omega

theorem Shown.append {s t : String} (front : Shown s) (back : Shown t) : Shown (s ++ t) := by
  intro c mem
  rw [String.toList_append, List.mem_append] at mem
  exact mem.elim (front c) (back c)

theorem shown_nat (n : Nat) : Shown (toString n) := by
  intro c mem
  rw [Nat.toString_eq_repr, Nat.repr_eq_ofList_toDigits, String.toList_ofList] at mem
  have := digit_range (Nat.isDigit_of_mem_toDigits (by decide) (by decide) mem)
  omega

theorem shown_padded (width n : Nat) : Shown (padded width n) := by
  refine Shown.append ?_ (shown_nat n)
  intro c mem
  rw [String.toList_ofList] at mem
  rw [List.eq_of_mem_replicate mem]
  decide

theorem shown_quota {bytes : Int} (positive : bytes > 0) : Shown (quotaString bytes) := by
  obtain ⟨m, rfl⟩ := Int.eq_ofNat_of_zero_le positive.le
  refine Shown.append (shown_nat m) ?_
  unfold Shown
  simp

theorem shown_expires (unix : Int) : Shown (expiresString unix) := by
  have mark : Shown "-" ∧ Shown "T" ∧ Shown ":" ∧ Shown "Z" := by
    unfold Shown
    simp
  obtain ⟨dash, t, colon, z⟩ := mark
  unfold expiresString
  dsimp only
  generalize civil (unix.toNat / 86400) = date
  obtain ⟨year, month, day⟩ := date
  dsimp only
  have date := (((shown_padded 4 year).append dash).append (shown_padded 2 month)).append dash
  have hour := ((date.append (shown_padded 2 day)).append t).append (shown_padded 2 (unix.toNat % 86400 / 3600))
  have minute := (hour.append colon).append (shown_padded 2 (unix.toNat % 3600 / 60))
  exact ((minute.append colon).append (shown_padded 2 (unix.toNat % 60))).append z

theorem reads_root (hides : Hides isPrint) {inst : Instance} (clean : Clean inst) (apiPort : Nat) {apiToken : String}
    (token : Renderable apiToken) :
    Reads
      (["bind-to = ".toList ++ quote isPrint inst.bindTo] ++
        lineIf inst.debug "debug = true".toList ++
        lineIf inst.proxyProtocolListener "proxy-protocol-listener = true".toList ++
        lineIf (inst.preferIP ≠ "") ("prefer-ip = ".toList ++ quote isPrint inst.preferIP) ++
        ["api-bind-to = \"127.0.0.1:".toList ++ (toString apiPort).toList ++ "\"".toList] ++
        lineIf (apiToken ≠ "") ("api-token = ".toList ++ quote isPrint apiToken) ++
        lineIf (inst.publicIPv4 ≠ "") ("public-ipv4 = ".toList ++ quote isPrint inst.publicIPv4) ++
        lineIf (inst.publicIPv6 ≠ "") ("public-ipv6 = ".toList ++ quote isPrint inst.publicIPv6))
      (entryLines (rootTable inst apiPort apiToken).entries) := by
  refine Reads.entries (Reads.entries (Reads.entries (Reads.entries (Reads.entries (Reads.entries (Reads.entries
    ?_ ?_) ?_) ?_) ?_) ?_) ?_) ?_
  · exact reads_text hides (k := "bind-to") (by simp) (by decide) clean.bindTo
  · exact reads_if fun _ => reads_true (k := "debug") (by simp) (by decide)
  · exact reads_if fun _ => reads_true (k := "proxy-protocol-listener") (by simp) (by decide)
  · exact reads_if fun _ => reads_text hides (k := "prefer-ip") (by simp) (by decide) clean.preferIP
  · exact reads_apiBindTo apiPort
  · exact reads_if fun _ => reads_text hides (k := "api-token") (by simp) (by decide) token
  · exact reads_if fun _ => reads_text hides (k := "public-ipv4") (by simp) (by decide) clean.publicIPv4
  · exact reads_if fun _ => reads_text hides (k := "public-ipv6") (by simp) (by decide) clean.publicIPv6

theorem reads_int {line : Text} {k : String} {n : Int} (written : line = k.toList ++ " = ".toList ++ (toString n).toList)
    (bare : BareKey k) (positive : 0 < n) : Reads [line] [.entry k.toList (.int n)] := by
  have read := readValue_positive positive
  obtain ⟨m, rfl⟩ := Int.eq_ofNat_of_zero_le positive.le
  have digits : (toString (m : Int)).toList = Nat.toDigits 10 m := by
    show (toString m).toList = _
    rw [Nat.toString_eq_repr, Nat.repr_eq_ofList_toDigits, String.toList_ofList]
  rw [digits] at written read
  have first : ∀ c ∈ (Nat.toDigits 10 m).head?, c.isDigit = true := fun c mem =>
    Nat.isDigit_of_mem_toDigits (by decide) (by decide) (List.mem_of_mem_head? mem)
  rw [written]
  apply reads_bare rfl bare (newline_not_mem_digits m) ?_ ?_ read
  · intro space
    exact absurd (first ' ' space) (by decide)
  · intro tab
    exact absurd (first '\t' tab) (by decide)

theorem regroup (a b c d e f g h : List Line) :
    a ++ (b ++ c ++ d ++ e ++ f ++ (g ++ h)) = a ++ b ++ c ++ d ++ e ++ f ++ g ++ h := by
  simp only [List.append_assoc]

theorem reads_config (hides : Hides isPrint) {inst : Instance} (clean : Clean inst) (apiPort : Nat) {apiToken : String}
    (token : Renderable apiToken) :
    Reads (configLines isPrint inst apiPort apiToken) (linesOf (rootTable inst apiPort apiToken) (configTables inst)) := by
  have domain : readLine "[domain-fronting]".toList = some (.header ["domain-fronting".toList]) := by decide
  have fronting : Reads
      ([[], "[domain-fronting]".toList] ++
        lineIf (inst.frontingIP ≠ "") ("host = ".toList ++ quote isPrint inst.frontingIP) ++
        lineIf (inst.frontingPort > 0) ("port = ".toList ++ (toString inst.frontingPort).toList) ++
        lineIf inst.frontingProxyProtocol "proxy-protocol = true".toList)
      ([.blank, .header (frontingTable inst).path] ++ entryLines (frontingTable inst).entries) := by
    rw [List.append_assoc, List.append_assoc]
    refine (reads_header (by decide) domain).append ?_
    rw [← List.append_assoc]
    refine Reads.entries (Reads.entries ?_ ?_) ?_
    · exact reads_if fun _ => reads_text hides (k := "host") (by simp) (by decide) clean.frontingIP
    · exact reads_if fun positive => reads_int (k := "port") (by simp) (by decide) positive
    · exact reads_if fun _ => reads_true (k := "proxy-protocol") (by simp) (by decide)
  have network : inst.routeThroughXray = true ∧ inst.xrayRoutePort > 0 → Reads
      [[], "[network]".toList,
        "proxies = [\"socks5://127.0.0.1:".toList ++ (toString inst.xrayRoutePort).toList ++ "\"]".toList]
      ([.blank, .header (networkTable inst).path] ++ entryLines (networkTable inst).entries) := fun routed =>
    (reads_header (by decide) (by decide : readLine "[network]".toList = some (.header ["network".toList]))).append
      (reads_proxies routed.2)
  have throttle : inst.throttleMaxConnections > 0 → Reads
      [[], "[throttle]".toList, "max-connections = ".toList ++ (toString inst.throttleMaxConnections).toList]
      ([.blank, .header (throttleTable inst).path] ++ entryLines (throttleTable inst).entries) := fun positive =>
    (reads_header (by decide) (by decide : readLine "[throttle]".toList = some (.header ["throttle".toList]))).append
      (reads_int (k := "max-connections") (by simp) (by decide) positive)
  have tags : ∀ tagged : List SecretEntry, (∀ e ∈ tagged, e ∈ inst.secrets) → Reads
      ([[], "[secret-ad-tags]".toList] ++ tagged.map fun e => quote isPrint e.name ++ " = ".toList ++ quote isPrint e.adTag)
      ([.blank, .header (tagTable tagged).path] ++ entryLines (tagTable tagged).entries) := by
    intro tagged known
    have head : readLine "[secret-ad-tags]".toList = some (.header ["secret-ad-tags".toList]) := by decide
    refine (reads_header (by decide) head).append ?_
    rw [tagTable, entryLines, List.map_map]
    exact Reads.map tagged fun e mem => reads_quoted hides (clean.names e (known e mem)) (clean.adTags e (known e mem))
  have limits : ∀ e ∈ inst.secrets, Reads
      ([[], "[secret-limits.".toList ++ quote isPrint e.name ++ "]".toList] ++
        lineIf (e.quotaBytes > 0) ("quota = ".toList ++ quote isPrint (quotaString e.quotaBytes)) ++
        lineIf (e.expiresUnix > 0) ("expires = ".toList ++ quote isPrint (expiresString e.expiresUnix)))
      (limitTable e).lines := by
    intro e mem
    rw [List.append_assoc]
    refine ((Reads.single (by simp) rfl : Reads [[]] [.blank]).append (reads_limits hides (clean.names e mem))).append
      (Reads.entries ?_ ?_)
    · exact reads_if fun positive => reads_text hides (k := "quota") (by simp) (by decide) (shown_quota positive).renderable
    · exact reads_if fun _ => reads_text hides (k := "expires") (by simp) (by decide) (shown_expires _).renderable
  have secrets : Reads (inst.secrets.map fun e => quote isPrint e.name ++ " = ".toList ++ quote isPrint e.secret)
      (entryLines (secretTable inst).entries) := by
    rw [secretTable, entryLines, List.map_map]
    exact Reads.map inst.secrets fun e mem => reads_quoted hides (clean.names e mem) (clean.secrets e mem)
  have last : readLine "[secrets]".toList = some (.header ["secrets".toList]) := by decide
  have here : ∀ p : SecretEntry → Bool, ∀ e ∈ inst.secrets.filter p, e ∈ inst.secrets := fun p e mem =>
    (List.mem_filter.mp mem).1
  have top := (reads_root hides clean apiPort token).append (reads_table
    (inst.frontingIP ≠ "" ∨ inst.frontingPort > 0 ∨ inst.frontingProxyProtocol) (frontingTable inst) (fun _ => rfl)
    fun _ => fronting)
  have middle := (top.append (reads_table (inst.routeThroughXray ∧ inst.xrayRoutePort > 0) (networkTable inst)
    (fun _ => rfl) network)).append (reads_table (inst.throttleMaxConnections > 0) (throttleTable inst) (fun _ => rfl) throttle)
  have lower := (middle.append (reads_table (inst.secrets.filter (·.adTag ≠ "") ≠ [])
    (tagTable (inst.secrets.filter (·.adTag ≠ ""))) (fun _ => rfl) fun _ => tags _ (here _))).append
    (Reads.flatMap (inst.secrets.filter fun e => e.quotaBytes > 0 ∨ e.expiresUnix > 0) fun e mem => limits e (here _ e mem))
  have whole := (lower.append (reads_header (by decide) last)).append secrets
  unfold linesOf configTables
  rw [List.flatMap_append, List.flatMap_append, List.flatMap_append, List.flatMap_append, List.flatMap_append,
    List.flatMap_cons, List.flatMap_nil, List.append_nil, List.flatMap_map]
  exact (regroup _ _ _ _ _ _ [.blank, .header _] _).symm ▸ whole

/-! ## The document is consistent -/

def rootKeys : List Text :=
  ["bind-to".toList, "debug".toList, "proxy-protocol-listener".toList, "prefer-ip".toList, "api-bind-to".toList,
    "api-token".toList, "public-ipv4".toList, "public-ipv6".toList]

def sectionNames : List Text :=
  ["domain-fronting".toList, "network".toList, "throttle".toList, "secret-ad-tags".toList, "secrets".toList]

theorem keys_entryIf (p : Prop) [Decidable p] (key : String) (value : Value) :
    ((entryIf p key value).map (·.1)).Sublist [key.toList] := by
  unfold entryIf
  split
  · exact List.Sublist.refl _
  · exact List.nil_sublist _

theorem paths_tableIf (p : Prop) [Decidable p] (table : Table) :
    ((tableIf p table).map (·.path)).Sublist [table.path] := by
  unfold tableIf
  split
  · exact List.Sublist.refl _
  · exact List.nil_sublist _

theorem keys_root (inst : Instance) (apiPort : Nat) (apiToken : String) :
    ((rootTable inst apiPort apiToken).entries.map (·.1)).Sublist rootKeys := by
  unfold rootTable
  dsimp only
  rw [List.map_append, List.map_append, List.map_append, List.map_append, List.map_append, List.map_append, List.map_append]
  exact (((((((List.Sublist.refl ["bind-to".toList]).append (keys_entryIf _ _ _)).append (keys_entryIf _ _ _)).append
    (keys_entryIf _ _ _)).append (List.Sublist.refl ["api-bind-to".toList])).append (keys_entryIf _ _ _)).append
    (keys_entryIf _ _ _)).append (keys_entryIf _ _ _)

/-- What the tables of a configuration are: the one without a header, one of the named ones, or the limits of a client. -/
inductive Kind (inst : Instance) : Table → Prop where
  | root {table : Table} (path : table.path = []) (keys : (table.entries.map (·.1)).Sublist rootKeys) : Kind inst table
  | named {table : Table} {name : Text} (path : table.path = [name]) (known : name ∈ sectionNames)
      (keys : (table.entries.map (·.1)).Nodup) : Kind inst table
  | limits {table : Table} {name : Text} (path : table.path = ["secret-limits".toList, name])
      (keys : (table.entries.map (·.1)).Nodup) : Kind inst table

theorem mem_tableIf {p : Prop} [Decidable p] {table other : Table} (mem : other ∈ tableIf p table) : other = table := by
  unfold tableIf at mem
  split at mem
  · exact List.mem_singleton.mp mem
  · cases mem

theorem names_nodup {inst : Instance} (clean : Clean inst) {es : List SecretEntry} (part : es.Sublist inst.secrets) :
    (es.map fun e => e.name.toList).Nodup := by
  have distinct := clean.distinct.sublist (part.map (·.name))
  have inj : Function.Injective String.toList := fun a b same => String.toList_inj.mp same
  have := distinct.map inj
  rwa [List.map_map] at this

theorem kinds (inst : Instance) (clean : Clean inst) (apiPort : Nat) (apiToken : String) :
    ∀ table ∈ rootTable inst apiPort apiToken :: configTables inst, Kind inst table := by
  intro table mem
  rcases List.mem_cons.mp mem with rfl | mem
  · exact .root rfl (keys_root inst apiPort apiToken)
  · unfold configTables at mem
    rcases List.mem_append.mp mem with mem | mem
    rcases List.mem_append.mp mem with mem | mem
    rcases List.mem_append.mp mem with mem | mem
    rcases List.mem_append.mp mem with mem | mem
    rcases List.mem_append.mp mem with mem | mem
    · rw [mem_tableIf mem]
      refine .named rfl (by decide) ?_
      have keys : ((frontingTable inst).entries.map (·.1)).Sublist ["host".toList, "port".toList, "proxy-protocol".toList] := by
        unfold frontingTable
        dsimp only
        rw [List.map_append, List.map_append]
        exact ((keys_entryIf _ _ _).append (keys_entryIf _ _ _)).append (keys_entryIf _ _ _)
      exact keys.nodup (by decide)
    · rw [mem_tableIf mem]
      exact .named rfl (by decide) (by simp [networkTable])
    · rw [mem_tableIf mem]
      exact .named rfl (by decide) (by simp [throttleTable])
    · rw [mem_tableIf mem]
      refine .named rfl (by decide) ?_
      rw [tagTable, List.map_map]
      exact names_nodup clean List.filter_sublist
    · obtain ⟨e, -, rfl⟩ := List.mem_map.mp mem
      refine .limits rfl ?_
      have keys : ((limitTable e).entries.map (·.1)).Sublist ["quota".toList, "expires".toList] := by
        unfold limitTable
        dsimp only
        rw [List.map_append]
        exact (keys_entryIf _ _ _).append (keys_entryIf _ _ _)
      exact keys.nodup (by decide)
    · rw [List.mem_singleton.mp mem]
      refine .named rfl (by decide) ?_
      rw [secretTable, List.map_map]
      exact names_nodup clean (List.Sublist.refl _)

theorem sections_nodup (limits : List (List Text)) (distinct : limits.Nodup)
    (long : ∀ path ∈ limits, path.length = 2) :
    ([] :: (["domain-fronting".toList] :: ["network".toList] :: ["throttle".toList] :: ["secret-ad-tags".toList] ::
      limits ++ [["secrets".toList]])).Nodup := by
  have empty : [] ∉ limits := fun mem => absurd (long _ mem) (by simp)
  have single : ∀ name, [name] ∉ limits := fun name mem => absurd (long _ mem) (by simp)
  simp [List.nodup_append, distinct, empty, single]
  intro path mem same
  rw [same] at mem
  exact single _ mem

theorem paths_nodup (inst : Instance) (clean : Clean inst) (apiPort : Nat) (apiToken : String) :
    ((rootTable inst apiPort apiToken :: configTables inst).map (·.path)).Nodup := by
  let limited := inst.secrets.filter fun e => e.quotaBytes > 0 ∨ e.expiresUnix > 0
  let all : List (List Text) := [] :: (["domain-fronting".toList] :: ["network".toList] :: ["throttle".toList] ::
    ["secret-ad-tags".toList] :: limited.map (fun e => ["secret-limits".toList, e.name.toList]) ++ [["secrets".toList]])
  have part : ((rootTable inst apiPort apiToken :: configTables inst).map (·.path)).Sublist all := by
    unfold configTables
    rw [List.map_cons, List.map_append, List.map_append, List.map_append, List.map_append, List.map_append, List.map_map]
    exact ((((((paths_tableIf _ _).append (paths_tableIf _ _)).append (paths_tableIf _ _)).append (paths_tableIf _ _)).append
      (List.Sublist.refl _)).append (List.Sublist.refl _)).cons_cons []
  apply part.nodup
  have limits : (limited.map fun e => ["secret-limits".toList, e.name.toList]).Nodup := by
    have names := names_nodup clean (List.filter_sublist : limited.Sublist inst.secrets)
    have inj : Function.Injective fun name : Text => ["secret-limits".toList, name] := fun a b same => by simpa using same
    have := names.map inj
    rwa [List.map_map] at this
  apply sections_nodup _ limits
  intro path mem
  obtain ⟨e, -, rfl⟩ := List.mem_map.mp mem
  rfl

theorem consistent_config (inst : Instance) (clean : Clean inst) (apiPort : Nat) (apiToken : String) :
    Consistent (rootTable inst apiPort apiToken :: configTables inst) := by
  have kind := kinds inst clean apiPort apiToken
  apply consistent_of (paths_nodup inst clean apiPort apiToken)
  · intro table mem
    cases kind table mem with
    | root path keys => exact keys.nodup (by decide)
    | named path known keys => exact keys
    | limits path keys => exact keys
  · intro table mem key within other there leads
    have short : (table.path ++ [key]).length ≤ other.path.length := leads.length_le
    have rootKey : ∀ name ∈ sectionNames, name ∉ rootKeys ∧ name ≠ "secret-limits".toList := by decide
    have limitKey : "secret-limits".toList ∉ rootKeys := by decide
    cases kind table mem with
    | root path keys =>
        rw [path, List.nil_append] at leads short
        have own := keys.subset within
        cases kind other there with
        | root path' _ => simp [path'] at short
        | named path' known _ =>
            rw [path', List.cons_prefix_cons] at leads
            exact (rootKey _ known).1 (leads.1 ▸ own)
        | limits path' _ =>
            rw [path', List.cons_prefix_cons] at leads
            exact limitKey (leads.1 ▸ own)
    | named path known _ =>
        rw [path] at leads short
        cases kind other there with
        | root path' _ => simp [path'] at short
        | named path' _ _ => simp [path'] at short
        | limits path' _ =>
            rw [path', List.cons_append, List.cons_prefix_cons] at leads
            exact (rootKey _ known).2 leads.1
    | limits path _ =>
        rw [path] at short
        cases kind other there with
        | root path' _ => simp [path'] at short
        | named path' _ _ => simp [path'] at short
        | limits path' _ => simp [path'] at short

theorem parse_config (hides : Hides isPrint) {inst : Instance} (clean : Clean inst) (apiPort : Nat) {apiToken : String}
    (token : Renderable apiToken) :
    parse (renderConfig isPrint inst apiPort apiToken) = some (rootTable inst apiPort apiToken :: configTables inst) :=
  parse_lines (reads_config hides clean apiPort token) rfl (consistent_config inst clean apiPort apiToken)

/-! ## What a reader of the document finds -/

structure Settings where
  bindTo : String
  debug : Bool
  proxyProtocolListener : Bool
  preferIP : String
  publicIPv4 : String
  publicIPv6 : String
  frontingHost : String
  frontingPort : Int
  frontingProxyProtocol : Bool
  proxies : List String
  maxConnections : Int
  deriving DecidableEq

structure Config where
  settings : Settings
  apiBindTo : String
  apiToken : String
  secrets : SecretSet

def textAt (tables : List Table) (path : List Text) (key : String) : String :=
  match lookup tables path key.toList with
  | some (.str s) => String.ofList s
  | _ => ""

def numberAt (tables : List Table) (path : List Text) (key : String) : Int :=
  match lookup tables path key.toList with
  | some (.int n) => n
  | _ => 0

def flagAt (tables : List Table) (path : List Text) (key : String) : Bool :=
  match lookup tables path key.toList with
  | some (.bool b) => b
  | _ => false

def textsAt (tables : List Table) (path : List Text) (key : String) : List String :=
  match lookup tables path key.toList with
  | some (.strs items) => items.map String.ofList
  | _ => []

def entriesAt (tables : List Table) (path : List Text) : List (Text × Value) :=
  ((tables.find? (·.path = path)).map (·.entries)).getD []

def servedAt (tables : List Table) (name : Text) (value : Value) : Served where
  secret := match value with
    | .str s => String.ofList s
    | _ => ""
  adTag := textAt tables ["secret-ad-tags".toList] (String.ofList name)
  quota := textAt tables ["secret-limits".toList, name] "quota"
  expires := textAt tables ["secret-limits".toList, name] "expires"

def readConfig (tables : List Table) : Config where
  settings := {
    bindTo := textAt tables [] "bind-to"
    debug := flagAt tables [] "debug"
    proxyProtocolListener := flagAt tables [] "proxy-protocol-listener"
    preferIP := textAt tables [] "prefer-ip"
    publicIPv4 := textAt tables [] "public-ipv4"
    publicIPv6 := textAt tables [] "public-ipv6"
    frontingHost := textAt tables ["domain-fronting".toList] "host"
    frontingPort := numberAt tables ["domain-fronting".toList] "port"
    frontingProxyProtocol := flagAt tables ["domain-fronting".toList] "proxy-protocol"
    proxies := textsAt tables ["network".toList] "proxies"
    maxConnections := numberAt tables ["throttle".toList] "max-connections" }
  apiBindTo := textAt tables [] "api-bind-to"
  apiToken := textAt tables [] "api-token"
  secrets := (entriesAt tables ["secrets".toList]).foldl
    (fun secrets entry => secrets.insert (String.ofList entry.1) (servedAt tables entry.1 entry.2)) ∅

/-- What an instance asks of its process; a port or a limit that is not positive is none. -/
def Instance.settings (inst : Instance) : Settings where
  bindTo := inst.bindTo
  debug := inst.debug
  proxyProtocolListener := inst.proxyProtocolListener
  preferIP := inst.preferIP
  publicIPv4 := inst.publicIPv4
  publicIPv6 := inst.publicIPv6
  frontingHost := inst.frontingIP
  frontingPort := max inst.frontingPort 0
  frontingProxyProtocol := inst.frontingProxyProtocol
  proxies := if inst.routeThroughXray ∧ inst.xrayRoutePort > 0 then
    ["socks5://127.0.0.1:" ++ toString inst.xrayRoutePort] else []
  maxConnections := max inst.throttleMaxConnections 0

def Instance.config (inst : Instance) (apiPort : Nat) (apiToken : String) : Config where
  settings := inst.settings
  apiBindTo := "127.0.0.1:" ++ toString apiPort
  apiToken := apiToken
  secrets := secretsPayload inst

theorem lookup_entryIf (p : Prop) [Decidable p] (k : String) (value : Value) (key : Text) :
    (entryIf p k value).lookup key = if p ∧ key = k.toList then some value else none := by
  unfold entryIf
  by_cases holds : p
  · by_cases same : key = k.toList
    · simp [holds, same]
    · have other : (key == k.toList) = false := beq_false_of_ne same
      simp [holds, same, List.lookup_cons, other]
  · simp [holds]

theorem find_tableIf (p : Prop) [Decidable p] (table : Table) (path : List Text) :
    (tableIf p table).find? (·.path = path) = if p ∧ table.path = path then some table else none := by
  unfold tableIf
  by_cases holds : p <;> by_cases same : table.path = path <;> simp [holds, same]

variable (inst : Instance) (apiPort : Nat) (apiToken : String)

theorem lookup_root (key : Text) :
    lookup (rootTable inst apiPort apiToken :: configTables inst) [] key =
      (rootTable inst apiPort apiToken).entries.lookup key := by
  unfold lookup
  rw [List.find?_cons_of_pos (by simp [rootTable])]
  rfl

theorem find_limits_short (es : List SecretEntry) (name : Text) :
    (es.map limitTable).find? (·.path = [name]) = none := by
  apply List.find?_eq_none.mpr
  intro table mem
  obtain ⟨e, -, rfl⟩ := List.mem_map.mp mem
  simp [limitTable]

theorem find_named (name : Text) :
    (rootTable inst apiPort apiToken :: configTables inst).find? (·.path = [name]) =
      (configTables inst).find? (·.path = [name]) := by
  rw [List.find?_cons_of_neg (by simp [rootTable])]

theorem find_fronting : (configTables inst).find? (·.path = ["domain-fronting".toList]) =
    if inst.frontingIP ≠ "" ∨ inst.frontingPort > 0 ∨ inst.frontingProxyProtocol then some (frontingTable inst) else none := by
  unfold configTables
  simp only [List.find?_append, find_tableIf, find_limits_short, List.find?_singleton]
  simp [frontingTable, networkTable, throttleTable, tagTable, secretTable]

theorem find_network : (configTables inst).find? (·.path = ["network".toList]) =
    if inst.routeThroughXray ∧ inst.xrayRoutePort > 0 then some (networkTable inst) else none := by
  unfold configTables
  simp only [List.find?_append, find_tableIf, find_limits_short, List.find?_singleton]
  simp [frontingTable, networkTable, throttleTable, tagTable, secretTable]

theorem find_throttle : (configTables inst).find? (·.path = ["throttle".toList]) =
    if inst.throttleMaxConnections > 0 then some (throttleTable inst) else none := by
  unfold configTables
  simp only [List.find?_append, find_tableIf, find_limits_short, List.find?_singleton]
  simp [frontingTable, networkTable, throttleTable, tagTable, secretTable]

theorem find_tags : (configTables inst).find? (·.path = ["secret-ad-tags".toList]) =
    if inst.secrets.filter (·.adTag ≠ "") ≠ [] then some (tagTable (inst.secrets.filter (·.adTag ≠ ""))) else none := by
  unfold configTables
  simp only [List.find?_append, find_tableIf, find_limits_short, List.find?_singleton]
  simp [frontingTable, networkTable, throttleTable, tagTable, secretTable]

theorem find_secrets : (configTables inst).find? (·.path = ["secrets".toList]) = some (secretTable inst) := by
  unfold configTables
  simp only [List.find?_append, find_tableIf, find_limits_short, List.find?_singleton]
  simp [frontingTable, networkTable, throttleTable, tagTable, secretTable]

theorem pair_inj (a b c : Text) : [a, b] = [a, c] ↔ b = c := by
  simp

theorem pair_ne (a b c : Text) : ¬[a] = [b, c] := by
  simp

theorem find_limits (name : Text) :
    (rootTable inst apiPort apiToken :: configTables inst).find? (·.path = ["secret-limits".toList, name]) =
      ((inst.secrets.filter fun e => e.quotaBytes > 0 ∨ e.expiresUnix > 0).find? (·.name.toList = name)).map limitTable := by
  have missed : ∀ (p : Prop) [Decidable p] (table : Table) (x : Text), table.path = [x] →
      (tableIf p table).find? (·.path = ["secret-limits".toList, name]) = none := by
    intro p _ table x path
    rw [find_tableIf, if_neg]
    rintro ⟨-, same⟩
    rw [path] at same
    exact pair_ne _ _ _ same
  have own : (fun table : Table => decide (table.path = ["secret-limits".toList, name])) ∘ limitTable =
      fun e => decide (e.name.toList = name) := by
    funext e
    exact decide_eq_decide.mpr (pair_inj _ _ _)
  have last : [secretTable inst].find? (·.path = ["secret-limits".toList, name]) = none :=
    List.find?_cons_of_neg fun same => pair_ne _ _ _ (of_decide_eq_true same)
  rw [List.find?_cons_of_neg (by simp [rootTable]), configTables, List.find?_append, List.find?_append, List.find?_append,
    List.find?_append, List.find?_append, missed _ _ _ rfl, missed _ _ _ rfl, missed _ _ _ rfl, missed _ _ _ rfl, last,
    List.find?_map, own]
  simp only [Option.none_or, Option.or_none]

theorem find_own {es : List SecretEntry} (distinct : (es.map (·.name)).Nodup) {p : SecretEntry → Bool} {e : SecretEntry}
    (mem : e ∈ es) : (es.filter p).find? (·.name.toList = e.name.toList) = if p e then some e else none := by
  induction es with
  | nil => cases mem
  | cons first rest ih =>
      rw [List.map_cons, List.nodup_cons] at distinct
      rcases List.mem_cons.mp mem with rfl | later
      · by_cases kept : p e = true
        · simp [kept]
        · simp only [kept, List.filter_cons_of_neg, not_false_eq_true, Bool.false_eq_true, if_false]
          apply List.find?_eq_none.mpr
          intro other there same
          have same : other.name = e.name := String.toList_inj.mp (by simpa using same)
          exact distinct.1 (same ▸ List.mem_map.mpr ⟨other, (List.mem_filter.mp there).1, rfl⟩)
      · have other : first.name.toList ≠ e.name.toList := by
          intro same
          have same := String.toList_inj.mp same
          exact distinct.1 (same ▸ List.mem_map.mpr ⟨e, later, rfl⟩)
        rw [List.filter_cons]
        split
        · rw [List.find?_cons_of_neg (by simpa using other)]
          exact ih distinct.2 later
        · exact ih distinct.2 later

theorem lookup_map (es : List SecretEntry) (value : SecretEntry → Value) (name : Text) :
    (es.map fun e => (e.name.toList, value e)).lookup name = (es.find? (·.name.toList = name)).map value := by
  induction es with
  | nil => rfl
  | cons e es ih =>
      rw [List.map_cons, List.lookup_cons, List.find?_cons]
      by_cases same : e.name.toList = name
      · subst same
        simp
      · have other : (name == e.name.toList) = false := beq_false_of_ne (Ne.symm same)
        simp [other, same, ih]

theorem servedAt_config {inst : Instance} (clean : Clean inst) {e : SecretEntry} (mem : e ∈ inst.secrets) :
    servedAt (rootTable inst apiPort apiToken :: configTables inst) e.name.toList (text e.secret) = e.served := by
  have tag : textAt (rootTable inst apiPort apiToken :: configTables inst) ["secret-ad-tags".toList]
      (String.ofList e.name.toList) = e.adTag := by
    unfold textAt lookup
    rw [find_named, find_tags, String.ofList_toList]
    by_cases tagged : e.adTag = ""
    · split_ifs
      · simp [tagTable, lookup_map, find_own clean.distinct mem, tagged]
      · simp [tagged]
    · have some : inst.secrets.filter (·.adTag ≠ "") ≠ [] := by
        intro none
        have := List.filter_eq_nil_iff.mp none e mem
        simp [tagged] at this
      rw [if_pos some]
      simp [tagTable, lookup_map, find_own clean.distinct mem, tagged, text]
  have limits : ∀ (k : String) (p : Prop) [Decidable p] (value : String),
      (limitTable e).entries.lookup k.toList = (if p then some (text value) else none) →
      (p → e.quotaBytes > 0 ∨ e.expiresUnix > 0) →
      textAt (rootTable inst apiPort apiToken :: configTables inst) ["secret-limits".toList, e.name.toList] k =
        if p then value else "" := by
    intro k p _ value within needs
    unfold textAt lookup
    rw [find_limits, find_own clean.distinct mem]
    by_cases limited : e.quotaBytes > 0 ∨ e.expiresUnix > 0
    · rw [if_pos (by simpa using limited), Option.map_some, Option.bind_some, within]
      split_ifs <;> simp [text]
    · rw [if_neg (by simpa using limited), if_neg fun holds => limited (needs holds)]
      rfl
  have quota := limits "quota" (e.quotaBytes > 0) (quotaString e.quotaBytes)
    (by simp [limitTable, List.lookup_append, lookup_entryIf]) Or.inl
  have expires := limits "expires" (e.expiresUnix > 0) (expiresString e.expiresUnix)
    (by simp [limitTable, List.lookup_append, lookup_entryIf]) Or.inr
  unfold servedAt
  rw [tag, quota, expires]
  simp [text, SecretEntry.served]

theorem optionalText {p : Prop} [Decidable p] {s : String} (absent : ¬p → s = "") :
    (match (if p then some (text s) else none : Option Value) with
      | some (.str s) => String.ofList s
      | _ => "") = s := by
  by_cases holds : p
  · rw [if_pos holds]
    exact String.ofList_toList
  · rw [if_neg holds, absent holds]

theorem optionalFlag (b : Bool) :
    (match (if b = true then some (.bool true) else none : Option Value) with
      | some (.bool b) => b
      | _ => false) = b := by
  cases b <;> rfl

theorem root_text (k : String) : textAt (rootTable inst apiPort apiToken :: configTables inst) [] k =
    match (rootTable inst apiPort apiToken).entries.lookup k.toList with
    | some (.str s) => String.ofList s
    | _ => "" := by
  rw [textAt, lookup_root]

theorem root_flag (k : String) : flagAt (rootTable inst apiPort apiToken :: configTables inst) [] k =
    match (rootTable inst apiPort apiToken).entries.lookup k.toList with
    | some (.bool b) => b
    | _ => false := by
  rw [flagAt, lookup_root]

theorem root_config :
    textAt (rootTable inst apiPort apiToken :: configTables inst) [] "bind-to" = inst.bindTo ∧
    flagAt (rootTable inst apiPort apiToken :: configTables inst) [] "debug" = inst.debug ∧
    flagAt (rootTable inst apiPort apiToken :: configTables inst) [] "proxy-protocol-listener" = inst.proxyProtocolListener ∧
    textAt (rootTable inst apiPort apiToken :: configTables inst) [] "prefer-ip" = inst.preferIP ∧
    textAt (rootTable inst apiPort apiToken :: configTables inst) [] "api-bind-to" = "127.0.0.1:" ++ toString apiPort ∧
    textAt (rootTable inst apiPort apiToken :: configTables inst) [] "api-token" = apiToken ∧
    textAt (rootTable inst apiPort apiToken :: configTables inst) [] "public-ipv4" = inst.publicIPv4 ∧
    textAt (rootTable inst apiPort apiToken :: configTables inst) [] "public-ipv6" = inst.publicIPv6 := by
  refine ⟨?_, ?_, ?_, ?_, ?_, ?_, ?_, ?_⟩
  · rw [root_text]
    simp [rootTable, text]
  · rw [root_flag, ← optionalFlag inst.debug]
    simp [rootTable, List.lookup_append, lookup_entryIf, List.lookup_cons]
  · rw [root_flag, ← optionalFlag inst.proxyProtocolListener]
    simp [rootTable, List.lookup_append, lookup_entryIf, List.lookup_cons]
  · rw [root_text, ← optionalText (p := inst.preferIP ≠ "") (s := inst.preferIP) (by simp)]
    simp [rootTable, List.lookup_append, lookup_entryIf, List.lookup_cons]
  · have address : (rootTable inst apiPort apiToken).entries.lookup "api-bind-to".toList =
        some (.str ("127.0.0.1:".toList ++ (toString apiPort).toList)) := by
      simp [rootTable, List.lookup_append, lookup_entryIf, List.lookup_cons]
    rw [root_text, address]
    exact (String.ofList_append.trans (congrArg₂ _ String.ofList_toList String.ofList_toList))
  · have read := optionalText (p := apiToken ≠ "") (s := apiToken) (by simp)
    rw [root_text]
    conv_rhs => rw [← read]
    simp [rootTable, List.lookup_append, lookup_entryIf, List.lookup_cons]
  · rw [root_text, ← optionalText (p := inst.publicIPv4 ≠ "") (s := inst.publicIPv4) (by simp)]
    simp [rootTable, List.lookup_append, lookup_entryIf, List.lookup_cons]
  · rw [root_text, ← optionalText (p := inst.publicIPv6 ≠ "") (s := inst.publicIPv6) (by simp)]
    simp [rootTable, List.lookup_append, lookup_entryIf, List.lookup_cons]

theorem section_config :
    textAt (rootTable inst apiPort apiToken :: configTables inst) ["domain-fronting".toList] "host" = inst.frontingIP ∧
    numberAt (rootTable inst apiPort apiToken :: configTables inst) ["domain-fronting".toList] "port" = max inst.frontingPort 0 ∧
    flagAt (rootTable inst apiPort apiToken :: configTables inst) ["domain-fronting".toList] "proxy-protocol" =
      inst.frontingProxyProtocol ∧
    textsAt (rootTable inst apiPort apiToken :: configTables inst) ["network".toList] "proxies" = inst.settings.proxies ∧
    numberAt (rootTable inst apiPort apiToken :: configTables inst) ["throttle".toList] "max-connections" =
      max inst.throttleMaxConnections 0 := by
  have port : ∀ n : Int, (match (if n > 0 then some (.int n) else none : Option Value) with
      | some (.int n) => n
      | _ => 0) = max n 0 := by
    intro n
    split_ifs with positive
    · exact (max_eq_left positive.le).symm
    · exact (max_eq_right (not_lt.mp positive)).symm
  have fronting : ∀ key : Text, lookup (rootTable inst apiPort apiToken :: configTables inst) ["domain-fronting".toList] key =
      (frontingTable inst).entries.lookup key := by
    intro key
    unfold lookup
    rw [find_named, find_fronting]
    split_ifs with present
    · rfl
    · simp only [not_or, not_not, Bool.not_eq_true] at present
      simp [frontingTable, entryIf, present]
  refine ⟨?_, ?_, ?_, ?_, ?_⟩
  · rw [textAt, fronting, ← optionalText (p := inst.frontingIP ≠ "") (s := inst.frontingIP) (by simp)]
    simp [frontingTable, List.lookup_append, lookup_entryIf]
  · rw [numberAt, fronting, ← port]
    simp [frontingTable, List.lookup_append, lookup_entryIf]
  · rw [flagAt, fronting, ← optionalFlag inst.frontingProxyProtocol]
    simp [frontingTable, List.lookup_append, lookup_entryIf]
  · have within : (networkTable inst).entries.lookup "proxies".toList =
        some (.strs ["socks5://127.0.0.1:".toList ++ (toString inst.xrayRoutePort).toList]) := List.lookup_cons_self
    rw [textsAt, lookup, find_named, find_network, Instance.settings]
    split_ifs
    · rw [Option.bind_some, within]
      show [String.ofList _] = _
      rw [String.ofList_append, String.ofList_toList, String.ofList_toList]
    · rfl
  · rw [numberAt, lookup, find_named, find_throttle, ← port]
    split_ifs
    · simp [throttleTable]
    · rfl

theorem readConfig_config {inst : Instance} (clean : Clean inst) :
    readConfig (rootTable inst apiPort apiToken :: configTables inst) = inst.config apiPort apiToken := by
  obtain ⟨bindTo, debug, listener, preferIP, apiBindTo, token, ipv4, ipv6⟩ := root_config inst apiPort apiToken
  obtain ⟨host, port, fronting, proxies, throttle⟩ := section_config inst apiPort apiToken
  have secrets : (entriesAt (rootTable inst apiPort apiToken :: configTables inst) ["secrets".toList]).foldl
      (fun secrets entry => secrets.insert (String.ofList entry.1)
        (servedAt (rootTable inst apiPort apiToken :: configTables inst) entry.1 entry.2)) ∅ = secretsPayload inst := by
    rw [entriesAt, find_named, find_secrets]
    show (inst.secrets.map fun e => (e.name.toList, text e.secret)).foldl _ _ = _
    rw [List.foldl_map, secretsPayload]
    apply List.foldl_ext
    intro set e mem
    rw [servedAt_config apiPort apiToken clean mem, String.ofList_toList]
  unfold readConfig
  rw [bindTo, debug, listener, preferIP, apiBindTo, token, ipv4, ipv6, host, port, fronting, proxies, throttle, secrets]
  rfl

theorem read_render (hides : Hides isPrint) {inst : Instance} (clean : Clean inst) {apiToken : String}
    (token : Renderable apiToken) :
    (parse (renderConfig isPrint inst apiPort apiToken)).map readConfig = some (inst.config apiPort apiToken) := by
  rw [parse_config hides clean apiPort token, Option.map_some, readConfig_config apiPort apiToken clean]

end ThreeXNode.MTProto
