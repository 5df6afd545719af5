import ThreeXNode.Leaf.Types
import ThreeXNode.Library.Net

namespace ThreeXNode.Leaf
open Library

def sep : List Char := ['>', '>', '>']

def validateIgnoredVisionTestseed (raw : Option Json) : Except String Unit :=
  let refused := "VLESS testseed must contain 3 or 4 positive integers"
  match raw with
  | none => .ok ()
  | some j => if j.isEmpty then .ok () else match j.asList Json.asUInt64 with
    | none => .error refused
    | some seed => do
        require (seed.length = 3 ∨ seed.length = 4) refused
        seed.forM fun value => require (value ≠ 0 ∧ value ≤ 4294967295) refused

def xhttpFields : List String :=
  ["path", "host", "mode", "headers", "xPaddingBytes", "xPaddingObfsMode", "xPaddingKey", "xPaddingHeader",
   "xPaddingPlacement", "xPaddingMethod", "sessionIDPlacement", "sessionIDKey", "sessionIDTable", "sessionIDLength",
   "seqPlacement", "seqKey", "uplinkDataPlacement", "uplinkDataKey", "scMaxEachPostBytes", "noSSEHeader",
   "scMaxBufferedPosts", "scStreamUpServerSecs", "serverMaxHeaderBytes", "uplinkHTTPMethod",
   "scMinPostsIntervalMs", "uplinkChunkSize", "noGRPCHeader", "xmux", "enableXmux"]

def onlyKnown (fields : Fields) (known : List String) (what : String) : Except String Unit :=
  fields.toList.forM fun (name, value) => require (name ∈ known ∨ value.isEmpty) ("unsupported " ++ what ++ " " ++ name)

/-- The object a member holds when it is set; an error when it holds something else. -/
def objectAt (fields : Fields) (k : String) (refused : String) : Except String Fields :=
  match fields[k]? with
  | none => .ok ∅
  | some j => if j.isEmpty then .ok ∅ else match j.asFields with
    | some o => .ok o
    | none => .error refused

def validateXHTTP (stream : Fields) : Except String Unit := do
  let fields ← objectAt stream "xhttpSettings" "XHTTP settings must be an object"
  onlyKnown fields xhttpFields "XHTTP setting"
  require (fields.text "path" = "" ∨ (fields.text "path").toList.head? = some '/') "XHTTP path must start with /"
  require (fields.text "mode" ∈ ["", "auto", "packet-up", "stream-up", "stream-one"])
    "XHTTP mode must be auto, packet-up, stream-up or stream-one"

def validateTCP (stream : Fields) (k : String) : Except String Unit := do
  let fields ← objectAt stream k "json: cannot unmarshal TCP settings"
  onlyKnown fields ["header"] "TCP setting"
  match (fields["header"]?.getD .null).asFields with
  | none => throw "json: cannot unmarshal TCP header"
  | some header => match (header["type"]?.getD .null).asText with
    | none => throw "json: cannot unmarshal TCP header type"
    | some type => require (type = "" ∨ type = "none") "TCP header camouflage is unsupported"

def validateReality (stream : Fields) : Except String Unit :=
  match stream["realitySettings"]?.bind Json.asFields with
  | none => .error "REALITY settings required"
  | some reality => do
      onlyKnown reality ["target", "dest", "serverNames", "privateKey", "shortIds", "minClientVer",
        "maxClientVer", "maxTimeDiff", "settings"] "REALITY setting"
      require (reality.text "privateKey" ≠ "") "REALITY privateKey required"

def clientFields : List String :=
  ["id", "email", "enable", "flow", "security", "totalGB", "expiryTime", "subId", "tgId", "group", "comment",
   "created_at", "updated_at", "trafficReset", "trafficResetDay"]

def validateClientNumber (c : Client) (k : String) : Except String Unit :=
  match c.get? k with
  | none => .ok ()
  | some v => match v.asInt64 with
    | none => .error (k ++ " must be an integer")
    | some n => do
        require (k = "expiryTime" ∨ 0 ≤ n) (k ++ " must not be negative")
        require (k ≠ "trafficResetDay" ∨ (1 ≤ n ∧ n ≤ 31)) "trafficResetDay must be 1..31"

def unsupportedClientFields : List String :=
  ["limitIp", "reset", "resetDay", "resetMax", "hwidLimit", "deviceLimit", "reverse", "auth", "privateKey",
   "publicKey", "allowedIPs", "allowedIPsByInbound", "preSharedKey", "keepAlive", "forwardedPorts", "secret", "adTag"]

def isUUID (u : String) : Except String Unit := do
  let bytes := u.toUTF8.data.toList
  require (bytes.length = 36 ∧ [8, 13, 18, 23].all fun j => bytes[j]? == some '-'.toUInt8) "client id must be a UUID"
  require ((u.toList.filter (· ≠ '-')).all Net.isHex) "invalid UUID"

def validateEnable (c : Client) : Except String Unit :=
  match c.get? "enable" with
  | none => .error "client enable is required"
  | some v => require (v.asBool ≠ none) "enable must be boolean"

def validateClient (c : Client) : Except String Unit := do
  onlyKnown c clientFields "client setting"
  require ((c.text "email").utf8ByteSize ≠ 0 ∧ (c.text "email").utf8ByteSize ≤ 128 ∧
    ¬sep <:+: (c.text "email").toList) "invalid client email"
  isUUID (c.text "id")
  require (c.text "flow" = "" ∨ c.text "flow" = "xtls-rprx-vision") "only empty or xtls-rprx-vision flow supported"
  ["totalGB", "expiryTime", "limitIp", "reset", "resetDay", "resetMax", "trafficResetDay"].forM
    (validateClientNumber c)
  validateEnable c
  unsupportedClientFields.forM fun k => require (c.emptyAt k) ("unsupported client feature: " ++ k)
  require (c.text "trafficReset" = "" ∨ c.text "trafficReset" = "never") "automatic client traffic reset unsupported"

def validateEncryption : Option Json → Except String Unit
  | none => .ok ()
  | some raw => require (raw.asText = some "none") "VLESS encryption must be none or omitted"

def validateSettings (settings : Fields) : Except String Unit := do
  onlyKnown settings ["clients", "decryption", "encryption", "fallbacks", "testseed"] "VLESS setting"
  validateEncryption settings["encryption"]?
  require (settings.text "decryption" = "none") "VLESS decryption must be none"
  require (settings.emptyAt "fallbacks") "VLESS fallbacks are unsupported"
  validateIgnoredVisionTestseed settings["testseed"]?

def validateStream (stream : Fields) : Except String Unit := do
  let network := stream.text "network"
  let security := stream.text "security"
  require (network = "tcp" ∨ network = "raw" ∨ network = "xhttp") "only TCP/RAW or XHTTP transport is supported"
  require (security = "" ∨ security = "none" ∨ security = "reality") "only none or REALITY security is supported"
  onlyKnown stream ["network", "security", "realitySettings", "tcpSettings", "rawSettings", "xhttpSettings",
    "externalProxy"] "stream setting"
  if network = "xhttp" then validateXHTTP stream
  else require (stream.emptyAt "xhttpSettings") "XHTTP settings require XHTTP transport"
  ["tcpSettings", "rawSettings"].forM (validateTCP stream)
  if security = "reality" then validateReality stream
  else require (stream.emptyAt "realitySettings") "REALITY settings require REALITY security"

def validateClients (stream : Fields) : List String → List Client → Except String Unit
  | _, [] => .ok ()
  | seen, c :: cs => do
      validateClient c
      require (stream.text "security" = "reality" ∨ stream.text "network" = "xhttp" ∨ c.text "flow" = "")
        "XTLS Vision flow requires REALITY security"
      require (c.text "email" ∉ seen) "duplicate client email in inbound"
      validateClients stream (c.text "email" :: seen) cs

def validateInbound (i : Inbound) : Except String Unit := do
  require (i.protocol = "vless" ∧ 1 ≤ i.port ∧ i.port ≤ 65535) "only VLESS with a TCP port 1..65535 is supported"
  require (i.listen = "" ∨ Net.isIP i.listen) "listen must be an IP address"
  require (i.tag ≠ "" ∧ i.tag.utf8ByteSize ≤ 128 ∧ ¬sep <:+: i.tag.toList ∧ i.tag ≠ "api")
    "invalid or reserved inbound tag"
  require (0 ≤ i.total ∧ 0 ≤ i.expiryTime) "invalid inbound quota or expiry"
  require (i.trafficReset = "" ∨ i.trafficReset = "never") "automatic traffic reset is unsupported"
  validateSettings i.settings
  validateStream i.streamSettings
  require (i.sniffing.emptyAt "enabled") "sniffing must be disabled on the lightweight node"
  let cs ← i.clients
  validateClients i.streamSettings [] cs

/-! ## Projecting a full panel's client onto this node -/

def panelClientSupportedFields : List String := clientFields

def panelClientMetadataFields : List String :=
  ["up", "down", "total", "lastOnline", "resetCount", "lastSubFetch", "clientStats"]

def panelClientUnsupportedFields : List String :=
  ["limitIp", "reset", "resetDay", "resetWeekday", "resetMax", "hwidLimit", "deviceLimit", "reverse", "auth",
   "privateKey", "publicKey", "allowedIPs", "allowedIPsByInbound", "preSharedKey", "keepAlive", "forwardedPorts",
   "secret", "adTag"]

def neverReset (source : Client) : Prop := source.text "trafficReset" = "" ∨ source.text "trafficReset" = "never"

instance (source : Client) : Decidable (neverReset source) := by unfold neverReset; infer_instance

def normalizeField (source normalized : Client) (name : String) (value : Json) : Except String Client :=
  if name = "password" ∨ name = "auth" ∨ name = "secret" then .ok normalized
  else if name ∈ panelClientSupportedFields then
    -- Some panel versions send the default day 0 together with `never`.
    if name = "trafficResetDay" ∧ value = .ofInt 0 ∧ neverReset source then .ok normalized
    else .ok (normalized.insert name value)
  else if name ∈ panelClientMetadataFields ∨ value.isEmpty then .ok normalized
  else if name ∈ panelClientUnsupportedFields then .error ("unsupported client feature: " ++ name)
  else .error ("unsupported client setting " ++ name)

def normalizeVLESSClient (source : Client) : Except String Client := do
  let normalized ← source.toList.foldlM (fun n (name, value) => normalizeField source n name value) ∅
  validateClient normalized
  return normalized

private theorem normalizeField_get {source n m : Client} {name k : String} {value : Json}
    (h : normalizeField source n name value = .ok m) (supported : k ∈ panelClientSupportedFields)
    (other : k ≠ "trafficResetDay") : m[k]? = if name = k then some value else n[k]? := by
  have named : ¬(k = "password" ∨ k = "auth" ∨ k = "secret") := by
    simp only [panelClientSupportedFields, clientFields, List.mem_cons, List.not_mem_nil, or_false] at supported
    rcases supported with rfl | rfl | rfl | rfl | rfl | rfl | rfl | rfl | rfl | rfl | rfl | rfl | rfl | rfl | rfl <;> decide
  by_cases same : name = k
  · subst same
    simp only [normalizeField, if_neg named, if_pos supported, other, false_and, ↓reduceIte, Except.ok.injEq] at h
    subst h
    simp
  · have untouched : ∀ j : Json, (n.insert name j)[k]? = n[k]? := by
      intro j
      simp [Std.ExtTreeMap.getElem?_insert, same]
    unfold normalizeField at h
    rw [if_neg same]
    split at h
    · cases h
      rfl
    · split at h
      · split at h
        · cases h
          rfl
        · cases h
          exact untouched value
      · split at h
        · cases h
          rfl
        · split at h <;> cases h

theorem normalizeVLESSClient_get {source stored : Client} {k : String}
    (h : normalizeVLESSClient source = .ok stored) (supported : k ∈ panelClientSupportedFields)
    (other : k ≠ "trafficResetDay") : stored[k]? = source[k]? := by
  simp only [normalizeVLESSClient, Except.bind_eq_ok, Except.pure_eq_ok] at h
  obtain ⟨n, loop, _, _, rfl⟩ := h
  have copied := foldlM_ok (fun done (n : Client) => (∀ entry ∈ done, entry ∈ source.toList) ∧
    ∀ v, n[k]? = some v ↔ (k, v) ∈ done) loop (by simp) ?_
  · apply Option.ext
    intro v
    rw [copied.2 v, Std.ExtTreeMap.mem_toList_iff_getElem?_eq_some]
  · rintro done ⟨name, value⟩ n m here ⟨listed, held⟩ step
    refine ⟨?_, fun v => ?_⟩
    · intro entry mem
      rcases List.mem_append.mp mem with mem | mem
      · exact listed entry mem
      · cases List.mem_singleton.mp mem
        exact here
    · rw [normalizeField_get step supported other]
      by_cases same : name = k
      · subst same
        simp only [↓reduceIte, Option.some.injEq, List.mem_append, List.mem_singleton, Prod.mk.injEq, true_and]
        constructor
        · exact fun eq => .inr eq.symm
        · rintro (mem | eq)
          · have there := Std.ExtTreeMap.mem_toList_iff_getElem?_eq_some.mp (listed _ mem)
            have this := Std.ExtTreeMap.mem_toList_iff_getElem?_eq_some.mp here
            rw [this] at there
            exact Option.some.inj there
          · exact eq.symm
      · simp only [same, ↓reduceIte, held v, List.mem_append, List.mem_singleton, Prod.mk.injEq]
        constructor
        · exact .inl
        · rintro (mem | ⟨rfl, _⟩)
          · exact mem
          · exact absurd rfl same

theorem normalizeVLESSClient_email {source stored : Client} (h : normalizeVLESSClient source = .ok stored) :
    stored.text "email" = source.text "email" := by
  unfold Fields.text
  rw [normalizeVLESSClient_get h (by decide) (by decide)]

end ThreeXNode.Leaf
