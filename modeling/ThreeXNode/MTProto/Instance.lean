import ThreeXNode.Library.Toml
import ThreeXNode.Panel.Links

namespace ThreeXNode.MTProto
open Library
open Library.Toml (Text)
open Panel (member trimSpace)

/-! ## Instances -/

structure SecretEntry where
  name : String
  secret : String
  adTag : String
  quotaBytes : Int
  expiresUnix : Int
  deriving DecidableEq

structure Instance where
  id : Nat
  tag : String
  listen : String
  port : Int
  secrets : List SecretEntry
  debug : Bool
  proxyProtocolListener : Bool
  preferIP : String
  frontingIP : String
  frontingPort : Int
  frontingProxyProtocol : Bool
  throttleMaxConnections : Int
  publicIPv4 : String
  publicIPv6 : String
  routeThroughXray : Bool
  xrayRoutePort : Int
  deriving DecidableEq

def isHexDigit (c : Char) : Bool := c.isDigit || ('a' ≤ c && c ≤ 'f') || ('A' ≤ c && c ≤ 'F')

def validMtprotoAdTag (tag : String) : Bool := tag.toList.length = 32 && tag.toList.all isHexDigit

def usableAdTag (tag : String) : String := if validMtprotoAdTag (trimSpace tag) then trimSpace tag else ""

structure ParsedClient where
  email : String
  secret : String
  adTag : String
  enable : Bool
  totalGB : Int
  expiryTime : Int

def ParsedClient.ofJson (entry : Json) : Option ParsedClient := do
  let o ← entry.asFields
  return {
    email := ← member o "email" Json.asText ""
    secret := ← member o "secret" Json.asText ""
    adTag := ← member o "adTag" Json.asText ""
    enable := ← member o "enable" Json.asBool false
    totalGB := ← member o "totalGB" Json.asInt64 0
    expiryTime := ← member o "expiryTime" Json.asInt64 0 }

def ParsedClient.entry (c : ParsedClient) : Option SecretEntry :=
  if !c.enable ∨ c.secret = "" ∨ c.email = "" then none
  else some {
    name := c.email
    secret := c.secret
    adTag := usableAdTag c.adTag
    quotaBytes := if c.totalGB > 0 then c.totalGB else 0
    expiresUnix := if c.expiryTime > 0 then c.expiryTime / 1000 else 0 }

/-- `none` where the inbound is no usable mtproto inbound or serves nobody. -/
def instanceFromInbound (ib : Panel.Inbound) : Option Instance := do
  if ib.protocol ≠ .mtproto then failure
  let o ← ib.settings
  let fronting ← (member o "domainFronting" Json.asFields ∅ : Option Fields)
  let clients ← member o "clients" (Json.asList ParsedClient.ofJson) []
  let secrets := clients.filterMap ParsedClient.entry
  let inst : Instance := {
    id := ib.id
    tag := ib.tag
    listen := ib.listen
    port := ib.port
    secrets := secrets
    debug := ← member o "debug" Json.asBool false
    proxyProtocolListener := ← member o "proxyProtocolListener" Json.asBool false
    preferIP := ← member o "preferIp" Json.asText ""
    frontingIP := ← member fronting "ip" Json.asText ""
    frontingPort := ← member fronting "port" Json.asInt64 0
    frontingProxyProtocol := ← member fronting "proxyProtocol" Json.asBool false
    throttleMaxConnections := ← member o "throttleMaxConnections" Json.asInt64 0
    publicIPv4 := trimSpace (← member o "publicIpv4" Json.asText "")
    publicIPv6 := trimSpace (← member o "publicIpv6" Json.asText "")
    routeThroughXray := ← member o "routeThroughXray" Json.asBool false
    xrayRoutePort := ← member o "routeXrayPort" Json.asInt64 0 }
  if secrets = [] then failure
  return inst

namespace Instance

def bindTo (inst : Instance) : String :=
  (if inst.listen = "" then "0.0.0.0" else inst.listen) ++ ":" ++ toString inst.port

def structuralFingerprint (inst : Instance) : String :=
  "|".intercalate [
    inst.bindTo,
    toString inst.debug,
    toString inst.proxyProtocolListener,
    inst.preferIP,
    inst.frontingIP,
    toString inst.frontingPort,
    toString inst.frontingProxyProtocol,
    toString inst.throttleMaxConnections,
    toString inst.routeThroughXray,
    toString inst.xrayRoutePort,
    inst.publicIPv4,
    inst.publicIPv6]

def secretPair (e : SecretEntry) : String :=
  e.name ++ "=" ++ e.secret ++ ";tag=" ++ e.adTag ++ ";q=" ++ toString e.quotaBytes ++ ";exp=" ++ toString e.expiresUnix

def secretsFingerprint (inst : Instance) : String :=
  "|".intercalate ((inst.secrets.map secretPair).insertionSort (· ≤ ·))

end Instance

/-! ## Texts of the configuration -/

def lowerHex (n : Nat) : Char := if n < 10 then Char.ofNat (48 + n) else Char.ofNat (87 + n)

def hexDigits : Nat → Nat → Text
  | 0, _ => []
  | width + 1, n => hexDigits width (n / 16) ++ [lowerHex (n % 16)]

def shortLetter (c : Char) : Option Char :=
  if c.toNat = 7 then some 'a'
  else if c.toNat = 8 then some 'b'
  else if c.toNat = 12 then some 'f'
  else if c.toNat = 10 then some 'n'
  else if c.toNat = 13 then some 'r'
  else if c.toNat = 9 then some 't'
  else if c.toNat = 11 then some 'v'
  else none

def escapedRune (isPrint : Char → Bool) (c : Char) : Text :=
  if c = '"' ∨ c = '\\' then ['\\', c]
  else if isPrint c then [c]
  else match shortLetter c with
    | some letter => ['\\', letter]
    | none =>
        if c.toNat < 32 ∨ c.toNat = 127 then '\\' :: 'x' :: hexDigits 2 c.toNat
        else if c.toNat < 65536 then '\\' :: 'u' :: hexDigits 4 c.toNat
        else '\\' :: 'U' :: hexDigits 8 c.toNat

def quote (isPrint : Char → Bool) (s : String) : Text := '"' :: (s.toList.flatMap (escapedRune isPrint) ++ ['"'])

def quotaString (bytes : Int) : String := toString bytes ++ "B"

def civil (days : Nat) : Nat × Nat × Nat :=
  let z := days + 719468
  let doe := z % 146097
  let yoe := (doe - doe / 1460 + doe / 36524 - doe / 146096) / 365
  let doy := doe - (365 * yoe + yoe / 4 - yoe / 100)
  let mp := (5 * doy + 2) / 153
  let month := if mp < 10 then mp + 3 else mp - 9
  (yoe + z / 146097 * 400 + (if month ≤ 2 then 1 else 0), month, doy - (153 * mp + 2) / 5 + 1)

def padded (width n : Nat) : String := String.ofList (List.replicate (width - (toString n).length) '0') ++ toString n

def expiresString (unix : Int) : String :=
  let seconds := unix.toNat
  let (year, month, day) := civil (seconds / 86400)
  padded 4 year ++ "-" ++ padded 2 month ++ "-" ++ padded 2 day ++ "T" ++ padded 2 (seconds % 86400 / 3600) ++ ":" ++
    padded 2 (seconds % 3600 / 60) ++ ":" ++ padded 2 (seconds % 60) ++ "Z"

def lineIf (p : Prop) [Decidable p] (line : Text) : List Text := if p then [line] else []

def configLines (isPrint : Char → Bool) (inst : Instance) (apiPort : Nat) (apiToken : String) : List Text :=
  let q := quote isPrint
  let tagged := inst.secrets.filter (·.adTag ≠ "")
  let limited := inst.secrets.filter fun e => e.quotaBytes > 0 ∨ e.expiresUnix > 0
  ["bind-to = ".toList ++ q inst.bindTo] ++
  lineIf inst.debug "debug = true".toList ++
  lineIf inst.proxyProtocolListener "proxy-protocol-listener = true".toList ++
  lineIf (inst.preferIP ≠ "") ("prefer-ip = ".toList ++ q inst.preferIP) ++
  ["api-bind-to = \"127.0.0.1:".toList ++ (toString apiPort).toList ++ "\"".toList] ++
  lineIf (apiToken ≠ "") ("api-token = ".toList ++ q apiToken) ++
  lineIf (inst.publicIPv4 ≠ "") ("public-ipv4 = ".toList ++ q inst.publicIPv4) ++
  lineIf (inst.publicIPv6 ≠ "") ("public-ipv6 = ".toList ++ q inst.publicIPv6) ++
  (if inst.frontingIP ≠ "" ∨ inst.frontingPort > 0 ∨ inst.frontingProxyProtocol then
    [[], "[domain-fronting]".toList] ++
    lineIf (inst.frontingIP ≠ "") ("host = ".toList ++ q inst.frontingIP) ++
    lineIf (inst.frontingPort > 0) ("port = ".toList ++ (toString inst.frontingPort).toList) ++
    lineIf inst.frontingProxyProtocol "proxy-protocol = true".toList
  else []) ++
  (if inst.routeThroughXray ∧ inst.xrayRoutePort > 0 then
    [[], "[network]".toList,
      "proxies = [\"socks5://127.0.0.1:".toList ++ (toString inst.xrayRoutePort).toList ++ "\"]".toList]
  else []) ++
  (if inst.throttleMaxConnections > 0 then
    [[], "[throttle]".toList, "max-connections = ".toList ++ (toString inst.throttleMaxConnections).toList]
  else []) ++
  (if tagged ≠ [] then
    [[], "[secret-ad-tags]".toList] ++ tagged.map fun e => q e.name ++ " = ".toList ++ q e.adTag
  else []) ++
  limited.flatMap (fun e =>
    [[], "[secret-limits.".toList ++ q e.name ++ "]".toList] ++
    lineIf (e.quotaBytes > 0) ("quota = ".toList ++ q (quotaString e.quotaBytes)) ++
    lineIf (e.expiresUnix > 0) ("expires = ".toList ++ q (expiresString e.expiresUnix))) ++
  [[], "[secrets]".toList] ++
  inst.secrets.map fun e => q e.name ++ " = ".toList ++ q e.secret

def renderConfig (isPrint : Char → Bool) (inst : Instance) (apiPort : Nat) (apiToken : String) : Text :=
  (configLines isPrint inst apiPort apiToken).flatMap (· ++ ['\n'])

/-! ## What a process serves -/

/-- A secret with its tag and its limits as they are sent; a tag or limit that is not sent is empty. -/
structure Served where
  secret : String
  adTag : String
  quota : String
  expires : String
  deriving DecidableEq

abbrev SecretSet := Std.ExtTreeMap String Served

def SecretEntry.served (e : SecretEntry) : Served where
  secret := e.secret
  adTag := e.adTag
  quota := if e.quotaBytes > 0 then quotaString e.quotaBytes else ""
  expires := if e.expiresUnix > 0 then expiresString e.expiresUnix else ""

def secretsPayload (inst : Instance) : SecretSet :=
  inst.secrets.foldl (fun secrets e => secrets.insert e.name e.served) ∅

end ThreeXNode.MTProto
