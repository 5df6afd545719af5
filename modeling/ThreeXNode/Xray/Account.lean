import ThreeXNode.Library.Fold
import ThreeXNode.Library.Json

namespace ThreeXNode.Xray
open Library

/-! ## Keys of a WireGuard peer -/

def hexValue (c : Char) : Option Nat :=
  if '0' ≤ c ∧ c ≤ '9' then some (c.toNat - '0'.toNat)
  else if 'a' ≤ c ∧ c ≤ 'f' then some (c.toNat - 'a'.toNat + 10)
  else if 'A' ≤ c ∧ c ≤ 'F' then some (c.toNat - 'A'.toNat + 10)
  else none

def decodeHex : List Char → Option (List Nat)
  | [] => some []
  | a :: b :: rest => do
      let high ← hexValue a
      let low ← hexValue b
      let rest ← decodeHex rest
      return (16 * high + low) :: rest
  | [_] => none

def base64Value (c : Char) : Option Nat :=
  if 'A' ≤ c ∧ c ≤ 'Z' then some (c.toNat - 'A'.toNat)
  else if 'a' ≤ c ∧ c ≤ 'z' then some (c.toNat - 'a'.toNat + 26)
  else if '0' ≤ c ∧ c ≤ '9' then some (c.toNat - '0'.toNat + 52)
  else none

/-- Base64 without padding; line breaks are skipped, and the spare bits of the last group are not looked at. -/
def decodeBase64 (value : Char → Option Nat) : List Nat → Option (List Nat)
  | a :: b :: c :: d :: rest => do
      let n := ((a * 64 + b) * 64 + c) * 64 + d
      let rest ← decodeBase64 value rest
      return n / 65536 :: n / 256 % 256 :: n % 256 :: rest
  | [a, b, c] => some [(a * 4096 + b * 64 + c) / 1024, (a * 4096 + b * 64 + c) / 4 % 256]
  | [a, b] => some [(a * 64 + b) / 16]
  | [_] => none
  | [] => some []

def base64String (plus slash : Char) (s : List Char) : Option (List Nat) := do
  let value := fun c => if c = plus then some 62 else if c = slash then some 63 else base64Value c
  let digits ← (s.filter fun c => c ≠ '\r' ∧ c ≠ '\n').mapM value
  decodeBase64 value digits

def decodeWireguardKey (key : String) : Except String (List Nat) :=
  let text := key.toList
  if text = [] then .error "wireguard: empty key"
  else match (if key.utf8ByteSize = 64 then decodeHex text else none) with
    | some raw => .ok raw
    | none =>
        let trimmed := (text.reverse.dropWhile (· = '=')).reverse
        let raw := if '+' ∈ trimmed ∨ '/' ∈ trimmed then base64String '+' '/' trimmed else base64String '-' '_' trimmed
        match raw with
        | none => .error "illegal base64 data"
        | some raw => if raw.length = 32 then .ok raw else .error "wireguard: key must decode to 32 bytes"

def encodeHex (raw : List Nat) : String :=
  .ofList (raw.flatMap fun b => [Nat.digitChar (b / 16), Nat.digitChar (b % 16)])

def keyToHex (key : String) : Except String String :=
  if key = "" then .ok "" else return encodeHex (← decodeWireguardKey key)

/-! ## Accounts -/

inductive AccountType where
  | vmess
  | vless
  | trojan
  | shadowsocks
  | shadowsocks2022
  | hysteria
  | wireguard
  deriving DecidableEq

inductive CipherType where
  | unknown
  | aes128gcm
  | aes256gcm
  | chacha20
  | xchacha20
  deriving DecidableEq

/-- The account message of a user; fields its type does not have stay at their zero values. -/
structure Account where
  type : AccountType
  id : String := ""
  flow : String := ""
  security : String := ""
  reverse : String := ""
  testseed : List Nat := []
  testpre : Nat := 0
  password : String := ""
  cipher : CipherType := .unknown
  auth : String := ""
  publicKey : String := ""
  preSharedKey : String := ""
  allowedIPs : List String := []
  keepAlive : String := ""
  deriving DecidableEq

structure User where
  email : String
  level : Nat := 0
  account : Account
  deriving DecidableEq

def getRequiredUserString (user : Fields) (key : String) : Except String String :=
  match user[key]? with
  | some (.str s) => .ok s
  | some .null | none => .error ("missing required user field \"" ++ key ++ "\"")
  | some _ => .error ("invalid type for user field \"" ++ key ++ "\"")

def getOptionalUserString (user : Fields) (key : String) : Except String String :=
  match user[key]? with
  | some (.str s) => .ok s
  | some .null | none => .ok ""
  | some _ => .error ("invalid type for user field \"" ++ key ++ "\"")

def collectStringSlice : Option Json → List String
  | some (.arr items) => items.filterMap fun
      | .str s => if s = "" then none else some s
      | _ => none
  | _ => []

def shadowsocksCipherName (user : Fields) : Except String String := do
  let cipher ← getOptionalUserString user "cipher"
  if cipher ≠ "" then return cipher else getOptionalUserString user "method"

def shadowsocksCipherType (cipher : String) : CipherType :=
  let name := cipher.toLower
  if name ∈ ["aes-128-gcm", "aead_aes_128_gcm"] then .aes128gcm
  else if name ∈ ["aes-256-gcm", "aead_aes_256_gcm"] then .aes256gcm
  else if name ∈ ["chacha20-poly1305", "aead_chacha20_poly1305", "chacha20-ietf-poly1305"] then .chacha20
  else if name ∈ ["xchacha20-poly1305", "aead_xchacha20_poly1305", "xchacha20-ietf-poly1305"] then .xchacha20
  else .unknown

def isShadowsocks2022Cipher (cipher : String) : Bool :=
  cipher.toLower ∈ ["2022-blake3-aes-128-gcm", "2022-blake3-aes-256-gcm", "2022-blake3-chacha20-poly1305"]

section
-- What `v.(float64)` yields, without its fraction, where numbers were decoded to floats; nothing where they stayed text.
variable (float : NumLit → Option Int)

def testseed (user : Fields) : List Nat :=
  match user["testseed"]? with
  | some (.arr items) =>
      if items.length ≥ 4 then items.map fun
        | .num n => (((float n).getD 0) % 4294967296).toNat
        | _ => 0
      else []
  | _ => []

def testpre (user : Fields) : Nat :=
  match user["testpre"]? with
  | some (.num n) => if (float n).getD 0 > 0 then (((float n).getD 0) % 4294967296).toNat else 0
  | _ => 0

/-- The account for a user of a running inbound, `none` for protocols whose users cannot be altered live. -/
def buildUserAccount (protocolName : String) (user : Fields) : Except String (Option Account) :=
  match protocolName with
  | "vmess" => do
      let id ← getRequiredUserString user "id"
      return some { type := .vmess, id }
  | "vless" => do
      let id ← getRequiredUserString user "id"
      let flow ← getOptionalUserString user "flow"
      return some { type := .vless, id, flow, testseed := testseed float user, testpre := testpre float user }
  | "trojan" => do
      let password ← getRequiredUserString user "password"
      return some { type := .trojan, password }
  | "shadowsocks" => do
      let cipher ← shadowsocksCipherName user
      let password ← getRequiredUserString user "password"
      if isShadowsocks2022Cipher cipher then return some { type := .shadowsocks2022, password }
      else if shadowsocksCipherType cipher = .unknown then
        .error ("shadowsocks: unknown cipher \"" ++ cipher ++ "\", cannot build an account for the running inbound")
      else return some { type := .shadowsocks, password, cipher := shadowsocksCipherType cipher }
  | "hysteria" => do
      let auth ← getRequiredUserString user "auth"
      return some { type := .hysteria, auth }
  | "wireguard" => do
      let publicKey ← keyToHex (← getRequiredUserString user "publicKey")
      let preSharedKey ← keyToHex (← getOptionalUserString user "preSharedKey")
      let allowedIPs := collectStringSlice user["allowedIPs"]?
      require (allowedIPs ≠ []) "wireguard: allowedIPs required"
      let keepAlive ← getOptionalUserString user "keepAlive"
      return some { type := .wireguard, publicKey, preSharedKey, allowedIPs, keepAlive }
  | _ => .ok none

def apiUser (protocolName : String) (user : Fields) : Except String (Option User) := do
  let email ← getRequiredUserString user "email"
  let account ← buildUserAccount float protocolName user
  return account.map fun account => { email, account }

end

end ThreeXNode.Xray
