import Mathlib.Data.List.Basic

namespace ThreeXNode.Library

/-! # Textual IP addresses -/

namespace Net

def isDigit (ch : Char) : Bool := '0' ≤ ch && ch ≤ '9'

def isHex (ch : Char) : Bool := isDigit ch || ('a' ≤ ch && ch ≤ 'f') || ('A' ≤ ch && ch ≤ 'F')

def digitVal (ch : Char) : Nat :=
  if isDigit ch then ch.toNat - '0'.toNat
  else if 'a' ≤ ch then ch.toNat - 'a'.toNat + 10
  else ch.toNat - 'A'.toNat + 10

def readNat (b : Nat) (cs : List Char) : Nat := cs.foldl (fun acc ch => b * acc + digitVal ch) 0

def splitOnChar (sep : Char) : List Char → List (List Char)
  | [] => [[]]
  | ch :: rest =>
      if ch = sep then [] :: splitOnChar sep rest
      else match splitOnChar sep rest with
        | [] => [[ch]]
        | head :: tail => (ch :: head) :: tail

def isOctet (cs : List Char) : Bool :=
  !cs.isEmpty && cs.all isDigit && (cs.length == 1 || cs.head? != some '0') && readNat 10 cs ≤ 255

def isIPv4 (cs : List Char) : Bool :=
  let octets := splitOnChar '.' cs
  octets.length == 4 && octets.all isOctet

/-- The groups of an IPv6 address from group `i` on; `gap` says whether `::` was met. -/
def ipv6Groups : Nat → Nat → Bool → List Char → Bool
  | 0, _, _, _ => false
  | fuel + 1, i, gap, cs =>
      if i ≥ 8 then cs.isEmpty && !gap
      else
        let group := cs.takeWhile isHex
        let rest := cs.dropWhile isHex
        if group.isEmpty || group.length > 4 then false
        else match rest with
          | '.' :: _ => (gap || i == 6) && i ≤ 6 && isIPv4 cs && (if i + 2 < 8 then gap else !gap)
          | [] => if i + 1 < 8 then gap else !gap
          | [':'] => false
          | ':' :: ':' :: rest =>
              !gap && (if rest.isEmpty then i + 1 < 8 else ipv6Groups fuel (i + 1) true rest)
          | ':' :: rest => ipv6Groups fuel (i + 1) gap rest
          | _ => false

def isIPv6 (cs : List Char) : Bool :=
  match cs with
  | [':', ':'] => true
  | ':' :: ':' :: rest => ipv6Groups 9 0 true rest
  | _ => ipv6Groups 9 0 false cs

def isIP (s : String) : Bool :=
  let cs := s.toList
  match cs.find? fun ch => ch == '.' || ch == ':' with
  | some '.' => isIPv4 cs
  | some ':' => isIPv6 cs
  | _ => false

example : ["127.0.0.1", "::", "::1", "2001:db8::7", "::ffff:10.0.0.1", "1:2:3:4:5:6:7:8"].all isIP = true := by
  decide

example : ["", "127.0.0", "127.0.0.01", "256.0.0.1", "1:2", ":::", "1::2::3", "1:2:3:4:5:6:7::8:9",
    "fe80::1%eth0", "example.org"].any isIP = false := by decide

/-! ## The address a string denotes -/

def ipv4Value (cs : List Char) : List Nat :=
  match (splitOnChar '.' cs).map (readNat 10) with
  | [a, b, c, d] => [256 * a + b, 256 * c + d]
  | _ => []

def groupValues (cs : List Char) : List Nat :=
  if cs.isEmpty then []
  else (splitOnChar ':' cs).flatMap fun group => if '.' ∈ group then ipv4Value group else [readNat 16 group]

def splitGap : List Char → Option (List Char × List Char)
  | ':' :: ':' :: rest => some ([], rest)
  | ch :: rest => (splitGap rest).map fun (front, back) => (ch :: front, back)
  | [] => none

def ipValue (s : String) : Option (List Nat) :=
  let cs := s.toList
  if !isIP s then none
  else if ':' ∉ cs then some ([0, 0, 0, 0, 0, 65535] ++ ipv4Value cs)
  else match splitGap cs with
    | none => some (groupValues cs)
    | some (front, back) =>
        let missing := 8 - (groupValues front).length - (groupValues back).length
        some (groupValues front ++ List.replicate missing 0 ++ groupValues back)

example : ipValue "::1" = ipValue "0:0:0:0:0:0:0:1" ∧ ipValue "::ffff:127.0.0.1" = ipValue "127.0.0.1" ∧
    ipValue "2001:DB8::7" = ipValue "2001:db8:0:0::7" ∧ ipValue "1.2.3" = none := by decide

end Net

end ThreeXNode.Library
