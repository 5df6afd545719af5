import Mathlib.Data.List.Basic
import Mathlib.Data.Option.Basic
import Mathlib.Tactic.Ring

namespace ThreeXNode.Library

/-! # Base64 -/

structure Alphabet (α : Type*) where
  symbol : Fin 64 → α
  value : α → Option (Fin 64)
  value_symbol : ∀ i, value (symbol i) = some i

def sextet (n : Nat) : Fin 64 := ⟨n % 64, Nat.mod_lt _ (by decide)⟩

/-- Bytes as digits of six bits; the last digit is filled up with zeros. -/
def sextets : List UInt8 → List (Fin 64)
  | a :: b :: c :: rest =>
      sextet (a.toNat / 4) :: sextet (a.toNat * 16 + b.toNat / 16) :: sextet (b.toNat * 4 + c.toNat / 64) ::
        sextet c.toNat :: sextets rest
  | [a, b] => [sextet (a.toNat / 4), sextet (a.toNat * 16 + b.toNat / 16), sextet (b.toNat * 4)]
  | [a] => [sextet (a.toNat / 4), sextet (a.toNat * 16)]
  | [] => []

/-- The bytes of digits; the bits that fill up the last digit are not looked at. -/
def octets : List (Fin 64) → Option (List UInt8)
  | w :: x :: y :: z :: rest => do
      let tail ← octets rest
      return .ofNat (w.val * 4 + x.val / 16) :: .ofNat (x.val * 16 + y.val / 4) :: .ofNat (y.val * 64 + z.val) :: tail
  | [w, x, y] => some [.ofNat (w.val * 4 + x.val / 16), .ofNat (x.val * 16 + y.val / 4)]
  | [w, x] => some [.ofNat (w.val * 4 + x.val / 16)]
  | [_] => none
  | [] => some []

theorem octet_eq {n : Nat} {b : UInt8} (same : n % 256 = b.toNat) : UInt8.ofNat n = b := by
  apply UInt8.toNat_inj.mp
  simpa using same

theorem octets_sextets (bytes : List UInt8) : octets (sextets bytes) = some bytes := by
  induction bytes using sextets.induct with
  | case1 a b c rest ih =>
      have ha := a.toNat_lt
      have hb := b.toNat_lt
      have hc := c.toNat_lt
      have first : UInt8.ofNat (a.toNat / 4 % 64 * 4 + (a.toNat * 16 + b.toNat / 16) % 64 / 16) = a := octet_eq (by omega)
      have second : UInt8.ofNat ((a.toNat * 16 + b.toNat / 16) % 64 * 16 + (b.toNat * 4 + c.toNat / 64) % 64 / 4) = b :=
        octet_eq (by omega)
      have third : UInt8.ofNat ((b.toNat * 4 + c.toNat / 64) % 64 * 64 + c.toNat % 64) = c := octet_eq (by omega)
      simp only [sextets, octets, sextet, ih, first, second, third]
      rfl
  | case2 a b =>
      have ha := a.toNat_lt
      have hb := b.toNat_lt
      have first : UInt8.ofNat (a.toNat / 4 % 64 * 4 + (a.toNat * 16 + b.toNat / 16) % 64 / 16) = a := octet_eq (by omega)
      have second : UInt8.ofNat ((a.toNat * 16 + b.toNat / 16) % 64 * 16 + b.toNat * 4 % 64 / 4) = b := octet_eq (by omega)
      simp only [sextets, octets, sextet, first, second]
  | case3 a =>
      have ha := a.toNat_lt
      have first : UInt8.ofNat (a.toNat / 4 % 64 * 4 + a.toNat * 16 % 64 / 16) = a := octet_eq (by omega)
      simp only [sextets, octets, sextet, first]
  | case4 => rfl

namespace Alphabet

variable {α : Type*} (A : Alphabet α)

def encode (bytes : List UInt8) : List α := (sextets bytes).map A.symbol

def decode (text : List α) : Option (List UInt8) := (text.mapM A.value).bind octets

theorem values_symbols (digits : List (Fin 64)) : (digits.map A.symbol).mapM A.value = some digits := by
  induction digits with
  | nil => rfl
  | cons d rest ih =>
      rw [List.map_cons, List.mapM_cons, A.value_symbol, ih]
      rfl

theorem decode_encode (bytes : List UInt8) : A.decode (A.encode bytes) = some bytes := by
  unfold decode encode
  rw [values_symbols]
  exact octets_sextets bytes

theorem mem_encode {bytes : List UInt8} {a : α} (mem : a ∈ A.encode bytes) : ∃ i, a = A.symbol i := by
  obtain ⟨i, -, rfl⟩ := List.mem_map.mp mem
  exact ⟨i, rfl⟩

section Padding

variable [DecidableEq α]

def unpadded (pad : α) (text : List α) : Option (List α) :=
  if text.length % 4 ≠ 0 then none
  else if [pad, pad] <:+ text then some text.dropLast.dropLast
  else if [pad] <:+ text then some text.dropLast
  else some text

def decodePadded (pad : α) (text : List α) : Option (List UInt8) := (unpadded pad text).bind A.decode

end Padding

end Alphabet

end ThreeXNode.Library
