import Mathlib.Data.List.Basic

namespace ThreeXNode.Library

/-! Texts that are put together from parts, and when the parts can be told from the whole. -/

theorem intercalate_inj {c : Char} {parts parts' : List String} (free : ∀ p ∈ parts, c ∉ p.toList)
    (free' : ∀ p ∈ parts', c ∉ p.toList) (some : parts ≠ []) (some' : parts' ≠ [])
    (same : (String.singleton c).intercalate parts = (String.singleton c).intercalate parts') : parts = parts' := by
  have chars := congrArg String.toList same
  rw [String.toList_intercalate, String.toList_intercalate, String.toList_singleton] at chars
  have cut : ∀ ps : List String, (∀ p ∈ ps, c ∉ p.toList) → ps ≠ [] →
      ([c].intercalate (ps.map String.toList)).splitOn c = ps.map String.toList := by
    intro ps free some
    apply List.splitOn_intercalate
    · intro l mem
      obtain ⟨p, here, rfl⟩ := List.mem_map.mp mem
      exact free p here
    · simpa using some
  have split := congrArg (List.splitOn c) chars
  rw [cut parts free some, cut parts' free' some'] at split
  exact List.map_injective_iff.mpr (fun a b same => String.toList_inj.mp same) split

theorem cut_inj {α : Type*} {c : α} {front front' back back' : List α} (free : c ∉ front) (free' : c ∉ front')
    (same : front ++ c :: back = front' ++ c :: back') : front = front' ∧ back = back' := by
  induction front generalizing front' with
  | nil =>
      cases front' with
      | nil => exact ⟨rfl, (List.cons.inj same).2⟩
      | cons a rest => exact absurd ((List.cons.inj same).1 ▸ List.mem_cons_self) free'
  | cons a front ih =>
      cases front' with
      | nil => exact absurd ((List.cons.inj same).1 ▸ List.mem_cons_self) free
      | cons b rest =>
          obtain ⟨rfl, tail⟩ := List.cons.inj same
          obtain ⟨rfl, rfl⟩ := ih (fun mem => free (List.mem_cons_of_mem _ mem))
            (fun mem => free' (List.mem_cons_of_mem _ mem)) tail
          exact ⟨rfl, rfl⟩

/-! ## Lower case -/

/-- The lower case of a character of ASCII, of the other Latin letters before U+0180, of Greek and of Cyrillic; any other
character is taken for its own. -/
def lowerRune (c : Char) : Char :=
  let n := c.toNat
  let within := fun first last => first ≤ n ∧ n ≤ last
  if within 0x41 0x5A ∨ (within 0xC0 0xDE ∧ n ≠ 0xD7) ∨ (within 0x391 0x3AB ∧ n ≠ 0x3A2) ∨ within 0x410 0x42F then
    Char.ofNat (n + 32)
  else if n = 0x130 then 'i'
  else if n = 0x178 then 'ÿ'
  else if n = 0x212A then 'k'
  else if within 0x400 0x40F then Char.ofNat (n + 80)
  else if n = 0x386 then 'ά'
  else if within 0x388 0x38A then Char.ofNat (n + 37)
  else if n = 0x38C then 'ό'
  else if within 0x38E 0x38F then Char.ofNat (n + 63)
  else if n = 0x4C0 then Char.ofNat 0x4CF
  else if ((within 0x100 0x137 ∨ within 0x14A 0x177 ∨ within 0x460 0x481 ∨ within 0x48A 0x4BF ∨ within 0x4D0 0x52F) ∧ n % 2 = 0) ∨
      ((within 0x139 0x148 ∨ within 0x179 0x17E ∨ within 0x4C1 0x4CE) ∧ n % 2 = 1) then Char.ofNat (n + 1)
  else c

/-! ## Decimal integers -/

theorem toString_nat_toList (n : Nat) : (toString n).toList = Nat.toDigits 10 n := by
  rw [Nat.toString_eq_repr, Nat.repr_eq_ofList_toDigits, String.toList_ofList]

theorem isDigit_of_mem_toString {n : Nat} {c : Char} (mem : c ∈ (toString n).toList) : c.isDigit = true := by
  rw [toString_nat_toList] at mem
  exact Nat.isDigit_of_mem_toDigits (by decide) (by decide) mem

theorem toString_nat_inj {m n : Nat} (same : toString m = toString n) : m = n := by
  have digits := congrArg String.toList same
  rw [toString_nat_toList, toString_nat_toList] at digits
  rw [← Nat.ofDigitChars_ten_toDigits (n := m), digits, Nat.ofDigitChars_ten_toDigits]

theorem toString_negSucc (n : Nat) : (toString (Int.negSucc n)).toList = '-' :: (toString (n + 1)).toList := by
  show ("-" ++ toString (n + 1)).toList = _
  simp

theorem mem_toString_int {n : Int} {c : Char} (mem : c ∈ (toString n).toList) : c = '-' ∨ c.isDigit = true := by
  cases n with
  | ofNat n => exact .inr (isDigit_of_mem_toString mem)
  | negSucc n =>
      rw [toString_negSucc, List.mem_cons] at mem
      exact mem.imp id isDigit_of_mem_toString

theorem toString_int_inj {m n : Int} (same : toString m = toString n) : m = n := by
  have minus : ∀ k : Nat, '-' ∉ (toString k).toList := by
    intro k mem
    have digit := isDigit_of_mem_toString mem
    revert digit
    decide
  cases m with
  | ofNat m =>
      cases n with
      | ofNat n => exact congrArg Int.ofNat (toString_nat_inj same)
      | negSucc n =>
          have chars := congrArg String.toList same
          rw [toString_negSucc] at chars
          exact absurd (chars ▸ List.mem_cons_self : '-' ∈ (toString m).toList) (minus m)
  | negSucc m =>
      have chars := congrArg String.toList same
      rw [toString_negSucc] at chars
      cases n with
      | ofNat n => exact absurd (chars ▸ List.mem_cons_self : '-' ∈ (toString n).toList) (minus n)
      | negSucc n =>
          rw [toString_negSucc] at chars
          have := toString_nat_inj (String.toList_inj.mp (List.cons.inj chars).2)
          rw [Nat.succ.inj this]

theorem toString_bool_inj {a b : Bool} (same : toString a = toString b) : a = b := by
  revert same
  cases a <;> cases b <;> decide

end ThreeXNode.Library
