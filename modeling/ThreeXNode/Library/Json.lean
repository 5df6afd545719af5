import Mathlib

namespace ThreeXNode.Library

/-- A number literal: its sign, its integer digits, and its fraction and exponent as written. -/
structure NumLit where
  neg : Bool
  digits : Nat
  tail : String
  deriving DecidableEq, Repr

namespace NumLit

def ofInt (n : Int) : NumLit := ⟨decide (n < 0), n.natAbs, ""⟩

def toInt? (n : NumLit) : Option Int :=
  if n.tail = "" then some (if n.neg then -(n.digits : Int) else n.digits) else none

@[simp] theorem toInt?_ofInt (n : Int) : (ofInt n).toInt? = some n := by
  simp only [toInt?, ofInt, ↓reduceIte, decide_eq_true_eq, Option.some.injEq]
  split <;> omega

end NumLit

/-- A JSON value as written: object members keep their order, and a key may occur twice. -/
inductive Json where
  | null
  | bool (b : Bool)
  | num (n : NumLit)
  | str (s : String)
  | arr (items : List Json)
  | obj (members : List (String × Json))
  deriving Repr

/-- A decoded object; the last of several members with one key counts. -/
abbrev Fields := Std.ExtTreeMap String Json

namespace Json

mutual

def beq : Json → Json → Bool
  | .null, .null => true
  | .bool a, .bool b => a == b
  | .num a, .num b => a == b
  | .str a, .str b => a == b
  | .arr as, .arr bs => beqItems as bs
  | .obj as, .obj bs => beqMembers as bs
  | _, _ => false

def beqItems : List Json → List Json → Bool
  | [], [] => true
  | a :: as, b :: bs => beq a b && beqItems as bs
  | _, _ => false

def beqMembers : List (String × Json) → List (String × Json) → Bool
  | [], [] => true
  | (k, a) :: as, (l, b) :: bs => k == l && beq a b && beqMembers as bs
  | _, _ => false

end

mutual

theorem beq_iff : ∀ a b : Json, beq a b = true ↔ a = b
  | .null, b => by cases b <;> simp [beq]
  | .bool _, b => by cases b <;> simp [beq]
  | .num _, b => by cases b <;> simp [beq]
  | .str _, b => by cases b <;> simp [beq]
  | .arr as, b => by cases b <;> simp [beq, beqItems_iff as]
  | .obj as, b => by cases b <;> simp [beq, beqMembers_iff as]

theorem beqItems_iff : ∀ as bs : List Json, beqItems as bs = true ↔ as = bs
  | [], bs => by cases bs <;> simp [beqItems]
  | a :: as, bs => by cases bs <;> simp [beqItems, beq_iff a, beqItems_iff as]

theorem beqMembers_iff : ∀ as bs : List (String × Json), beqMembers as bs = true ↔ as = bs
  | [], bs => by cases bs <;> simp [beqMembers]
  | (k, a) :: as, bs => by
      cases bs with
      | nil => simp [beqMembers]
      | cons head tail =>
          obtain ⟨l, b⟩ := head
          simp [beqMembers, beq_iff a, beqMembers_iff as, and_assoc]

end

instance : DecidableEq Json := fun a b => decidable_of_iff _ (beq_iff a b)

/-! ## Decoding into a typed variable

`null` leaves the variable at its zero value without an error. -/

def asText : Json → Option String
  | .str s => some s
  | .null => some ""
  | _ => none

def asBool : Json → Option Bool
  | .bool b => some b
  | .null => some false
  | _ => none

/-- A literal with a fraction or an exponent is no integer, and one out of range is an error. -/
def asInt (lo hi : Int) : Json → Option Int
  | .num n => n.toInt?.filter fun v => decide (lo ≤ v ∧ v < hi)
  | .null => some 0
  | _ => none

def asInt64 : Json → Option Int := asInt (-9223372036854775808) 9223372036854775808

def asUInt64 : Json → Option Int := asInt 0 18446744073709551616

def asFields : Json → Option Fields
  | .obj members => some (.ofList members)
  | .null => some ∅
  | _ => none

def asList (f : Json → Option α) : Json → Option (List α)
  | .arr items => items.mapM f
  | .null => some []
  | _ => none

/-- The values that read as "not set": the zero, `null` and empty forms. -/
def isEmpty : Json → Bool
  | .null => true
  | .bool b => !b
  | .num n => n == ⟨false, 0, ""⟩
  | .str s => s == ""
  | .arr items => items.isEmpty
  | .obj members => members.isEmpty

def ofFields (o : Fields) : Json := .obj o.toList

def ofInt (n : Int) : Json := .num (.ofInt n)

@[simp] theorem asFields_ofFields (o : Fields) : asFields (ofFields o) = some o := by
  simp only [asFields, ofFields, Option.some.injEq]
  apply Std.ExtTreeMap.ext_getElem?
  intro k
  cases h : o[k]? with
  | some v =>
      exact Std.ExtTreeMap.getElem?_ofList_of_mem (by simp) Std.ExtTreeMap.distinct_keys_toList
        (Std.ExtTreeMap.mem_toList_iff_getElem?_eq_some.mpr h)
  | none =>
      apply Std.ExtTreeMap.getElem?_ofList_of_contains_eq_false
      rw [Std.ExtTreeMap.map_fst_toList_eq_keys, List.contains_eq_mem, decide_eq_false_iff_not,
        Std.ExtTreeMap.mem_keys, Std.ExtTreeMap.mem_iff_isSome_getElem?, h]
      simp

@[simp] theorem asInt64_ofInt {n : Int} (lo : -9223372036854775808 ≤ n) (hi : n < 9223372036854775808) :
    asInt64 (ofInt n) = some n := by
  simp [asInt64, asInt, ofInt, lo, hi]

@[simp] theorem asBool_bool (b : Bool) : asBool (.bool b) = some b := rfl

@[simp] theorem asText_str (s : String) : asText (.str s) = some s := rfl

theorem asInt_range {lo hi v : Int} {j : Json} (h : asInt lo hi j = some v) (zero : lo ≤ 0 ∧ 0 < hi) :
    lo ≤ v ∧ v < hi := by
  cases j with
  | null => cases h; exact zero
  | num n =>
      simp only [asInt, Option.filter_eq_some_iff, decide_eq_true_eq] at h
      exact h.2
  | bool _ | str _ | arr _ | obj _ => cases h

end Json

namespace Fields

/-! ## Reading one member, with the zero value for a missing or mistyped one -/

def text (o : Fields) (k : String) : String := (o[k]?.bind Json.asText).getD ""

def number (o : Fields) (k : String) : Int := (o[k]?.bind Json.asInt64).getD 0

def enabled (o : Fields) (k : String) : Bool := (o[k]?.bind Json.asBool).getD false

def emptyAt (o : Fields) (k : String) : Bool := (o[k]?.map Json.isEmpty).getD true

@[simp] theorem text_insert_self (o : Fields) (k s : String) : text (o.insert k (.str s)) k = s := by
  simp [text]

@[simp] theorem enabled_insert_self (o : Fields) (k : String) (b : Bool) :
    enabled (o.insert k (.bool b)) k = b := by
  simp [enabled]

theorem number_insert_self (o : Fields) (k : String) {n : Int}
    (lo : -9223372036854775808 ≤ n) (hi : n < 9223372036854775808) :
    number (o.insert k (.ofInt n)) k = n := by
  simp [number, Json.asInt64_ofInt lo hi]

theorem text_insert_of_ne (o : Fields) {k l : String} (j : Json) (ne : k ≠ l) :
    text (o.insert k j) l = text o l := by
  simp [text, Std.ExtTreeMap.getElem?_insert, ne]

theorem number_insert_of_ne (o : Fields) {k l : String} (j : Json) (ne : k ≠ l) :
    number (o.insert k j) l = number o l := by
  simp [number, Std.ExtTreeMap.getElem?_insert, ne]

theorem enabled_insert_of_ne (o : Fields) {k l : String} (j : Json) (ne : k ≠ l) :
    enabled (o.insert k j) l = enabled o l := by
  simp [enabled, Std.ExtTreeMap.getElem?_insert, ne]

theorem number_range (o : Fields) (k : String) :
    -9223372036854775808 ≤ number o k ∧ number o k < 9223372036854775808 := by
  unfold number
  cases h : o[k]?.bind Json.asInt64 with
  | none => simp
  | some v =>
      obtain ⟨j, _, found⟩ := Option.bind_eq_some_iff.mp h
      exact Json.asInt_range found (by decide)

end Fields

end ThreeXNode.Library
