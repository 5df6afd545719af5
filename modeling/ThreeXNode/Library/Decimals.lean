import Mathlib

namespace ThreeXNode.Library

/-! # Decimal numbers as bytes -/

abbrev Digit := Fin 10

def ascii (s : String) : List UInt8 := s.toList.map fun c => UInt8.ofNat c.toNat

def digitByte (d : Digit) : UInt8 := UInt8.ofNat (48 + d)

def byteDigit (b : UInt8) : Option Digit :=
  if 48 ≤ b.toNat ∧ b.toNat < 58 then some (Fin.ofNat 10 (b.toNat - 48)) else none

@[simp] theorem byteDigit_digitByte (d : Digit) : byteDigit (digitByte d) = some d := by
  revert d
  decide

def takeDigits : List UInt8 → List Digit × List UInt8
  | [] => ([], [])
  | b :: rest =>
      match byteDigit b with
      | some d => (d :: (takeDigits rest).1, (takeDigits rest).2)
      | none => ([], b :: rest)

theorem takeDigits_stop {rest : List UInt8} (stop : ∀ b ∈ rest.head?, byteDigit b = none) :
    takeDigits rest = ([], rest) := by
  cases rest with
  | nil => rfl
  | cons b rest =>
      have none : byteDigit b = none := stop b rfl
      simp [takeDigits, none]

theorem takeDigits_append (ds : List Digit) {rest : List UInt8} (stop : ∀ b ∈ rest.head?, byteDigit b = none) :
    takeDigits (ds.map digitByte ++ rest) = (ds, rest) := by
  induction ds with
  | nil => exact takeDigits_stop stop
  | cons d ds ih => simp [takeDigits, ih]

/-! ## Natural numbers -/

def natOf (ds : List Digit) : Nat := Nat.ofDigits 10 (ds.reverse.map Fin.val)

def natDigits (n : Nat) : List Digit :=
  if n = 0 then [0] else (Nat.digits 10 n).reverse.map (Fin.ofNat 10)

theorem val_ofNat_digits {ds : List Nat} (small : ∀ d ∈ ds, d < 10) : (ds.map (Fin.ofNat 10)).map Fin.val = ds := by
  rw [List.map_map]
  conv_rhs => rw [← List.map_id ds]
  apply List.map_congr_left
  intro d mem
  simpa using Nat.mod_eq_of_lt (small d mem)

theorem natOf_natDigits (n : Nat) : natOf (natDigits n) = n := by
  unfold natDigits natOf
  split
  · rename_i zero
    rw [zero]
    rfl
  · rw [← List.map_reverse, List.reverse_reverse,
      val_ofNat_digits fun d mem => Nat.digits_lt_base (by decide) mem]
    exact Nat.ofDigits_digits 10 n

theorem natDigits_ne_nil (n : Nat) : natDigits n ≠ [] := by
  unfold natDigits
  split
  · simp
  · rename_i positive
    simpa [Nat.digits_eq_nil_iff_eq_zero] using positive

theorem natDigits_natOf {ds : List Digit} (filled : ds ≠ []) (lead : ds.head? ≠ some 0) :
    natDigits (natOf ds) = ds := by
  have last : ∀ h : ds.reverse.map Fin.val ≠ [], (ds.reverse.map Fin.val).getLast h ≠ 0 := by
    intro h zero
    rw [List.getLast_map, List.getLast_reverse] at zero
    apply lead
    rw [List.head?_eq_some_head filled]
    exact congrArg some (Fin.val_eq_zero_iff.mp zero)
  have back := Nat.digits_ofDigits 10 (by decide) (ds.reverse.map Fin.val) (by simp) last
  have positive : natOf ds ≠ 0 := by
    intro zero
    unfold natOf at zero
    rw [zero] at back
    simp [filled] at back
  unfold natDigits
  rw [if_neg positive]
  unfold natOf
  rw [back, ← List.map_reverse, List.reverse_reverse, List.map_map]
  conv_rhs => rw [← List.map_id ds]
  apply List.map_congr_left
  intro d _
  simp

/-! ## Decimal fractions -/

/-- A decimal `0.d₁d₂… · 10 ^ point` without zeros at either end. -/
structure Decimal where
  digits : List Digit
  point : Int
  lead : digits.head? ≠ some 0
  last : digits.getLast? ≠ some 0
  empty : digits = [] → point = 0
  deriving DecidableEq

namespace Decimal

def zero : Decimal := ⟨[], 0, by simp, by simp, fun _ => rfl⟩

def isZero (d : Digit) : Bool := d == 0

def significant (ds : List Digit) : List Digit := (ds.dropWhile isZero).rdropWhile isZero

theorem head_significant (ds : List Digit) : (significant ds).head? ≠ some 0 := by
  unfold significant
  intro zero
  obtain ⟨tail, whole⟩ := List.rdropWhile_prefix isZero (l := ds.dropWhile isZero)
  have head : (ds.dropWhile isZero).head? = some 0 := by
    rw [← whole, List.head?_append, zero]
    rfl
  have clear := List.head?_dropWhile_not isZero ds
  rw [head] at clear
  exact absurd clear (by decide)

theorem last_significant (ds : List Digit) : (significant ds).getLast? ≠ some 0 := by
  intro zero
  have filled : significant ds ≠ [] := by
    intro none
    rw [none] at zero
    cases zero
  have last : (significant ds).getLast filled = 0 := by
    rw [List.getLast?_eq_some_getLast filled] at zero
    exact Option.some.inj zero
  apply List.rdropWhile_last_not isZero (ds.dropWhile isZero) filled
  show isZero ((significant ds).getLast filled) = true
  rw [last]
  rfl

/-- The decimal with the digits `ds` of which the first stands `point` places before the point's right. -/
def ofDigits (ds : List Digit) (point : Int) : Decimal :=
  if filled : significant ds = [] then zero
  else ⟨significant ds, point - (ds.takeWhile isZero).length, head_significant ds, last_significant ds,
    fun none => absurd none filled⟩

theorem dropWhile_zeros (k : Nat) (ds : List Digit) :
    (List.replicate k 0 ++ ds).dropWhile isZero = ds.dropWhile isZero := by
  apply List.dropWhile_append_of_pos
  intro d mem
  rw [List.eq_of_mem_replicate mem]
  rfl

theorem takeWhile_zeros {k : Nat} {ds : List Digit} (lead : ds.head? ≠ some 0) :
    (List.replicate k 0 ++ ds).takeWhile isZero = List.replicate k 0 := by
  rw [List.takeWhile_append_of_pos]
  · cases ds with
    | nil => simp
    | cons d ds =>
        have clear : isZero d = false := by simpa [isZero] using lead
        simp [List.takeWhile, clear]
  · intro d mem
    rw [List.eq_of_mem_replicate mem]
    rfl

theorem dropWhile_lead {ds : List Digit} (lead : ds.head? ≠ some 0) : ds.dropWhile isZero = ds := by
  cases ds with
  | nil => rfl
  | cons d ds =>
      have clear : isZero d = false := by simpa [isZero] using lead
      simp [List.dropWhile, clear]

theorem significant_padded (d : Decimal) (k j : Nat) :
    significant (List.replicate k 0 ++ (d.digits ++ List.replicate j 0)) = d.digits := by
  unfold significant
  rw [dropWhile_zeros]
  by_cases none : d.digits = []
  · have zeros := dropWhile_zeros j []
    simp only [List.append_nil] at zeros
    rw [none, List.nil_append, zeros]
    rfl
  · have lead : (d.digits ++ List.replicate j 0).head? ≠ some 0 := by
      rw [List.head?_append_of_ne_nil _ none]
      exact d.lead
    rw [dropWhile_lead lead]
    unfold List.rdropWhile
    rw [List.reverse_append, List.reverse_replicate, dropWhile_zeros, dropWhile_lead, List.reverse_reverse]
    rw [List.head?_reverse]
    exact d.last

theorem ofDigits_padded (d : Decimal) (k j : Nat) :
    ofDigits (List.replicate k 0 ++ (d.digits ++ List.replicate j 0)) (d.point + k) = d := by
  unfold ofDigits
  by_cases none : d.digits = []
  · rw [dif_pos ((significant_padded d k j).trans none)]
    cases d with
    | mk digits point lead last empty =>
        obtain rfl : digits = [] := none
        obtain rfl : point = 0 := empty rfl
        rfl
  · rw [dif_neg fun empty => none ((significant_padded d k j).symm.trans empty)]
    have lead : (d.digits ++ List.replicate j 0).head? ≠ some 0 := by
      rw [List.head?_append_of_ne_nil _ none]
      exact d.lead
    simp only [significant_padded, takeWhile_zeros lead, List.length_replicate, Int.add_sub_cancel]

end Decimal

/-! ## Number texts -/

/-- A number as it is read: without point and exponent it is an integer. -/
inductive Number where
  | integer (n : Nat)
  | real (d : Decimal)
  deriving DecidableEq

def readExponent : List UInt8 → Option (Int × List UInt8)
  | [] => none
  | e :: rest =>
      if e = 101 ∨ e = 69 then
        let sign : Int := if rest.head? = some 45 then -1 else 1
        let behind := if rest.head? = some 45 ∨ rest.head? = some 43 then rest.tail else rest
        let (ds, rest) := takeDigits behind
        if ds = [] then none else some (sign * natOf ds, rest)
      else none

def readNumber (s : List UInt8) : Option (Number × List UInt8) :=
  let (whole, behind) := takeDigits s
  let dotted := behind.head? = some 46
  let (part, rest) := if dotted then takeDigits behind.tail else ([], behind)
  if whole = [] ∧ part = [] then none
  else match readExponent rest with
    | some (e, rest) => some (.real (.ofDigits (whole ++ part) (whole.length + e)), rest)
    | none =>
        some (if dotted then .real (.ofDigits (whole ++ part) whole.length) else .integer (natOf whole), rest)

def NumberEnds (rest : List UInt8) : Prop :=
  ∀ b ∈ rest.head?, byteDigit b = none ∧ b ≠ 46 ∧ b ≠ 101 ∧ b ≠ 69

theorem NumberEnds.digits {rest : List UInt8} (ends : NumberEnds rest) : ∀ b ∈ rest.head?, byteDigit b = none :=
  fun b mem => (ends b mem).1

theorem NumberEnds.point {rest : List UInt8} (ends : NumberEnds rest) : rest.head? ≠ some 46 :=
  fun dot => (ends 46 dot).2.1 rfl

theorem NumberEnds.exponent {rest : List UInt8} (ends : NumberEnds rest) : readExponent rest = none := by
  cases rest with
  | nil => rfl
  | cons b rest =>
      obtain ⟨-, -, small, big⟩ := ends b rfl
      simp [readExponent, small, big]

theorem readNumber_dotted {whole : List Digit} (filled : whole ≠ []) (part : List Digit) {rest : List UInt8}
    (stop : ∀ b ∈ rest.head?, byteDigit b = none) :
    readNumber (whole.map digitByte ++ 46 :: (part.map digitByte ++ rest)) =
      match readExponent rest with
      | some (e, rest) => some (.real (.ofDigits (whole ++ part) (whole.length + e)), rest)
      | none => some (.real (.ofDigits (whole ++ part) whole.length), rest) := by
  have dot : ∀ b ∈ (46 :: (part.map digitByte ++ rest)).head?, byteDigit b = none := by
    intro b mem
    obtain rfl : 46 = b := by simpa using mem
    decide
  simp only [readNumber, takeDigits_append whole dot, List.head?_cons, if_true, List.tail_cons,
    takeDigits_append part stop, filled, false_and, if_false]

theorem readNumber_plain {whole : List Digit} (filled : whole ≠ []) {rest : List UInt8}
    (stop : ∀ b ∈ rest.head?, byteDigit b = none) (point : rest.head? ≠ some 46) :
    readNumber (whole.map digitByte ++ rest) =
      match readExponent rest with
      | some (e, rest) => some (.real (.ofDigits whole (whole.length + e)), rest)
      | none => some (.integer (natOf whole), rest) := by
  simp only [readNumber, takeDigits_append whole stop, point, if_false, filled, false_and, List.append_nil]

/-! ## Writing decimals -/

def exponentText (e : Int) : List UInt8 :=
  101 :: (if e < 0 then 45 else 43) ::
    ((if e.natAbs < 10 then [0] else []) ++ natDigits e.natAbs).map digitByte

theorem natOf_zero_cons (ds : List Digit) : natOf (0 :: ds) = natOf ds := by
  simp [natOf, Nat.ofDigits_append]

theorem readExponent_exponentText (e : Int) {rest : List UInt8} (stop : ∀ b ∈ rest.head?, byteDigit b = none) :
    readExponent (exponentText e ++ rest) = some (e, rest) := by
  have value : natOf ((if e.natAbs < 10 then [0] else []) ++ natDigits e.natAbs) = e.natAbs := by
    split
    · exact (natOf_zero_cons _).trans (natOf_natDigits _)
    · exact natOf_natDigits _
  have filled : (if e.natAbs < 10 then [0] else []) ++ natDigits e.natAbs ≠ [] := by
    simp [natDigits_ne_nil]
  by_cases negative : e < 0
  · simp only [exponentText, negative, if_true, List.cons_append, readExponent, true_or, List.head?_cons,
      List.tail_cons, takeDigits_append _ stop, filled, if_false, value, Option.some.injEq, Prod.mk.injEq, and_true]
    omega
  · have plus : (43 : UInt8) ≠ 45 := by decide
    simp only [exponentText, negative, if_true, List.cons_append, readExponent, true_or, List.head?_cons,
      Option.some.injEq, plus, false_or, List.tail_cons, takeDigits_append _ stop, filled, if_false, value,
      Prod.mk.injEq, and_true]
    omega

theorem exponentText_stop (e : Int) (rest : List UInt8) :
    ∀ b ∈ (exponentText e ++ rest).head?, byteDigit b = none := by
  intro b mem
  obtain rfl : 101 = b := by simpa [exponentText] using mem
  decide

namespace Decimal

/-- One digit before the point, and an exponent of two digits or more. -/
def formatE (d : Decimal) : List UInt8 :=
  digitByte (d.digits.headD 0) ::
    ((if d.digits.tail = [] then [] else 46 :: d.digits.tail.map digitByte) ++ exponentText (d.point - 1))

def wholeDigits (d : Decimal) : List Digit :=
  if 0 < d.point then d.digits.take d.point.toNat ++ List.replicate (d.point.toNat - d.digits.length) 0 else [0]

def partDigits (d : Decimal) : List Digit :=
  List.replicate (-d.point).toNat 0 ++ d.digits.drop d.point.toNat

def formatF (d : Decimal) : List UInt8 :=
  d.wholeDigits.map digitByte ++ if d.partDigits = [] then [] else 46 :: d.partDigits.map digitByte

def formatG (d : Decimal) : List UInt8 :=
  if d.point - 1 < -4 ∨ 6 ≤ d.point - 1 then d.formatE else d.formatF

theorem read_formatE (d : Decimal) (filled : d.digits ≠ []) {rest : List UInt8} (ends : NumberEnds rest) :
    readNumber (d.formatE ++ rest) = some (.real d, rest) := by
  obtain ⟨first, others, digits⟩ := List.exists_cons_of_ne_nil filled
  have back : ofDigits (first :: others) d.point = d := by
    have padded := ofDigits_padded d 0 0
    simpa [digits] using padded
  have exponent := readExponent_exponentText (d.point - 1) ends.digits
  have stop := exponentText_stop (d.point - 1) rest
  unfold formatE
  simp only [digits, List.headD_cons, List.tail_cons]
  by_cases alone : others = []
  · have point : (exponentText (d.point - 1) ++ rest).head? ≠ some 46 := by simp [exponentText]
    have read := (@readNumber_plain [first]) (by simp) stop point
    rw [exponent] at read
    subst alone
    simpa [back] using read
  · have read := (@readNumber_dotted [first]) (by simp) others stop
    rw [exponent] at read
    simpa [alone, back] using read

def IsInteger (d : Decimal) : Prop := (d.digits.length : Int) ≤ d.point

instance (d : Decimal) : Decidable d.IsInteger := by unfold IsInteger; infer_instance

def toNat (d : Decimal) : Nat := natOf d.wholeDigits

def ofNat (n : Nat) : Decimal := ofDigits (natDigits n) (natDigits n).length

theorem wholeDigits_positive {d : Decimal} (positive : 0 < d.point) :
    d.wholeDigits = d.digits.take d.point.toNat ++ List.replicate (d.point.toNat - d.digits.length) 0 := by
  simp [wholeDigits, positive]

theorem wholeDigits_ne_nil (d : Decimal) : d.wholeDigits ≠ [] := by
  by_cases positive : 0 < d.point
  · rw [wholeDigits_positive positive]
    intro none
    have length := congrArg List.length none
    simp only [List.length_append, List.length_take, List.length_replicate, List.length_nil] at length
    omega
  · simp [wholeDigits, positive]

theorem partDigits_eq_nil (d : Decimal) : d.partDigits = [] ↔ d.IsInteger := by
  unfold partDigits IsInteger
  rw [List.append_eq_nil_iff, List.replicate_eq_nil_iff, List.drop_eq_nil_iff]
  omega

theorem eq_zero_of_point {d : Decimal} (integer : d.IsInteger) (point : d.point ≤ 0) : d = zero := by
  unfold IsInteger at integer
  have none : d.digits = [] := List.eq_nil_of_length_eq_zero (by omega)
  cases d with
  | mk digits shift lead last empty =>
      obtain rfl : digits = [] := none
      obtain rfl : shift = 0 := empty rfl
      rfl

theorem toNat_zero : zero.toNat = 0 := rfl

theorem ofNat_toNat {d : Decimal} (integer : d.IsInteger) : ofNat d.toNat = d := by
  by_cases positive : 0 < d.point
  · have enough : d.digits.length ≤ d.point.toNat := by
      unfold IsInteger at integer
      omega
    have whole := wholeDigits_positive positive
    rw [List.take_of_length_le enough] at whole
    have filled : d.digits ≠ [] := by
      intro none
      have := d.empty none
      omega
    have back : natDigits d.toNat = d.wholeDigits := by
      apply natDigits_natOf d.wholeDigits_ne_nil
      rw [whole, List.head?_append_of_ne_nil _ filled]
      exact d.lead
    unfold ofNat
    rw [back, whole, List.length_append, List.length_replicate]
    have padded := ofDigits_padded d 0 (d.point.toNat - d.digits.length)
    have point : ((d.digits.length + (d.point.toNat - d.digits.length) : Nat) : Int) = d.point + (0 : Nat) := by
      omega
    rw [point]
    simpa using padded
  · rw [eq_zero_of_point integer (by omega)]
    decide

theorem read_formatF (d : Decimal) {rest : List UInt8} (ends : NumberEnds rest) :
    readNumber (d.formatF ++ rest) = some (if d.IsInteger then .integer d.toNat else .real d, rest) := by
  unfold formatF
  by_cases integer : d.IsInteger
  · have read := readNumber_plain d.wholeDigits_ne_nil ends.digits ends.point
    rw [ends.exponent] at read
    simpa [d.partDigits_eq_nil.mpr integer, integer, toNat] using read
  · have dotted : d.partDigits ≠ [] := fun none => integer (d.partDigits_eq_nil.mp none)
    have read := readNumber_dotted d.wholeDigits_ne_nil d.partDigits ends.digits
    rw [ends.exponent] at read
    have back : ofDigits (d.wholeDigits ++ d.partDigits) d.wholeDigits.length = d := by
      by_cases positive : 0 < d.point
      · have short : d.point.toNat - d.digits.length = 0 := by
          unfold IsInteger at integer
          omega
        have whole := wholeDigits_positive positive
        have part : d.partDigits = d.digits.drop d.point.toNat := by
          have none : (-d.point).toNat = 0 := by omega
          simp [partDigits, none]
        rw [short, List.replicate_zero, List.append_nil] at whole
        have length : ((d.digits.take d.point.toNat).length : Int) = d.point := by
          rw [List.length_take]
          omega
        rw [whole, part, List.take_append_drop, length]
        simpa using ofDigits_padded d 0 0
      · have whole : d.wholeDigits = [0] := by simp [wholeDigits, positive]
        have point : d.point.toNat = 0 := by omega
        have padded := ofDigits_padded d ((-d.point).toNat + 1) 0
        rw [List.replicate_succ] at padded
        have one : d.point + (((-d.point).toNat + 1 : Nat) : Int) = 1 := by omega
        rw [one] at padded
        simpa [whole, partDigits, point] using padded
    simpa [dotted, integer, back] using read

/-- Written without point and exponent: the integers below a million. -/
def WrittenWhole (d : Decimal) : Prop := d.IsInteger ∧ d.point ≤ 6

instance (d : Decimal) : Decidable d.WrittenWhole := by unfold WrittenWhole; infer_instance

theorem zero_writtenWhole : zero.WrittenWhole := by decide

theorem read_formatG (d : Decimal) {rest : List UInt8} (ends : NumberEnds rest) :
    readNumber (d.formatG ++ rest) = some (if d.WrittenWhole then .integer d.toNat else .real d, rest) := by
  unfold formatG
  split
  · rename_i far
    have filled : d.digits ≠ [] := by
      intro none
      have := d.empty none
      omega
    have large : ¬d.WrittenWhole := by
      rintro ⟨integer, small⟩
      have length := List.length_pos_iff.mpr filled
      unfold IsInteger at integer
      omega
    rw [read_formatE d filled ends, if_neg large]
  · rename_i near
    have same : d.WrittenWhole ↔ d.IsInteger := and_iff_left (by omega)
    rw [read_formatF d ends]
    simp only [same]

theorem wholeDigits_length (d : Decimal) : d.wholeDigits.length = max 1 d.point.toNat := by
  by_cases positive : 0 < d.point
  · rw [wholeDigits_positive positive, List.length_append, List.length_take, List.length_replicate]
    omega
  · simp only [wholeDigits, positive, if_false, List.length_singleton]
    omega

theorem natOf_lt (ds : List Digit) : natOf ds < 10 ^ ds.length := by
  have bound : Nat.ofDigits 10 (ds.reverse.map Fin.val) < 10 ^ (ds.reverse.map Fin.val).length :=
    Nat.ofDigits_lt_base_pow_length (by decide) (by simp)
  simpa [natOf] using bound

theorem WrittenWhole.small {d : Decimal} (whole : d.WrittenWhole) : d.toNat < 10 ^ 6 := by
  apply lt_of_lt_of_le (natOf_lt d.wholeDigits)
  apply Nat.pow_le_pow_right (by decide)
  have point := whole.2
  rw [wholeDigits_length]
  omega

theorem toNat_eq_zero {d : Decimal} (integer : d.IsInteger) : d.toNat = 0 ↔ d = zero := by
  constructor
  · intro none
    rw [← ofNat_toNat integer, none]
    decide
  · intro none
    rw [none, toNat_zero]

theorem formatG_head (d : Decimal) : ∃ first behind, d.formatG = digitByte first :: behind := by
  unfold formatG
  split
  · exact ⟨_, _, rfl⟩
  · obtain ⟨first, others, whole⟩ := List.exists_cons_of_ne_nil d.wholeDigits_ne_nil
    refine ⟨first, ?_⟩
    unfold formatF
    rw [whole]
    exact ⟨_, rfl⟩

end Decimal

end ThreeXNode.Library
