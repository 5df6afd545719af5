import ThreeXNode.Library.Decimals

namespace ThreeXNode.Library.Sqlite

/-! # Values of SQLite and their literals -/

abbrev Text := List UInt8

/-- A floating-point number, by the shortest decimal that names it. -/
inductive Real64 where
  | finite (negative : Bool) (d : Decimal)
  | infinite (negative : Bool)
  deriving DecidableEq

inductive Value where
  | null
  | integer (n : Int64)
  | real (r : Real64)
  | text (t : Text)
  | blob (b : Text)
  deriving DecidableEq

/-! ## Literals -/

def intText (n : Int) : Text := (if n < 0 then [45] else []) ++ (natDigits n.natAbs).map digitByte

def signed (negative : Bool) (n : Nat) : Int := if negative then -n else n

/-- Integers that do not fit 64 bits are read as floating-point numbers. -/
def numberValue (negative : Bool) : Number → Value
  | .integer n =>
      if -2 ^ 63 ≤ signed negative n ∧ signed negative n < 2 ^ 63 then .integer (Int64.ofInt (signed negative n))
      else .real (.finite negative (.ofNat n))
  | .real d => .real (.finite negative d)

def readSigned (negative : Bool) (s : Text) : Option (Value × Text) :=
  (readNumber s).map fun p => (numberValue negative p.1, p.2)

/-- What is between quotes, from behind the first: a doubled quote is one, and a zero byte ends the input. -/
def readQuoted (q : UInt8) : Text → Option (Text × Text)
  | [] => none
  | b :: rest =>
      if b = 0 then none
      else if b = q then
        match rest with
        | [] => some ([], [])
        | c :: behind => if c = q then (readQuoted q behind).map fun p => (q :: p.1, p.2) else some ([], c :: behind)
      else (readQuoted q rest).map fun p => (b :: p.1, p.2)

def hexValue (b : UInt8) : Option Nat :=
  if 48 ≤ b.toNat ∧ b.toNat < 58 then some (b.toNat - 48)
  else if 97 ≤ b.toNat ∧ b.toNat < 103 then some (b.toNat - 87)
  else if 65 ≤ b.toNat ∧ b.toNat < 71 then some (b.toNat - 55)
  else none

def readHex : Text → Option (Text × Text)
  | [] => none
  | a :: rest =>
      if a = 39 then some ([], rest)
      else
        match rest with
        | [] => none
        | b :: behind =>
            match hexValue a, hexValue b with
            | some x, some y => (readHex behind).map fun p => (UInt8.ofNat (16 * x + y) :: p.1, p.2)
            | _, _ => none

def readLiteral (s : Text) : Option (Value × Text) :=
  if ascii "NULL" <+: s then some (.null, s.drop 4)
  else if [39] <+: s then (readQuoted 39 (s.drop 1)).map fun p => (.text p.1, p.2)
  else if [88, 39] <+: s ∨ [120, 39] <+: s then (readHex (s.drop 2)).map fun p => (.blob p.1, p.2)
  else if [45] <+: s then readSigned true (s.drop 1)
  else if [43] <+: s then readSigned false (s.drop 1)
  else readSigned false s

def readValues : Nat → Text → Option (List Value × Text)
  | 0, _ => none
  | fuel + 1, s =>
      match readLiteral s with
      | some (v, 44 :: rest) => (readValues fuel rest).map fun p => (v :: p.1, p.2)
      | some (v, 41 :: rest) => some ([v], rest)
      | _ => none

/-! ## Column affinity -/

inductive Affinity where
  | text
  | numeric
  | real
  | blob
  deriving DecidableEq

def upper (b : UInt8) : UInt8 := if 97 ≤ b ∧ b ≤ 122 then b - 32 else b

def lower (b : UInt8) : UInt8 := if 65 ≤ b ∧ b ≤ 90 then b + 32 else b

/-- The affinity of a declared type; `INTEGER` and `NUMERIC` affinity store alike. -/
def Affinity.ofDeclared (strict : Bool) (declared : Text) : Affinity :=
  let name := declared.map upper
  if ascii "INT" <:+: name then .numeric
  else if ascii "CHAR" <:+: name ∨ ascii "CLOB" <:+: name ∨ ascii "TEXT" <:+: name then .text
  else if ascii "BLOB" <:+: name ∨ name = [] then .blob
  else if ascii "REAL" <:+: name ∨ ascii "FLOA" <:+: name ∨ ascii "DOUB" <:+: name then .real
  else if strict ∧ name = ascii "ANY" then .blob
  else .numeric

def isSpace (b : UInt8) : Bool := b == 32 || (9 ≤ b && b ≤ 13)

def numericText (t : Text) : Option Value :=
  let s := (t.dropWhile isSpace).rdropWhile isSpace
  let read :=
    if s.head? = some 45 then readSigned true s.tail
    else if s.head? = some 43 then readSigned false s.tail
    else readSigned false s
  match read with
  | some (v, []) => some v
  | _ => none

def Real64.ofInt (n : Int) : Real64 := .finite (n < 0) (.ofNat n.natAbs)

/-- The integer a numeric column keeps instead of a floating-point number. -/
def Real64.toInt64 : Real64 → Option Int64
  | .infinite _ => none
  | .finite negative d =>
      if d.IsInteger ∧ d.toNat < 2 ^ 63 then some (Int64.ofInt (signed negative d.toNat)) else none

def integral (r : Real64) : Value :=
  match r.toInt64 with
  | some n => .integer n
  | none => .real r

/-- What a column keeps of a value; `realText` writes a floating-point number as text. -/
def Affinity.keep (realText : Real64 → Text) : Affinity → Value → Value
  | .text, .integer n => .text (intText n.toInt)
  | .text, .real r => .text (realText r)
  | .numeric, .real r => integral r
  | .numeric, .text t =>
      match numericText t with
      | some (.real r) => integral r
      | some v => v
      | none => .text t
  | .real, .integer n => .real (.ofInt n.toInt)
  | .real, .text t =>
      match numericText t with
      | some (.integer n) => .real (.ofInt n.toInt)
      | some v => v
      | none => .text t
  | _, v => v

/-! ## Reading what was written -/

def double (q : UInt8) (t : Text) : Text := t.flatMap fun b => if b = q then [q, q] else [b]

theorem double_cons (q b : UInt8) (t : Text) : double q (b :: t) = (if b = q then [q, q] else [b]) ++ double q t := rfl

theorem double_free {q : UInt8} {t : Text} (free : q ∉ t) : double q t = t := by
  induction t with
  | nil => rfl
  | cons b t ih =>
      have other : b ≠ q := fun same => free (same ▸ List.mem_cons_self)
      rw [double_cons, if_neg other, ih fun mem => free (List.mem_cons_of_mem _ mem)]
      rfl

theorem readQuoted_null (q : UInt8) (rest : Text) : readQuoted q (0 :: rest) = none := by
  cases rest <;> rfl

theorem readQuoted_other {q b : UInt8} (nonzero : b ≠ 0) (other : b ≠ q) (rest : Text) :
    readQuoted q (b :: rest) = (readQuoted q rest).map fun p => (b :: p.1, p.2) := by
  cases rest <;> simp [readQuoted, nonzero, other]

theorem readQuoted_double {q : UInt8} (mark : q ≠ 0) {t : Text} (clear : 0 ∉ t) {rest : Text}
    (closed : rest.head? ≠ some q) : readQuoted q (double q t ++ q :: rest) = some (t, rest) := by
  induction t with
  | nil =>
      cases rest with
      | nil => simp [double, readQuoted, mark]
      | cons c rest =>
          have other : c ≠ q := by simpa using closed
          simp [double, readQuoted, mark, other]
  | cons b t ih =>
      have nonzero : b ≠ 0 := fun zero => clear (zero ▸ List.mem_cons_self)
      have tail := ih fun mem => clear (List.mem_cons_of_mem _ mem)
      rw [double_cons]
      by_cases quote : b = q
      · subst quote
        simp [readQuoted, mark, tail]
      · rw [if_neg quote, List.append_assoc, List.singleton_append, readQuoted_other nonzero quote, tail]
        rfl

theorem readQuoted_zero {q : UInt8} (mark : q ≠ 0) {t : Text} (zero : 0 ∈ t) (rest : Text) :
    readQuoted q (double q t ++ rest) = none := by
  induction t with
  | nil => cases zero
  | cons b t ih =>
      rw [double_cons]
      by_cases nonzero : b = 0
      · subst nonzero
        rw [if_neg mark.symm, List.append_assoc, List.singleton_append, readQuoted_null]
      · have tail := ih ((List.mem_cons.mp zero).resolve_left fun same => nonzero same.symm)
        by_cases quote : b = q
        · subst quote
          simp [readQuoted, mark, tail]
        · rw [if_neg quote, List.append_assoc, List.singleton_append, readQuoted_other nonzero quote, tail]
          rfl

def hexDigit (n : Nat) : UInt8 := UInt8.ofNat (if n < 10 then 48 + n else 87 + n)

def hexByte (b : UInt8) : Text := [hexDigit (b.toNat / 16), hexDigit (b.toNat % 16)]

theorem hexDigit_facts (n : Nat) (small : n < 16) : hexValue (hexDigit n) = some n ∧ hexDigit n ≠ 39 := by
  interval_cases n <;> decide

theorem readHex_close (rest : Text) : readHex (39 :: rest) = some ([], rest) := by
  cases rest <;> rfl

theorem readHex_hexByte (b rest) : readHex (b.flatMap hexByte ++ 39 :: rest) = some (b, rest) := by
  induction b with
  | nil => exact readHex_close rest
  | cons b bs ih =>
      obtain ⟨high, open'⟩ := hexDigit_facts (b.toNat / 16) (by have := b.toNat_lt; omega)
      obtain ⟨low, -⟩ := hexDigit_facts (b.toNat % 16) (by omega)
      have back : UInt8.ofNat (16 * (b.toNat / 16) + b.toNat % 16) = b := by
        rw [Nat.div_add_mod]
        exact UInt8.ofNat_toNat
      simp [hexByte, readHex, open', high, low, ih, back]

theorem readLiteral_null (rest : Text) : readLiteral (ascii "NULL" ++ rest) = some (.null, rest) := by
  have length : 4 = (ascii "NULL").length := rfl
  simp only [readLiteral, List.prefix_append, if_true]
  rw [length, List.drop_left]

theorem readLiteral_quoted (s : Text) : readLiteral (39 :: s) = (readQuoted 39 s).map fun p => (.text p.1, p.2) := by
  have null : ¬ascii "NULL" <+: 39 :: s := by
    intro found
    exact absurd (List.cons_prefix_cons.mp found).1 (by decide)
  simp [readLiteral, null]

theorem readLiteral_blob (s : Text) : readLiteral (88 :: 39 :: s) = (readHex s).map fun p => (.blob p.1, p.2) := by
  have null : ¬ascii "NULL" <+: 88 :: 39 :: s := by
    intro found
    exact absurd (List.cons_prefix_cons.mp found).1 (by decide)
  simp [readLiteral, null]

theorem readLiteral_minus (s : Text) : readLiteral (45 :: s) = readSigned true s := by
  have null : ¬ascii "NULL" <+: 45 :: s := by
    intro found
    exact absurd (List.cons_prefix_cons.mp found).1 (by decide)
  simp [readLiteral, null]

theorem readLiteral_plus (s : Text) : readLiteral (43 :: s) = readSigned false s := by
  have null : ¬ascii "NULL" <+: 43 :: s := by
    intro found
    exact absurd (List.cons_prefix_cons.mp found).1 (by decide)
  simp [readLiteral, null]

theorem readLiteral_digit (d : Digit) (s : Text) : readLiteral (digitByte d :: s) = readSigned false (digitByte d :: s) := by
  have others : digitByte d ≠ 78 ∧ digitByte d ≠ 39 ∧ digitByte d ≠ 88 ∧ digitByte d ≠ 120 ∧ digitByte d ≠ 45 ∧
      digitByte d ≠ 43 := by
    revert d
    decide
  obtain ⟨n, quote, big, small, minus, plus⟩ := others
  have null : ¬ascii "NULL" <+: digitByte d :: s := by
    intro found
    exact n (List.cons_prefix_cons.mp found).1.symm
  have apart : ∀ {b : UInt8} {t : Text}, digitByte d ≠ b → ¬b :: t <+: digitByte d :: s := by
    intro b t other found
    exact other (List.cons_prefix_cons.mp found).1.symm
  simp [readLiteral, null, apart quote, apart big, apart small, apart minus, apart plus]

theorem readNumber_natDigits (n : Nat) {rest : Text} (ends : NumberEnds rest) :
    readNumber ((natDigits n).map digitByte ++ rest) = some (.integer n, rest) := by
  rw [readNumber_plain (natDigits_ne_nil n) ends.digits ends.point, ends.exponent, natOf_natDigits]

theorem readLiteral_signed (negative : Bool) (first : Digit) (s : Text) :
    readLiteral ((if negative then [45] else []) ++ digitByte first :: s) = readSigned negative (digitByte first :: s) := by
  cases negative with
  | true => exact readLiteral_minus _
  | false => exact readLiteral_digit first s

theorem readLiteral_intText (n : Int64) {rest : Text} (ends : NumberEnds rest) :
    readLiteral (intText n.toInt ++ rest) = some (.integer n, rest) := by
  obtain ⟨first, others, digits⟩ := List.exists_cons_of_ne_nil (natDigits_ne_nil n.toInt.natAbs)
  have number := readNumber_natDigits n.toInt.natAbs ends
  rw [digits, List.map_cons, List.cons_append] at number
  have read := readLiteral_signed (decide (n.toInt < 0)) first (others.map digitByte ++ rest)
  have value : signed (decide (n.toInt < 0)) n.toInt.natAbs = n.toInt := by
    unfold signed
    simp only [decide_eq_true_eq]
    split <;> omega
  have fits : -2 ^ 63 ≤ n.toInt ∧ n.toInt < 2 ^ 63 := ⟨n.le_toInt, n.toInt_lt⟩
  rw [readSigned, number, Option.map_some, numberValue, value, if_pos fits, Int64.ofInt_toInt] at read
  simpa [intText, digits] using read

theorem readLiteral_formatG (negative : Bool) (d : Decimal) {rest : Text} (ends : NumberEnds rest) :
    readLiteral ((if negative then [45] else []) ++ d.formatG ++ rest) =
      some (if d.WrittenWhole then .integer (Int64.ofInt (signed negative d.toNat)) else .real (.finite negative d),
        rest) := by
  obtain ⟨first, behind, digits⟩ := d.formatG_head
  have number := d.read_formatG ends
  rw [digits, List.cons_append] at number
  rw [digits, List.append_assoc, List.cons_append, readLiteral_signed, readSigned, number, Option.map_some]
  split
  · rename_i whole
    have small := whole.small
    have fits : -2 ^ 63 ≤ signed negative d.toNat ∧ signed negative d.toNat < 2 ^ 63 := by
      unfold signed
      split <;> omega
    simp only [numberValue, fits, and_self, if_true]
  · rfl

def Follows (rest : Text) : Prop := rest.head? = some 44 ∨ rest.head? = some 41

theorem Follows.ends {rest : Text} (follows : Follows rest) : NumberEnds rest := by
  intro b mem
  rcases follows with comma | close
  · obtain rfl : b = 44 := Option.some.inj (mem.symm.trans comma)
    decide
  · obtain rfl : b = 41 := Option.some.inj (mem.symm.trans close)
    decide

theorem Follows.closed {rest : Text} (follows : Follows rest) : rest.head? ≠ some 39 := by
  rcases follows with comma | close
  · rw [comma]
    decide
  · rw [close]
    decide

/-- The text is read as the value, or not at all, wherever it stands in a list. -/
def Reads (literal : Text) (v : Option Value) : Prop :=
  ∀ rest, Follows rest → readLiteral (literal ++ rest) = v.map fun v => (v, rest)

theorem readValues_map {α : Type*} {literal : α → Text} {value : α → Option Value} (reads : ∀ x, Reads (literal x) (value x))
    (xs : List α) (filled : xs ≠ []) {fuel : Nat} (enough : xs.length ≤ fuel) (rest : Text) :
    readValues fuel ([44].intercalate (xs.map literal) ++ 41 :: rest) = (xs.mapM value).map fun vs => (vs, rest) := by
  induction xs generalizing fuel with
  | nil => exact absurd rfl filled
  | cons x xs ih =>
      obtain ⟨fuel, rfl⟩ : ∃ more, fuel = more + 1 := ⟨fuel - 1, by simp only [List.length_cons] at enough; omega⟩
      by_cases alone : xs = []
      · subst alone
        have read := reads x (41 :: rest) (.inr rfl)
        simp only [List.map_cons, List.map_nil, List.intercalate_singleton, readValues, read]
        cases found : value x <;> simp [found]
      · have read := reads x (44 :: ([44].intercalate (xs.map literal) ++ 41 :: rest)) (.inl rfl)
        have tail := @ih alone fuel (by simp only [List.length_cons] at enough; omega)
        rw [List.map_cons, List.intercalate_cons_of_ne_nil (by simpa using alone), List.append_assoc, List.append_assoc,
          List.singleton_append, readValues, read]
        cases found : value x with
        | none => simp [found]
        | some v =>
            simp only [Option.map_some, tail, List.mapM_cons, found]
            cases behind : xs.mapM value <;> simp

end ThreeXNode.Library.Sqlite
