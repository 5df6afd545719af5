import ThreeXNode.Library.Fold

namespace ThreeXNode.Library

/-! # The wire format of Protocol Buffers -/

namespace Protowire

abbrev Bytes := List UInt8

inductive ParseError where
  | truncated
  | fieldNumber
  | overflow
  | reserved
  | endGroup
  | recursionDepth
  deriving DecidableEq

/-- The value of a field on the wire; that of a group is only passed over. -/
inductive Value where
  | varint (value : Nat)
  | fixed64 (raw : Bytes)
  | bytes (payload : Bytes)
  | group
  | fixed32 (raw : Bytes)
  deriving DecidableEq

structure Field where
  number : Nat
  value : Value
  deriving DecidableEq

def Field.payload (number : Nat) (field : Field) : Option Bytes :=
  match field.value with
  | .bytes payload => if field.number = number then some payload else none
  | _ => none

def Field.varint (number : Nat) (field : Field) : Option Nat :=
  match field.value with
  | .varint value => if field.number = number then some value else none
  | _ => none

theorem Field.payload_other {m n : Nat} {field : Field} {raw : Bytes} (h : field.payload m = some raw) (other : m ≠ n) :
    field.payload n = none := by
  cases value : field.value with
  | bytes payload =>
      have number : field.number = m := by
        by_contra differs
        simp [Field.payload, value, differs] at h
      simp [Field.payload, value, number, other]
  | varint _ => simp [Field.payload, value]
  | fixed64 _ => simp [Field.payload, value]
  | group => simp [Field.payload, value]
  | fixed32 _ => simp [Field.payload, value]

theorem Field.value_of_payload {n : Nat} {field : Field} {raw : Bytes} (h : field.payload n = some raw) :
    field.value = .bytes raw := by
  unfold Field.payload at h
  split at h
  · rename_i value
    split at h
    · cases h
      exact value
    · cases h
  · cases h

theorem Field.varint_of_payload {m n : Nat} {field : Field} {raw : Bytes} (h : field.payload m = some raw) :
    field.varint n = none := by
  rw [Field.varint, Field.value_of_payload h]

abbrev Parsed (α : Type) := Except ParseError (α × Bytes)

/-- A varint from its byte `i` on; the tenth byte has one bit only. -/
def consumeVarintFrom : Nat → Nat → Bytes → Parsed Nat
  | _, _, [] => .error .truncated
  | i, low, byte :: rest =>
      if i = 9 then if byte < 2 then .ok (low + byte.toNat * 2 ^ 63, rest) else .error .overflow
      else if byte < 128 then .ok (low + byte.toNat * 2 ^ (7 * i), rest)
      else consumeVarintFrom (i + 1) (low + (byte.toNat - 128) * 2 ^ (7 * i)) rest

def consumeVarint (b : Bytes) : Parsed Nat := consumeVarintFrom 0 0 b

def consumeTag (b : Bytes) : Except ParseError ((Nat × Nat) × Bytes) := do
  let (tag, rest) ← consumeVarint b
  if tag / 8 = 0 ∨ 2147483647 < tag / 8 then .error .fieldNumber else .ok ((tag / 8, tag % 8), rest)

def consumeRaw (length : Nat) (b : Bytes) : Parsed Bytes :=
  if b.length < length then .error .truncated else .ok (b.take length, b.drop length)

def consumeBytes (b : Bytes) : Except ParseError (Bytes × Bytes) := do
  let (length, rest) ← consumeVarint b
  consumeRaw length rest

def consumeScalar (wireType : Nat) (b : Bytes) : Parsed Value :=
  match wireType with
  | 0 => (consumeVarint b).map fun (value, rest) => (.varint value, rest)
  | 1 => (consumeRaw 8 b).map fun (raw, rest) => (.fixed64 raw, rest)
  | 2 => (consumeBytes b).map fun (payload, rest) => (.bytes payload, rest)
  | 4 => .error .endGroup
  | 5 => (consumeRaw 4 b).map fun (raw, rest) => (.fixed32 raw, rest)
  | _ => .error .reserved

/-- What is behind the groups that are open; every pass takes a byte at least. -/
def skipGroups : Nat → List Nat → Bytes → Except ParseError Bytes
  | _, [], b => .ok b
  | 0, _ :: _, _ => .error .truncated
  | fuel + 1, number :: open', b => do
      let ((inner, wireType), rest) ← consumeTag b
      if wireType = 4 then if inner = number then skipGroups fuel open' rest else .error .endGroup
      else if wireType = 3 then
        if open'.length < 10000 then skipGroups fuel (inner :: number :: open') rest else .error .recursionDepth
      else do
        let (_, rest) ← consumeScalar wireType rest
        skipGroups fuel (number :: open') rest

def consumeValue (number wireType : Nat) (b : Bytes) : Parsed Value :=
  if wireType = 3 then (skipGroups b.length [number] b).map fun rest => (.group, rest) else consumeScalar wireType b

def consumeField (b : Bytes) : Except ParseError (Field × Bytes) := do
  let ((number, wireType), rest) ← consumeTag b
  (consumeValue number wireType rest).map fun (value, rest) => (⟨number, value⟩, rest)

/-! ## What is taken -/

def Takes (b rest : Bytes) : Prop := ∃ front, front ≠ [] ∧ b = front ++ rest

theorem Takes.shorter {b rest : Bytes} (takes : Takes b rest) : rest.length < b.length := by
  obtain ⟨front, some', rfl⟩ := takes
  have := List.length_pos_iff.mpr some'
  rw [List.length_append]
  omega

theorem Takes.trans_suffix {b mid rest : Bytes} (takes : Takes b mid) (suffix : rest <:+ mid) : Takes b rest := by
  obtain ⟨front, some', rfl⟩ := takes
  obtain ⟨more, rfl⟩ := suffix
  exact ⟨front ++ more, by simp [some'], by simp⟩

theorem Takes.suffix {b rest : Bytes} (takes : Takes b rest) : rest <:+ b := by
  obtain ⟨front, -, rfl⟩ := takes
  exact List.suffix_append _ _

theorem consumeVarintFrom_takes {i low v : Nat} {b rest : Bytes} (h : consumeVarintFrom i low b = .ok (v, rest)) :
    Takes b rest := by
  induction b generalizing i low with
  | nil => cases h
  | cons byte b ih =>
      have one : Takes (byte :: b) b := ⟨[byte], by simp, rfl⟩
      unfold consumeVarintFrom at h
      split at h
      · split at h
        · cases h
          exact one
        · cases h
      · split at h
        · cases h
          exact one
        · exact one.trans_suffix (ih h).suffix

theorem consumeTag_takes {b rest : Bytes} {tag : Nat × Nat} (h : consumeTag b = .ok (tag, rest)) : Takes b rest := by
  simp only [consumeTag, Except.bind_eq_ok] at h
  obtain ⟨⟨v, rest'⟩, varint, h⟩ := h
  dsimp only at h
  split at h
  · cases h
  · cases h
    exact consumeVarintFrom_takes varint

theorem consumeRaw_split {length : Nat} {b raw rest : Bytes} (h : consumeRaw length b = .ok (raw, rest)) :
    b = raw ++ rest := by
  unfold consumeRaw at h
  split at h
  · cases h
  · cases h
    exact (List.take_append_drop length b).symm

theorem map_ok {x : Except ε α} {f : α → β} {b : β} : x.map f = .ok b ↔ ∃ a, x = .ok a ∧ f a = b := by
  cases x <;> simp [Except.map]

theorem consumeScalar_split {wireType : Nat} {b rest : Bytes} {value : Value}
    (h : consumeScalar wireType b = .ok (value, rest)) :
    rest <:+ b ∧ ∀ payload, value = .bytes payload → payload ++ rest <:+ b := by
  unfold consumeScalar at h
  split at h
  · obtain ⟨⟨v, rest'⟩, varint, same⟩ := map_ok.mp h
    cases same
    exact ⟨(consumeVarintFrom_takes varint).suffix, by simp⟩
  · obtain ⟨⟨raw, rest'⟩, taken, same⟩ := map_ok.mp h
    cases same
    exact ⟨⟨raw, (consumeRaw_split taken).symm⟩, by simp⟩
  · obtain ⟨⟨raw, rest'⟩, taken, same⟩ := map_ok.mp h
    cases same
    simp only [consumeBytes, Except.bind_eq_ok] at taken
    obtain ⟨⟨length, behind⟩, varint, taken⟩ := taken
    have whole : raw ++ rest <:+ b := by
      rw [← consumeRaw_split taken]
      exact (consumeVarintFrom_takes varint).suffix
    refine ⟨(List.suffix_append _ _).trans whole, ?_⟩
    intro payload same
    cases same
    exact whole
  · cases h
  · obtain ⟨⟨raw, rest'⟩, taken, same⟩ := map_ok.mp h
    cases same
    exact ⟨⟨raw, (consumeRaw_split taken).symm⟩, by simp⟩
  · cases h

theorem skipGroups_suffix {fuel : Nat} {open' : List Nat} {b rest : Bytes} (h : skipGroups fuel open' b = .ok rest) :
    rest <:+ b := by
  induction fuel generalizing open' b with
  | zero =>
      cases open' with
      | nil =>
          cases h
          exact List.suffix_refl _
      | cons number open' => cases h
  | succ fuel ih =>
      cases open' with
      | nil =>
          cases h
          exact List.suffix_refl _
      | cons number open' =>
          simp only [skipGroups, Except.bind_eq_ok] at h
          obtain ⟨⟨⟨inner, wireType⟩, behind⟩, tag, h⟩ := h
          have shorter := (consumeTag_takes tag).suffix
          dsimp only at h
          split at h
          · split at h
            · exact (ih h).trans shorter
            · cases h
          · split at h
            · split at h
              · exact (ih h).trans shorter
              · cases h
            · obtain ⟨⟨value, behind'⟩, scalar, h⟩ := Except.bind_eq_ok.mp h
              exact (ih h).trans ((consumeScalar_split scalar).1.trans shorter)

theorem skipGroups_enough {fuel fuel' : Nat} {open' : List Nat} {b : Bytes} (enough : b.length ≤ fuel)
    (enough' : b.length ≤ fuel') : skipGroups fuel open' b = skipGroups fuel' open' b := by
  induction fuel generalizing fuel' open' b with
  | zero =>
      rw [List.length_eq_zero_iff.mp (Nat.le_zero.mp enough)]
      cases open' with
      | nil => cases fuel' <;> rfl
      | cons number open' => cases fuel' <;> rfl
  | succ fuel ih =>
      cases open' with
      | nil => cases fuel' <;> rfl
      | cons number open' =>
          cases fuel' with
          | zero =>
              rw [List.length_eq_zero_iff.mp (Nat.le_zero.mp enough')]
              rfl
          | succ fuel' =>
              rw [skipGroups, skipGroups]
              cases tag : consumeTag b with
              | error e => rfl
              | ok read =>
                  obtain ⟨⟨inner, wireType⟩, rest⟩ := read
                  have shorter := (consumeTag_takes tag).shorter
                  simp only [Except.ok_bind]
                  split
                  · split
                    · exact ih (by omega) (by omega)
                    · rfl
                  · split
                    · split
                      · exact ih (by omega) (by omega)
                      · rfl
                    · cases scalar : consumeScalar wireType rest with
                      | error e => rfl
                      | ok read =>
                          have suffix := (consumeScalar_split scalar).1.length_le
                          exact ih (by omega) (by omega)

theorem consumeField_takes {b rest : Bytes} {field : Field} (h : consumeField b = .ok (field, rest)) :
    Takes b rest ∧ ∀ payload, field.value = .bytes payload → payload ++ rest <:+ b := by
  simp only [consumeField, Except.bind_eq_ok] at h
  obtain ⟨⟨⟨number, wireType⟩, behind⟩, tag, h⟩ := h
  obtain ⟨⟨value, rest'⟩, taken, same⟩ := map_ok.mp h
  cases same
  have front := consumeTag_takes tag
  dsimp only at taken
  unfold consumeValue at taken
  split at taken
  · obtain ⟨rest', skipped, same⟩ := map_ok.mp taken
    cases same
    exact ⟨front.trans_suffix (skipGroups_suffix skipped), by simp⟩
  · obtain ⟨suffix, payloads⟩ := consumeScalar_split taken
    exact ⟨front.trans_suffix suffix, fun payload same => (payloads payload same).trans front.suffix⟩

/-! ## The fields of a message -/

def fieldsWithin : Nat → Bytes → Except ParseError (List (Field × Bytes))
  | _, [] => .ok []
  | 0, _ :: _ => .error .truncated
  | fuel + 1, byte :: b => do
      let (field, rest) ← consumeField (byte :: b)
      let fields ← fieldsWithin fuel rest
      return (field, rest) :: fields

def fieldsOf (b : Bytes) : Except ParseError (List (Field × Bytes)) := fieldsWithin b.length b

def foldWithin (step : σ → Field → Bytes → Except ParseError σ) : Nat → σ → Bytes → Except ParseError σ
  | _, s, [] => .ok s
  | 0, _, _ :: _ => .error .truncated
  | fuel + 1, s, byte :: b => do
      let (field, rest) ← consumeField (byte :: b)
      let s ← step s field rest
      foldWithin step fuel s rest

def foldFields (step : σ → Field → Bytes → Except ParseError σ) (s : σ) (b : Bytes) : Except ParseError σ :=
  foldWithin step b.length s b

def firstWithin (pick : Field → Option α) : Nat → Bytes → Option α
  | _, [] => none
  | 0, _ :: _ => none
  | fuel + 1, byte :: b =>
      match consumeField (byte :: b) with
      | .ok (field, rest) => (pick field).or (firstWithin pick fuel rest)
      | .error _ => none

def firstField (pick : Field → Option α) (b : Bytes) : Option α := firstWithin pick b.length b

inductive Message : Bytes → List (Field × Bytes) → Prop where
  | nil : Message [] []
  | cons {b rest : Bytes} {field : Field} {fields : List (Field × Bytes)} :
      consumeField b = .ok (field, rest) → Message rest fields → Message b ((field, rest) :: fields)

theorem fieldsWithin_iff {fuel : Nat} {b : Bytes} {fields : List (Field × Bytes)} (enough : b.length ≤ fuel) :
    fieldsWithin fuel b = .ok fields ↔ Message b fields := by
  induction fuel generalizing b fields with
  | zero =>
      rw [List.length_eq_zero_iff.mp (Nat.le_zero.mp enough)]
      constructor
      · rintro ⟨⟩
        exact .nil
      · rintro (_ | ⟨taken, -⟩)
        · rfl
        · cases taken
  | succ fuel ih =>
      cases b with
      | nil =>
          constructor
          · rintro ⟨⟩
            exact .nil
          · rintro (_ | ⟨taken, -⟩)
            · rfl
            · cases taken
      | cons byte b =>
          simp only [fieldsWithin, Except.bind_eq_ok, Except.pure_eq_ok]
          constructor
          · rintro ⟨⟨field, rest⟩, taken, fields, more, rfl⟩
            have small : rest.length ≤ fuel := by
              have := (consumeField_takes taken).1.shorter
              omega
            exact .cons taken ((ih small).mp more)
          · intro message
            cases message with
            | cons taken more =>
                rename_i rest field fields
                have small : rest.length ≤ fuel := by
                  have := (consumeField_takes taken).1.shorter
                  omega
                exact ⟨(field, rest), taken, fields, (ih small).mpr more, rfl⟩

theorem fieldsOf_iff {b : Bytes} {fields : List (Field × Bytes)} : fieldsOf b = .ok fields ↔ Message b fields :=
  fieldsWithin_iff le_rfl

theorem foldWithin_ok {step : σ → Field → Bytes → Except ParseError σ} {fuel : Nat} {s t : σ} {b : Bytes} :
    foldWithin step fuel s b = .ok t ↔
      ∃ fields, fieldsWithin fuel b = .ok fields ∧ fields.foldlM (fun s field => step s field.1 field.2) s = .ok t := by
  induction fuel generalizing s b with
  | zero => cases b <;> simp [foldWithin, fieldsWithin]
  | succ fuel ih =>
      cases b with
      | nil => simp [foldWithin, fieldsWithin]
      | cons byte b =>
          simp only [foldWithin, fieldsWithin, Except.bind_eq_ok, Except.pure_eq_ok, ih]
          constructor
          · rintro ⟨⟨field, rest⟩, taken, next, first, fields, read, last⟩
            exact ⟨_, ⟨_, taken, fields, read, rfl⟩, Except.bind_eq_ok.mpr ⟨next, first, last⟩⟩
          · rintro ⟨_, ⟨⟨field, rest⟩, taken, fields, read, rfl⟩, looped⟩
            obtain ⟨next, first, last⟩ := Except.bind_eq_ok.mp looped
            exact ⟨_, taken, next, first, fields, read, last⟩

theorem foldFields_ok {step : σ → Field → Bytes → Except ParseError σ} {s t : σ} {b : Bytes} :
    foldFields step s b = .ok t ↔
      ∃ fields, fieldsOf b = .ok fields ∧ fields.foldlM (fun s field => step s field.1 field.2) s = .ok t :=
  foldWithin_ok

theorem firstWithin_fields {pick : Field → Option α} {fuel : Nat} {b : Bytes} {fields : List (Field × Bytes)}
    (read : fieldsWithin fuel b = .ok fields) : firstWithin pick fuel b = fields.findSome? fun field => pick field.1 := by
  induction fuel generalizing b fields with
  | zero =>
      cases b with
      | nil =>
          cases read
          rfl
      | cons byte b => cases read
  | succ fuel ih =>
      cases b with
      | nil =>
          cases read
          rfl
      | cons byte b =>
          simp only [fieldsWithin, Except.bind_eq_ok, Except.pure_eq_ok] at read
          obtain ⟨⟨field, rest⟩, taken, fields, more, rfl⟩ := read
          rw [firstWithin, taken, List.findSome?_cons]
          dsimp only
          rw [ih more]
          cases pick field <;> rfl

theorem firstField_fields {pick : Field → Option α} {b : Bytes} {fields : List (Field × Bytes)} (read : fieldsOf b = .ok fields) :
    firstField pick b = fields.findSome? fun field => pick field.1 :=
  firstWithin_fields read

theorem fieldsWithin_payload {fuel : Nat} {b : Bytes} {fields : List (Field × Bytes)}
    (read : fieldsWithin fuel b = .ok fields) : ∀ field ∈ fields, ∀ payload, field.1.value = .bytes payload →
      payload ++ field.2 <:+ b := by
  induction fuel generalizing b fields with
  | zero =>
      cases b with
      | nil =>
          cases read
          simp
      | cons byte b => cases read
  | succ fuel ih =>
      cases b with
      | nil =>
          cases read
          simp
      | cons byte b =>
          simp only [fieldsWithin, Except.bind_eq_ok, Except.pure_eq_ok] at read
          obtain ⟨⟨field, rest⟩, taken, fields, more, rfl⟩ := read
          obtain ⟨takes, payloads⟩ := consumeField_takes taken
          intro field' mem
          rcases List.mem_cons.mp mem with rfl | mem
          · exact payloads
          · intro payload same
            exact (ih more field' mem payload same).trans takes.suffix

theorem fieldsOf_payload {b : Bytes} {fields : List (Field × Bytes)} (read : fieldsOf b = .ok fields) {field : Field × Bytes}
    (mem : field ∈ fields) {payload : Bytes} (same : field.1.value = .bytes payload) : payload ++ field.2 <:+ b :=
  fieldsWithin_payload read field mem payload same

theorem fieldsWithin_ordered {fuel : Nat} {b : Bytes} {fields : List (Field × Bytes)} (read : fieldsWithin fuel b = .ok fields) :
    fields.Pairwise fun field later => ∀ payload, later.1.value = .bytes payload → payload ++ later.2 <:+ field.2 := by
  induction fuel generalizing b fields with
  | zero =>
      cases b with
      | nil =>
          cases read
          exact .nil
      | cons byte b => cases read
  | succ fuel ih =>
      cases b with
      | nil =>
          cases read
          exact .nil
      | cons byte b =>
          simp only [fieldsWithin, Except.bind_eq_ok, Except.pure_eq_ok] at read
          obtain ⟨⟨field, rest⟩, taken, fields, more, rfl⟩ := read
          exact .cons (fieldsWithin_payload more) (ih more)

theorem fieldsOf_ordered {b : Bytes} {fields : List (Field × Bytes)} (read : fieldsOf b = .ok fields) :
    fields.Pairwise fun field later => ∀ payload, later.1.value = .bytes payload → payload ++ later.2 <:+ field.2 :=
  fieldsWithin_ordered read

/-! ## What a decoder makes of a message -/

def payloads (number : Nat) (fields : List (Field × Bytes)) : List Bytes :=
  fields.filterMap fun field => field.1.payload number

def varints (number : Nat) (fields : List (Field × Bytes)) : List Nat :=
  fields.filterMap fun field => field.1.varint number

theorem payloads_cons {number : Nat} {field : Field × Bytes} {fields : List (Field × Bytes)} :
    payloads number (field :: fields) = (field.1.payload number).toList ++ payloads number fields := by
  rw [payloads, List.filterMap_cons]
  cases field.1.payload number <;> rfl

theorem varints_cons {number : Nat} {field : Field × Bytes} {fields : List (Field × Bytes)} :
    varints number (field :: fields) = (field.1.varint number).toList ++ varints number fields := by
  rw [varints, List.filterMap_cons]
  cases field.1.varint number <;> rfl

/-- Of several values of a field that is not repeated the last one counts, and without one it has the zero value. -/
def lastPayload (number : Nat) (fields : List (Field × Bytes)) : Bytes := (payloads number fields).getLast?.getD []

def lastVarint (number : Nat) (fields : List (Field × Bytes)) : Nat := (varints number fields).getLast?.getD 0

def firstPayload (number : Nat) (fields : List (Field × Bytes)) : Bytes := (payloads number fields).head?.getD []

def firstVarint (number : Nat) (fields : List (Field × Bytes)) : Nat := (varints number fields).head?.getD 0

/-- The fields of a message; what cannot be read has none. -/
def partsOf (b : Bytes) : List (Field × Bytes) := (fieldsOf b).toOption.getD []

def WellFormed (b : Bytes) : Prop := ∃ fields, Message b fields

theorem partsOf_read {b : Bytes} {fields : List (Field × Bytes)} (read : fieldsOf b = .ok fields) : partsOf b = fields := by
  rw [partsOf, read]
  rfl

theorem wellFormed_iff {b : Bytes} : WellFormed b ↔ fieldsOf b = .ok (partsOf b) := by
  constructor
  · rintro ⟨fields, message⟩
    have read := fieldsOf_iff.mpr message
    rw [partsOf_read read, read]
  · intro read
    exact ⟨_, fieldsOf_iff.mp read⟩

theorem wellFormed_of_read {b : Bytes} {fields : List (Field × Bytes)} (read : fieldsOf b = .ok fields) : WellFormed b :=
  ⟨fields, fieldsOf_iff.mp read⟩

theorem foldFields_pure {g : σ → Field → σ} {s t : σ} {b : Bytes} :
    foldFields (fun s field _ => .ok (g s field)) s b = .ok t ↔
      WellFormed b ∧ t = (partsOf b).foldl (fun s field => g s field.1) s := by
  have run : ∀ (fields : List (Field × Bytes)) s,
      fields.foldlM (fun s field => (.ok (g s field.1) : Except ParseError σ)) s =
        .ok (fields.foldl (fun s field => g s field.1) s) := by
    intro fields
    induction fields with
    | nil => exact fun s => rfl
    | cons field fields ih => exact fun s => ih _
  rw [foldFields_ok]
  constructor
  · rintro ⟨fields, read, looped⟩
    rw [run] at looped
    cases looped
    rw [partsOf_read read]
    exact ⟨wellFormed_of_read read, rfl⟩
  · rintro ⟨formed, rfl⟩
    exact ⟨_, wellFormed_iff.mp formed, run _ _⟩

end Protowire

end ThreeXNode.Library
