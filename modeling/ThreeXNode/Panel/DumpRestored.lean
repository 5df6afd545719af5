import ThreeXNode.Panel.DumpSqlite

namespace ThreeXNode.Panel.DumpSqlite
open ThreeXNode.Library ThreeXNode.Library.Sqlite

/-! # What a dump restores -/

/-! ## Literals -/

def quoted (s : Text) : Option Value := if 0 ∈ s then none else some (.text s)

def Scanned.read : Scanned → Option Value
  | .nil => some .null
  | .int64 n => some (.integer n)
  | .float64 (.finite negative d) =>
      some (if d.WrittenWhole then .integer (Int64.ofInt (signed negative d.toNat)) else .real (.finite negative d))
  | .float64 (.infinite _) => none
  | .bool b => some (.integer (if b then 1 else 0))
  | .string s => quoted s
  | .bytes b => if utf8Valid b then quoted b else some (.blob b)
  | .time shown => quoted shown

theorem reads_quoted (s : Text) : Reads (quoteSQLiteText s) (quoted s) := by
  intro rest follows
  show readLiteral (39 :: ((double 39 s ++ [39]) ++ rest)) = _
  rw [readLiteral_quoted, List.append_assoc]
  unfold quoted
  split
  · rename_i zero
    rw [readQuoted_zero (by decide) zero]
    rfl
  · rename_i clear
    rw [List.singleton_append, readQuoted_double (by decide) clear follows.closed]
    rfl

theorem reads_literal (x : Scanned) : Reads (sqliteLiteral x) x.read := by
  cases x with
  | nil => exact fun rest _ => readLiteral_null rest
  | int64 n => exact fun rest follows => readLiteral_intText n follows.ends
  | float64 r =>
      cases r with
      | finite negative d => exact fun rest follows => readLiteral_formatG negative d follows.ends
      | infinite negative =>
          intro rest _
          cases negative with
          | true => exact readLiteral_minus _
          | false => exact readLiteral_plus _
  | bool b =>
      intro rest follows
      cases b with
      | true => exact readLiteral_intText 1 follows.ends
      | false => exact readLiteral_intText 0 follows.ends
  | string s => exact reads_quoted s
  | bytes b =>
      intro rest follows
      simp only [sqliteLiteral, Scanned.read]
      split
      · exact reads_quoted b rest follows
      · rw [List.append_assoc, List.append_assoc]
        exact (readLiteral_blob _).trans (congrArg _ (readHex_hexByte b rest))
  | time shown => exact reads_quoted shown

/-! ## Values -/

variable {e : Engine} {schema : Schema} {column : Column}

def Engine.restoreValue (e : Engine) (schema : Schema) (column : Column) (v : Value) : Option Value :=
  (e.scan column.declared v).read.map ((column.affinity schema).keep e.realText)

/-- The values that come back as they were. -/
def Kept (e : Engine) (schema : Schema) (column : Column) : Value → Prop
  | .null => True
  | .integer n => ¬isTime column.declared ∧ (isBoolean column.declared → n = 0 ∨ n = 1)
  | .real (.finite negative d) =>
      if column.affinity schema = .real then negative = true → d ≠ .zero else ¬d.WrittenWhole
  | .real (.infinite _) => False
  | .text t => 0 ∉ t ∧ (isTime column.declared → e.time (.text t) = t)
  | .blob b => utf8Valid b = false

theorem not_boolean_of_isTime {declared : Text} (time : isTime declared) : ¬isBoolean declared := by
  intro boolean
  unfold isBoolean at boolean
  unfold isTime at time
  rw [boolean] at time
  revert time
  decide

theorem keep_text {affinity : Affinity} {t : Text} (plain : numericText t = none) (realText : Real64 → Text) :
    affinity.keep realText (.text t) = .text t := by
  cases affinity <;> simp [Affinity.keep, plain]

theorem keep_ne_blob {affinity : Affinity} (realText : Real64 → Text) (t b : Text) :
    affinity.keep realText (.text t) ≠ .blob b := by
  have number : ∀ v, numericText t = some v → v ≠ .blob b := by
    rintro v read rfl
    unfold numericText readSigned at read
    simp only at read
    split at read
    · rename_i v' found
      cases read
      have made : ∀ negative s, (readNumber s).map (fun p => (numberValue negative p.1, p.2)) ≠ some (.blob b, []) := by
        intro negative s here
        obtain ⟨⟨n, rest⟩, -, same⟩ := Option.map_eq_some_iff.mp here
        have value := (Prod.mk.inj same).1
        unfold numberValue at value
        split at value
        · split at value <;> cases value
        · cases value
      split at found
      · exact made _ _ found
      · split at found
        · exact made _ _ found
        · exact made _ _ found
    · cases read
  have whole : ∀ r, integral r ≠ .blob b := by
    intro r same
    unfold integral at same
    split at same <;> cases same
  cases affinity with
  | text => simp [Affinity.keep]
  | blob => simp [Affinity.keep]
  | numeric =>
      simp only [Affinity.keep]
      split
      · exact whole _
      · rename_i v _ read
        exact number v read
      · simp
  | real =>
      simp only [Affinity.keep]
      split
      · simp
      · rename_i v _ read
        exact number v read
      · simp

theorem quoted_kept {affinity : Affinity} {realText : Real64 → Text} {s t : Text}
    (stays : affinity.keep realText (.text s) = .text s) :
    (quoted s).map (affinity.keep realText) = some (.text t) ↔ 0 ∉ s ∧ s = t := by
  unfold quoted
  split
  · rename_i zero
    simp [zero]
  · rename_i clear
    simp [stays, clear]

theorem ofInt_signed {negative : Bool} {d : Decimal} (whole : d.WrittenWhole) :
    Real64.ofInt (Int64.ofInt (signed negative d.toNat)).toInt = .finite negative d ↔ (negative = true → d ≠ .zero) := by
  have small := whole.small
  have zero := Decimal.toNat_eq_zero whole.1
  have value : (Int64.ofInt (signed negative d.toNat)).toInt = signed negative d.toNat := by
    apply Int64.toInt_ofInt_of_le <;> unfold signed <;> split <;> omega
  have size : (signed negative d.toNat).natAbs = d.toNat := by
    unfold signed
    split <;> omega
  rw [value, Real64.ofInt, size, Decimal.ofNat_toNat whole.1, Real64.finite.injEq, and_iff_left rfl]
  cases negative with
  | false => simp [signed]
  | true =>
      simp only [signed, if_true, decide_eq_true_eq, true_imp_iff, ne_eq, ← zero]
      omega

theorem restoreReal {negative : Bool} {d : Decimal}
    (stable : (column.affinity schema).keep e.realText (.real (.finite negative d)) = .real (.finite negative d)) :
    (column.affinity schema).keep e.realText
        (if d.WrittenWhole then .integer (Int64.ofInt (signed negative d.toNat)) else .real (.finite negative d)) =
      .real (.finite negative d) ↔ Kept e schema column (.real (.finite negative d)) := by
  unfold Kept
  cases affine : column.affinity schema with
  | text =>
      rw [affine] at stable
      cases stable
  | numeric =>
      rw [affine] at stable
      split <;> simp_all [Affinity.keep]
  | real =>
      simp only [if_true]
      split
      · rename_i whole
        rw [Affinity.keep, Value.real.injEq]
        exact ofInt_signed whole
      · rename_i part
        have nonzero : d ≠ .zero := by
          rintro rfl
          exact part Decimal.zero_writtenWhole
        simp [Affinity.keep, nonzero]
  | blob =>
      split <;> simp_all [Affinity.keep]

theorem restoreValue_eq (prints : ∀ v, numericText (e.time v) = none) {v : Value}
    (stable : (column.affinity schema).keep e.realText v = v) :
    e.restoreValue schema column v = some v ↔ Kept e schema column v := by
  unfold Engine.restoreValue
  cases v with
  | null =>
      have same : (column.affinity schema).keep e.realText .null = .null := by
        cases column.affinity schema <;> rfl
      simp [Engine.scan, Scanned.read, Kept, same]
  | integer n =>
      by_cases time : isTime column.declared
      · have shown : ∀ s : Text, (quoted s).map ((column.affinity schema).keep e.realText) = some (.integer n) →
            numericText s = none → False := by
          intro s found plain
          obtain ⟨v, read, kept⟩ := Option.map_eq_some_iff.mp found
          unfold quoted at read
          split at read
          · cases read
          · cases read
            rw [keep_text plain] at kept
            cases kept
        simp only [Engine.scan, not_boolean_of_isTime time, time, if_true, if_false, Scanned.read, Kept, not_true_eq_false,
          false_and, iff_false]
        exact fun found => shown _ found (prints _)
      · by_cases boolean : isBoolean column.declared
        · have others : ∀ m, (column.affinity schema).keep e.realText (.integer m) = .integer m := by
            intro m
            cases affine : column.affinity schema <;> rw [affine] at stable <;> first | rfl | cases stable
          simp only [Engine.scan, boolean, if_true, Scanned.read, Option.map_some, others, Kept, time, not_false_eq_true,
            true_and, true_imp_iff, Option.some.injEq, Value.integer.injEq, decide_eq_true_eq]
          split
          · rename_i positive
            constructor
            · intro one
              exact .inr one.symm
            · rintro (rfl | rfl)
              · exact absurd positive (by decide)
              · rfl
          · rename_i positive
            constructor
            · intro zero
              exact .inl zero.symm
            · rintro (rfl | rfl)
              · rfl
              · exact absurd (by decide) positive
        · simp [Engine.scan, boolean, time, Scanned.read, Kept, stable]
  | real r =>
      cases r with
      | infinite negative => simp [Engine.scan, Scanned.read, Kept]
      | finite negative d =>
          simp only [Engine.scan, Scanned.read, Option.map_some, Option.some.injEq]
          exact restoreReal stable
  | text t =>
      by_cases time : isTime column.declared
      · simp only [Engine.scan, time, if_true, Scanned.read, Kept, true_imp_iff, quoted_kept (keep_text (prints _) _)]
        constructor
        · rintro ⟨clear, same⟩
          exact ⟨same ▸ clear, same⟩
        · rintro ⟨clear, same⟩
          exact ⟨same.symm ▸ clear, same⟩
      · simp [Engine.scan, time, Scanned.read, Kept, quoted_kept stable]
  | blob b =>
      simp only [Engine.scan, Scanned.read, Kept]
      split
      · rename_i valid
        simp only [valid, Bool.true_eq_false, iff_false]
        intro found
        obtain ⟨v, read, kept⟩ := Option.map_eq_some_iff.mp found
        unfold quoted at read
        split at read
        · cases read
        · cases read
          exact keep_ne_blob _ _ _ kept
      · rename_i invalid
        simp only [Option.map_some, stable, invalid]

/-! ## Statements -/

theorem exec_fuel {m n : Nat} {text : Text} {db : Db} (enough : (text.dropWhile isSpace).length < m)
    (enough' : (text.dropWhile isSpace).length < n) : e.exec m text db = e.exec n text db := by
  induction m generalizing n text db with
  | zero => cases enough
  | succ m ih =>
      cases n with
      | zero => cases enough'
      | succ n =>
          unfold Engine.exec
          simp only
          split
          · rfl
          · split
            · rfl
            · rename_i next rest _
              split
              · rename_i shorter
                have bound := (List.dropWhile_sublist isSpace (l := rest)).length_le
                exact ih (by omega) (by omega)
              · rfl

theorem execute_space {b : UInt8} (space : isSpace b = true) (rest : Text) (db : Db) :
    e.execute (b :: rest) db = e.execute rest db := by
  have skipped : (b :: rest).dropWhile isSpace = rest.dropWhile isSpace := by simp [space]
  have same : ∀ fuel, e.exec fuel (b :: rest) db = e.exec fuel rest db := by
    intro fuel
    cases fuel with
    | zero => rfl
    | succ fuel => simp only [Engine.exec, skipped]
  have bound := (List.dropWhile_sublist isSpace (l := rest)).length_le
  rw [Engine.execute, same]
  exact exec_fuel (by simp only [List.length_cons]; omega) (by omega)

theorem execute_step {text : Text} {db : Db} (starts : ∀ b ∈ text.head?, isSpace b = false) (some' : text ≠ [])
    (shorter : ∀ r ∈ e.statement text db, r.2.length < text.length) :
    e.execute text db = (e.statement text db).bind fun r => e.execute r.2 r.1 := by
  have whole : text.dropWhile isSpace = text := by
    cases text with
    | nil => rfl
    | cons b rest => simp [starts b rfl]
  unfold Engine.execute
  rw [Engine.exec]
  simp only [whole, some', if_false]
  cases step : e.statement text db with
  | none => rfl
  | some r =>
      obtain ⟨next, rest⟩ := r
      have less := shorter (next, rest) step
      have bound := (List.dropWhile_sublist isSpace (l := rest)).length_le
      simp only [less, if_true, Option.bind_some]
      exact exec_fuel (by simp only at less; omega) (by omega)

theorem execute_line {text rest : Text} {db : Db} {next : Option Db} (starts : ∀ b ∈ text.head?, isSpace b = false)
    (longer : (10 :: rest).length < text.length) (step : e.statement text db = next.map (·, 10 :: rest)) :
    e.execute text db = next.bind (e.execute rest) := by
  have filled : text ≠ [] := by
    rintro rfl
    cases longer
  rw [execute_step starts filled, step]
  · cases next with
    | none => rfl
    | some next => exact execute_space (by decide) rest next
  · intro r found
    rw [step] at found
    obtain ⟨next, -, rfl⟩ := Option.map_eq_some_iff.mp found
    exact longer

theorem differs_early {a b : Text} (rest : Text) (k : Nat) (bound : k ≤ b.length) (differs : ¬a.take k <+: b) :
    ¬a <+: b ++ rest := by
  intro found
  apply differs
  apply List.prefix_of_prefix_length_le ((List.take_prefix k a).trans found) (List.prefix_append b rest)
  rw [List.length_take]
  omega

theorem statement_pragma (rest : Text) (db : Db) :
    e.statement (ascii "PRAGMA foreign_keys=OFF;" ++ rest) db = some (db, rest) := by
  unfold Engine.statement
  rw [if_pos (List.prefix_append _ _)]
  rfl

theorem statement_begin (rest : Text) (db : Db) : e.statement (ascii "BEGIN TRANSACTION;" ++ rest) db = some (db, rest) := by
  unfold Engine.statement
  rw [if_neg (differs_early rest 2 (by decide) (by decide)), if_pos (List.prefix_append _ _)]
  rfl

theorem statement_commit (rest : Text) (db : Db) : e.statement (ascii "COMMIT;" ++ rest) db = some (db, rest) := by
  unfold Engine.statement
  rw [if_neg (differs_early rest 2 (by decide) (by decide)), if_neg (differs_early rest 2 (by decide) (by decide)),
    if_pos (List.prefix_append _ _)]
  rfl

theorem statement_delete (rest : Text) (db : Db) :
    e.statement (ascii "DELETE FROM sqlite_sequence;" ++ rest) db =
      (if db.sequence.isSome then some { db with sequence := some [] } else none).map (·, rest) := by
  unfold Engine.statement
  rw [if_neg (differs_early rest 2 (by decide) (by decide)), if_neg (differs_early rest 2 (by decide) (by decide)),
    if_neg (differs_early rest 2 (by decide) (by decide)), if_pos (List.prefix_append _ _)]
  split <;> rfl

theorem statement_create {ddl : Text} (create : ascii "CREATE " <+: ddl) (rest : Text) (db : Db) :
    e.statement (ddl ++ rest) db = e.other (ddl ++ rest) db := by
  obtain ⟨behind, rfl⟩ := create
  rw [List.append_assoc]
  unfold Engine.statement
  rw [if_neg (differs_early _ 2 (by decide) (by decide)), if_neg (differs_early _ 2 (by decide) (by decide)),
    if_neg (differs_early _ 2 (by decide) (by decide)), if_neg (differs_early _ 2 (by decide) (by decide)),
    if_neg (differs_early _ 2 (by decide) (by decide))]

/-! ## Rows -/

def Engine.reread (e : Engine) (declared : List Text) (row : Row) : Option Row :=
  (declared.zip row).mapM fun p => (e.scan p.1 p.2).read

theorem length_le_intercalate (xs : List Text) : xs.length ≤ ([44].intercalate xs : Text).length + 1 := by
  induction xs with
  | nil => simp
  | cons x xs ih =>
      by_cases alone : xs = []
      · subst alone
        simp
      · rw [List.intercalate_cons_of_ne_nil alone]
        simp only [List.length_cons, List.length_append, List.length_nil] at ih ⊢
        omega

theorem statement_insert {name : Text} (plain : 34 ∉ name) (clear : 0 ∉ name) {declared : List Text} {row : Row}
    (filled : declared.zip row ≠ []) (rest : Text) (db : Db) :
    e.statement (e.insertLine name declared row ++ rest) db =
      ((e.reread declared row).bind (e.insert db name)).map (·, 10 :: rest) := by
  let list := [44].intercalate ((declared.zip row).map fun p => sqliteLiteral (e.scan p.1 p.2))
  have line : e.insertLine name declared row ++ rest =
      ascii "INSERT INTO \"" ++ (name ++ 34 :: (ascii " VALUES(" ++ (list ++ 41 :: (59 :: 10 :: rest)))) := by
    show ascii "INSERT INTO \"" ++ name ++ (34 :: ascii " VALUES(") ++ list ++ [41, 59, 10] ++ rest = _
    simp only [List.append_assoc, List.cons_append, List.nil_append]
  have quoted : readQuoted 34 (name ++ 34 :: (ascii " VALUES(" ++ (list ++ 41 :: (59 :: 10 :: rest)))) =
      some (name, ascii " VALUES(" ++ (list ++ 41 :: (59 :: 10 :: rest))) := by
    have mark : (34 : UInt8) ≠ 0 := by decide
    have closed : (ascii " VALUES(" ++ (list ++ 41 :: (59 :: 10 :: rest))).head? ≠ some 34 := by
      show some 32 ≠ some 34
      decide
    have read := readQuoted_double mark clear closed
    rwa [double_free plain] at read
  have enough : (declared.zip row).length ≤ (ascii " VALUES(" ++ (list ++ 41 :: (59 :: 10 :: rest))).length := by
    have commas : ((declared.zip row).map fun p => sqliteLiteral (e.scan p.1 p.2)).length ≤ list.length + 1 :=
      length_le_intercalate _
    rw [List.length_map] at commas
    rw [List.length_append, List.length_append, List.length_cons]
    omega
  have values := readValues_map (fun p : Text × Value => reads_literal (e.scan p.1 p.2)) (declared.zip row) filled enough
    (59 :: 10 :: rest)
  rw [line]
  unfold Engine.statement
  rw [if_neg (differs_early _ 2 (by decide) (by decide)), if_neg (differs_early _ 2 (by decide) (by decide)),
    if_neg (differs_early _ 2 (by decide) (by decide)), if_neg (differs_early _ 2 (by decide) (by decide)),
    if_pos (List.prefix_append _ _)]
  have behind : (ascii "INSERT INTO \"" ++ (name ++ 34 :: (ascii " VALUES(" ++ (list ++ 41 :: (59 :: 10 :: rest))))).drop 13 =
      name ++ 34 :: (ascii " VALUES(" ++ (list ++ 41 :: (59 :: 10 :: rest))) := rfl
  have after : (ascii " VALUES(" ++ (list ++ 41 :: (59 :: 10 :: rest))).drop 8 = list ++ 41 :: (59 :: 10 :: rest) := rfl
  rw [behind, quoted]
  simp only [List.prefix_append, if_true]
  rw [after, values]
  unfold Engine.reread
  cases (declared.zip row).mapM fun p => (e.scan p.1 p.2).read with
  | none => rfl
  | some vs => rfl

end ThreeXNode.Panel.DumpSqlite
