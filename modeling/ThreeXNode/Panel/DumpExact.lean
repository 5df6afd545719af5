import ThreeXNode.Panel.DumpRuns

namespace ThreeXNode.Panel.DumpSqlite
open ThreeXNode.Library ThreeXNode.Library.Sqlite

/-! # The databases that are restored as they were -/

variable {e : Engine} {db : Db}

/-- What holds of the tables of every database. -/
structure Db.Stored (e : Engine) (db : Db) : Prop where
  names : (db.tables.map fun t => fold t.schema.name).Nodup
  apart : ∀ t ∈ db.tables, fold t.schema.name ≠ sqliteSequence
  clear : ∀ t ∈ db.tables, 0 ∉ t.schema.name
  creates : ∀ t ∈ db.tables, ascii "CREATE " <+: t.ddl
  objects : ∀ o ∈ db.objects, ascii "CREATE " <+: o
  columns : ∀ t ∈ db.tables, t.schema.columns ≠ []
  width : ∀ t ∈ db.tables, ∀ row ∈ t.rows, row.length = t.schema.columns.length
  stable : ∀ t ∈ db.tables, ∀ row ∈ t.rows, ∀ p ∈ t.schema.columns.zip row, p.1.generated = none →
    (p.1.affinity t.schema).keep e.realText p.2 = p.2
  admitted : ∀ t ∈ db.tables, ∀ k, t.schema.admits (t.rows.take k) = true
  counted : ∀ t ∈ db.tables, t.schema.autoincrement = true → db.sequence.isSome = true
  pairs : ∀ rows ∈ db.sequence, ∀ row ∈ rows, row.length = 2

/-- What SQLite and the driver do with the statements and values of the database. -/
structure Engine.Documented (e : Engine) (db : Db) : Prop where
  prints : ∀ v, numericText (e.time v) = none
  /-- The stored text of a table creates it. -/
  creates : ∀ t ∈ db.tables, ∀ d rest, d.objects = [] → (∀ u ∈ d.tables, fold u.schema.name ≠ fold t.schema.name) →
    e.other (t.ddl ++ 59 :: 10 :: rest) d = some (d.create t.ddl t.schema, 10 :: rest)
  /-- An index, a trigger or a view changes no row. -/
  objects : ∀ o ∈ db.objects, ∀ d rest r, e.other (o ++ 59 :: 10 :: rest) d = some r →
    r = ({ d with objects := d.objects ++ [o] }, 10 :: rest)
  again : ∀ done o behind, db.objects = done ++ o :: behind → ∀ d rest, d.tables = db.tables → d.objects = done →
    (e.other (o ++ 59 :: 10 :: rest) d).isSome = true

def sequenceSchema : Schema := ⟨sqliteSequence, false, false, [⟨[], none⟩, ⟨[], none⟩], fun _ => true⟩

/-- The databases whose dump brings them back. -/
structure Restorable (e : Engine) (db : Db) : Prop where
  plain : ∀ t ∈ db.tables, 34 ∉ t.schema.name
  listed : ∀ t ∈ db.tables, ¬isInternal t.schema.name
  counted : db.sequence.isSome = true → ∃ t ∈ db.tables, t.schema.autoincrement = true
  ordinary : ∀ t ∈ db.tables, t.rows ≠ [] → t.schema.ordinary
  kept : ∀ t ∈ db.tables, ∀ row ∈ t.rows, ∀ p ∈ t.schema.columns.zip row, Kept e t.schema p.1 p.2
  sequence : ∀ rows ∈ db.sequence, ∀ row ∈ rows, ∀ p ∈ sequenceSchema.columns.zip row, Kept e sequenceSchema p.1 p.2

/-! ## The tables of a script -/

def Engine.tableText (e : Engine) (t : Table) : Text :=
  t.ddl ++ ascii ";\n" ++ t.rows.flatMap (e.insertLine t.schema.name t.schema.declared)

def Engine.restoreTable (e : Engine) (t : Table) : Option Table :=
  (t.rows.mapM (e.restoreRow t.schema)).map fun rows => { t with rows }

def Engine.createAll (e : Engine) (tables : List Table) (d : Db) : Option Db :=
  tables.foldlM (fun d t => e.insertAll t.schema.name t.schema.declared t.rows (d.create t.ddl t.schema)) d

def Fresh (d : Db) (t : Table) : Prop := ∀ u ∈ d.tables, fold u.schema.name ≠ fold t.schema.name

theorem create_tables (d : Db) (t : Table) :
    (d.create t.ddl t.schema).tables = d.tables ++ [{ t with rows := [] }] := rfl

theorem filled_some {d final : Db} {t : Table} (fresh : Fresh d t) (apart : fold t.schema.name ≠ sqliteSequence)
    (run : e.insertAll t.schema.name t.schema.declared t.rows (d.create t.ddl t.schema) = some final) :
    ∃ new, e.restoreTable t = some new ∧ final.tables = d.tables ++ [new] ∧ final.objects = d.objects ∧
      final.sequence.isSome = (d.sequence.isSome || t.schema.autoincrement) := by
  obtain ⟨news, restored, tables, objects, sequence⟩ :=
    insertAll_some (t := { t with rows := [] }) (create_tables d t) fresh apart run
  refine ⟨{ t with rows := news }, ?_, by simpa using tables, objects, ?_⟩
  · unfold Engine.restoreTable
    rw [restored]
    rfl
  · rw [sequence, Db.create]
    cases t.schema.autoincrement <;> simp

theorem restoreTable_schema {t new : Table} (restored : e.restoreTable t = some new) : new.schema = t.schema := by
  obtain ⟨rows, -, rfl⟩ := Option.map_eq_some_iff.mp restored
  rfl

theorem fresh_behind {d next : Db} {t new : Table} {tables : List Table} (fresh : ∀ u ∈ t :: tables, Fresh d u)
    (grown : next.tables = d.tables ++ [new]) (restored : e.restoreTable t = some new)
    (unused : fold t.schema.name ∉ tables.map fun u => fold u.schema.name) : ∀ u ∈ tables, Fresh next u := by
  intro u mem v here
  rw [grown, List.mem_append, List.mem_singleton] at here
  rcases here with before | rfl
  · exact fresh u (List.mem_cons_of_mem _ mem) v before
  · rw [restoreTable_schema restored]
    intro shared
    exact unused (shared ▸ List.mem_map_of_mem mem)

theorem createAll_some {tables : List Table} {d final : Db} (fresh : ∀ t ∈ tables, Fresh d t)
    (names : (tables.map fun t => fold t.schema.name).Nodup) (apart : ∀ t ∈ tables, fold t.schema.name ≠ sqliteSequence)
    (run : e.createAll tables d = some final) :
    ∃ news, tables.mapM e.restoreTable = some news ∧ final.tables = d.tables ++ news ∧ final.objects = d.objects ∧
      final.sequence.isSome = (d.sequence.isSome || tables.any (·.schema.autoincrement)) := by
  induction tables generalizing d with
  | nil =>
      cases run
      exact ⟨[], rfl, by simp, rfl, by simp⟩
  | cons t tables ih =>
      obtain ⟨next, one, run⟩ := Option.bind_eq_some_iff.mp run
      obtain ⟨new, restored, grown, objects, sequence⟩ :=
        filled_some (fresh t List.mem_cons_self) (apart t List.mem_cons_self) one
      rw [List.map_cons, List.nodup_cons] at names
      have behind := fresh_behind fresh grown restored names.1
      obtain ⟨news, others, tables', objects', sequence'⟩ :=
        ih behind names.2 (fun u mem => apart u (List.mem_cons_of_mem _ mem)) run
      refine ⟨new :: news, ?_, ?_, objects'.trans objects, ?_⟩
      · rw [List.mapM_cons, restored, others]
        rfl
      · rw [tables', grown, List.append_assoc]
        rfl
      · rw [sequence', sequence, List.any_cons, Bool.or_assoc]

theorem createAll_of_restored {tables : List Table} {d : Db} (fresh : ∀ t ∈ tables, Fresh d t)
    (names : (tables.map fun t => fold t.schema.name).Nodup) (apart : ∀ t ∈ tables, fold t.schema.name ≠ sqliteSequence)
    (restored : ∀ t ∈ tables, e.restoreTable t = some t) (admitted : ∀ t ∈ tables, ∀ k, t.schema.admits (t.rows.take k) = true) :
    (e.createAll tables d).isSome = true := by
  induction tables generalizing d with
  | nil => rfl
  | cons t tables ih =>
      have rows : t.rows.mapM (e.restoreRow t.schema) = some t.rows := by
        obtain ⟨rows, read, same⟩ := Option.map_eq_some_iff.mp (restored t List.mem_cons_self)
        rw [read, ← congrArg Table.rows same]
      have filled := insertAll_of_restored (t := { t with rows := [] }) (create_tables d t)
        (fresh t List.mem_cons_self) (apart t List.mem_cons_self) rows
        (by simpa using admitted t List.mem_cons_self)
      obtain ⟨next, one⟩ := Option.isSome_iff_exists.mp filled
      obtain ⟨new, same, grown, -, -⟩ := filled_some (fresh t List.mem_cons_self) (apart t List.mem_cons_self) one
      rw [List.map_cons, List.nodup_cons] at names
      have behind := fresh_behind fresh grown same names.1
      have rest := ih behind names.2 (fun u mem => apart u (List.mem_cons_of_mem _ mem))
        (fun u mem => restored u (List.mem_cons_of_mem _ mem)) fun u mem => admitted u (List.mem_cons_of_mem _ mem)
      unfold Engine.createAll at rest ⊢
      rw [List.foldlM_cons]
      show (Option.bind (e.insertAll t.schema.name t.schema.declared t.rows (d.create t.ddl t.schema)) _).isSome = true
      rw [one]
      exact rest

theorem starts_of_head {text : Text} {c : UInt8} (head : text.head? = some c) (graphic : isSpace c = false) :
    ∀ b ∈ text.head?, isSpace b = false := by
  intro b mem
  obtain rfl : c = b := Option.some.inj (head.symm.trans mem)
  exact graphic

theorem starts_create {ddl : Text} (create : ascii "CREATE " <+: ddl) (rest : Text) :
    ∀ b ∈ (ddl ++ rest).head?, isSpace b = false := by
  obtain ⟨behind, rfl⟩ := create
  exact starts_of_head (c := 67) rfl rfl

theorem execute_create {ddl : Text} (create : ascii "CREATE " <+: ddl) (rest : Text) (d : Db) {next : Option Db}
    (read : e.other (ddl ++ 59 :: 10 :: rest) d = next.map (·, 10 :: rest)) :
    e.execute (ddl ++ 59 :: 10 :: rest) d = next.bind (e.execute rest) := by
  apply execute_line (starts_create create _)
  · simp only [List.length_append, List.length_cons]
    omega
  · rw [statement_create create, read]

theorem execute_tables (stored : db.Stored e) (documented : e.Documented db) (plain : ∀ t ∈ db.tables, 34 ∉ t.schema.name)
    {tables : List Table} (own : ∀ t ∈ tables, t ∈ db.tables) (names : (tables.map fun t => fold t.schema.name).Nodup)
    {d : Db} (early : d.objects = []) (fresh : ∀ t ∈ tables, Fresh d t) (rest : Text) :
    e.execute (tables.flatMap e.tableText ++ rest) d = (e.createAll tables d).bind (e.execute rest) := by
  induction tables generalizing d with
  | nil => rfl
  | cons t tables ih =>
      have here := own t List.mem_cons_self
      have filled : ∀ row ∈ t.rows, t.schema.declared.zip row ≠ [] := by
        intro row mem none
        have length := congrArg List.length none
        rw [List.length_zip, stored.width t here row mem, Schema.declared, List.length_map, Nat.min_self] at length
        exact stored.columns t here (List.eq_nil_of_length_eq_zero length)
      have text : (t :: tables).flatMap e.tableText ++ rest = t.ddl ++ 59 :: 10 ::
          (t.rows.flatMap (e.insertLine t.schema.name t.schema.declared) ++ (tables.flatMap e.tableText ++ rest)) := by
        show (t.ddl ++ [59, 10] ++ _) ++ tables.flatMap e.tableText ++ rest = _
        simp only [List.append_assoc, List.cons_append, List.nil_append]
      rw [text, @execute_create _ _ (stored.creates t here) _ d (some (d.create t.ddl t.schema))
        (documented.creates t here d _ early (fresh t List.mem_cons_self)), Option.bind_some,
        execute_rows (plain t here) (stored.clear t here) filled]
      unfold Engine.createAll
      rw [List.foldlM_cons]
      show _ = (Option.bind (e.insertAll t.schema.name t.schema.declared t.rows (d.create t.ddl t.schema)) _).bind _
      cases one : e.insertAll t.schema.name t.schema.declared t.rows (d.create t.ddl t.schema) with
      | none => rfl
      | some next =>
          obtain ⟨new, restored, grown, objects, -⟩ := filled_some (fresh t List.mem_cons_self) (stored.apart t here) one
          rw [List.map_cons, List.nodup_cons] at names
          exact ih (fun u mem => own u (List.mem_cons_of_mem _ mem)) names.2 (objects.trans early)
            (fresh_behind fresh grown restored names.1)

/-! ## Sequences and objects -/

theorem restoreRow_sequence {row : Row} (pair : row.length = 2) :
    e.restoreRow sequenceSchema row = e.reread sequenceSchema.declared row := by
  unfold Engine.restoreRow
  cases read : e.reread sequenceSchema.declared row with
  | none => rfl
  | some values =>
      have length := reread_length read pair
      obtain ⟨a, b, rfl⟩ := List.length_eq_two.mp length
      rfl

theorem insertAll_sequence {rows : List Row} (pairs : ∀ row ∈ rows, row.length = 2) {d : Db} {old : List Row}
    (here : d.sequence = some old) :
    e.insertAll sqliteSequence sequenceSchema.declared rows d =
      (rows.mapM (e.restoreRow sequenceSchema)).map fun news => { d with sequence := some (old ++ news) } := by
  induction rows generalizing d old with
  | nil =>
      simp [Engine.insertAll, ← here]
  | cons row rows ih =>
      have pair := pairs row List.mem_cons_self
      unfold Engine.insertAll
      rw [List.foldlM_cons, List.mapM_cons, restoreRow_sequence pair]
      cases read : e.reread sequenceSchema.declared row with
      | none => rfl
      | some values =>
          have length : values.length = 2 := reread_length read pair
          have one : e.insert d sqliteSequence values = some { d with sequence := some (old ++ [values]) } := by
            unfold Engine.insert
            rw [if_pos (by decide), if_pos length, here]
            rfl
          have rest := ih (fun row mem => pairs row (List.mem_cons_of_mem _ mem))
            (d := { d with sequence := some (old ++ [values]) }) rfl
          show (e.insert d sqliteSequence values).bind (e.insertAll sqliteSequence sequenceSchema.declared rows) = _
          rw [one, Option.bind_some, rest]
          cases rows.mapM (e.restoreRow sequenceSchema) <;> simp

theorem execute_commit (d : Db) : e.execute (ascii "COMMIT;\n") d = some d := by
  have line : ascii "COMMIT;\n" = ascii "COMMIT;" ++ [10] := rfl
  have step : e.statement (ascii "COMMIT;\n") d = (some d).map (·, [10]) := by
    rw [line, statement_commit]
    rfl
  rw [execute_line (starts_of_head (c := 67) rfl rfl) (by decide) step]
  rfl

theorem execute_object (documented : e.Documented db) {o : Text} (stored : o ∈ db.objects) (create : ascii "CREATE " <+: o)
    (rest : Text) (d : Db) :
    e.execute (o ++ 59 :: 10 :: rest) d =
      (if (e.other (o ++ 59 :: 10 :: rest) d).isSome then some { d with objects := d.objects ++ [o] } else none).bind
        (e.execute rest) := by
  apply execute_create create
  cases read : e.other (o ++ 59 :: 10 :: rest) d with
  | none => rfl
  | some r =>
      rw [documented.objects o stored d rest r read]
      rfl

theorem objects_line (o : Text) (objects : List Text) :
    (o :: objects).flatMap (· ++ ascii ";\n") ++ ascii "COMMIT;\n" =
      o ++ 59 :: 10 :: (objects.flatMap (· ++ ascii ";\n") ++ ascii "COMMIT;\n") := by
  show (o ++ [59, 10]) ++ objects.flatMap (· ++ ascii ";\n") ++ ascii "COMMIT;\n" = _
  simp only [List.append_assoc, List.cons_append, List.nil_append]

theorem objects_some (documented : e.Documented db) {objects : List Text} (own : ∀ o ∈ objects, o ∈ db.objects)
    (creates : ∀ o ∈ objects, ascii "CREATE " <+: o) {d final : Db}
    (run : e.execute (objects.flatMap (· ++ ascii ";\n") ++ ascii "COMMIT;\n") d = some final) :
    final.tables = d.tables ∧ final.sequence = d.sequence := by
  induction objects generalizing d with
  | nil =>
      have same := (execute_commit d).symm.trans run
      cases same
      exact ⟨rfl, rfl⟩
  | cons o objects ih =>
      rw [objects_line, execute_object documented (own o List.mem_cons_self) (creates o List.mem_cons_self)] at run
      split at run
      · rw [Option.bind_some] at run
        have kept := ih (fun o mem => own o (List.mem_cons_of_mem _ mem))
          (fun o mem => creates o (List.mem_cons_of_mem _ mem)) run
        exact kept
      · cases run

theorem objects_again (documented : e.Documented db) (creates : ∀ o ∈ db.objects, ascii "CREATE " <+: o)
    {done objects : List Text} (split : db.objects = done ++ objects) {d : Db} (tables : d.tables = db.tables)
    (so_far : d.objects = done) : (e.execute (objects.flatMap (· ++ ascii ";\n") ++ ascii "COMMIT;\n") d).isSome = true := by
  induction objects generalizing done d with
  | nil => exact congrArg Option.isSome (execute_commit d)
  | cons o objects ih =>
      have stored : o ∈ db.objects := split ▸ List.mem_append_right done List.mem_cons_self
      rw [objects_line, execute_object documented stored (creates o stored),
        if_pos (documented.again done o objects split d _ tables so_far), Option.bind_some]
      exact @ih (done ++ [o]) (by simpa using split) _ tables (by rw [so_far])

/-! ## The whole script -/

theorem find_stored (stored : db.Stored e) {t : Table} (mem : t ∈ db.tables) : db.find t.schema.name = some t := by
  unfold Db.find
  cases found : db.tables.find? fun u => fold u.schema.name = fold t.schema.name with
  | none =>
      have none := List.find?_eq_none.mp found t mem
      simp at none
  | some u =>
      have same := List.find?_some found
      have here := List.mem_of_find?_eq_some found
      rw [decide_eq_true_eq] at same
      rw [List.inj_on_of_nodup_map stored.names here mem same]

theorem read_name {name : Text} (plain : 34 ∉ name) (clear : 0 ∉ name) : readQuoted 34 (name ++ [34]) = some (name, []) := by
  have mark : (34 : UInt8) ≠ 0 := by decide
  have open' : ([] : Text).head? ≠ some 34 := by decide
  have read := readQuoted_double mark clear open'
  rwa [double_free plain] at read

theorem dump_table (stored : db.Stored e) {t : Table} (mem : t ∈ db.tables) (plain : 34 ∉ t.schema.name) :
    e.dumpTable db t = some (e.tableText t) := by
  unfold Engine.dumpTable Engine.dumpTableData Engine.selectAll
  rw [read_name plain (stored.clear t mem)]
  simp only [stored.apart t mem, if_false, find_stored stored mem, Option.map_some]
  rfl

def Engine.sequenceText (e : Engine) : Option (List Row) → Text
  | none => []
  | some rows => ascii "DELETE FROM sqlite_sequence;\n" ++ rows.flatMap (e.insertLine sqliteSequence sequenceSchema.declared)

theorem dump_sequence (db : Db) : e.dumpSequence db = some (e.sequenceText db.sequence) := by
  unfold Engine.dumpSequence
  cases here : db.sequence with
  | none => rfl
  | some rows =>
      unfold Engine.dumpTableData Engine.selectAll
      rw [read_name (by decide) (by decide)]
      have own : fold sqliteSequence = sqliteSequence := by decide
      simp only [own, if_true, here, Option.map_some, Option.isSome_some]
      rfl

def Db.listed (db : Db) : List Table := db.tables.filter fun t => ¬isInternal t.schema.name

theorem mem_listed {t : Table} (mem : t ∈ db.listed) : t ∈ db.tables := (List.mem_filter.mp mem).1

theorem dump_eq (stored : db.Stored e) (plain : ∀ t ∈ db.tables, 34 ∉ t.schema.name) :
    e.dumpSQLiteToBytes db = some (ascii "PRAGMA foreign_keys=OFF;\n" ++ (ascii "BEGIN TRANSACTION;\n" ++
      (db.listed.flatMap e.tableText ++ (e.sequenceText db.sequence ++
        (db.objects.flatMap (· ++ ascii ";\n") ++ ascii "COMMIT;\n"))))) := by
  have tables : db.listed.mapM (e.dumpTable db) = some (db.listed.map e.tableText) :=
    mapM_of_some fun t mem => dump_table stored (mem_listed mem) (plain t (mem_listed mem))
  unfold Engine.dumpSQLiteToBytes
  show (db.listed.mapM (e.dumpTable db)).bind _ = _
  rw [tables, Option.bind_some, dump_sequence]
  simp only [Option.bind_eq_bind, Option.bind_some, List.append_assoc, List.flatMap_def]

theorem execute_idle {line rest : Text} {d : Db} (starts : ∀ b ∈ (line ++ 10 :: rest).head?, isSpace b = false)
    (long : 2 ≤ line.length) (idle : e.statement (line ++ 10 :: rest) d = some (d, 10 :: rest)) :
    e.execute (line ++ 10 :: rest) d = e.execute rest d := by
  have longer : (10 :: rest).length < (line ++ 10 :: rest).length := by
    rw [List.length_append]
    omega
  rw [(@execute_line _ _ _ _ (some d)) starts longer idle, Option.bind_some]

theorem execute_head (rest : Text) (d : Db) :
    e.execute (ascii "PRAGMA foreign_keys=OFF;\n" ++ (ascii "BEGIN TRANSACTION;\n" ++ rest)) d = e.execute rest d := by
  have pragma : ascii "PRAGMA foreign_keys=OFF;\n" = ascii "PRAGMA foreign_keys=OFF;" ++ [10] := by decide
  have begins : ascii "BEGIN TRANSACTION;\n" = ascii "BEGIN TRANSACTION;" ++ [10] := by decide
  rw [pragma, begins, List.append_assoc, List.append_assoc, List.singleton_append, List.singleton_append,
    execute_idle (starts_of_head (c := 80) rfl rfl) (by decide) (statement_pragma _ d),
    execute_idle (starts_of_head (c := 66) rfl rfl) (by decide) (statement_begin _ d)]

theorem execute_sequence {rows : List Row} (pairs : ∀ row ∈ rows, row.length = 2) (rest : Text) (d : Db) :
    e.execute (e.sequenceText (some rows) ++ rest) d =
      if d.sequence.isSome = true then
        ((rows.mapM (e.restoreRow sequenceSchema)).map fun news => { d with sequence := some news }).bind (e.execute rest)
      else none := by
  have filled : ∀ row ∈ rows, sequenceSchema.declared.zip row ≠ [] := by
    intro row mem none
    have length := congrArg List.length none
    rw [List.length_zip, pairs row mem] at length
    cases length
  have line : ascii "DELETE FROM sqlite_sequence;\n" = ascii "DELETE FROM sqlite_sequence;" ++ [10] := by decide
  have text : e.sequenceText (some rows) ++ rest = ascii "DELETE FROM sqlite_sequence;" ++
      10 :: (rows.flatMap (e.insertLine sqliteSequence sequenceSchema.declared) ++ rest) := by
    rw [Engine.sequenceText, line]
    simp only [List.append_assoc, List.cons_append, List.nil_append]
  have longer : ∀ rest : Text, (10 :: rest).length < (ascii "DELETE FROM sqlite_sequence;" ++ 10 :: rest).length := by
    intro rest
    have long : (ascii "DELETE FROM sqlite_sequence;").length = 28 := rfl
    rw [List.length_append, long]
    omega
  rw [text, execute_line (starts_of_head (c := 68) rfl rfl) (longer _) (statement_delete _ d)]
  split
  · rw [Option.bind_some, execute_rows (by decide) (by decide) filled,
      insertAll_sequence pairs (d := { d with sequence := some [] }) rfl]
    simp only [List.nil_append]
  · rfl

theorem sequence_some (stored : db.Stored e) {d final : Db} {rest : Text}
    (run : e.execute (e.sequenceText db.sequence ++ rest) d = some final) :
    ∃ next, e.execute rest next = some final ∧ next.tables = d.tables ∧ match db.sequence with
      | none => next.sequence = d.sequence
      | some rows => d.sequence.isSome = true ∧ ∃ news, rows.mapM (e.restoreRow sequenceSchema) = some news ∧
          next.sequence = some news := by
  cases here : db.sequence with
  | none =>
      rw [here] at run
      exact ⟨d, run, rfl, rfl⟩
  | some rows =>
      rw [here, execute_sequence (stored.pairs rows here)] at run
      split at run
      · rename_i made
        obtain ⟨next, made', run⟩ := Option.bind_eq_some_iff.mp run
        obtain ⟨news, restored, rfl⟩ := Option.map_eq_some_iff.mp made'
        exact ⟨_, run, rfl, made, news, restored, rfl⟩
      · cases run

theorem restoreTable_self {t : Table} : e.restoreTable t = some t ↔ ∀ row ∈ t.rows, e.restoreRow t.schema row = some row := by
  rw [← mapM_self]
  unfold Engine.restoreTable
  cases t.rows.mapM (e.restoreRow t.schema) with
  | none => simp
  | some rows =>
      rw [Option.map_some, Option.some.injEq, Option.some.injEq]
      constructor
      · intro same
        exact congrArg Table.rows same
      · rintro rfl
        rfl

theorem restoreTable_eq (stored : db.Stored e) (documented : e.Documented db) {t : Table} (mem : t ∈ db.tables) :
    e.restoreTable t = some t ↔ (t.rows ≠ [] → t.schema.ordinary) ∧
      ∀ row ∈ t.rows, ∀ p ∈ t.schema.columns.zip row, Kept e t.schema p.1 p.2 := by
  have value : t.schema.ordinary → ∀ row ∈ t.rows, ∀ p ∈ t.schema.columns.zip row,
      (e.restoreValue t.schema p.1 p.2 = some p.2 ↔ Kept e t.schema p.1 p.2) := by
    intro ordinary row here p cell
    exact restoreValue_eq documented.prints
      (stored.stable t mem row here p cell (ordinary p.1 (List.of_mem_zip cell).1))
  rw [restoreTable_self]
  constructor
  · intro each
    have rows : ∀ row ∈ t.rows, t.schema.ordinary ∧ ∀ p ∈ t.schema.columns.zip row, Kept e t.schema p.1 p.2 := by
      intro row here
      obtain ⟨ordinary, values⟩ := (restoreRow_eq (stored.width t mem row here)).mp (each row here)
      exact ⟨ordinary, fun p cell => (value ordinary row here p cell).mp (values p cell)⟩
    refine ⟨fun filled => ?_, fun row here => (rows row here).2⟩
    obtain ⟨row, here⟩ := List.exists_mem_of_ne_nil t.rows filled
    exact (rows row here).1
  · rintro ⟨ordinary, kept⟩ row here
    have plain := ordinary (List.ne_nil_of_mem here)
    exact (restoreRow_eq (stored.width t mem row here)).mpr
      ⟨plain, fun p cell => (value plain row here p cell).mpr (kept row here p cell)⟩

theorem restoreSequence_eq (stored : db.Stored e) (documented : e.Documented db) {rows : List Row} (here : db.sequence = some rows) :
    rows.mapM (e.restoreRow sequenceSchema) = some rows ↔
      ∀ row ∈ rows, ∀ p ∈ sequenceSchema.columns.zip row, Kept e sequenceSchema p.1 p.2 := by
  have ordinary : sequenceSchema.ordinary := by
    intro column mem
    simp only [sequenceSchema, List.mem_cons, List.not_mem_nil, or_false, or_self] at mem
    rw [mem]
  have stable : ∀ column ∈ sequenceSchema.columns, ∀ v, (column.affinity sequenceSchema).keep e.realText v = v := by
    intro column mem v
    simp only [sequenceSchema, List.mem_cons, List.not_mem_nil, or_false, or_self] at mem
    subst mem
    cases v <;> rfl
  rw [mapM_self]
  refine forall₂_congr fun row mem => ?_
  rw [restoreRow_eq (stored.pairs rows here row mem), and_iff_right ordinary]
  exact forall₂_congr fun p cell => restoreValue_eq documented.prints (stable p.1 (List.of_mem_zip cell).1 p.2)

theorem listed_nodup (stored : db.Stored e) : (db.listed.map fun t => fold t.schema.name).Nodup :=
  (List.filter_sublist.map _).nodup stored.names

theorem listed_fresh : ∀ t ∈ db.listed, Fresh .empty t := by
  intro t _ u mem
  cases mem

theorem execute_script (stored : db.Stored e) (documented : e.Documented db) (plain : ∀ t ∈ db.tables, 34 ∉ t.schema.name)
    (rest : Text) :
    e.execute (ascii "PRAGMA foreign_keys=OFF;\n" ++ (ascii "BEGIN TRANSACTION;\n" ++
      (db.listed.flatMap e.tableText ++ rest))) .empty = (e.createAll db.listed .empty).bind (e.execute rest) := by
  rw [execute_head]
  exact execute_tables stored documented plain (fun _ => mem_listed) (listed_nodup stored) rfl listed_fresh rest

theorem restored_parts (stored : db.Stored e) (documented : e.Documented db) (plain : ∀ t ∈ db.tables, 34 ∉ t.schema.name)
    (restored : Restored e db) :
    db.listed.mapM e.restoreTable = some db.tables ∧ ∀ rows, db.sequence = some rows →
      db.listed.any (·.schema.autoincrement) = true ∧ rows.mapM (e.restoreRow sequenceSchema) = some rows := by
  obtain ⟨script, final, dumped, executed, tables, sequence⟩ := restored
  have text := dumped.symm.trans (dump_eq stored plain)
  rw [Option.some.inj text, execute_script stored documented plain] at executed
  obtain ⟨d, created, run⟩ := Option.bind_eq_some_iff.mp executed
  obtain ⟨news, made, grown, -, counted⟩ := createAll_some listed_fresh (listed_nodup stored)
    (fun t mem => stored.apart t (mem_listed mem)) created
  obtain ⟨next, run, kept, counts⟩ := sequence_some stored run
  obtain ⟨same, sequenced⟩ := objects_some documented (fun _ mem => mem) stored.objects run
  have whole : news = db.tables := by
    rw [← tables, same, kept, grown]
    rfl
  refine ⟨whole ▸ made, fun rows here => ?_⟩
  rw [here] at counts
  obtain ⟨isSome, read, restored, inserted⟩ := counts
  have again : read = rows := by
    rw [← sequenced, sequence, here] at inserted
    exact (Option.some.inj inserted).symm
  refine ⟨?_, again ▸ restored⟩
  rw [isSome] at counted
  simpa [Db.empty] using counted.symm

theorem restorable_of_restored (stored : db.Stored e) (documented : e.Documented db)
    (plain : ∀ t ∈ db.tables, 34 ∉ t.schema.name) (restored : Restored e db) : Restorable e db := by
  obtain ⟨made, counts⟩ := restored_parts stored documented plain restored
  have length := congrArg List.length (mapM_map (g := fun _ => ()) (h := fun _ => ()) (fun _ _ _ => rfl) made)
  rw [List.length_map, List.length_map] at length
  have all : db.listed = db.tables := List.filter_sublist.eq_of_length length.symm
  rw [all] at made counts
  have each := mapM_self.mp made
  refine ⟨plain, fun t mem => ?_, fun isSome => ?_, fun t mem => ?_, fun t mem => ?_, fun rows here => ?_⟩
  · have listed := List.filter_eq_self.mp all t mem
    simpa using listed
  · obtain ⟨rows, here⟩ := Option.isSome_iff_exists.mp isSome
    exact List.any_eq_true.mp (counts rows here).1
  · exact ((restoreTable_eq stored documented mem).mp (each t mem)).1
  · exact ((restoreTable_eq stored documented mem).mp (each t mem)).2
  · exact (restoreSequence_eq stored documented here).mp (counts rows here).2

theorem restored_of_restorable (stored : db.Stored e) (documented : e.Documented db) (able : Restorable e db) :
    Restored e db := by
  have all : db.listed = db.tables := List.filter_eq_self.mpr fun t mem => by simpa using able.listed t mem
  have same : ∀ t ∈ db.listed, e.restoreTable t = some t := fun t mem =>
    (restoreTable_eq stored documented (mem_listed mem)).mpr
      ⟨able.ordinary t (mem_listed mem), able.kept t (mem_listed mem)⟩
  have apart : ∀ t ∈ db.listed, fold t.schema.name ≠ sqliteSequence := fun t mem => stored.apart t (mem_listed mem)
  obtain ⟨d, created⟩ := Option.isSome_iff_exists.mp (createAll_of_restored (d := .empty) listed_fresh
    (listed_nodup stored) apart same fun t mem => stored.admitted t (mem_listed mem))
  obtain ⟨news, restored, grown, objects, counted⟩ := createAll_some listed_fresh (listed_nodup stored) apart created
  obtain rfl : news = db.listed := Option.some.inj (restored.symm.trans (mapM_self.mpr same))
  have tables : d.tables = db.tables := grown.trans all
  have counted : d.sequence.isSome = db.listed.any (·.schema.autoincrement) := by simpa [Db.empty] using counted
  have sequenced : ∃ next, next.tables = d.tables ∧ next.objects = d.objects ∧ next.sequence = db.sequence ∧
      ∀ rest, e.execute (e.sequenceText db.sequence ++ rest) d = e.execute rest next := by
    cases here : db.sequence with
    | none =>
        refine ⟨d, rfl, rfl, ?_, fun rest => rfl⟩
        have none' : db.listed.any (·.schema.autoincrement) = false := by
          rw [List.any_eq_false]
          intro t mem counts
          have isSome := stored.counted t (mem_listed mem) counts
          rw [here] at isSome
          cases isSome
        rw [none'] at counted
        exact Option.isNone_iff_eq_none.mp (by simpa using counted)
    | some rows =>
        refine ⟨{ d with sequence := some rows }, rfl, rfl, rfl, fun rest => ?_⟩
        have isSome : d.sequence.isSome = true := by
          obtain ⟨t, mem, counts⟩ := able.counted (by rw [here]; rfl)
          rw [counted, all]
          exact List.any_eq_true.mpr ⟨t, mem, counts⟩
        rw [execute_sequence (stored.pairs rows here), if_pos isSome,
          (restoreSequence_eq stored documented here).mpr (able.sequence rows here)]
        rfl
  obtain ⟨next, kept, untouched, sequence, run⟩ := sequenced
  obtain ⟨final, executed⟩ := Option.isSome_iff_exists.mp (@objects_again _ _ documented stored.objects [] _ rfl _
    (kept.trans tables) (untouched.trans objects))
  obtain ⟨finalTables, finalSequence⟩ := objects_some documented (fun _ mem => mem) stored.objects executed
  refine ⟨_, final, dump_eq stored able.plain, ?_, finalTables.trans (kept.trans tables), finalSequence.trans sequence⟩
  rw [execute_script stored documented able.plain, created, Option.bind_some, run, executed]

/-- A dump brings a database back, all tables with all rows, if the database is one of those above; and where no table
has a quote in its name, only then. -/
theorem dump_restored (stored : db.Stored e) (documented : e.Documented db) :
    (Restorable e db → Restored e db) ∧
      ((∀ t ∈ db.tables, 34 ∉ t.schema.name) → Restored e db → Restorable e db) :=
  ⟨restored_of_restorable stored documented, restorable_of_restored stored documented⟩

/-! ## One table of one column without a type -/

def oneSchema : Schema := ⟨ascii "t", false, false, [⟨[], none⟩], fun _ => true⟩

def oneDdl : Text := ascii "CREATE TABLE t(a)"

def oneTable (values : List Value) : Db := ⟨[⟨oneDdl, oneSchema, values.map ([·])⟩], none, []⟩

def oneEngine : Engine where
  realText _ := []
  time _ := ascii "0001-01-01 00:00:00 +0000 UTC"
  other s d := if oneDdl ++ [59] <+: s then some (d.create oneDdl oneSchema, s.drop 18) else none
  query _ _ := none
  track _ _ rows := rows

theorem oneTable_stored (values : List Value) : (oneTable values).Stored oneEngine := by
  have rows : ∀ row ∈ values.map ([·]), ∃ v : Value, row = [v] := by
    intro row mem
    obtain ⟨v, -, rfl⟩ := List.mem_map.mp mem
    exact ⟨v, rfl⟩
  have keeps : ∀ v : Value, Affinity.keep oneEngine.realText (Column.affinity oneSchema ⟨[], none⟩) v = v := by
    intro v
    cases v <;> rfl
  constructor
  · exact List.nodup_singleton _
  · intro t mem
    rw [List.mem_singleton.mp mem]
    show fold (ascii "t") ≠ sqliteSequence
    decide
  · intro t mem
    rw [List.mem_singleton.mp mem]
    show 0 ∉ ascii "t"
    decide
  · intro t mem
    rw [List.mem_singleton.mp mem]
    show ascii "CREATE " <+: oneDdl
    decide
  · intro o mem
    cases mem
  · intro t mem
    rw [List.mem_singleton.mp mem]
    simp [oneSchema]
  · intro t mem row here
    rw [List.mem_singleton.mp mem] at here ⊢
    obtain ⟨v, rfl⟩ := rows row here
    rfl
  · intro t mem row here p cell _
    rw [List.mem_singleton.mp mem] at here cell ⊢
    obtain ⟨v, rfl⟩ := rows row here
    obtain rfl : p = (⟨[], none⟩, v) := by simpa [oneSchema] using cell
    exact keeps v
  · intro t mem k
    rw [List.mem_singleton.mp mem]
    rfl
  · intro t mem counts
    rw [List.mem_singleton.mp mem] at counts
    cases counts
  · intro rows none
    cases none

theorem oneTable_documented (values : List Value) : oneEngine.Documented (oneTable values) := by
  constructor
  · intro v
    show numericText (ascii "0001-01-01 00:00:00 +0000 UTC") = none
    decide
  · intro t mem d rest _ _
    rw [List.mem_singleton.mp mem]
    have whole : oneDdl ++ 59 :: 10 :: rest = (oneDdl ++ [59]) ++ 10 :: rest := by simp
    show oneEngine.other (oneDdl ++ 59 :: 10 :: rest) d = some (d.create oneDdl oneSchema, 10 :: rest)
    rw [whole]
    simp only [oneEngine, List.prefix_append, if_true]
    rfl
  · intro o mem
    cases mem
  · intro done o behind split
    simp [oneTable] at split

/-- Integers, null, a text with a quote and a line end, and bytes that are no text. -/
theorem dump_restored_plain : Restored oneEngine (oneTable
    [.null, .integer (-9223372036854775808), .text (ascii "it's\n"), .blob [255, 39]]) := by
  refine (dump_restored (oneTable_stored _) (oneTable_documented _)).1 ?_
  constructor
  · intro t mem
    rw [List.mem_singleton.mp mem]
    decide
  · intro t mem
    rw [List.mem_singleton.mp mem]
    decide
  · intro none
    cases none
  · intro t mem _ column here
    rw [List.mem_singleton.mp mem] at here
    rw [List.mem_singleton.mp here]
  · intro t mem row here p cell
    rw [List.mem_singleton.mp mem] at here cell ⊢
    obtain ⟨v, value, rfl⟩ := List.mem_map.mp here
    obtain rfl : p = (⟨[], none⟩, v) := by simpa [oneSchema] using cell
    simp only [List.mem_cons, List.not_mem_nil, or_false] at value
    rcases value with rfl | rfl | rfl | rfl
    · trivial
    · exact ⟨by decide, fun boolean => absurd boolean (by decide)⟩
    · exact ⟨by decide, fun time => absurd time (by decide)⟩
    · show utf8Valid [255, 39] = false
      decide
  · intro rows none
    cases none

/-- The number `1.0` comes back as an integer, and bytes that are UTF-8 come back as text. -/
theorem dump_changes_class : ∃ e db, db.Stored e ∧ e.Documented db ∧ ¬Restored e db := by
  refine ⟨oneEngine, oneTable [.real (.finite false (.ofDigits [1] 1)), .blob (ascii "abc")], oneTable_stored _,
    oneTable_documented _, ?_⟩
  rintro ⟨script, restored, dumped, executed, tables, -⟩
  have run : ((oneEngine.dumpSQLiteToBytes (oneTable [.real (.finite false (.ofDigits [1] 1)), .blob (ascii "abc")])).bind
      fun script => (oneEngine.execute script .empty).map fun d => d.tables.map Table.rows) =
        some [[[.integer 1], [.text (ascii "abc")]]] := by decide +kernel
  rw [dumped, Option.bind_some, executed, Option.map_some, tables] at run
  revert run
  decide

end ThreeXNode.Panel.DumpSqlite
