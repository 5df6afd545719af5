import ThreeXNode.Library.SqliteText

namespace ThreeXNode.Panel.DumpSqlite
open ThreeXNode.Library ThreeXNode.Library.Sqlite

/-! # The SQL dump of a database -/

/-! ## Databases -/

abbrev Row := List Value

structure Column where
  declared : Text
  generated : Option (Row → Value)

structure Schema where
  name : Text
  strict : Bool
  autoincrement : Bool
  columns : List Column
  admits : List Row → Bool

structure Table where
  ddl : Text
  schema : Schema
  rows : List Row

/-- The tables in the order of their creation, `sqlite_sequence`, and the indexes, triggers and views by their text. -/
structure Db where
  tables : List Table
  sequence : Option (List Row)
  objects : List Text

def Db.empty : Db := ⟨[], none, []⟩

def Column.affinity (schema : Schema) (column : Column) : Affinity := .ofDeclared schema.strict column.declared

def sqliteSequence : Text := ascii "sqlite_sequence"

def fold (name : Text) : Text := name.map lower

def Db.find (db : Db) (name : Text) : Option Table := db.tables.find? fun t => fold t.schema.name = fold name

def Db.create (db : Db) (ddl : Text) (schema : Schema) : Db :=
  { db with
    tables := db.tables ++ [⟨ddl, schema, []⟩]
    sequence := if schema.autoincrement then some (db.sequence.getD []) else db.sequence }

def Db.addRow (db : Db) (name : Text) (row : Row) : Db :=
  { db with tables := db.tables.map fun t => if fold t.schema.name = fold name then { t with rows := t.rows ++ [row] } else t }

/-- SQLite and its driver where they are not written out here. -/
structure Engine where
  realText : Real64 → Text
  time : Value → Text
  /-- Runs the first statement of a script when it is none of those below. -/
  other : Text → Db → Option (Db × Text)
  query : Text → Db → Option (List Text × List Row)
  /-- `sqlite_sequence` after a row was put into a table. -/
  track : Schema → Row → List Row → List Row

/-! ## Dumping -/

inductive Scanned where
  | nil
  | int64 (n : Int64)
  | float64 (r : Real64)
  | bool (b : Bool)
  | string (s : Text)
  | bytes (b : Text)
  | time (shown : Text)

def isBoolean (declared : Text) : Prop := declared.map lower = ascii "boolean"

def isTime (declared : Text) : Prop :=
  declared.map lower = ascii "timestamp" ∨ declared.map lower = ascii "datetime" ∨ declared.map lower = ascii "date"

instance (declared : Text) : Decidable (isBoolean declared) := by unfold isBoolean; infer_instance
instance (declared : Text) : Decidable (isTime declared) := by unfold isTime; infer_instance

def Engine.scan (e : Engine) (declared : Text) : Value → Scanned
  | .null => .nil
  | .integer n =>
      if isBoolean declared then .bool (0 < n) else if isTime declared then .time (e.time (.integer n)) else .int64 n
  | .real r => .float64 r
  | .text t => if isTime declared then .time (e.time (.text t)) else .string t
  | .blob b => .bytes b

def formatFloat : Real64 → Text
  | .finite negative d => (if negative then [45] else []) ++ d.formatG
  | .infinite negative => ascii (if negative then "-Inf" else "+Inf")

def isTail (b : UInt8) : Bool := 0x80 ≤ b && b ≤ 0xBF

def utf8Valid : Text → Bool
  | [] => true
  | a :: rest =>
      if a < 0x80 then utf8Valid rest
      else if 0xC2 ≤ a ∧ a ≤ 0xDF then
        match rest with
        | b :: rest => isTail b && utf8Valid rest
        | _ => false
      else if 0xE0 ≤ a ∧ a ≤ 0xEF then
        match rest with
        | b :: c :: rest =>
            isTail b && (a != 0xE0 || 0xA0 ≤ b) && (a != 0xED || b ≤ 0x9F) && isTail c && utf8Valid rest
        | _ => false
      else if 0xF0 ≤ a ∧ a ≤ 0xF4 then
        match rest with
        | b :: c :: d :: rest =>
            isTail b && (a != 0xF0 || 0x90 ≤ b) && (a != 0xF4 || b ≤ 0x8F) && isTail c && isTail d && utf8Valid rest
        | _ => false
      else false

def quoteSQLiteText (s : Text) : Text := 39 :: (double 39 s ++ [39])

def sqliteLiteral : Scanned → Text
  | .nil => ascii "NULL"
  | .int64 n => intText n.toInt
  | .float64 r => formatFloat r
  | .bool b => if b then ascii "1" else ascii "0"
  | .string s => quoteSQLiteText s
  | .bytes b => if utf8Valid b then quoteSQLiteText b else ascii "X'" ++ b.flatMap hexByte ++ [39]
  | .time shown => quoteSQLiteText shown

def Engine.selectAll (e : Engine) (db : Db) (name : Text) : Option (List Text × List Row) :=
  match readQuoted 34 (name ++ [34]) with
  | none => none
  | some (table, []) =>
      if fold table = sqliteSequence then db.sequence.map fun rows => ([[], []], rows)
      else (db.find table).map fun t => (t.schema.columns.map Column.declared, t.rows)
  | some (_, _ :: _) => e.query (ascii "SELECT * FROM \"" ++ name ++ [34]) db

def Engine.insertLine (e : Engine) (name : Text) (declared : List Text) (row : Row) : Text :=
  ascii "INSERT INTO \"" ++ name ++ ascii "\" VALUES(" ++
    [44].intercalate ((declared.zip row).map fun p => sqliteLiteral (e.scan p.1 p.2)) ++ ascii ");\n"

def Engine.dumpTableData (e : Engine) (db : Db) (table : Text) : Option Text :=
  (e.selectAll db table).map fun p => p.2.flatMap (e.insertLine table p.1)

def isInternal (name : Text) : Prop := ascii "sqlite" <+: fold name ∧ 6 < name.length

instance (name : Text) : Decidable (isInternal name) := by unfold isInternal; infer_instance

def Engine.dumpTable (e : Engine) (db : Db) (t : Table) : Option Text :=
  (e.dumpTableData db t.schema.name).map fun data => t.ddl ++ ascii ";\n" ++ data

def Engine.dumpSequence (e : Engine) (db : Db) : Option Text :=
  if db.sequence.isSome then
    (e.dumpTableData db sqliteSequence).map fun data => ascii "DELETE FROM sqlite_sequence;\n" ++ data
  else some []

def Engine.dumpSQLiteToBytes (e : Engine) (db : Db) : Option Text := do
  let tables ← (db.tables.filter fun t => ¬isInternal t.schema.name).mapM (e.dumpTable db)
  let sequence ← e.dumpSequence db
  some (ascii "PRAGMA foreign_keys=OFF;\n" ++ ascii "BEGIN TRANSACTION;\n" ++ tables.flatten ++ sequence ++
    db.objects.flatMap (· ++ ascii ";\n") ++ ascii "COMMIT;\n")

/-! ## Restoring -/

/-- The row a table keeps for the values of its ordinary columns. -/
def place (e : Engine) (schema : Schema) (given : Row) : List Column → Row → Option Row
  | [], [] => some []
  | [], _ :: _ => none
  | column :: columns, values =>
      match column.generated, values with
      | some expression, values => (place e schema given columns values).map (expression given :: ·)
      | none, v :: values =>
          (place e schema given columns values).map ((column.affinity schema).keep e.realText v :: ·)
      | none, [] => none

def Engine.insert (e : Engine) (db : Db) (name : Text) (values : Row) : Option Db :=
  if fold name = sqliteSequence then
    if values.length = 2 then
      db.sequence.map fun rows => { db with sequence := some (rows ++ [values]) }
    else none
  else
    match db.find name with
    | none => none
    | some t =>
        match place e t.schema values t.schema.columns values with
        | none => none
        | some row =>
            if t.schema.admits (t.rows ++ [row]) then
              some { db.addRow name row with
                sequence := if t.schema.autoincrement then db.sequence.map (e.track t.schema row) else db.sequence }
            else none

def Engine.statement (e : Engine) (s : Text) (db : Db) : Option (Db × Text) :=
  if ascii "PRAGMA foreign_keys=OFF;" <+: s then some (db, s.drop 24)
  else if ascii "BEGIN TRANSACTION;" <+: s then some (db, s.drop 18)
  else if ascii "COMMIT;" <+: s then some (db, s.drop 7)
  else if ascii "DELETE FROM sqlite_sequence;" <+: s then
    if db.sequence.isSome then some ({ db with sequence := some [] }, s.drop 28) else none
  else if ascii "INSERT INTO \"" <+: s then
    match readQuoted 34 (s.drop 13) with
    | none => none
    | some (name, rest) =>
        if ascii " VALUES(" <+: rest then
          match readValues rest.length (rest.drop 8) with
          | some (values, 59 :: rest) => (e.insert db name values).map (·, rest)
          | _ => none
        else e.other s db
  else e.other s db

def Engine.exec (e : Engine) : Nat → Text → Db → Option Db
  | 0, _, _ => none
  | fuel + 1, text, db =>
      let s := text.dropWhile isSpace
      if s = [] then some db
      else
        match e.statement s db with
        | none => none
        | some (db, rest) => if rest.length < s.length then e.exec fuel rest db else none

def Engine.execute (e : Engine) (script : Text) (db : Db) : Option Db := e.exec (script.length + 1) script db

/-- The restored database has the same tables with the same rows. -/
def Restored (e : Engine) (db : Db) : Prop :=
  ∃ script restored, e.dumpSQLiteToBytes db = some script ∧ e.execute script .empty = some restored ∧
    restored.tables = db.tables ∧ restored.sequence = db.sequence

end ThreeXNode.Panel.DumpSqlite
