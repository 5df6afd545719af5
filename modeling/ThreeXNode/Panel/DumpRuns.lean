import ThreeXNode.Library.Fold
import ThreeXNode.Panel.DumpRestored

namespace ThreeXNode.Panel.DumpSqlite
open ThreeXNode.Library ThreeXNode.Library.Sqlite

/-! # Running a dump -/

variable {e : Engine}

theorem mapM_self {α : Type*} {f : α → Option α} {items : List α} :
    items.mapM f = some items ↔ ∀ a ∈ items, f a = some a := by
  induction items with
  | nil => simp
  | cons a items ih =>
      simp only [List.mapM_cons, Option.bind_eq_bind, Option.bind_eq_some_iff, Option.pure_def, Option.some.injEq,
        List.cons.injEq, List.forall_mem_cons]
      constructor
      · rintro ⟨_, first, _, rest, rfl, rfl⟩
        exact ⟨first, ih.mp rest⟩
      · rintro ⟨first, rest⟩
        exact ⟨a, first, items, ih.mpr rest, rfl, rfl⟩

/-! ## Rows -/

def Schema.declared (schema : Schema) : List Text := schema.columns.map Column.declared

def Schema.ordinary (schema : Schema) : Prop := ∀ column ∈ schema.columns, column.generated = none

def Engine.restoreRow (e : Engine) (schema : Schema) (row : Row) : Option Row :=
  (e.reread schema.declared row).bind fun values => place e schema values schema.columns values

theorem place_length {schema : Schema} {given values row : Row} {columns : List Column}
    (placed : place e schema given columns values = some row) :
    values.length = (columns.filter fun c => c.generated.isNone).length := by
  induction columns generalizing values row with
  | nil =>
      cases values with
      | nil => rfl
      | cons v values => cases placed
  | cons column columns ih =>
      unfold place at placed
      split at placed
      · rename_i generated
        obtain ⟨rest, placed, -⟩ := Option.map_eq_some_iff.mp placed
        simpa [generated] using ih placed
      · rename_i generated
        obtain ⟨rest, placed, -⟩ := Option.map_eq_some_iff.mp placed
        simpa [generated] using ih placed
      · cases placed

theorem place_ordinary {schema : Schema} {given : Row} {columns : List Column} {row : Row}
    (ordinary : ∀ column ∈ columns, column.generated = none) (width : row.length = columns.length) :
    (((columns.map Column.declared).zip row).mapM fun p => (e.scan p.1 p.2).read).bind
        (place e schema given columns) = some row ↔
      ∀ p ∈ columns.zip row, e.restoreValue schema p.1 p.2 = some p.2 := by
  induction columns generalizing row with
  | nil =>
      obtain rfl : row = [] := List.eq_nil_of_length_eq_zero width
      simp [place]
  | cons column columns ih =>
      obtain ⟨v, row, rfl⟩ : ∃ v rest, row = v :: rest := by
        cases row with
        | nil => cases width
        | cons v rest => exact ⟨v, rest, rfl⟩
      have own : column.generated = none := ordinary column List.mem_cons_self
      have rest := @ih row (fun c mem => ordinary c (List.mem_cons_of_mem _ mem)) (by simpa using width)
      rw [List.zip_cons_cons, List.forall_mem_cons, ← rest]
      simp only [List.map_cons, List.zip_cons_cons, List.mapM_cons, Option.bind_eq_bind, Option.bind_assoc,
        Engine.restoreValue]
      cases read : (e.scan column.declared v).read with
      | none => simp
      | some w =>
          cases tail : ((columns.map Column.declared).zip row).mapM fun p => (e.scan p.1 p.2).read with
          | none => simp
          | some ws =>
              simp only [Option.bind_some, Option.pure_def, place, own, Option.map_some, Option.map_eq_some_iff,
                List.cons.injEq, Option.some.injEq]
              constructor
              · rintro ⟨_, placed, same, rfl⟩
                exact ⟨same, placed⟩
              · rintro ⟨same, placed⟩
                exact ⟨row, placed, same, rfl⟩

theorem reread_length {declared : List Text} {row values : Row} (read : e.reread declared row = some values)
    (width : row.length = declared.length) : values.length = declared.length := by
  have share := mapM_map (g := fun _ => ()) (h := fun _ => ()) (fun _ _ _ => rfl) read
  have length := congrArg List.length share
  rw [List.length_map, List.length_map, List.length_zip, width, Nat.min_self] at length
  exact length

theorem restoreRow_eq {schema : Schema} {row : Row} (width : row.length = schema.columns.length) :
    e.restoreRow schema row = some row ↔
      schema.ordinary ∧ ∀ p ∈ schema.columns.zip row, e.restoreValue schema p.1 p.2 = some p.2 := by
  by_cases ordinary : schema.ordinary
  · rw [and_iff_right ordinary]
    unfold Engine.restoreRow Engine.reread Schema.declared
    cases read : ((schema.columns.map Column.declared).zip row).mapM fun p => (e.scan p.1 p.2).read with
    | none =>
        rw [← (@place_ordinary _ _ []) ordinary width, read]
        simp
    | some values =>
        rw [← (@place_ordinary _ _ values) ordinary width, read]
        simp
  · constructor
    · intro restored
      obtain ⟨values, read, placed⟩ := Option.bind_eq_some_iff.mp restored
      have count := place_length placed
      have length := reread_length read (by simpa [Schema.declared] using width)
      rw [count, Schema.declared, List.length_map] at length
      refine absurd ?_ ordinary
      intro column mem
      have kept := (List.filter_eq_self (p := fun c : Column => c.generated.isNone)).mp
        ((List.filter_sublist).eq_of_length length) column mem
      simpa using kept
    · rintro ⟨here, -⟩
      exact absurd here ordinary

/-! ## Tables -/

def Engine.insertAll (e : Engine) (name : Text) (declared : List Text) (rows : List Row) (db : Db) : Option Db :=
  rows.foldlM (fun db row => (e.reread declared row).bind (e.insert db name)) db

theorem execute_rows {name : Text} (plain : 34 ∉ name) (clear : 0 ∉ name) {declared : List Text} {rows : List Row}
    (filled : ∀ row ∈ rows, declared.zip row ≠ []) (rest : Text) (db : Db) :
    e.execute (rows.flatMap (e.insertLine name declared) ++ rest) db =
      (e.insertAll name declared rows db).bind (e.execute rest) := by
  induction rows generalizing db with
  | nil => rfl
  | cons row rows ih =>
      have line := statement_insert (e := e) plain clear (filled row List.mem_cons_self)
        (rows.flatMap (e.insertLine name declared) ++ rest) db
      rw [List.flatMap_cons, List.append_assoc, execute_line _ _ line, Engine.insertAll, List.foldlM_cons]
      · show _ = (((e.reread declared row).bind (e.insert db name)).bind (e.insertAll name declared rows)).bind _
        cases (e.reread declared row).bind (e.insert db name) with
        | none => rfl
        | some next => exact ih (fun row mem => filled row (List.mem_cons_of_mem _ mem)) next
      · intro b mem
        obtain rfl : 73 = b := Option.some.inj mem
        decide
      · have long : 2 ≤ (e.insertLine name declared row).length := by
          have front : (ascii "INSERT INTO \"").length = 13 := rfl
          simp only [Engine.insertLine, List.length_append, front]
          omega
        rw [List.length_cons, @List.length_append _ (e.insertLine name declared row)]
        omega

theorem insert_last {d : Db} {done : List Table} {t : Table} (here : d.tables = done ++ [t])
    (fresh : ∀ u ∈ done, fold u.schema.name ≠ fold t.schema.name) (apart : fold t.schema.name ≠ sqliteSequence)
    (values : Row) :
    e.insert d t.schema.name values =
      (place e t.schema values t.schema.columns values).bind fun row =>
        if t.schema.admits (t.rows ++ [row]) then
          some { d with
            tables := done ++ [{ t with rows := t.rows ++ [row] }]
            sequence := if t.schema.autoincrement then d.sequence.map (e.track t.schema row) else d.sequence }
        else none := by
  have found : d.find t.schema.name = some t := by
    unfold Db.find
    rw [here, List.find?_append, List.find?_eq_none.mpr (by simpa using fresh)]
    simp
  have put : ∀ row, (d.addRow t.schema.name row).tables = done ++ [{ t with rows := t.rows ++ [row] }] := by
    intro row
    simp only [Db.addRow, here, List.map_append, List.map_singleton, if_true]
    congr 1
    conv_rhs => rw [← List.map_id done]
    apply List.map_congr_left
    intro u mem
    exact if_neg (fresh u mem)
  unfold Engine.insert
  rw [if_neg apart, found]
  simp only
  cases place e t.schema values t.schema.columns values with
  | none => rfl
  | some row => simp only [Option.bind_some, put]; rfl

theorem insertAll_some {d final : Db} {done : List Table} {t : Table} {rows : List Row} (here : d.tables = done ++ [t])
    (fresh : ∀ u ∈ done, fold u.schema.name ≠ fold t.schema.name) (apart : fold t.schema.name ≠ sqliteSequence)
    (run : e.insertAll t.schema.name t.schema.declared rows d = some final) :
    ∃ news, rows.mapM (e.restoreRow t.schema) = some news ∧
      final.tables = done ++ [{ t with rows := t.rows ++ news }] ∧ final.objects = d.objects ∧
      final.sequence.isSome = d.sequence.isSome := by
  induction rows generalizing d t with
  | nil =>
      cases run
      exact ⟨[], rfl, by simpa using here, rfl, rfl⟩
  | cons row rows ih =>
      unfold Engine.insertAll at run
      rw [List.foldlM_cons] at run
      obtain ⟨next, one, run⟩ := Option.bind_eq_some_iff.mp run
      obtain ⟨values, read, one⟩ := Option.bind_eq_some_iff.mp one
      rw [insert_last here fresh apart] at one
      obtain ⟨new, placed, one⟩ := Option.bind_eq_some_iff.mp one
      split at one
      · cases one
        obtain ⟨news, restored, tables, objects, sequence⟩ :=
          ih (t := { t with rows := t.rows ++ [new] }) rfl fresh apart run
        refine ⟨new :: news, ?_, ?_, objects, ?_⟩
        · have first : e.restoreRow t.schema row = some new := by
            unfold Engine.restoreRow
            rw [read]
            exact placed
          rw [List.mapM_cons, first, restored]
          rfl
        · simpa using tables
        · rw [sequence]
          simp only
          split <;> simp
      · cases one

theorem insertAll_of_restored {d : Db} {done : List Table} {t : Table} {rows news : List Row} (here : d.tables = done ++ [t])
    (fresh : ∀ u ∈ done, fold u.schema.name ≠ fold t.schema.name) (apart : fold t.schema.name ≠ sqliteSequence)
    (restored : rows.mapM (e.restoreRow t.schema) = some news) (admitted : ∀ k, t.schema.admits (t.rows ++ news.take k) = true) :
    (e.insertAll t.schema.name t.schema.declared rows d).isSome := by
  induction rows generalizing d t news with
  | nil => rfl
  | cons row rows ih =>
      rw [List.mapM_cons] at restored
      obtain ⟨new, first, restored⟩ := Option.bind_eq_some_iff.mp restored
      obtain ⟨others, tail, same⟩ := Option.bind_eq_some_iff.mp restored
      cases same
      obtain ⟨values, read, placed⟩ := Option.bind_eq_some_iff.mp first
      have one := insert_last (e := e) here fresh apart values
      have admits : t.schema.admits (t.rows ++ [new]) = true := by simpa using admitted 1
      rw [placed, Option.bind_some, if_pos admits] at one
      unfold Engine.insertAll
      rw [List.foldlM_cons, read]
      show ((e.insert d t.schema.name values).bind _).isSome
      rw [one, Option.bind_some]
      refine ih (t := { t with rows := t.rows ++ [new] }) rfl fresh apart tail fun k => ?_
      have next := admitted (k + 1)
      simpa using next

end ThreeXNode.Panel.DumpSqlite
