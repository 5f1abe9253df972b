/-
# Exporting rows to a table

`SaveToExternalDbOperationExecutor.execute` of
`app/elaborations/services/operations/export_dataset_command_executor.py`, with
`DatabaseTableWriter` of `app/sqlalchemy_utils/database_table_writer.py`.

In mode `insert-update` the rows that have the key of an input row are deleted on one
connection, and the input rows are inserted on another, which commits first.  A comparison
with NULL is never true, so rows with a NULL in their key stay.  The insert is compiled for
the columns of the first row: what it has under no column is left out, and so is a value that
a later row has under another column.  What fails once the rows are inserted does not take them
back.

A statement fails where the database says so, which is given.  So is what a mapping key means
to the database: it stands in the deletion as it is, without quotes.
-/

import QualityFlow.Py.Dict
import QualityFlow.Py.Except
import QualityFlow.Py.Str
import QualityFlow.Sql.Tables

namespace QualityFlow
namespace Export

open Py Sql

/-! ### The command -/

/-- `mode`. -/
inductive ExportMode where
  | append
  | dropCreate
  | insertUpdate
deriving DecidableEq

/-- `ExportDatasetConfigurationCommandDto`. -/
structure ExportDatasetCfg where
  connectionId : String
  tableName : String
  mode : ExportMode
  mappingKeys : List String
  writesConstant : Bool

/-- The statements and commits of an export, in their order. -/
inductive Statement where
  | loadConnection
  | dropTable
  | ensureTable
  | ensureAgain
  | delete (index : ℕ)
  | insert
  | commitInsert
  | commitDelete
  | saveDataset
  | writeConstant
  | log
deriving DecidableEq

/-- What an export raises. -/
inductive ExportError where
  | invalid (message : String)
  | failed (statement : Statement)

/-- Values by column, NULL being `none`: a row of a table, or an input row. -/
abbrev Row (α : Type) := List (String × Option α)

/-- What a mapping key means to a database where it stands in a statement as it is: the value
it has in a row of the table, or nothing where the statement is refused. -/
abbrev KeyReading (α : Type) := String → Option (Row α → Option α)

/-- The value under a column, NULL where there is none: `row.get(key)`. -/
def cell {α : Type} (row : Row α) (column : String) : Option α := (Dict.get? row column).join

/-- The values of the mapping keys in an input row. -/
def keyOf {α : Type} (keys : List String) (row : Row α) : List (Option α) := keys.map (cell row)

/-- PostgreSQL's reading of a name without quotes: it is that of a column in lower case. -/
def foldedReading {α : Type} (columns : List String) : KeyReading α := fun key =>
  if lower key ∈ columns then some fun r => cell r (lower key) else none

/-- A table of the database. -/
structure Table (α : Type) where
  columns : List String
  rows : Multiset (Row α)

/-- The rows of a table that may not be there. -/
def content {α : Type} (db : Option (Table α)) : Multiset (Row α) := (db.map Table.rows).getD 0

section

variable {α : Type} [DecidableEq α]

/-- `a = b` in SQL. -/
def sqlEq (a b : Option α) : Bool := a.isSome && decide (a = b)

variable (reads : KeyReading α)

/-- The values of the mapping keys in a row of the table. -/
def tupleOf (keys : List String) (r : Row α) : List (Option α) :=
  keys.map fun key => (reads key).bind fun value => value r

/-- The predicate of the deletion for an input row. -/
def Matches (keys : List String) (row r : Row α) : Prop :=
  ∀ key ∈ keys, sqlEq ((reads key).bind fun value => value r) (cell row key) = true

instance (keys : List String) (row : Row α) : DecidablePred (Matches reads keys row) :=
  fun _ => inferInstanceAs (Decidable (∀ key ∈ keys, _))

/-- The columns of `sample_row`. -/
def sampleColumns (rows : List (Row α)) : List String := Dict.keys (rows.foldl Dict.update [])

/-- `ensure_table_exists`. -/
def ensureTableExists (db : Option (Table α)) (rows : List (Row α)) : Table α :=
  db.getD ⟨sampleColumns rows, 0⟩

/-- Whether `insert(table)` accepts the rows: each has the columns of the first one.  A key
that is no column has no part in the statement. -/
def insertable (columns : List String) : List (Row α) → Bool
  | [] => true
  | first :: rest =>
    rest.all fun row => decide (∀ c ∈ Dict.keys first, c ∈ columns → c ∈ Dict.keys row)

/-- The row that is inserted for an input row, with the columns of the first one. -/
def stored (columns : List String) (first row : Row α) : Row α :=
  columns.map fun c => (c, if c ∈ Dict.keys first then cell row c else none)

/-- The rows that are inserted. -/
def storedRows (columns : List String) : List (Row α) → List (Row α)
  | [] => []
  | first :: rest => (first :: rest).map (stored columns first)

variable (fails : Statement → Bool)

/-- `insert_rows`. -/
def insertRows (table : Table α) (rows : List (Row α)) : Except Statement (Table α) :=
  if fails .insert || !insertable table.columns rows then .error .insert
  else if fails .commitInsert then .error .commitInsert
  else
    let transaction := Transaction.start.insert (storedRows table.columns rows : Multiset (Row α))
    .ok { table with rows := transaction.commit table.rows }

/-- The deletion for an input row. -/
def deleteRow (keys : List String) (table : Table α) (transaction : Transaction (Row α))
    (row : Row α × ℕ) : Except Statement (Transaction (Row α)) :=
  if fails (.delete row.2) || !keys.all (fun key => (reads key).isSome) then
    .error (.delete row.2)
  else .ok (transaction.delete table.rows (Matches reads keys row.1))

/-- The block of mode `insert-update`, which leaves the table as it is or with the rows that
were inserted where it raises. -/
def upsertRows (keys : List String) (table : Table α) (rows : List (Row α)) :
    Table α × Except Statement Unit :=
  match rows.zipIdx.foldlM (deleteRow reads fails keys table) Transaction.start with
  | .error e => (table, .error e)
  | .ok transaction =>
    match insertRows fails table rows with
    | .error e => (table, .error e)
    | .ok inserted =>
      if fails .commitDelete then (inserted, .error .commitDelete)
      else ({ inserted with rows := transaction.commit inserted.rows }, .ok ())

/-- What is written once the rows are in the table. -/
def saveResult (cfg : ExportDatasetCfg) : Except Statement Unit :=
  if fails .saveDataset then .error .saveDataset
  else if cfg.writesConstant && fails .writeConstant then .error .writeConstant
  else if fails .log then .error .log
  else .ok ()

/-- The part of `execute` that changes the table, once it is there. -/
def writeRows (cfg : ExportDatasetCfg) (table : Table α) (rows : List (Row α)) :
    Table α × Except Statement Unit :=
  if cfg.mode = .insertUpdate ∧ cfg.mappingKeys ≠ [] then
    upsertRows reads fails cfg.mappingKeys table rows
  else if cfg.mode = .dropCreate && fails .ensureAgain then (table, .error .ensureAgain)
  else
    match insertRows fails table rows with
    | .error e => (table, .error e)
    | .ok inserted => (inserted, .ok ())

/-- `SaveToExternalDbOperationExecutor.execute`: the table after it, and the message. -/
def execute (cfg : ExportDatasetCfg) (db : Option (Table α)) (rows : List (Row α)) :
    Option (Table α) × Except ExportError String :=
  if cfg.connectionId = "" then (db, .error (.invalid "exportDataset requires connection_id."))
  else if cfg.tableName = "" then (db, .error (.invalid "exportDataset requires table_name."))
  else if fails .loadConnection then (db, .error (.failed .loadConnection))
  else if rows = [] then
    if fails .log then (db, .error (.failed .log))
    else (db, .ok ("No data to insert into " ++ cfg.tableName ++ " table"))
  else if cfg.mode = .dropCreate && fails .dropTable then (db, .error (.failed .dropTable))
  else
    let db := if cfg.mode = .dropCreate then none else db
    if fails .ensureTable then (db, .error (.failed .ensureTable))
    else
      match writeRows reads fails cfg (ensureTableExists db rows) rows with
      | (table, .error e) => (some table, .error (.failed e))
      | (table, .ok ()) =>
        match saveResult fails cfg with
        | .error e => (some table, .error (.failed e))
        | .ok () => (some table, .ok ("Created " ++ toString rows.length ++ " rows in " ++
            cfg.tableName ++ " table"))

end

/-! ### What an upsert should do -/

section

variable {α : Type} [DecidableEq α]

/-- An input row as a row of the table. -/
def asRow (columns : List String) (row : Row α) : Row α := columns.map fun c => (c, cell row c)

/-- The rows with the key of an input row are the input rows with that key, and the others are
as they were. -/
structure Replaced (reads : KeyReading α) (keys : List String) (old : Multiset (Row α))
    (rows : List (Row α)) (table : Table α) : Prop where
  keyed : ∀ row ∈ rows, table.rows.filter (fun r => tupleOf reads keys r = keyOf keys row) =
    ((rows.filter fun input => keyOf keys input = keyOf keys row).map (asRow table.columns) :
      Multiset (Row α))
  others : table.rows.filter (fun r => ∀ row ∈ rows, tupleOf reads keys r ≠ keyOf keys row) =
    old.filter fun r => ∀ row ∈ rows, tupleOf reads keys r ≠ keyOf keys row

/-- An export that is an atomic upsert: what it leaves if it succeeds, and that it changes
nothing if it fails. -/
def AtomicUpsert (reads : KeyReading α) (fails : Statement → Bool) (cfg : ExportDatasetCfg)
    (db : Option (Table α)) (rows : List (Row α)) : Prop :=
  match execute reads fails cfg db rows with
  | (db', .ok _) => ∃ table, db' = some table ∧ Replaced reads cfg.mappingKeys (content db) rows
      table
  | (db', .error _) => content db' = content db

/-! ### Cells -/

/-- The deletion for an input row is of the rows with its key, where that has no NULL. -/
theorem matches_iff {reads : KeyReading α} {keys : List String} {row r : Row α} :
    Matches reads keys row r ↔
      tupleOf reads keys r = keyOf keys row ∧ none ∉ tupleOf reads keys r := by
  unfold Matches tupleOf keyOf
  rw [List.map_inj_left, List.mem_map]
  constructor
  · intro h
    refine ⟨fun key hkey => ?_, ?_⟩
    · have := h key hkey
      simp only [sqlEq, Bool.and_eq_true, decide_eq_true_eq] at this
      exact this.2
    · rintro ⟨key, hkey, hnone⟩
      have := h key hkey
      rw [hnone] at this
      simp [sqlEq] at this
  · rintro ⟨heq, hnone⟩ key hkey
    have hsome : ((reads key).bind fun value => value r).isSome := by
      rw [Option.isSome_iff_ne_none]
      exact fun h => hnone ⟨key, hkey, h⟩
    rw [sqlEq, hsome, ← heq key hkey]
    simp

/-- The mapping keys mean to the database what they mean in the input: a row that is inserted
has the key of its input row. -/
def KeysAgree (reads : KeyReading α) (keys columns : List String) (rows : List (Row α)) : Prop :=
  ∀ row ∈ rows, tupleOf reads keys (asRow columns row) = keyOf keys row

/-- The rows of the input, read key by key. -/
theorem replaced_iff_upserted {reads : KeyReading α} {keys : List String}
    {old : Multiset (Row α)} {rows : List (Row α)} {table : Table α}
    (h : KeysAgree reads keys table.columns rows) :
    Replaced reads keys old rows table ↔ Upserted (tupleOf reads keys) old
      (rows.map (asRow table.columns) : Multiset (Row α)) table.rows := by
  have hkeys (k : List (Option α)) :
      k ∈ Multiset.map (tupleOf reads keys) (rows.map (asRow table.columns) : Multiset (Row α)) ↔
        ∃ row ∈ rows, keyOf keys row = k := by
    rw [Multiset.map_coe, Multiset.mem_coe, List.map_map, List.mem_map]
    refine exists_congr fun row => and_congr_right fun hrow => ?_
    rw [Function.comp_apply, h row hrow]
  have hfilter (k : List (Option α)) :
      (rows.map (asRow table.columns) : Multiset (Row α)).filter
          (fun r => tupleOf reads keys r = k) =
        ((rows.filter fun input => keyOf keys input = k).map (asRow table.columns) :
          Multiset (Row α)) := by
    rw [Multiset.filter_coe, List.filter_map]
    refine congrArg (fun xs : List (Row α) => (xs.map (asRow table.columns) : Multiset (Row α)))
      (List.filter_congr fun row hrow => ?_)
    rw [Function.comp_apply, h row hrow]
  have hothers (r : Row α) : (∀ row ∈ rows, tupleOf reads keys r ≠ keyOf keys row) ↔
      tupleOf reads keys r ∉ Multiset.map (tupleOf reads keys)
        (rows.map (asRow table.columns) : Multiset (Row α)) := by
    rw [hkeys]
    push Not
    exact forall₂_congr fun row _ => ne_comm
  constructor
  · rintro ⟨hkeyed, hrest⟩
    constructor
    · intro k hk
      obtain ⟨row, hrow, rfl⟩ := (hkeys k).1 hk
      rw [hfilter]
      exact hkeyed row hrow
    · simpa only [hothers] using hrest
  · rintro ⟨hkeyed, hrest⟩
    constructor
    · intro row hrow
      rw [← hfilter]
      exact hkeyed _ ((hkeys _).2 ⟨row, hrow, rfl⟩)
    · simpa only [hothers] using hrest

/-- Where the rows of each key are the input rows, the keys mean the same. -/
theorem keysAgree_of_replaced {reads : KeyReading α} {keys : List String} {old : Multiset (Row α)}
    {rows : List (Row α)} {table : Table α} (h : Replaced reads keys old rows table) :
    KeysAgree reads keys table.columns rows := by
  intro row hrow
  have hmem : asRow table.columns row ∈
      table.rows.filter (fun r => tupleOf reads keys r = keyOf keys row) := by
    rw [h.keyed row hrow, Multiset.mem_coe]
    exact List.mem_map_of_mem (List.mem_filter.2 ⟨hrow, by simp⟩)
  exact (Multiset.mem_filter.1 hmem).2

/-! ### What the statements do -/

section

variable {reads : KeyReading α} {fails : Statement → Bool} {keys : List String} {table : Table α}

/-- One of the deletions raises. -/
def DeletesRaise (reads : KeyReading α) (fails : Statement → Bool) (keys : List String)
    (rows : List (Row α)) : Prop :=
  (∃ i < rows.length, fails (.delete i) = true) ∨ ∃ key ∈ keys, reads key = none

/-- The insert or its commit raises. -/
def InsertRaises (fails : Statement → Bool) (columns : List String) (rows : List (Row α)) : Prop :=
  fails .insert = true ∨ insertable columns rows = false ∨ fails .commitInsert = true

theorem foldlM_deleteRow {xs : List (Row α × ℕ)} (hfails : ∀ x ∈ xs, fails (.delete x.2) = false)
    (hkeys : ∀ key ∈ keys, reads key ≠ none) (t : Transaction (Row α)) :
    xs.foldlM (deleteRow reads fails keys table) t =
      .ok ((xs.map Prod.fst).foldl (fun t row => t.delete table.rows (Matches reads keys row)) t) := by
  induction xs generalizing t with
  | nil => rfl
  | cons x xs ih =>
    have hx : deleteRow reads fails keys table t x =
        .ok (t.delete table.rows (Matches reads keys x.1)) := by
      have hfine := hfails x List.mem_cons_self
      have hread : keys.all (fun key => (reads key).isSome) = true :=
        List.all_eq_true.2 fun key hkey => Option.isSome_iff_ne_none.2 (hkeys key hkey)
      simp [deleteRow, hfine, hread]
    rw [List.foldlM_cons, hx, ok_bind, ih fun y hy => hfails y (List.mem_cons_of_mem _ hy)]
    rfl

/-- A deletion that raises ends the loop. -/
theorem foldlM_deleteRow_error {xs : List (Row α × ℕ)}
    (h : ∃ x ∈ xs, fails (.delete x.2) = true ∨ ∃ key ∈ keys, reads key = none)
    (t : Transaction (Row α)) : ∃ e, xs.foldlM (deleteRow reads fails keys table) t = .error e := by
  induction xs generalizing t with
  | nil => simp at h
  | cons x xs ih =>
    rw [List.foldlM_cons]
    cases hx : deleteRow reads fails keys table t x with
    | error e => exact ⟨e, rfl⟩
    | ok t' =>
      obtain ⟨y, hy, hraises⟩ := h
      rcases List.mem_cons.1 hy with rfl | hrest
      · have hbad : fails (.delete y.2) || !keys.all (fun key => (reads key).isSome) := by
          rcases hraises with hfails | ⟨key, hkey, hmissing⟩
          · simp [hfails]
          · have hall : keys.all (fun key => (reads key).isSome) = false :=
              List.all_eq_false.2 ⟨key, hkey, by simp [hmissing]⟩
            simp [hall]
        rw [deleteRow, if_pos hbad] at hx
        cases hx
      · exact ih ⟨y, hrest, hraises⟩ t'

theorem insertRows_error {rows : List (Row α)} (h : InsertRaises fails table.columns rows) :
    ∃ e, insertRows fails table rows = .error e := by
  unfold insertRows
  rcases h with h | h | h
  · exact ⟨_, by rw [if_pos (by simp [h])]⟩
  · exact ⟨_, by rw [if_pos (by simp [h])]⟩
  · by_cases hfirst : (fails .insert || !insertable table.columns rows) = true
    · exact ⟨_, by rw [if_pos hfirst]⟩
    · exact ⟨_, by rw [if_neg hfirst, if_pos h]⟩

theorem insertRows_ok {rows : List (Row α)} (h : ¬InsertRaises fails table.columns rows) :
    insertRows fails table rows =
      .ok { table with
        rows := table.rows + (storedRows table.columns rows : Multiset (Row α)) } := by
  obtain ⟨hinsert, hrest⟩ := not_or.1 h
  obtain ⟨hinsertable, hcommit⟩ := not_or.1 hrest
  rw [Bool.not_eq_true] at hinsert hcommit
  rw [Bool.not_eq_false] at hinsertable
  simp [insertRows, hinsert, hinsertable, hcommit, Transaction.insert, Transaction.start,
    Transaction.commit]

/-- The block leaves the table where a deletion or the insert raises. -/
theorem upsertRows_error {rows : List (Row α)} (hrows : rows ≠ [])
    (h : DeletesRaise reads fails keys rows ∨ InsertRaises fails table.columns rows) :
    ∃ e, upsertRows reads fails keys table rows = (table, .error e) := by
  unfold upsertRows
  rcases hloop : rows.zipIdx.foldlM (deleteRow reads fails keys table) Transaction.start with e | t
  · exact ⟨e, rfl⟩
  · have hinsert : InsertRaises fails table.columns rows := by
      refine h.resolve_left fun hdeletes => ?_
      have hsome : ∃ x ∈ rows.zipIdx,
          fails (.delete x.2) = true ∨ ∃ key ∈ keys, reads key = none := by
        rcases hdeletes with ⟨i, hi, hfails⟩ | hmissing
        · exact ⟨(rows[i], i), by simp [List.mk_mem_zipIdx_iff_getElem?, hi], .inl hfails⟩
        · obtain ⟨row, rest, rfl⟩ := List.exists_cons_of_ne_nil hrows
          exact ⟨(row, 0), by simp, .inr hmissing⟩
      obtain ⟨e, he⟩ := foldlM_deleteRow_error hsome Transaction.start
      rw [hloop] at he
      cases he
    obtain ⟨e, he⟩ := insertRows_error hinsert
    exact ⟨e, by rw [he]⟩

/-- **What the block leaves otherwise.** The rows that were inserted are there in any case, and
the rows that were deleted are gone where the second commit succeeds. -/
theorem upsertRows_eq {rows : List (Row α)}
    (hdeletes : ¬DeletesRaise reads fails keys rows)
    (hinsert : ¬InsertRaises fails table.columns rows) :
    upsertRows reads fails keys table rows =
      if fails .commitDelete then
        ({ table with rows := table.rows + (storedRows table.columns rows : Multiset (Row α)) },
          .error .commitDelete)
      else
        ({ table with
            rows := table.rows.filter (fun r => ¬∃ row ∈ rows, Matches reads keys row r) +
              (storedRows table.columns rows : Multiset (Row α)) }, .ok ()) := by
  obtain ⟨hfails, hkeys⟩ := not_or.1 hdeletes
  push Not at hfails hkeys
  have hfine : ∀ x ∈ rows.zipIdx, fails (.delete x.2) = false := by
    rintro ⟨row, i⟩ hx
    have hlt : i < rows.length := by
      have := List.mk_mem_zipIdx_iff_getElem?.1 hx
      exact (List.getElem?_eq_some_iff.1 this).1
    simpa using hfails i hlt
  have hloop : rows.zipIdx.foldlM (deleteRow reads fails keys table) Transaction.start = _ :=
    foldlM_deleteRow hfine hkeys Transaction.start
  rw [List.zipIdx_map_fst] at hloop
  have hdeleted := (Transaction.deletedBy_start table.rows).foldl (q := Matches reads keys) rows
  unfold upsertRows
  rw [hloop, insertRows_ok hinsert]
  dsimp only
  split
  · rfl
  · have hcommit := hdeleted.commit (storedRows table.columns rows : Multiset (Row α))
    simp only [false_or] at hcommit
    rw [hcommit]

end

/-! ### The outcome of the command -/

/-- What raises before the insert is committed. -/
def RaisesBefore (reads : KeyReading α) (fails : Statement → Bool) (cfg : ExportDatasetCfg)
    (columns : List String) (rows : List (Row α)) : Prop :=
  cfg.connectionId = "" ∨ cfg.tableName = "" ∨ fails .loadConnection = true ∨
    fails .ensureTable = true ∨ DeletesRaise reads fails cfg.mappingKeys rows ∨
      InsertRaises fails columns rows

/-- What raises after the deletions are committed. -/
def RaisesAfter (fails : Statement → Bool) (cfg : ExportDatasetCfg) : Prop :=
  fails .saveDataset = true ∨ (cfg.writesConstant = true ∧ fails .writeConstant = true) ∨
    fails .log = true

theorem saveResult_error {fails : Statement → Bool} {cfg : ExportDatasetCfg}
    (h : RaisesAfter fails cfg) : ∃ e, saveResult fails cfg = .error e := by
  unfold saveResult
  by_cases hdataset : fails .saveDataset = true
  · exact ⟨_, by rw [if_pos hdataset]⟩
  · by_cases hconstant : (cfg.writesConstant && fails .writeConstant) = true
    · exact ⟨_, by rw [if_neg hdataset, if_pos hconstant]⟩
    · have hlog : fails .log = true := by
        rcases h with h | h | h
        · exact absurd h hdataset
        · exact absurd (by simp [h.1, h.2]) hconstant
        · exact h
      exact ⟨_, by rw [if_neg hdataset, if_neg hconstant, if_pos hlog]⟩

theorem saveResult_ok {fails : Statement → Bool} {cfg : ExportDatasetCfg}
    (h : ¬RaisesAfter fails cfg) : saveResult fails cfg = .ok () := by
  obtain ⟨hdataset, h⟩ := not_or.1 h
  obtain ⟨hconstant, hlog⟩ := not_or.1 h
  rw [← Bool.and_eq_true] at hconstant
  rw [saveResult, if_neg hdataset, if_neg hconstant, if_neg hlog]

section

variable {reads : KeyReading α} {fails : Statement → Bool} {cfg : ExportDatasetCfg}
  {db : Option (Table α)} {rows : List (Row α)}

omit [DecidableEq α] in
theorem rows_ensureTableExists (db : Option (Table α)) (rows : List (Row α)) :
    (ensureTableExists db rows).rows = content db := by
  cases db <;> rfl

/-- Nothing changes where something raises before the insert is committed. -/
theorem execute_of_raisesBefore (hmode : cfg.mode = .insertUpdate) (hkeys : cfg.mappingKeys ≠ [])
    (hrows : rows ≠ [])
    (h : RaisesBefore reads fails cfg (ensureTableExists db rows).columns rows) :
    ∃ db' e, execute reads fails cfg db rows = (db', .error e) ∧ content db' = content db := by
  have hdrop : ¬(cfg.mode = .dropCreate) := by simp [hmode]
  unfold execute
  by_cases hconnection : cfg.connectionId = ""
  · exact ⟨db, _, if_pos hconnection, rfl⟩
  by_cases htable : cfg.tableName = ""
  · exact ⟨db, _, by rw [if_neg hconnection, if_pos htable], rfl⟩
  by_cases hload : fails .loadConnection = true
  · exact ⟨db, _, by rw [if_neg hconnection, if_neg htable, if_pos hload], rfl⟩
  rw [if_neg hconnection, if_neg htable, if_neg hload, if_neg hrows,
    if_neg (by simp [hdrop]), if_neg hdrop]
  dsimp only
  by_cases hensure : fails .ensureTable = true
  · exact ⟨db, _, by rw [if_pos hensure], rfl⟩
  rw [if_neg hensure, writeRows, if_pos ⟨hmode, hkeys⟩]
  have hblock := ((((h.resolve_left hconnection).resolve_left htable).resolve_left
    hload).resolve_left hensure)
  obtain ⟨e, he⟩ := upsertRows_error hrows hblock
  rw [he]
  exact ⟨_, _, rfl, rows_ensureTableExists db rows⟩

/-- The command once nothing raises before the insert is committed. -/
theorem execute_of_not_raisesBefore (hmode : cfg.mode = .insertUpdate)
    (hkeys : cfg.mappingKeys ≠ []) (hrows : rows ≠ [])
    (h : ¬RaisesBefore reads fails cfg (ensureTableExists db rows).columns rows) :
    execute reads fails cfg db rows =
      match upsertRows reads fails cfg.mappingKeys (ensureTableExists db rows) rows with
      | (table, .error e) => (some table, .error (.failed e))
      | (table, .ok ()) =>
        match saveResult fails cfg with
        | .error e => (some table, .error (.failed e))
        | .ok () => (some table, .ok ("Created " ++ toString rows.length ++ " rows in " ++
            cfg.tableName ++ " table")) := by
  have hdrop : ¬(cfg.mode = .dropCreate) := by simp [hmode]
  obtain ⟨hconnection, h⟩ := not_or.1 h
  obtain ⟨htable, h⟩ := not_or.1 h
  obtain ⟨hload, h⟩ := not_or.1 h
  obtain ⟨hensure, -⟩ := not_or.1 h
  rw [execute, if_neg hconnection, if_neg htable, if_neg hload, if_neg hrows,
    if_neg (by simp [hdrop]), if_neg hdrop]
  dsimp only
  rw [if_neg hensure, writeRows, if_pos ⟨hmode, hkeys⟩]

end

/-! ### Values that are lost -/

/-- No row has a value under a column of the table that the first row does not have. -/
def KeepsValues (columns : List String) (rows : List (Row α)) : Prop :=
  ∀ first ∈ rows.head?, ∀ row ∈ rows, ∀ c ∈ columns, c ∉ Dict.keys first → cell row c = none

/-- The number of values of a row that are not NULL. -/
def weight (row : Row α) : ℕ := (row.map fun kv => if kv.2.isSome then 1 else 0).sum

omit [DecidableEq α] in
theorem weight_map (columns : List String) (f : String → Option α) :
    weight (columns.map fun c => (c, f c)) =
      (columns.map fun c => if (f c).isSome then 1 else 0).sum := by
  rw [weight, List.map_map]
  rfl

omit [DecidableEq α] in
theorem isSome_stored_le (first row : Row α) (c : String) :
    (if (if c ∈ Dict.keys first then cell row c else none).isSome then 1 else 0) ≤
      if (cell row c).isSome then 1 else 0 := by
  by_cases hc : c ∈ Dict.keys first
  · rw [if_pos hc]
  · rw [if_neg hc]
    exact Nat.zero_le _

omit [DecidableEq α] in
theorem weight_stored_le (columns : List String) (first row : Row α) :
    weight (stored columns first row) ≤ weight (asRow columns row) := by
  rw [stored, asRow, weight_map, weight_map]
  exact List.sum_le_sum fun c _ => isSome_stored_le first row c

omit [DecidableEq α] in
/-- A row that is as heavy as its input row has lost nothing. -/
theorem lost_of_weight_eq {columns : List String} {first row : Row α}
    (h : weight (stored columns first row) = weight (asRow columns row)) :
    ∀ c ∈ columns, c ∉ Dict.keys first → cell row c = none := by
  intro c hc hmissing
  rw [stored, asRow, weight_map, weight_map] at h
  have hcell := forall_eq_of_sum_eq (fun c _ => isSome_stored_le first row c) h c hc
  rw [if_neg hmissing] at hcell
  by_contra hsome
  rw [if_pos (Option.isSome_iff_ne_none.2 hsome)] at hcell
  simp at hcell

omit [DecidableEq α] in
/-- The rows that are inserted are the input rows just where no value is lost. -/
theorem storedRows_eq_iff {columns : List String} {rows : List (Row α)} :
    (storedRows columns rows : Multiset (Row α)) = (rows.map (asRow columns) : Multiset (Row α)) ↔
      KeepsValues columns rows := by
  cases rows with
  | nil => simp [storedRows, KeepsValues]
  | cons first rest =>
    constructor
    · rintro h _ ⟨⟩ row hrow
      exact lost_of_weight_eq
        (weight_eq_of_map_eq (fun row _ => weight_stored_le columns first row) h row hrow)
    · intro h
      rw [storedRows]
      refine congrArg _ (List.map_congr_left fun row hrow => ?_)
      refine List.map_congr_left fun c hc => ?_
      by_cases hkey : c ∈ Dict.keys first
      · rw [if_pos hkey]
      · rw [if_neg hkey, h first rfl row hrow c hc hkey]

/-! ### When an export is an atomic upsert -/

/-- The condition: something raises before the insert is committed; or the second commit
succeeds and what comes after it does too, the mapping keys mean to the database what they mean
in the input, no row with a key of the input has a NULL in it, and no value is lost; or, where
something raises after, the rows that are deleted are the ones that are inserted. -/
def UpsertsWell (reads : KeyReading α) (fails : Statement → Bool) (cfg : ExportDatasetCfg)
    (db : Option (Table α)) (rows : List (Row α)) : Prop :=
  RaisesBefore reads fails cfg (ensureTableExists db rows).columns rows ∨
    fails .commitDelete = false ∧
      (RaisesAfter fails cfg →
        (storedRows (ensureTableExists db rows).columns rows : Multiset (Row α)) =
          (content db).filter fun r => ∃ row ∈ rows, Matches reads cfg.mappingKeys row r) ∧
      (¬RaisesAfter fails cfg →
        KeysAgree reads cfg.mappingKeys (ensureTableExists db rows).columns rows ∧
        (∀ r ∈ content db, ∀ row ∈ rows,
          tupleOf reads cfg.mappingKeys r = keyOf cfg.mappingKeys row →
            none ∉ tupleOf reads cfg.mappingKeys r) ∧
        KeepsValues (ensureTableExists db rows).columns rows)

/-- The table of an export that succeeds is the upsert just where the keys mean the same, no
row with a key of the input has a NULL in it and no value is lost. -/
theorem replaced_iff {reads : KeyReading α} {keys : List String} {old : Multiset (Row α)}
    {rows : List (Row α)} {columns : List String} :
    Replaced reads keys old rows ⟨columns,
        old.filter (fun r => ¬∃ row ∈ rows, Matches reads keys row r) +
          (storedRows columns rows : Multiset (Row α))⟩ ↔
      KeysAgree reads keys columns rows ∧
        (∀ r ∈ old, ∀ row ∈ rows, tupleOf reads keys r = keyOf keys row →
          none ∉ tupleOf reads keys r) ∧
        KeepsValues columns rows := by
  by_cases hkeys : KeysAgree reads keys columns rows
  swap
  · exact iff_of_false (fun h => hkeys (keysAgree_of_replaced h)) fun h => hkeys h.1
  have hmem (r : Row α) : tupleOf reads keys r ∈ Multiset.map (tupleOf reads keys)
      (rows.map (asRow columns) : Multiset (Row α)) ↔
        ∃ row ∈ rows, keyOf keys row = tupleOf reads keys r := by
    rw [Multiset.map_coe, Multiset.mem_coe, List.map_map, List.mem_map]
    refine exists_congr fun row => and_congr_right fun hrow => ?_
    rw [Function.comp_apply, hkeys row hrow]
  have hdeleted : ∀ r ∈ old, (∃ row ∈ rows, Matches reads keys row r) →
      tupleOf reads keys r ∈
        Multiset.map (tupleOf reads keys) (rows.map (asRow columns) : Multiset (Row α)) := by
    rintro r - ⟨row, hrow, hmatch⟩
    exact (hmem r).2 ⟨row, hrow, (matches_iff.1 hmatch).1.symm⟩
  have hcard : (storedRows columns rows : Multiset (Row α)).card =
      (rows.map (asRow columns) : Multiset (Row α)).card := by
    cases rows with
    | nil => rfl
    | cons first rest => simp [storedRows]
  rw [replaced_iff_upserted hkeys, upserted_filter_add_iff hdeleted hcard, storedRows_eq_iff,
    and_iff_right hkeys]
  refine and_congr_left fun _ => forall₂_congr fun r _ => ?_
  rw [hmem]
  constructor
  · intro h row hrow hkey
    obtain ⟨row', -, hmatch⟩ := h ⟨row, hrow, hkey.symm⟩
    exact (matches_iff.1 hmatch).2
  · rintro h ⟨row, hrow, hkey⟩
    exact ⟨row, hrow, matches_iff.2 ⟨hkey.symm, h row hrow hkey.symm⟩⟩

end

/-- The export of the witnesses: two columns, mapped by the first. -/
def demoCfg : ExportDatasetCfg where
  connectionId := "db"
  tableName := "orders"
  mode := .insertUpdate
  mappingKeys := ["id"]
  writesConstant := false

def demoColumns : List String := ["id", "amount"]

/-- A table with two rows, the first of them with a key to be given. -/
def demoTable (id : Option ℕ) : Table ℕ where
  columns := demoColumns
  rows := {[("id", id), ("amount", some 1)], [("id", some 8), ("amount", some 1)]}

/-- Two input rows, with a key of the table and another; the last has a value that is under no
column. -/
def demoRows : List (Row ℕ) :=
  [[("id", some 7), ("amount", some 2)], [("id", some 9), ("amount", some 3), ("note", some 4)]]

end Export
end QualityFlow
