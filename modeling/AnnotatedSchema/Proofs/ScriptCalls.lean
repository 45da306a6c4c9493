import AnnotatedSchema.Proofs.DocumentTables
import AnnotatedSchema.Proofs.ModelColumns
import AnnotatedSchema.Script

/-!
# The parts of a script

A script keeps its pragmas, tables and indexes apart. So a call for one kind of part can be made
before or after the calls for the others, and what is wrong with a script is what is wrong with the
first of its tables that cannot be written.
-/

namespace AnnotatedSchema.Script

/-! ## A script after calls -/

def Call.pragma? : Call → Option Pragma
  | .pragma p => some p
  | _ => none

def Call.table? : Call → Option Table
  | .table t => some t
  | _ => none

def Call.index? : Call → Option Index
  | .index i => some i
  | _ => none

/-- The script with the parts that the calls add to it, each kind in the order of its calls. -/
def extended (s : Script) (calls : List Call) : Script :=
  ⟨s.name, s.pragmas ++ calls.filterMap Call.pragma?, s.tables ++ calls.filterMap Call.table?,
    s.indexes ++ calls.filterMap Call.index?⟩

-- A call adds to one kind of part and leaves the others.
theorem extended_cons (s : Script) (call : Call) (calls : List Call) :
    s.extended (call :: calls) = (s.apply call).extended calls := by
  cases call <;> simp [extended, apply, List.filterMap_cons, Call.pragma?, Call.table?, Call.index?]

theorem foldl_apply (s : Script) (calls : List Call) :
    calls.foldl apply s = s.extended calls := by
  induction calls generalizing s with
  | nil => simp [extended]
  | cons call calls ih => rw [List.foldl_cons, ih, extended_cons]

/-! ## The text of a script -/

theorem toSql_eq_ok_iff {s : Script} {sql : Text} :
    s.toSql = .ok sql ↔
      ∃ texts, List.Forall₂ (fun t text => Table.toSql t = .ok text) s.tables texts ∧
        s.layout texts = sql := by
  simp only [toSql, map_eq_ok_iff, mapM_eq_ok_iff]

theorem toSql_eq_error_iff {s : Script} {e : SchemaError} :
    s.toSql = .error e ↔
      ∃ before t after, s.tables = before ++ t :: after ∧
        (∀ other ∈ before, ∃ text, other.toSql = .ok text) ∧ t.toSql = .error e := by
  rw [toSql, map_eq_error_iff, mapM_eq_error_iff]

theorem exists_toSql_eq_ok_iff {s : Script} :
    (∃ sql, s.toSql = .ok sql) ↔ ∀ t ∈ s.tables, ∃ text, t.toSql = .ok text := by
  constructor
  · rintro ⟨sql, hsql⟩ t ht
    obtain ⟨texts, htexts, -⟩ := toSql_eq_ok_iff.mp hsql
    obtain ⟨text, -, htext⟩ := exists_of_forall₂ htexts ht
    exact ⟨text, htext⟩
  · intro h
    obtain ⟨texts, htexts⟩ := exists_mapM_eq_ok h
    exact ⟨_, toSql_eq_ok_iff.mpr ⟨texts, mapM_eq_ok_iff.mp htexts, rfl⟩⟩

/-- A script can be written if each of its tables can be, and else the first that cannot is
reported. It has the pragmas one a line, a blank line, each table with a line break after it, and
the indexes one a line, each kind in the order of its calls; how the calls for different kinds are
mixed makes no difference. -/
theorem toSql_foldl_apply (name : Text) (calls : List Call) :
    let s := calls.foldl apply (empty name)
    let pragmas := calls.filterMap Call.pragma?
    let tables := calls.filterMap Call.table?
    let indexes := calls.filterMap Call.index?
    ((∃ sql, s.toSql = .ok sql) ↔ ∀ t ∈ tables, ∃ text, t.toSql = .ok text) ∧
    (∀ e, s.toSql = .error e ↔ ∃ before t after, tables = before ++ t :: after ∧
      (∀ other ∈ before, ∃ text, other.toSql = .ok text) ∧ t.toSql = .error e) ∧
    (∀ sql, s.toSql = .ok sql ↔
      ∃ texts, List.Forall₂ (fun t text => Table.toSql t = .ok text) tables texts ∧
        (pragmas.flatMap fun p => p.toSql ++ ['\n']) ++ ['\n'] ++ texts.flatMap (· ++ ['\n']) ++
          (indexes.flatMap fun i => i.toSql ++ ['\n']) = sql) ∧
    ∀ (name' : Text) (calls' : List Call), calls'.filterMap Call.pragma? = pragmas →
      calls'.filterMap Call.table? = tables → calls'.filterMap Call.index? = indexes →
      (calls'.foldl apply (empty name')).toSql = s.toSql := by
  have hscript (name : Text) (calls : List Call) : calls.foldl apply (empty name) =
      ⟨name, calls.filterMap Call.pragma?, calls.filterMap Call.table?,
        calls.filterMap Call.index?⟩ := foldl_apply (empty name) calls
  intro s pragmas tables indexes
  have hs : s = ⟨name, pragmas, tables, indexes⟩ := hscript name calls
  rw [hs]
  refine ⟨exists_toSql_eq_ok_iff, fun e => toSql_eq_error_iff, fun sql => toSql_eq_ok_iff, ?_⟩
  intro name' calls' hpragmas htables hindexes
  rw [hscript name' calls', hpragmas, htables, hindexes]
  rfl

-- The index is there before its table, or after it.
theorem toSql_foldl_apply_room :
    let table (name : Text) (constraints : List NamedTableConstraint) : Table :=
      ⟨⟨name, []⟩, [], none, false, false, false, false, none, constraints⟩
    let room := Call.table (table "Room" [⟨some "full", .check "beds > 0"⟩])
    let shelf := Call.table (table "Shelf" [])
    let keys := Call.pragma (.foreignKeys true)
    let index := Call.index ((Index.plain "by_beds" "Room").apply (.columns [.ofName "Beds"]))
    let roomText : Text := "CREATE TABLE room (\n\tCONSTRAINT full CHECK (beds > 0)\n);\n"
    ([keys, room, index].foldl apply (empty "House")).toSql =
        ([index, room, keys].foldl apply (empty "Hotel")).toSql ∧
      ([index, room, keys].foldl apply (empty "Hotel")).toSql =
        .ok ("PRAGMA foreign_keys = ON;\n\n" ++ roomText ++
          "\nCREATE INDEX by_beds ON room (beds);\n") ∧
      ([index, room, shelf, keys].foldl apply (empty "Hotel")).toSql =
        .error (.emptyTable "Shelf") := by
  intro table room shelf keys index roomText
  obtain ⟨-, -, hok, hsame⟩ := toSql_foldl_apply "Hotel" [index, room, keys]
  obtain ⟨-, herror, -⟩ := toSql_foldl_apply "Hotel" [index, room, shelf, keys]
  refine ⟨hsame "House" [keys, room, index] rfl rfl rfl, (hok _).mpr ?_, (herror _).mpr ?_⟩
  · exact ⟨[roomText], .cons (by decide +kernel) .nil, by decide +kernel⟩
  · exact ⟨[_], _, [], rfl, List.forall_mem_singleton.mpr ⟨_, rfl⟩, rfl⟩

end AnnotatedSchema.Script
