import AnnotatedSchema.Index
import AnnotatedSchema.Pragma
import AnnotatedSchema.Table

/-!
Scripts that set up a database. Whatever the order in which its parts are added, a script has first
the pragmas, then the tables and last the indexes.
-/

namespace AnnotatedSchema

structure Script where
  name : Text
  pragmas : List Pragma
  tables : List Table
  indexes : List Index

namespace Script

def empty (name : Text) : Script := ⟨name, [], [], []⟩

inductive Call where
  | pragma (p : Pragma)
  | table (t : Table)
  | index (i : Index)

def apply (s : Script) : Call → Script
  | .pragma p => { s with pragmas := s.pragmas ++ [p] }
  | .table t => { s with tables := s.tables ++ [t] }
  | .index i => { s with indexes := s.indexes ++ [i] }

def line (t : Text) : Text := t ++ ['\n']

def layout (s : Script) (tables : List Text) : Text :=
  s.pragmas.flatMap (fun p => line p.toSql) ++ ['\n'] ++ tables.flatMap line ++
    s.indexes.flatMap (fun i => line i.toSql)

/-- The statements: pragmas one a line, a blank line, tables with a blank line after each, and
indexes one a line. The error is that of the first table that has no text. -/
def toSql (s : Script) : Except SchemaError Text := (s.tables.mapM Table.toSql).map s.layout

end Script

end AnnotatedSchema
