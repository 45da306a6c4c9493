import AnnotatedSchema.Document.Basic
import AnnotatedSchema.Script

/-! The script, the single tables and the check of a schema document. -/

namespace AnnotatedSchema

/-- A string, number or boolean as the value of a pragma. -/
def Json.scalarText : Json → Except DocumentError Text
  | .bool b => .ok (Pragma.onOff b)
  | .number n => .ok n.toText
  | .string t => .ok t
  | j => .error (.notScalar j)

def PragmaEntry.pragma (p : PragmaEntry) : Except DocumentError Pragma :=
  match p.value, p.argument with
  | some _, some _ => .error (.valueAndArgument p.name)
  | some value, none => value.scalarText.map fun t => ⟨p.schema, p.name, .value t⟩
  | none, some argument => argument.scalarText.map fun t => ⟨p.schema, p.name, .call t⟩
  | none, none => .ok ⟨p.schema, p.name, .none⟩

/-- The table with the options of an entry. -/
def TableEntry.options (e : TableEntry) (t : Table) : Table :=
  { t with temporary := e.temporary, ifNotExists := e.ifNotExists, schema := e.schema,
           withoutRowid := e.withoutRowid, strict := e.strict }

def IndexEntry.index (e : IndexEntry) : Index :=
  { name := e.name, table := e.table, schema := e.schema,
    columns := e.columns.map IndexedColumn.ofName, unique := e.unique,
    ifNotExists := e.ifNotExists, predicate := e.predicate }

namespace Document

/-- The first model with the given name. -/
def model (d : Document) (name : Text) : Except DocumentError Model :=
  match d.models.find? (·.name == name) with
  | some m => .ok m
  | none => .error (.unknownModel name)

/-- The first table entry for the given model. -/
def entry? (d : Document) (model : Text) : Option TableEntry := d.tables.find? (·.model == model)

/-- The models that a table with the given entry may refer to. -/
def candidates (d : Document) : Option TableEntry → Except DocumentError (List Model)
  | none => .ok d.models
  | some e => if e.references = [] then .ok d.models else e.references.mapM d.model

def tableOf (m : Model) (candidates : List Model) : Except DocumentError Table :=
  (Table.ofModel m candidates).mapError .schema

def tableOfEntry (d : Document) (e : TableEntry) : Except DocumentError Table := do
  let m ← d.model e.model
  let candidates ← d.candidates (some e)
  return e.options (← tableOf m candidates)

def script (d : Document) : Except DocumentError Script := do
  let pragmas ← d.pragmas.mapM PragmaEntry.pragma
  let tables ← d.tables.mapM d.tableOfEntry
  return ⟨d.name, pragmas, tables, d.indexes.map IndexEntry.index⟩

def scriptSql (d : Document) : Except DocumentError Text := do
  let script ← d.script
  script.toSql.mapError .schema

/-- The table of a model: that of its first entry or, if it has none, a plain one. -/
def table (d : Document) (name : Text) : Except DocumentError Table :=
  match d.entry? name with
  | some e => d.tableOfEntry e
  | none => do tableOf (← d.model name) d.models

def tableSql (d : Document) (name : Text) : Except DocumentError Text := do
  let t ← d.table name
  t.toSql.mapError .schema

/-- A model whose table has no text, and why. -/
structure Failure where
  model : Text
  error : SchemaError

def Failure.message (f : Failure) : Text := f.model ++ ": " ++ f.error.message

/-- Why the table of a model has no text, if it has none. Its entry counts only for the models it
may refer to. -/
def failure? (d : Document) (m : Model) : Except DocumentError (Option Failure) :=
  (d.candidates (d.entry? m.name)).map fun candidates =>
    match (Table.ofModel m candidates).bind Table.toSql with
    | .ok _ => none
    | .error e => some ⟨m.name, e⟩

/-- All models whose tables have no text. An entry that names an unknown model ends the check. -/
def check (d : Document) : Except DocumentError (List Failure) :=
  (d.models.mapM d.failure?).map fun failures => failures.filterMap id

end Document

end AnnotatedSchema
