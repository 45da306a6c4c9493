import AnnotatedSchema.Document.Basic
import AnnotatedSchema.Json.Reader

/-!
Reading schema documents from JSON text. A record is an object with known names, each at most once,
or an array of its fields in order. Fields with a default can be missing; others can only be `null`
or missing from an object if they are optional.
-/

namespace AnnotatedSchema

/-- A field of a record. A field with a default can be missing from the end of an array too. -/
structure FieldRule where
  name : Text
  hasDefault : Bool

namespace Json

/-- A field whose value must be there or, in an object, is optional. -/
def plainField (name : Text) : FieldRule := ⟨name, false⟩

def defaultField (name : Text) : FieldRule := ⟨name, true⟩

/-- The values of a record's fields, in the order of the rules. Those that are missing are
`none`. -/
def fieldValues? (rules : List FieldRule) : Json → Option (List (Option Json))
  | object members =>
    let names := members.map (·.1)
    if names.all (fun n => rules.any (·.name == n)) && decide names.Nodup then
      some (rules.map fun r => members.lookup r.name)
    else none
  | array items =>
    if items.length ≤ rules.length ∧ (rules.drop items.length).all (·.hasDefault) then
      some (items.map some ++ (rules.drop items.length).map fun _ => none)
    else none
  | _ => none

def text? : Json → Option Text
  | string t => some t
  | _ => none

def bool? : Json → Option Bool
  | bool b => some b
  | _ => none

def items? : Json → Option (List Json)
  | array items => some items
  | _ => none

def list? {α : Type} (read : Json → Option α) (j : Json) : Option (List α) :=
  j.items?.bind (·.mapM read)

def required? {α : Type} (read : Json → Option α) (j : Option Json) : Option α := j.bind read

/-- The value of a field with a default. -/
def defaulted? {α : Type} (read : Json → Option α) (default : α) : Option Json → Option α
  | none => some default
  | some j => read j

/-- The value of an optional field, which is absent if it is `null` or missing. -/
def optional? {α : Type} (read : Json → Option α) : Option Json → Option (Option α)
  | none => some none
  | some null => some none
  | some j => (read j).map some

end Json

open Json

/-- Reads a field of a model. It has no column unless it has an annotation. -/
def Field.ofJson? (j : Json) : Option Field := do
  match ← j.fieldValues? [plainField "name", plainField "type", defaultField "sql"] with
  | [name, type, sql] =>
    return { name := ← required? text? name, type := ← required? text? type,
             tag := ← defaulted? text? [] sql }
  | _ => none

def Model.ofJson? (j : Json) : Option Model := do
  match ← j.fieldValues? [plainField "name", defaultField "fields"] with
  | [name, fields] =>
    return { name := ← required? text? name,
             fields := ← defaulted? (list? Field.ofJson?) [] fields }
  | _ => none

def PragmaEntry.ofJson? (j : Json) : Option PragmaEntry := do
  match ← j.fieldValues?
      [plainField "name", plainField "schema", plainField "value", plainField "argument"] with
  | [name, schema, value, argument] =>
    return { name := ← required? text? name, schema := ← optional? text? schema,
             value := ← optional? some value, argument := ← optional? some argument }
  | _ => none

def TableEntry.ofJson? (j : Json) : Option TableEntry := do
  match ← j.fieldValues?
      [plainField "model", defaultField "references", defaultField "temporary",
        defaultField "if_not_exists", defaultField "without_rowid", defaultField "strict",
        plainField "schema"] with
  | [model, references, temporary, ifNotExists, withoutRowid, strict, schema] =>
    return { model := ← required? text? model,
             references := ← defaulted? (list? text?) [] references,
             temporary := ← defaulted? bool? false temporary,
             ifNotExists := ← defaulted? bool? false ifNotExists,
             withoutRowid := ← defaulted? bool? false withoutRowid,
             strict := ← defaulted? bool? false strict,
             schema := ← optional? text? schema }
  | _ => none

def IndexEntry.ofJson? (j : Json) : Option IndexEntry := do
  match ← j.fieldValues?
      [plainField "name", plainField "table", plainField "columns", defaultField "unique",
        defaultField "if_not_exists", plainField "schema", plainField "where"] with
  | [name, table, columns, unique, ifNotExists, schema, predicate] =>
    return { name := ← required? text? name, table := ← required? text? table,
             columns := ← required? (list? text?) columns,
             unique := ← defaulted? bool? false unique,
             ifNotExists := ← defaulted? bool? false ifNotExists,
             schema := ← optional? text? schema, predicate := ← optional? text? predicate }
  | _ => none

namespace Document

def ofJson? (j : Json) : Option Document := do
  match ← j.fieldValues?
      [plainField "name", defaultField "pragmas", defaultField "models", defaultField "tables",
        defaultField "indexes"] with
  | [name, pragmas, models, tables, indexes] =>
    return { name := ← required? text? name,
             pragmas := ← defaulted? (list? PragmaEntry.ofJson?) [] pragmas,
             models := ← defaulted? (list? Model.ofJson?) [] models,
             tables := ← defaulted? (list? TableEntry.ofJson?) [] tables,
             indexes := ← defaulted? (list? IndexEntry.ofJson?) [] indexes }
  | _ => none

def ofText (t : Text) : Except DocumentError Document :=
  match (Json.ofText? t).bind ofJson? with
  | some d => .ok d
  | none => .error .unreadable

end Document

end AnnotatedSchema
