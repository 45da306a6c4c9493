import AnnotatedSchema.Document.Script
import Mathlib.Data.List.Nodup

/-!
# The tables of a document

A model of a document gets its table in two ways: alone, with the options of its entry, or in a
check of all models, without them. The options have no part in what can go wrong, so both ways
report the same error or none.
-/

namespace AnnotatedSchema

/-! ## The error of a result -/

/-- The error, if the result is one. -/
def error? {ε α : Type} : Except ε α → Option ε
  | .error e => some e
  | .ok _ => none

theorem error?_mapError {ε ε' α : Type} (f : ε → ε') (x : Except ε α) :
    error? (x.mapError f) = (error? x).map f := by
  cases x <;> rfl

theorem mapM_eq_ok {ε α β : Type} {f : α → Except ε β} {g : α → β} {as : List α}
    (h : ∀ a ∈ as, f a = .ok (g a)) : as.mapM f = .ok (as.map g) := by
  induction as with
  | nil => rfl
  | cons a as ih =>
    obtain ⟨ha, has⟩ := List.forall_mem_cons.mp h
    rw [List.mapM_cons, ha, ih has]
    rfl

theorem exists_mapM_eq_ok {ε α β : Type} {f : α → Except ε β} {as : List α}
    (h : ∀ a ∈ as, ∃ b, f a = .ok b) : ∃ bs, as.mapM f = .ok bs := by
  induction as with
  | nil => exact ⟨[], rfl⟩
  | cons a as ih =>
    obtain ⟨⟨b, hb⟩, has⟩ := List.forall_mem_cons.mp h
    obtain ⟨bs, hbs⟩ := ih has
    exact ⟨b :: bs, by rw [List.mapM_cons, hb, hbs]; rfl⟩

namespace Document

/-- The names of the models are pairwise distinct, and entries refer to none but these. -/
structure WellNamed (d : Document) : Prop where
  nodup : (d.models.map Model.name).Nodup
  declared : ∀ e ∈ d.tables, ∀ name ∈ e.references, ∃ m ∈ d.models, m.name = name

/-! ## Models and candidates -/

theorem model_eq_ok_of_mem {d : Document} {name : Text} (h : ∃ m ∈ d.models, m.name = name) :
    ∃ m, d.model name = .ok m ∧ m ∈ d.models ∧ m.name = name := by
  obtain ⟨m, hm, hname⟩ := h
  have hsome : (d.models.find? (·.name == name)).isSome = true :=
    List.find?_isSome.mpr ⟨m, hm, by simpa using hname⟩
  obtain ⟨found, hfound⟩ := Option.isSome_iff_exists.mp hsome
  refine ⟨found, ?_, List.mem_of_find?_eq_some hfound, by simpa using List.find?_some hfound⟩
  rw [model, hfound]

-- With distinct names, a model is found under its own.
theorem WellNamed.model_eq {d : Document} (h : d.WellNamed) {m : Model} (hm : m ∈ d.models) :
    d.model m.name = .ok m := by
  obtain ⟨found, hfound, hmem, hname⟩ := model_eq_ok_of_mem ⟨m, hm, rfl⟩
  rw [hfound, List.inj_on_of_nodup_map h.nodup hmem hm hname]

theorem WellNamed.exists_candidates {d : Document} (h : d.WellNamed) {entry : Option TableEntry}
    (hentry : ∀ e ∈ entry, e ∈ d.tables) : ∃ models, d.candidates entry = .ok models := by
  cases entry with
  | none => exact ⟨d.models, rfl⟩
  | some e =>
    by_cases hnone : e.references = []
    · exact ⟨d.models, if_pos hnone⟩
    · have hmodel : ∀ name ∈ e.references, ∃ m, d.model name = .ok m := fun name hname => by
        obtain ⟨m, hm, -⟩ := model_eq_ok_of_mem (h.declared e (hentry e rfl) name hname)
        exact ⟨m, hm⟩
      obtain ⟨models, hmodels⟩ := exists_mapM_eq_ok hmodel
      exact ⟨models, (if_neg hnone).trans hmodels⟩

theorem entry?_mem {d : Document} {name : Text} : ∀ e ∈ d.entry? name, e ∈ d.tables :=
  fun _ he => List.mem_of_find?_eq_some he

theorem model_of_entry? {d : Document} {name : Text} {e : TableEntry}
    (h : d.entry? name = some e) : e.model = name := by
  simpa using List.find?_some h

/-! ## The two ways to a table -/

/-- Why the plain table of the model has no text, if it has none. -/
def plainError? (m : Model) (candidates : List Model) : Option SchemaError :=
  error? (Table.ofModel m candidates >>= Table.toSql)

theorem error?_tableOf_bind (m : Model) (candidates : List Model)
    {options : Table → Table} (h : ∀ t, (options t).fault? = t.fault?) :
    error? (tableOf m candidates >>= fun t => (options t).toSql.mapError .schema) =
      (plainError? m candidates).map DocumentError.schema := by
  have hoptions (t : Table) : error? (options t).toSql = error? t.toSql := by
    rw [Table.toSql, Table.toSql, h]
    cases t.fault? <;> rfl
  rw [plainError?, tableOf]
  cases Table.ofModel m candidates with
  | error e => rfl
  | ok t =>
    change error? ((options t).toSql.mapError DocumentError.schema) = (error? t.toSql).map _
    rw [error?_mapError, hoptions]

-- A single table has the options of its entry, and no error but that of the plain one.
theorem error?_tableSql {d : Document} {m : Model} {candidates : List Model}
    (hmodel : d.model m.name = .ok m)
    (hcandidates : d.candidates (d.entry? m.name) = .ok candidates) :
    error? (d.tableSql m.name) = (plainError? m candidates).map DocumentError.schema := by
  rw [tableSql, table]
  cases hentry : d.entry? m.name with
  | none =>
    rw [hentry] at hcandidates
    obtain rfl := Except.ok.inj hcandidates
    dsimp only
    rw [hmodel]
    have hplain (t : Table) : (id t).fault? = t.fault? := rfl
    exact error?_tableOf_bind m d.models hplain
  | some e =>
    rw [hentry] at hcandidates
    dsimp only
    have hoptions (t : Table) : (e.options t).fault? = t.fault? := rfl
    rw [tableOfEntry, model_of_entry? hentry, hmodel, hcandidates,
      ← error?_tableOf_bind m candidates hoptions]
    change error? ((tableOf m candidates >>= fun t => pure (e.options t)) >>= _) = _
    rw [bind_assoc]
    rfl

theorem failure?_eq {d : Document} {m : Model} {candidates : List Model}
    (hcandidates : d.candidates (d.entry? m.name) = .ok candidates) :
    d.failure? m = .ok ((plainError? m candidates).map fun e => ⟨m.name, e⟩) := by
  rw [failure?, hcandidates, plainError?]
  cases hbuilt : Table.ofModel m candidates >>= Table.toSql with
  | error e =>
    have hbind : (Table.ofModel m candidates).bind Table.toSql = .error e := hbuilt
    simp only [Except.map, hbind]
    rfl
  | ok sql =>
    have hbind : (Table.ofModel m candidates).bind Table.toSql = .ok sql := hbuilt
    simp only [Except.map, hbind]
    rfl

/-- A check reports, in the order of the models, just those whose single table cannot be written,
and each with the error of that table. -/
theorem check_eq_tableSql {d : Document} (h : d.WellNamed) :
    ∃ failures, d.check = .ok failures ∧
      failures.map (fun f => (f.model, DocumentError.schema f.error)) =
        d.models.filterMap fun m => (error? (d.tableSql m.name)).map fun e => (m.name, e) := by
  have hall : ∀ m ∈ d.models, ∃ candidates, d.candidates (d.entry? m.name) = .ok candidates :=
    fun m _ => h.exists_candidates entry?_mem
  choose! candidates hcandidates using hall
  refine ⟨d.models.filterMap fun m => (plainError? m (candidates m)).map fun e => ⟨m.name, e⟩,
    ?_, ?_⟩
  · rw [check, mapM_eq_ok fun m hm => failure?_eq (hcandidates m hm)]
    exact congrArg Except.ok List.filterMap_map
  · rw [List.map_filterMap]
    refine List.filterMap_congr fun m hm => ?_
    rw [error?_tableSql (h.model_eq hm) (hcandidates m hm), Option.map_map, Option.map_map]
    rfl

/-- A document whose second model refers to one that its entry does not list. -/
def library : Document where
  name := "library"
  pragmas := []
  models := [⟨"Author", [⟨"ID", "i64", "PRIMARY KEY"⟩]⟩,
    ⟨"Book", [⟨"AuthorID", "i64", "REFERENCES Author"⟩, ⟨"ShelfID", "i64", "REFERENCES Shelf"⟩]⟩,
    ⟨"Shelf", [⟨"Room", "String", "NOT NULL"⟩]⟩]
  tables := [⟨"Book", ["Author"], false, true, false, true, some "main"⟩]
  indexes := []

theorem check_eq_tableSql_library :
    library.WellNamed ∧
    (∃ failures, library.check = .ok failures ∧
      failures.map (fun f => (f.model, DocumentError.schema f.error)) =
        library.models.filterMap fun m =>
          (error? (library.tableSql m.name)).map fun e => (m.name, e)) ∧
    library.models.map (fun m => (error? (library.tableSql m.name)).isSome) =
      [false, true, false] := by
  have hnamed : library.WellNamed := ⟨by decide +kernel, by decide +kernel⟩
  exact ⟨hnamed, check_eq_tableSql hnamed, by decide +kernel⟩

end Document

end AnnotatedSchema
