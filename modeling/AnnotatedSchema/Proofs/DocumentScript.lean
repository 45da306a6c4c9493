import AnnotatedSchema.Proofs.CandidateScope
import AnnotatedSchema.Proofs.DocumentTables

/-!
# The script of a document

The script has the tables of the entries, in their order. If no model has two entries these are the
single tables of the models. A check looks at one entry for each model, the first; a later one for
the same model can be written too if it may refer to all models that the first may refer to.
-/

namespace AnnotatedSchema

/-- Whether a table with the entry may refer to models of the name. -/
def TableEntry.Allows (e : TableEntry) (name : Text) : Prop :=
  e.references = [] ∨ name ∈ e.references

instance (e : TableEntry) (name : Text) : Decidable (e.Allows name) :=
  inferInstanceAs (Decidable (_ ∨ _))

namespace Document

/-- Every model that the first entry allows is allowed by the other, which lists no name that is not
declared unless the first lists it too. -/
structure Wider (d : Document) (first e : TableEntry) : Prop where
  declared : ∀ name ∈ e.references, name ∈ first.references ∨ ∃ m ∈ d.models, m.name = name
  allows : ∀ m ∈ d.models, first.Allows m.name → e.Allows m.name

instance (d : Document) (first e : TableEntry) : Decidable (d.Wider first e) :=
  decidable_of_iff
    ((e.references.all fun name =>
        first.references.contains name || d.models.any (·.name == name)) = true ∧
      ∀ m ∈ d.models, first.Allows m.name → e.Allows m.name)
    ⟨fun h => ⟨by simpa using h.1, h.2⟩, fun h => ⟨by simpa using h.declared, h.allows⟩⟩

/-! ## The models that an entry allows -/

theorem model_eq_ok_iff {d : Document} {name : Text} {m : Model} :
    d.model name = .ok m ↔ FirstNamed d.models name m := by
  rw [firstNamed_iff, model]
  cases d.models.find? (·.name == name) with
  | none => simp only [reduceCtorEq]
  | some found => rw [Except.ok.injEq, Option.some.injEq]

theorem firstNamed_cons_iff {models : List Model} {first m : Model} {name : Text} :
    FirstNamed (first :: models) name m ↔
      (first.name = name ∧ m = first) ∨ (first.name ≠ name ∧ FirstNamed models name m) := by
  rw [firstNamed_iff, firstNamed_iff]
  by_cases h : first.name = name
  · rw [List.find?_cons_of_pos (by simpa using h)]
    simp [h, eq_comm]
  · rw [List.find?_cons_of_neg (by simpa using h)]
    simp [h]

theorem firstNamed_concat_iff {models : List Model} {last m : Model} {name : Text} :
    FirstNamed (models ++ [last]) name m ↔
      FirstNamed models name m ∨
        ((∀ m, ¬FirstNamed models name m) ∧ last.name = name ∧ m = last) := by
  simp only [firstNamed_iff, List.find?_append]
  cases models.find? (·.name == name) with
  | some found => simp
  | none =>
    rw [Option.none_or, ← firstNamed_iff, firstNamed_cons_iff]
    simp [firstNamed_iff]

-- A list of names stands for the first models of these names.
theorem firstNamed_of_forall₂ {d : Document} {names : List Text} {models : List Model}
    (h : List.Forall₂ (fun name m => d.model name = .ok m) names models) (name : Text) (m : Model) :
    FirstNamed models name m ↔ name ∈ names ∧ FirstNamed d.models name m := by
  induction h with
  | nil => exact iff_of_false (by simp [firstNamed_iff]) (by simp)
  | @cons other first names models hfirst _ ih =>
    have hfirst := model_eq_ok_iff.mp hfirst
    have hother : first.name = other := by
      obtain ⟨-, -, -, hother, -⟩ := hfirst
      exact hother
    rw [firstNamed_cons_iff, hother, ih, List.mem_cons]
    constructor
    · rintro (⟨rfl, rfl⟩ | ⟨-, hmem, hm⟩)
      · exact ⟨.inl rfl, hfirst⟩
      · exact ⟨.inr hmem, hm⟩
    · rintro ⟨hmem, hm⟩
      by_cases hname : other = name
      · subst hname
        exact .inl ⟨rfl, hm.unique hfirst⟩
      · exact .inr ⟨hname, hmem.resolve_left (Ne.symm hname), hm⟩

theorem firstNamed_candidates {d : Document} {e : TableEntry} {models : List Model}
    (h : d.candidates (some e) = .ok models) {name : Text} {m : Model} :
    FirstNamed models name m ↔ e.Allows name ∧ FirstNamed d.models name m := by
  rw [candidates] at h
  split at h
  · next hnone =>
    obtain rfl := Except.ok.inj h
    exact (and_iff_right (Or.inl hnone)).symm
  · next hsome =>
    rw [firstNamed_of_forall₂ (mapM_eq_ok_iff.mp h), TableEntry.Allows, or_iff_right hsome]

-- The own model of a table is always among those that it may refer to.
theorem firstNamed_scope {d : Document} {e : TableEntry} {models : List Model} {own : Model}
    (hown : FirstNamed d.models own.name own) (h : d.candidates (some e) = .ok models)
    {name : Text} {m : Model} :
    FirstNamed (models ++ [own]) name m ↔
      (e.Allows name ∨ own.name = name) ∧ FirstNamed d.models name m := by
  rw [firstNamed_concat_iff]
  simp only [firstNamed_candidates h]
  constructor
  · rintro (⟨hallows, hm⟩ | ⟨-, rfl, rfl⟩)
    · exact ⟨.inl hallows, hm⟩
    · exact ⟨.inr rfl, hown⟩
  · rintro ⟨hname, hm⟩
    by_cases hallows : e.Allows name
    · exact .inl ⟨hallows, hm⟩
    · obtain rfl := hname.resolve_left hallows
      exact .inr ⟨fun m' hm' => hallows hm'.1, rfl, hm.unique hown⟩

theorem Wider.keepsNames {d : Document} {first e : TableEntry} (h : d.Wider first e)
    {models wider : List Model} {own : Model} (hown : FirstNamed d.models own.name own)
    (hmodels : d.candidates (some first) = .ok models)
    (hwider : d.candidates (some e) = .ok wider) :
    KeepsNames (models ++ [own]) (wider ++ [own]) := by
  intro name m hm
  obtain ⟨hname, hm⟩ := (firstNamed_scope hown hmodels).mp hm
  refine (firstNamed_scope hown hwider).mpr ⟨hname.imp_left fun hallows => ?_, hm⟩
  have hdeclared := hm.mem
  obtain ⟨-, -, -, rfl, -⟩ := hm
  exact h.allows m hdeclared hallows

theorem Wider.exists_candidates {d : Document} {first e : TableEntry} (h : d.Wider first e)
    {models : List Model} (hmodels : d.candidates (some first) = .ok models) :
    ∃ wider, d.candidates (some e) = .ok wider := by
  by_cases hnone : e.references = []
  · exact ⟨d.models, if_pos hnone⟩
  · have hmodel : ∀ name ∈ e.references, ∃ m, d.model name = .ok m := fun name hname => by
      rcases h.declared name hname with hfirst | hdeclared
      · -- The first entry was read, so its names are declared.
        rw [candidates, if_neg (List.ne_nil_of_mem hfirst)] at hmodels
        obtain ⟨m, -, hm⟩ := exists_of_forall₂ (mapM_eq_ok_iff.mp hmodels) hfirst
        exact ⟨m, hm⟩
      · obtain ⟨m, hm, -⟩ := model_eq_ok_of_mem hdeclared
        exact ⟨m, hm⟩
    obtain ⟨wider, hwider⟩ := exists_mapM_eq_ok hmodel
    exact ⟨wider, (if_neg hnone).trans hwider⟩

/-! ## A clean check -/

/-- The table of the entry can be made and has a text. -/
def CanBeWritten (d : Document) (e : TableEntry) : Prop :=
  ∃ t sql, d.tableOfEntry e = .ok t ∧ t.toSql = .ok sql

theorem failure?_of_check {d : Document} (h : d.check = .ok []) {m : Model} (hm : m ∈ d.models) :
    d.failure? m = .ok none := by
  obtain ⟨failures, hfailures, hnone⟩ := map_eq_ok_iff.mp h
  obtain ⟨failure?, hmem, hfailure⟩ := exists_of_forall₂ (mapM_eq_ok_iff.mp hfailures) hm
  have hid : failure? = none := List.filterMap_eq_nil_iff.mp hnone failure? hmem
  rw [hfailure, hid]

theorem table_of_failure? {d : Document} {m : Model} (h : d.failure? m = .ok none) :
    ∃ models t sql, d.candidates (d.entry? m.name) = .ok models ∧
      Table.ofModel m models = .ok t ∧ t.toSql = .ok sql := by
  obtain ⟨models, hmodels, hnone⟩ := map_eq_ok_iff.mp h
  split at hnone
  · next sql hsql =>
    obtain ⟨t, ht, hsql⟩ := bind_eq_ok_iff.mp hsql
    exact ⟨models, t, sql, hmodels, ht, hsql⟩
  · cases hnone

-- The options of an entry are no reason why its table has no text.
theorem toSql_options {e : TableEntry} {t : Table} {sql : Text} (h : t.toSql = .ok sql) :
    ∃ sql, (e.options t).toSql = .ok sql := by
  have hfault : (e.options t).fault? = t.fault? := rfl
  rw [Table.toSql] at h
  split at h
  · cases h
  · next hnone => exact ⟨(e.options t).text, by rw [Table.toSql, hfault, hnone]⟩

theorem canBeWritten_of_check {d : Document} (h : d.check = .ok []) {e : TableEntry}
    (he : e ∈ d.tables) (hmodel : ∃ m ∈ d.models, m.name = e.model)
    (hwider : ∀ first ∈ d.entry? e.model, d.Wider first e) : d.CanBeWritten e := by
  obtain ⟨m, hfound, hm, hname⟩ := model_eq_ok_of_mem hmodel
  have hentry : (d.entry? e.model).isSome = true := List.find?_isSome.mpr ⟨e, he, by simp⟩
  obtain ⟨first, hfirst⟩ := Option.isSome_iff_exists.mp hentry
  obtain ⟨models, t, sql, hmodels, ht, hsql⟩ := table_of_failure? (failure?_of_check h hm)
  rw [hname, hfirst] at hmodels
  have hwide := hwider first hfirst
  obtain ⟨wider, hcandidates⟩ := hwide.exists_candidates hmodels
  have hown : FirstNamed d.models m.name m := hname.symm ▸ model_eq_ok_iff.mp hfound
  have htable := Table.ofModel_wider (hwide.keepsNames hown hmodels hcandidates) ht
  obtain ⟨text, htext⟩ := toSql_options (e := e) hsql
  have hplain : tableOf m wider = .ok t := mapError_eq_ok_iff.mpr htable
  exact ⟨e.options t, text, bind_eq_ok_iff.mpr ⟨m, hfound, bind_eq_ok_iff.mpr
    ⟨wider, hcandidates, bind_eq_ok_iff.mpr ⟨t, hplain, rfl⟩⟩⟩, htext⟩

/-- If a check finds nothing, the script can be written: provided that every pragma can be, that
every entry is for a declared model, and that a later entry for a model is no narrower than the
first, which is the one that is checked. -/
theorem script_of_check {d : Document} (hpragmas : ∀ p ∈ d.pragmas, ∃ q, p.pragma = .ok q)
    (hmodels : ∀ e ∈ d.tables, ∃ m ∈ d.models, m.name = e.model)
    (hwider : ∀ e ∈ d.tables, ∀ first ∈ d.entry? e.model, d.Wider first e)
    (hcheck : d.check = .ok []) : ∃ s sql, d.script = .ok s ∧ s.toSql = .ok sql := by
  have hwritten : ∀ e ∈ d.tables, d.CanBeWritten e := fun e he =>
    canBeWritten_of_check hcheck he (hmodels e he) (hwider e he)
  obtain ⟨pragmas, hpragmas⟩ := exists_mapM_eq_ok hpragmas
  obtain ⟨tables, htables⟩ := exists_mapM_eq_ok (f := d.tableOfEntry) fun e he => by
    obtain ⟨t, -, ht, -⟩ := hwritten e he
    exact ⟨t, ht⟩
  have htexts : ∀ t ∈ tables, ∃ sql, t.toSql = .ok sql := fun t ht => by
    obtain ⟨e, he, htable⟩ := exists_of_forall₂ (mapM_eq_ok_iff.mp htables).flip ht
    obtain ⟨t', sql, ht', hsql⟩ := hwritten e he
    obtain rfl := Except.ok.inj (htable.symm.trans ht')
    exact ⟨sql, hsql⟩
  obtain ⟨texts, htexts⟩ := exists_mapM_eq_ok htexts
  refine ⟨⟨d.name, pragmas, tables, d.indexes.map IndexEntry.index⟩, _, ?_,
    map_eq_ok_iff.mpr ⟨texts, htexts, rfl⟩⟩
  rw [script, hpragmas, htables]
  rfl

/-- A document with two entries for the model that refers to another. The first entry lists the
model referred to, the second the given ones. -/
def archive (references : List Text) : Document where
  name := "archive"
  pragmas := [⟨"foreign_keys", none, some (.bool true), none⟩]
  models := [⟨"Author", [⟨"ID", "i64", "PRIMARY KEY"⟩]⟩,
    ⟨"Book", [⟨"AuthorID", "i64", "REFERENCES Author(id)"⟩]⟩,
    ⟨"Shelf", [⟨"Room", "String", "NOT NULL"⟩]⟩]
  tables := [⟨"Book", ["Author"], false, false, false, false, none⟩,
    ⟨"Book", references, false, true, false, true, some "old"⟩]
  indexes := []

theorem check_archive {references : List Text}
    (h : (archive references).check.toOption.map List.length = some 0) :
    (archive references).check = .ok [] := by
  cases hcheck : (archive references).check with
  | error e => rw [hcheck] at h; cases h
  | ok failures =>
    rw [hcheck] at h
    rw [List.length_eq_zero_iff.mp (Option.some.inj h)]

theorem pragma_archive {references : List Text} :
    ∀ p ∈ (archive references).pragmas, ∃ q, p.pragma = .ok q := by
  intro p hp
  obtain rfl := List.mem_singleton.mp hp
  exact ⟨_, rfl⟩

theorem script_of_check_archive :
    (archive ["Shelf", "Author"]).check = .ok [] ∧
    ∃ s sql, (archive ["Shelf", "Author"]).script = .ok s ∧ s.toSql = .ok sql := by
  have hcheck : (archive ["Shelf", "Author"]).check = .ok [] := check_archive (by decide +kernel)
  exact ⟨hcheck, script_of_check pragma_archive (by decide +kernel) (by decide +kernel) hcheck⟩

-- A later entry can be narrower, and then the check does not see that it has no table.
theorem script_fails_after_check :
    ¬∀ d : Document, (∀ p ∈ d.pragmas, ∃ q, p.pragma = .ok q) →
      (∀ e ∈ d.tables, ∃ m ∈ d.models, m.name = e.model) → d.check = .ok [] →
        ∃ s sql, d.script = .ok s ∧ s.toSql = .ok sql := by
  intro h
  obtain ⟨s, sql, hscript, -⟩ := h (archive ["Shelf"]) pragma_archive (by decide +kernel)
    (check_archive (by decide +kernel))
  have hnone : (archive ["Shelf"]).script.toOption.isSome = false := by decide +kernel
  rw [hscript] at hnone
  cases hnone

/-! ## The single tables of a script -/

theorem entry?_of_nodup {d : Document} (h : (d.tables.map TableEntry.model).Nodup) {e : TableEntry}
    (he : e ∈ d.tables) : d.entry? e.model = some e := by
  have hsome : (d.entry? e.model).isSome = true := List.find?_isSome.mpr ⟨e, he, by simp⟩
  obtain ⟨found, hfound⟩ := Option.isSome_iff_exists.mp hsome
  have hmodel : found.model = e.model := model_of_entry? hfound
  rw [hfound, List.inj_on_of_nodup_map h (entry?_mem found hfound) he hmodel]

-- The single table of a model that has one entry is the table that its entry has in the script.
theorem tableSql_eq {d : Document} (h : (d.tables.map TableEntry.model).Nodup) {e : TableEntry}
    (he : e ∈ d.tables) {t : Table} (ht : d.tableOfEntry e = .ok t) :
    d.tableSql e.model = t.toSql.mapError .schema := by
  rw [tableSql, table, entry?_of_nodup h he]
  dsimp only
  rw [ht]
  rfl

theorem script_eq_ok_iff {d : Document} {s : Script} :
    d.script = .ok s ↔
      List.Forall₂ (fun p q => PragmaEntry.pragma p = .ok q) d.pragmas s.pragmas ∧
      List.Forall₂ (fun e t => d.tableOfEntry e = .ok t) d.tables s.tables ∧
      s.name = d.name ∧ s.indexes = d.indexes.map IndexEntry.index := by
  simp only [script, bind_eq_ok_iff, mapM_eq_ok_iff]
  constructor
  · rintro ⟨pragmas, hpragmas, tables, htables, hs⟩
    obtain rfl := Except.ok.inj hs
    exact ⟨hpragmas, htables, rfl, rfl⟩
  · rintro ⟨hpragmas, htables, hname, hindexes⟩
    obtain ⟨name, pragmas, tables, indexes⟩ := s
    obtain rfl := hname
    obtain rfl := hindexes
    exact ⟨pragmas, hpragmas, tables, htables, rfl⟩

theorem mapM_eq_mapError_mapM {ε ε' α β γ : Type} {f : α → Except ε' γ} {g : β → Except ε γ}
    {wrap : ε → ε'} {as : List α} {bs : List β}
    (h : List.Forall₂ (fun a b => f a = (g b).mapError wrap) as bs) :
    as.mapM f = (bs.mapM g).mapError wrap := by
  induction h with
  | nil => rfl
  | @cons a b as bs ha _ ih =>
    rw [List.mapM_cons, List.mapM_cons, ha, ih]
    cases g b with
    | error e => rfl
    | ok c => cases bs.mapM g <;> rfl

-- The tables of the script are written one by one as the single tables are.
theorem mapM_tableSql {d : Document} (hnodup : (d.tables.map TableEntry.model).Nodup) {s : Script}
    (h : d.script = .ok s) :
    d.tables.mapM (fun e => d.tableSql e.model) =
      (s.tables.mapM Table.toSql).mapError .schema := by
  obtain ⟨-, htables, -, -⟩ := script_eq_ok_iff.mp h
  have hmem := (List.forall₂_and_left d.tables s.tables).mpr ⟨fun e he => he, htables⟩
  exact mapM_eq_mapError_mapM (hmem.imp fun e t ht => tableSql_eq hnodup ht.1 ht.2)

/-- If no model has two entries, the script of a document has the texts of the single tables between
its pragmas and its indexes, or fails as the first single table that fails. -/
theorem script_tableSql {d : Document} (hnodup : (d.tables.map TableEntry.model).Nodup) {s : Script}
    (h : d.script = .ok s) :
    ((∃ sql, s.toSql = .ok sql) ↔ ∀ e ∈ d.tables, ∃ sql, d.tableSql e.model = .ok sql) ∧
    (∀ sql, s.toSql = .ok sql → ∃ pragmas texts,
      List.Forall₂ (fun p q => PragmaEntry.pragma p = .ok q) d.pragmas pragmas ∧
      List.Forall₂ (fun e text => d.tableSql e.model = .ok text) d.tables texts ∧
      sql = pragmas.flatMap (fun q => q.toSql ++ ['\n']) ++ ['\n'] ++
        texts.flatMap (fun text => text ++ ['\n']) ++
        d.indexes.flatMap (fun i => i.index.toSql ++ ['\n'])) ∧
    ∀ e, s.toSql = .error e → ∃ before entry after, d.tables = before ++ entry :: after ∧
      (∀ other ∈ before, ∃ sql, d.tableSql other.model = .ok sql) ∧
        d.tableSql entry.model = .error (.schema e) := by
  have hsame := mapM_tableSql hnodup h
  obtain ⟨hpragmas, -, -, hindexes⟩ := script_eq_ok_iff.mp h
  have hok (texts : List Text) : s.tables.mapM Table.toSql = .ok texts ↔
      List.Forall₂ (fun e text => d.tableSql e.model = .ok text) d.tables texts := by
    rw [← mapM_eq_ok_iff, hsame, mapError_eq_ok_iff]
  refine ⟨⟨?_, fun hall => ?_⟩, fun sql hsql => ?_, fun e he => ?_⟩
  · rintro ⟨sql, hsql⟩ e he
    obtain ⟨texts, htexts, -⟩ := map_eq_ok_iff.mp hsql
    obtain ⟨text, -, htext⟩ := exists_of_forall₂ ((hok texts).mp htexts) he
    exact ⟨text, htext⟩
  · obtain ⟨texts, htexts⟩ := exists_mapM_eq_ok hall
    exact ⟨_, map_eq_ok_iff.mpr ⟨texts, (hok texts).mpr (mapM_eq_ok_iff.mp htexts), rfl⟩⟩
  · obtain ⟨texts, htexts, rfl⟩ := map_eq_ok_iff.mp hsql
    refine ⟨s.pragmas, texts, hpragmas, (hok texts).mp htexts, ?_⟩
    rw [Script.layout, hindexes, List.flatMap_map]
    rfl
  · rw [map_eq_error_iff.mp he] at hsame
    exact mapM_eq_error_iff.mp hsame

/-- A document with an entry for each of its models, the second of which has the given fields. -/
def diary (fields : List Field) : Document where
  name := "diary"
  pragmas := [⟨"user_version", none, some (.string "3"), none⟩]
  models := [⟨"Author", [⟨"ID", "i64", "PRIMARY KEY"⟩]⟩, ⟨"Note", fields⟩]
  tables := [⟨"Author", [], false, true, false, false, none⟩,
    ⟨"Note", ["Author"], true, false, false, true, none⟩]
  indexes := [⟨"by_author", "Note", ["AuthorID"], false, false, none, none⟩]

-- A table without columns is made, but has no text.
theorem script_tableSql_diary :
    (∃ s sql, (diary [⟨"AuthorID", "i64", "REFERENCES Author"⟩]).script = .ok s ∧
      s.toSql = .ok sql) ∧
    ∃ s e, (diary []).script = .ok s ∧ s.toSql = .error e ∧ ∃ before entry after,
      (diary []).tables = before ++ entry :: after ∧
      (∀ other ∈ before, ∃ sql, (diary []).tableSql other.model = .ok sql) ∧
        (diary []).tableSql entry.model = .error (.schema e) := by
  constructor
  · have hall : ∀ e ∈ (diary [⟨"AuthorID", "i64", "REFERENCES Author"⟩]).tables,
        ((diary [⟨"AuthorID", "i64", "REFERENCES Author"⟩]).tableSql e.model).toOption.isSome =
          true := by decide +kernel
    obtain ⟨s, hs⟩ := exists_eq_ok (x := (diary [⟨"AuthorID", "i64", "REFERENCES Author"⟩]).script)
      (by decide +kernel)
    obtain ⟨sql, hsql⟩ := (script_tableSql (by decide +kernel) hs).1.mpr fun e he =>
      exists_eq_ok (hall e he)
    exact ⟨s, sql, hs, hsql⟩
  · obtain ⟨s, hs⟩ := exists_eq_ok (x := (diary []).script) (by decide +kernel)
    have hnone : (diary []).scriptSql.toOption.isSome = false := by decide +kernel
    rw [scriptSql, hs] at hnone
    cases htext : s.toSql with
    | ok sql =>
      change (s.toSql.mapError DocumentError.schema).toOption.isSome = false at hnone
      rw [htext] at hnone
      cases hnone
    | error e =>
      exact ⟨s, e, hs, htext, (script_tableSql (by decide +kernel) hs).2.2 e htext⟩

end Document

end AnnotatedSchema
