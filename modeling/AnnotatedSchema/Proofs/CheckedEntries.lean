import AnnotatedSchema.Proofs.DocumentTables
import AnnotatedSchema.Proofs.ModelColumns

/-!
# What an entry means to a check

A check reports every model whose table has no text, and the entry of a model counts for this model
alone. But an entry that lists a model nobody declares ends the check, and then nothing is reported
of any model.
-/

namespace AnnotatedSchema

/-- The entries differ at most in the models that they list, and only if they are entries of the
given model. -/
structure TableEntry.Relisted (a : Text) (e e' : TableEntry) : Prop where
  rest : e' = { e with references := e'.references }
  references : e.model ≠ a → e'.references = e.references

namespace Document

/-- The documents differ in nothing but the models that the entries of one model list. -/
structure Relisted (a : Text) (d d' : Document) : Prop where
  rest : d' = { d with tables := d'.tables }
  tables : List.Forall₂ (TableEntry.Relisted a) d.tables d'.tables

/-- The model is declared, and of the models that its entry lists this is the first that is not. -/
def Unresolved (d : Document) (a name : Text) : Prop :=
  (∃ m ∈ d.models, m.name = a) ∧
    ∃ e before after, d.entry? a = some e ∧ e.references = before ++ name :: after ∧
      (∀ other ∈ before, ∃ m ∈ d.models, m.name = other) ∧ ∀ m ∈ d.models, m.name ≠ name

/-- The plain table of the model has no text, for this reason. -/
def Fails (d : Document) (m : Model) (e : SchemaError) : Prop :=
  ∃ candidates, d.candidates (d.entry? m.name) = .ok candidates ∧ plainError? m candidates = some e

/-! ## The models that an entry lists -/

theorem model_eq_error {d : Document} {name : Text} (h : ∀ m ∈ d.models, m.name ≠ name) :
    d.model name = .error (.unknownModel name) := by
  have hnone : d.models.find? (·.name == name) = none := by
    rw [List.find?_eq_none]
    intro m hm
    simpa using h m hm
  unfold model
  rw [hnone]

theorem mem_of_model_eq_ok {d : Document} {name : Text} {m : Model} (h : d.model name = .ok m) :
    ∃ m ∈ d.models, m.name = name := by
  unfold model at h
  cases hfind : d.models.find? (·.name == name) with
  | none =>
    rw [hfind] at h
    cases h
  | some found =>
    exact ⟨found, List.mem_of_find?_eq_some hfind, by simpa using List.find?_some hfind⟩

theorem Unresolved.candidates_eq {d : Document} {a name : Text} (h : d.Unresolved a name) :
    d.candidates (d.entry? a) = .error (.unknownModel name) := by
  obtain ⟨-, e, before, after, hentry, hlist, hbefore, hname⟩ := h
  have hsome : e.references ≠ [] := by simp [hlist]
  have hmodels : ∀ other ∈ before, ∃ m, d.model other = .ok m := by
    intro other hother
    obtain ⟨m, hm, -⟩ := model_eq_ok_of_mem (hbefore other hother)
    exact ⟨m, hm⟩
  rw [hentry, candidates, if_neg hsome]
  exact mapM_eq_error_iff.mpr ⟨before, name, after, hlist, hmodels, model_eq_error hname⟩

theorem exists_candidates_of_resolved {d : Document} {a : Text} (ha : ∃ m ∈ d.models, m.name = a)
    (h : ∀ name, ¬d.Unresolved a name) : ∃ models, d.candidates (d.entry? a) = .ok models := by
  cases hentry : d.entry? a with
  | none => exact ⟨d.models, rfl⟩
  | some e =>
    rw [candidates]
    by_cases hnone : e.references = []
    · exact ⟨d.models, if_pos hnone⟩
    · rw [if_neg hnone]
      cases hmodels : e.references.mapM d.model with
      | ok models => exact ⟨models, rfl⟩
      | error fault =>
        obtain ⟨before, name, after, hlist, hbefore, hname⟩ := mapM_eq_error_iff.mp hmodels
        apply absurd _ (h name)
        refine ⟨ha, e, before, after, hentry, hlist, ?_, ?_⟩
        · intro other hother
          obtain ⟨m, hm⟩ := hbefore other hother
          exact mem_of_model_eq_ok hm
        · intro m hm hmname
          obtain ⟨found, hfound, -⟩ := model_eq_ok_of_mem ⟨m, hm, hmname⟩
          rw [hfound] at hname
          cases hname

/-! ## One failure for each model -/

theorem failure?_eq_error {d : Document} {m : Model} {fault : DocumentError}
    (h : d.candidates (d.entry? m.name) = .error fault) : d.failure? m = .error fault := by
  unfold failure?
  rw [h]
  rfl

theorem failure?_eq_ok_iff {d : Document} {m : Model} {failure : Option Failure} :
    d.failure? m = .ok failure ↔
      ∃ candidates, d.candidates (d.entry? m.name) = .ok candidates ∧
        failure = (plainError? m candidates).map fun e => ⟨m.name, e⟩ := by
  cases hcandidates : d.candidates (d.entry? m.name) with
  | error fault => simp [failure?_eq_error hcandidates]
  | ok candidates => simp [failure?_eq hcandidates, eq_comm]

theorem check_eq_ok {d : Document} {g : Model → Option Failure}
    (h : ∀ m ∈ d.models, d.failure? m = .ok (g m)) : d.check = .ok (d.models.filterMap g) := by
  unfold check
  rw [mapM_eq_ok h]
  exact congrArg Except.ok List.filterMap_map

theorem exists_of_check {d : Document} {failures : List Failure} (h : d.check = .ok failures) :
    ∃ g : Model → Option Failure, (∀ m ∈ d.models, d.failure? m = .ok (g m)) ∧
      failures = d.models.filterMap g := by
  obtain ⟨results, hresults, -⟩ := map_eq_ok_iff.mp h
  have hall : ∀ m ∈ d.models, ∃ failure, d.failure? m = .ok failure := by
    intro m hm
    obtain ⟨failure, -, hfailure⟩ := exists_of_forall₂ (forall₂_of_mapM hresults) hm
    exact ⟨failure, hfailure⟩
  choose! g hg using hall
  exact ⟨g, hg, Except.ok.inj (h.symm.trans (check_eq_ok hg))⟩

-- A check that is not ended reports all models that fail.
theorem mem_of_check {d : Document} {failures : List Failure} (h : d.check = .ok failures)
    (b : Text) (e : SchemaError) :
    ⟨b, e⟩ ∈ failures ↔ ∃ m ∈ d.models, m.name = b ∧ d.Fails m e := by
  obtain ⟨g, hg, rfl⟩ := exists_of_check h
  rw [List.mem_filterMap]
  apply exists_congr
  intro m
  apply and_congr_right
  intro hm
  obtain ⟨candidates, hcandidates, hfailure⟩ := failure?_eq_ok_iff.mp (hg m hm)
  rw [hfailure, Option.map_eq_some_iff, Fails, hcandidates]
  simp [and_comm]

-- The entry of the model alone decides whether its turn in a check can come to an end.
theorem unresolved_of_failure? {d : Document} {m : Model} (hm : m ∈ d.models)
    {fault : DocumentError} (h : d.failure? m = .error fault) :
    ∃ name, d.Unresolved m.name name ∧ fault = .unknownModel name := by
  by_cases hresolved : ∀ name, ¬d.Unresolved m.name name
  · obtain ⟨models, hmodels⟩ := exists_candidates_of_resolved ⟨m, hm, rfl⟩ hresolved
    rw [failure?_eq hmodels] at h
    cases h
  · simp only [not_forall, not_not] at hresolved
    obtain ⟨name, hname⟩ := hresolved
    rw [failure?_eq_error hname.candidates_eq] at h
    exact ⟨name, hname, (Except.error.inj h).symm⟩

/-! ## Documents that differ in one entry -/

theorem find?_relisted {a b : Text} (hb : b ≠ a) {entries entries' : List TableEntry}
    (h : List.Forall₂ (TableEntry.Relisted a) entries entries') :
    entries'.find? (·.model == b) = entries.find? (·.model == b) := by
  induction h with
  | nil => rfl
  | @cons e e' _ _ hentry _ ih =>
    have hmodel : e'.model = e.model := by rw [hentry.rest]
    simp only [List.find?_cons, hmodel, ih]
    by_cases hfound : e.model = b
    · have hsame : e' = e := by
        rw [hentry.rest, hentry.references (hfound ▸ hb)]
      rw [hsame]
    · have hnext : (e.model == b) = false := by simpa using hfound
      rw [hnext]

namespace Relisted

variable {a : Text} {d d' : Document}

theorem models_eq (h : Relisted a d d') : d'.models = d.models := by
  rw [h.rest]

theorem candidates_eq (h : Relisted a d d') (entry : Option TableEntry) :
    d'.candidates entry = d.candidates entry := by
  rw [h.rest]
  cases entry <;> rfl

theorem failure?_eq (h : Relisted a d d') {m : Model} (hm : m.name ≠ a) :
    d'.failure? m = d.failure? m := by
  have hentry : d'.entry? m.name = d.entry? m.name := find?_relisted hm h.tables
  unfold failure?
  rw [hentry, h.candidates_eq]

theorem filter_failures (h : Relisted a d d') {failures failures' : List Failure}
    (hcheck : d.check = .ok failures) (hcheck' : d'.check = .ok failures') {b : Text}
    (hb : b ≠ a) :
    failures'.filter (·.model == b) = failures.filter (·.model == b) := by
  obtain ⟨g, hg, rfl⟩ := exists_of_check hcheck
  obtain ⟨g', hg', rfl⟩ := exists_of_check hcheck'
  rw [h.models_eq] at hg' ⊢
  rw [List.filter_filterMap, List.filter_filterMap]
  apply List.filterMap_congr
  intro m hm
  by_cases hname : m.name = a
  -- What is reported of the model itself may differ, but it is reported under its own name.
  · have hother : ¬(a == b) = true := by simpa using Ne.symm hb
    obtain ⟨_, -, hold⟩ := failure?_eq_ok_iff.mp (hg m hm)
    obtain ⟨_, -, hnew⟩ := failure?_eq_ok_iff.mp (hg' m hm)
    simp [hold, hnew, hname, Option.filter_map, Function.comp_def, hother]
  · have hsame : (.ok (g' m) : Except DocumentError _) = .ok (g m) := by
      rw [← hg m hm, ← hg' m hm, h.failure?_eq hname]
    rw [Except.ok.inj hsame]

theorem check_eq_error_iff (h : Relisted a d d') {failures : List Failure}
    (hcheck : d.check = .ok failures) (fault : DocumentError) :
    d'.check = .error fault ↔ ∃ name, d'.Unresolved a name ∧ fault = .unknownModel name := by
  obtain ⟨g, hg, -⟩ := exists_of_check hcheck
  have hended : ∀ fault, d'.check = .error fault →
      ∃ name, d'.Unresolved a name ∧ fault = .unknownModel name := by
    intro fault hfault
    obtain ⟨before, m, after, hsplit, -, hm⟩ := mapM_eq_error_iff.mp (map_eq_error_iff.mp hfault)
    have hmem : m ∈ d'.models := by simp [hsplit]
    have hname : m.name = a := by
      by_contra hother
      rw [h.failure?_eq hother, hg m (h.models_eq ▸ hmem)] at hm
      cases hm
    rw [← hname]
    exact unresolved_of_failure? hmem hm
  apply Iff.intro (hended fault)
  rintro ⟨name, hname, rfl⟩
  cases hcheck' : d'.check with
  | ok failures' =>
    obtain ⟨g', hg', -⟩ := exists_of_check hcheck'
    obtain ⟨m, hm, rfl⟩ := hname.1
    have hok := hg' m hm
    rw [failure?_eq_error hname.candidates_eq] at hok
    cases hok
  | error fault =>
    obtain ⟨other, hother, rfl⟩ := hended fault hcheck'
    exact congrArg Except.error
      (Except.error.inj (hother.candidates_eq.symm.trans hname.candidates_eq))

end Relisted

/-- A check reports every model that fails. The models that the entry of one model lists have no
part in what is reported of others; but if one of them is not declared, nothing is reported. -/
theorem check_relisted {a : Text} {d d' : Document} (h : Relisted a d d') {failures : List Failure}
    (hcheck : d.check = .ok failures) :
    (∀ b e, ⟨b, e⟩ ∈ failures ↔ ∃ m ∈ d.models, m.name = b ∧ d.Fails m e) ∧
      (∀ failures', d'.check = .ok failures' → ∀ b ≠ a,
        failures'.filter (·.model == b) = failures.filter (·.model == b)) ∧
      ∀ fault, d'.check = .error fault ↔
        ∃ name, d'.Unresolved a name ∧ fault = .unknownModel name := by
  apply And.intro (mem_of_check hcheck)
  apply And.intro _ (h.check_eq_error_iff hcheck)
  intro failures' hcheck' b hb
  exact h.filter_failures hcheck hcheck' hb

/-- The library with an entry for the model that is in order too. -/
def catalogue (references : List Text) : Document :=
  { library with tables := ⟨"Author", references, false, false, false, false, none⟩ ::
      library.tables }

theorem relisted_catalogue (references references' : List Text) :
    Relisted "Author" (catalogue references) (catalogue references') := by
  refine ⟨rfl, .cons ⟨rfl, fun h => absurd rfl h⟩ ?_⟩
  apply List.forall₂_same.mpr
  intro e _
  exact ⟨rfl, fun _ => rfl⟩

theorem unresolved_catalogue : (catalogue ["Publisher"]).Unresolved "Author" "Publisher" :=
  ⟨by decide +kernel, _, [], [], rfl, rfl, by simp, by decide +kernel⟩

/-- The failure of the model that refers to one that its entry does not list. -/
def unshelved : Failure :=
  ⟨"Book", .inField "Book" "ShelfID" (.unresolvedReference "shelf_id" "Shelf")⟩

theorem check_catalogue :
    ∃ failures, (catalogue []).check = .ok failures ∧ unshelved ∈ failures := by
  have hcheck : (catalogue []).check.toOption.map (·.map fun f => (f.model, f.error)) =
      some [(unshelved.model, unshelved.error)] := by decide +kernel
  obtain ⟨failures, hfailures⟩ := exists_eq_ok (x := (catalogue []).check) (by decide +kernel)
  rw [hfailures] at hcheck
  have hlist : failures.map (fun f => (f.model, f.error)) =
      [(unshelved.model, unshelved.error)] := Option.some.inj hcheck
  have hmem : (unshelved.model, unshelved.error) ∈ failures.map fun f => (f.model, f.error) := by
    rw [hlist]
    exact List.mem_singleton_self _
  obtain ⟨f, hf, hsame⟩ := List.mem_map.mp hmem
  obtain ⟨hmodel, herror⟩ := Prod.mk.inj hsame
  have hunshelved : f = unshelved := by
    cases f
    exact congrArg₂ Failure.mk hmodel herror
  exact ⟨failures, hfailures, hunshelved ▸ hf⟩

-- Another list leaves the failure of the other model as it was, until it has an unknown name.
theorem check_relisted_catalogue :
    (∃ failures failures', (catalogue []).check = .ok failures ∧
      (catalogue ["Shelf", "Book"]).check = .ok failures' ∧
      failures'.filter (·.model == unshelved.model) =
        failures.filter (·.model == unshelved.model)) ∧
    (catalogue ["Publisher"]).check = .error (.unknownModel "Publisher") := by
  obtain ⟨failures, hcheck, -⟩ := check_catalogue
  obtain ⟨failures', hcheck'⟩ :=
    exists_eq_ok (x := (catalogue ["Shelf", "Book"]).check) (by decide +kernel)
  constructor
  · refine ⟨failures, failures', hcheck, hcheck', ?_⟩
    exact (check_relisted (relisted_catalogue [] _) hcheck).2.1 failures' hcheck' _
      (by decide +kernel)
  · apply ((check_relisted (relisted_catalogue [] _) hcheck).2.2 _).mpr
    exact ⟨"Publisher", unresolved_catalogue, rfl⟩

-- The entry of one model can hide the failure of another.
theorem not_reported_of_unknown :
    ¬∀ (a b : Text) (d d' : Document) (e : SchemaError), Relisted a d d' → b ≠ a →
      ((∃ failures, d.check = .ok failures ∧ ⟨b, e⟩ ∈ failures) ↔
        ∃ failures, d'.check = .ok failures ∧ ⟨b, e⟩ ∈ failures) := by
  intro h
  obtain ⟨failures', hcheck', -⟩ := (h "Author" unshelved.model _ _ unshelved.error
    (relisted_catalogue [] ["Publisher"]) (by decide +kernel)).mp check_catalogue
  have hnone : (catalogue ["Publisher"]).check.toOption.isSome = false := by decide +kernel
  rw [hcheck'] at hnone
  cases hnone

end Document

end AnnotatedSchema
