import AnnotatedSchema.Proofs.ReferenceReading
import AnnotatedSchema.Proofs.Rescan

/-!
# Where references point to

A table is only made if every `REFERENCES` clause in the annotations of its columns has a target
among the models it was given or in its own model. What is written then names the table of that
target and at most one of its columns.
-/

namespace AnnotatedSchema

open Piece

namespace ForeignKey

/-- How the columns that a reference lists are written: not at all, or as the column of the one
mapped field that is meant. -/
inductive WritesColumns (target : Model) : List Text → Text → Prop
  | none : WritesColumns target [] []
  | one (name : Text) (f : Field) (hf : f ∈ target.mappedFields)
      (hname : f.column = identifier name) :
      WritesColumns target [name] (" " ++ f.column.parenthesized)

/-- The pieces after `REFERENCES` start with the name of a candidate, and the text refers to the
table of the first one with that name. Nothing but columns of this table stands in brackets. -/
def RefersTo (candidates : List Model) (after : List Piece) (sql : Text) : Prop :=
  ∃ word rest target columns, ∃ fk : ForeignKey, after = word :: rest ∧ word.kind = .word ∧
    FirstNamed candidates word.text target ∧ WritesColumns target (listedAfter rest) columns ∧
    sql = "REFERENCES " ++ target.table ++ columns ++ fk.settingsText ∧ '(' ∉ fk.settingsText

/-- The pieces after `REFERENCES` start with a name that no candidate has, or list a column that the
candidate does not map, or several columns. -/
def Dangles (candidates : List Model) (after : List Piece) : Prop :=
  ∃ word rest, after = word :: rest ∧
    ((∀ m ∈ candidates, m.name ≠ word.text) ∨
      (∃ target, FirstNamed candidates word.text target ∧
        ∃ name ∈ listedAfter rest, ¬target.Maps name) ∨
      1 < (listedAfter rest).length)

/-! ## Reading one clause -/

theorem writesColumns_of_maps {target : Model} {names : List Text}
    (hcount : names = [] ∨ names.length = 1) (hmaps : ∀ name ∈ names, target.Maps name) :
    ∃ columns, WritesColumns target names columns ∧
      (if names = [] then target.table
        else target.table ++ " " ++ (identifierList names).parenthesized) =
          target.table ++ columns := by
  rcases hcount with rfl | hone
  · exact ⟨[], .none, (List.append_nil _).symm⟩
  · obtain ⟨name, rfl⟩ := List.length_eq_one_iff.mp hone
    obtain ⟨f, hf, hname⟩ := (hmaps name List.mem_cons_self).exists_column
    refine ⟨_, .one name f hf hname, ?_⟩
    have hlist : identifierList [name] = f.column :=
      (identifierList_singleton name).trans hname.symm
    rw [if_neg (List.cons_ne_nil name []), hlist, List.append_assoc]

theorem refersTo_of_ofPieces {column : Text} {candidates : List Model} {keyword : Piece}
    {after : List Piece} {fk : ForeignKey}
    (h : ofPieces column candidates (keyword :: after) = .ok fk)
    (hmissing : fk.missingColumn? = none)
    (hword : ∀ p ∈ after, p.kind = .word → '(' ∉ p.text) : RefersTo candidates after fk.text := by
  obtain ⟨keyword', word, rest, target, hps, hkind, hfirst, htail⟩ := target_of_ofPieces h
  obtain ⟨rfl, rfl⟩ := List.cons.inj hps
  obtain ⟨hsame, hcount⟩ := targetColumns_of_readTail htail rfl
  have hmaps : ∀ name ∈ listedAfter rest, target.Maps name := by
    have hmaps := (missingColumn?_eq_none_iff fk).mp hmissing
    rwa [hsame.targetColumns, hsame.target] at hmaps
  obtain ⟨columns, hcolumns, htext⟩ := writesColumns_of_maps hcount hmaps
  have htarget : fk.targetText = target.table ++ columns := by
    rw [targetText, hsame.targetColumns, hsame.target]
    exact htext
  refine ⟨word, rest, target, columns, fk, rfl, hkind, hfirst, hcolumns, ?_, ?_⟩
  · rw [text_onColumn hsame.tableLevel, htarget, List.append_assoc _ target.table]
  · refine bracket_not_mem_settingsText fun name hname => ?_
    rcases hsame.matchName name hname with hold | ⟨p, hp, hpkind, rfl⟩
    · cases hold
    · exact hword p (List.mem_cons_of_mem word hp) hpkind

-- A list of columns is no keyword, so what follows a clause adds none to it.
theorem listedAfter_append {rest : List Piece} (h : Keyword.Follows rest) (ps : List Piece) :
    listedAfter (ps ++ rest) = listedAfter ps := by
  cases ps with
  | cons p ps => rfl
  | nil =>
    rcases h with rfl | hleads
    · rfl
    · cases rest with
      | nil => rfl
      | cons p rest =>
        obtain ⟨w, -, hw⟩ := Keyword.isWord_of_leads hleads
        exact listedAfter_of_word (kind_of_isWord hw) rest

theorem RefersTo.append {candidates : List Model} {body rest : List Piece} {sql : Text}
    (h : RefersTo candidates body sql) (hrest : Keyword.Follows rest) :
    RefersTo candidates (body ++ rest) sql := by
  obtain ⟨word, ps, target, columns, fk, rfl, hkind, hfirst, hcolumns, hsql⟩ := h
  rw [← listedAfter_append hrest ps] at hcolumns
  exact ⟨word, ps ++ rest, target, columns, fk, rfl, hkind, hfirst, hcolumns, hsql⟩

theorem RefersTo.not_dangles {candidates : List Model} {after : List Piece} {sql : Text}
    (h : RefersTo candidates after sql) : ¬Dangles candidates after := by
  rintro ⟨word, rest, hafter, hdangles⟩
  obtain ⟨word', rest', target, columns, fk, hafter', -, hfirst, hcolumns, -⟩ := h
  obtain ⟨rfl, rfl⟩ := List.cons.inj (hafter'.symm.trans hafter)
  generalize listedAfter rest' = names at hcolumns hdangles
  rcases hdangles with hnone | ⟨target', hfirst', name, hname, hnot⟩ | hmany
  · have hmem := hfirst.mem
    obtain ⟨before, later, -, hname, -⟩ := hfirst
    exact hnone target hmem hname
  · obtain rfl := hfirst.unique hfirst'
    cases hcolumns with
    | none => cases hname
    | one name' f hf hcolumn =>
      obtain rfl := List.mem_singleton.mp hname
      obtain ⟨hmem, hmapped⟩ := List.mem_filter.mp hf
      exact hnot ⟨f, hmem, hmapped, .inr hcolumn⟩
  · cases hcolumns with
    | none => exact absurd hmany (Nat.not_lt_zero 1)
    | one => exact absurd hmany (Nat.lt_irrefl 1)

end ForeignKey

/-! ## The pieces of a captured clause -/

theorem Piece.bracket_not_mem_word {offset : Nat} {t : Text} {p : Piece}
    (h : p ∈ (scanFrom offset t).1) (hkind : p.kind = .word) : '(' ∉ p.text := by
  obtain ⟨_, _, _, _, -, hfirst⟩ := first_of_mem h
  rcases first_cases hfirst with ⟨_, _, _, rfl⟩ | ⟨_, _, _, rfl⟩ | ⟨hbracket, _, rfl, _⟩
  · cases hkind
  · cases hkind
  · rw [List.mem_cons, not_or]
    refine ⟨Ne.symm hbracket, fun hmem => ?_⟩
    have hin := List.mem_takeWhile_imp hmem
    cases hin

theorem mem_of_mem_after {ps : List Piece} {o : Occurrence} (h : o ∈ occurrences ps) {p : Piece}
    (hp : p ∈ o.after) : p ∈ ps := by
  obtain ⟨u, q, rest, rfl, -, hafter⟩ := split_of_mem_occurrencesAfter h
  rw [hafter] at hp
  simp [List.mem_of_mem_drop hp]

namespace Annotation

-- Each `REFERENCES` keyword gives a constraint, whose text is that of the pieces it captures.
theorem references_of_constraints {column tag : Text} {cs : List AnnotatedConstraint}
    (h : constraints column tag = .ok cs) {ps : List Piece} (hscan : Piece.scan tag = .ok ps)
    {i : Nat} {o : Occurrence} (ho : (clauseOccurrences ps)[i]? = some o)
    (hkeyword : o.keyword = .clause .references) :
    ∃ a body rest, cs[i]? = some a ∧ a.constraint = .references (referenceText body) ∧
      o.after = body ++ rest ∧ Keyword.Follows rest ∧ ∀ p ∈ o.after, p ∈ ps := by
  rw [constraints, hscan] at h
  have hread : readEach column none (occurrences ps) = .ok cs :=
    (readConstraints_eq_readEach column none ps).symm.trans h
  have hall := forall₂_of_readEach hread
  obtain ⟨hi, rfl⟩ := List.getElem?_eq_some_iff.mp ho
  have hi' : i < cs.length := hall.length_eq ▸ hi
  obtain ⟨hmem, head, left, hhead, hclause⟩ := hall.get hi hi'
  obtain rfl : ClauseHead.references = head :=
    Keyword.clause.inj (hkeyword.symm.trans hhead)
  obtain ⟨hconstraint, rfl⟩ := Prod.mk.inj (Except.ok.inj hclause)
  refine ⟨cs[i], (readReference false (clauseOccurrences ps)[i].after).1, _,
    List.getElem?_eq_getElem hi', hconstraint.symm, (readReference_append_eq _ _).symm, ?_,
    fun p hp => mem_of_mem_after hmem hp⟩
  exact (endsReference_readReference [] _).imp_right And.left

end Annotation

namespace Column

/-- Every `REFERENCES` keyword in the annotation of the field has a text in the column, which refers
to one of the candidates. -/
def ReferencesResolve (candidates : List Model) (f : Field) (c : Column) : Prop :=
  ∃ ps cs, Piece.scan f.tag = .ok ps ∧ Annotation.constraints c.name f.tag = .ok cs ∧
    ∀ (i : Nat) (o : Occurrence), (clauseOccurrences ps)[i]? = some o →
      o.keyword = .clause .references →
        ∃ a sql, cs[i]? = some a ∧ c.fragments[i]? = some (namedClause a.name sql) ∧
          ForeignKey.RefersTo candidates o.after sql

-- A column that has taken a reference has its text, and the target maps what it names.
theorem Takes.exists_foreignKey {declared field : Text} {storage : Storage}
    {candidates : List Model} {cs : List AnnotatedConstraint} {c : Column}
    (h : (plain declared storage).Takes field candidates cs c) {i : Nat}
    {a : AnnotatedConstraint} (ha : cs[i]? = some a) {clause : Text}
    (hclause : a.constraint = .references clause) :
    ∃ fk, ForeignKey.ofClause field clause candidates = .ok fk ∧ fk.missingColumn? = none ∧
      c.fragments[i]? = some (namedClause a.name fk.text) := by
  obtain ⟨hi, rfl⟩ := List.getElem?_eq_some_iff.mp ha
  have hplain := records_plain declared storage
  have hrecords : Records c (cs.map (.apply field candidates)) := hplain.takes h
  obtain ⟨hpossible, -⟩ := hplain.exists_takes_iff.mp ⟨c, h⟩
  obtain ⟨read, hread, hfault⟩ := hpossible cs[i] (List.getElem_mem hi)
  have hfragment : c.fragments[i]? = some (namedClause cs[i].name read.toSql) := by
    have heq := hrecords.fragment_eq ⟨i, hi⟩
    rw [Operation.fragment?, List.get_eq_getElem, hread] at heq
    exact heq
  have hclause' : (ForeignKey.ofClause field clause candidates).map ColumnClause.references =
      .ok read := by
    have hof : ColumnClause.ofConstraint field candidates cs[i].constraint = .ok read := hread
    rwa [hclause] at hof
  obtain ⟨fk, hfk, rfl⟩ := map_eq_ok_iff.mp hclause'
  exact ⟨fk, hfk, hfault, hfragment⟩

theorem referencesResolve_of_ofField {f : Field} {candidates : List Model} {c : Column}
    (h : ofField f candidates = .ok c) : ReferencesResolve candidates f c := by
  obtain ⟨cs, hcs, htakes⟩ := ofField_eq_ok_iff.mp h
  obtain ⟨ps, hscan, -⟩ := Annotation.recaptured_of_constraints hcs
  refine ⟨ps, cs, hscan, by rwa [name_of_ofField h], fun i o ho hkeyword => ?_⟩
  obtain ⟨a, body, rest, ha, hclause, hafter, hrest, hmem⟩ :=
    Annotation.references_of_constraints hcs hscan ho hkeyword
  obtain ⟨fk, hfk, hmissing, hfragment⟩ := htakes.exists_foreignKey ha hclause
  have hscanned : ∀ p ∈ body, p ∈ (scanFrom 0 f.tag).1 := fun p hp => by
    rw [scan_eq_ok_iff.mp hscan]
    exact hmem p (hafter ▸ List.mem_append_left rest hp)
  -- The text of the clause is cut into the pieces it was captured from.
  rw [ForeignKey.ofClause_referenceText fun p hp => lone_of_mem (hscanned p hp)] at hfk
  have hrefers := ForeignKey.refersTo_of_ofPieces hfk hmissing fun p hp hkind =>
    bracket_not_mem_word (hscanned p hp) hkind
  exact ⟨a, fk.text, ha, hfragment, hafter ▸ hrefers.append hrest⟩

end Column

namespace Table

theorem referencesResolve_of_ofModel {m : Model} {references : List Model} {t : Table}
    (h : ofModel m references = .ok t) :
    List.Forall₂ (Column.ReferencesResolve (references ++ [m])) m.mappedFields t.columns :=
  (hasColumnsOf_of_ofModel h).imp fun _ _ hc => Column.referencesResolve_of_ofField hc.1

/-- A table that is made has no dangling reference, and with a dangling reference none is made. -/
theorem ofModel_no_dangling (m : Model) (references : List Model) :
    (∀ t, ofModel m references = .ok t →
      List.Forall₂ (Column.ReferencesResolve (references ++ [m])) m.mappedFields t.columns) ∧
    ∀ f ∈ m.mappedFields, ∀ ps, Piece.scan f.tag = .ok ps →
      ∀ o ∈ clauseOccurrences ps, o.keyword = .clause .references →
        ForeignKey.Dangles (references ++ [m]) o.after →
          ∃ e, ofModel m references = .error e := by
  refine ⟨fun t => referencesResolve_of_ofModel, fun f hf ps hscan o ho hkeyword hdangles => ?_⟩
  cases htable : ofModel m references with
  | error e => exact ⟨e, rfl⟩
  | ok t =>
    obtain ⟨c, -, ps', cs, hscan', -, hall⟩ :=
      exists_of_forall₂ (referencesResolve_of_ofModel htable) hf
    obtain rfl := Except.ok.inj (hscan.symm.trans hscan')
    obtain ⟨i, hi⟩ := List.mem_iff_getElem?.mp ho
    obtain ⟨a, sql, -, -, hrefers⟩ := hall i o hi hkeyword
    exact absurd hdangles hrefers.not_dangles

/-- A model that a reference can have as its target. -/
def author : Model := ⟨"Author", [⟨"ID", "i64", "PRIMARY KEY"⟩, ⟨"FullName", "String", "-"⟩]⟩

/-- A model with a field that refers to an author. -/
def bookWith (tag : Text) : Model := ⟨"Book", [⟨"AuthorID", "i64", tag⟩]⟩

-- The name of the target is compared with its case, and a field that is not mapped is no target.
theorem ofModel_no_dangling_book :
    (∃ t, ofModel (bookWith "CONSTRAINT fk REFERENCES Author(id) MATCH FULL") [author] = .ok t ∧
      List.Forall₂ (Column.ReferencesResolve
          ([author] ++ [bookWith "CONSTRAINT fk REFERENCES Author(id) MATCH FULL"]))
        (bookWith "CONSTRAINT fk REFERENCES Author(id) MATCH FULL").mappedFields t.columns) ∧
    (∃ e, ofModel (bookWith "REFERENCES author") [author] = .error e) ∧
    ∃ e, ofModel (bookWith "REFERENCES Author(full_name)") [author] = .error e := by
  refine ⟨?_, ?_, ?_⟩
  · have hsome : (ofModel (bookWith "CONSTRAINT fk REFERENCES Author(id) MATCH FULL")
        [author]).toOption.isSome = true := by decide +kernel
    cases htable : ofModel (bookWith "CONSTRAINT fk REFERENCES Author(id) MATCH FULL") [author] with
    | error e => rw [htable] at hsome; cases hsome
    | ok t => exact ⟨t, rfl, (ofModel_no_dangling _ [author]).1 t htable⟩
  · refine (ofModel_no_dangling (bookWith "REFERENCES author") [author]).2
      ⟨"AuthorID", "i64", "REFERENCES author"⟩ (by decide +kernel)
      [⟨.word, "REFERENCES", 0⟩, ⟨.word, "author", 11⟩] (by decide +kernel)
      ⟨.clause .references, [⟨.word, "author", 11⟩]⟩ List.mem_cons_self rfl
      ⟨_, _, rfl, .inl (by decide +kernel)⟩
  · refine (ofModel_no_dangling (bookWith "REFERENCES Author(full_name)") [author]).2
      ⟨"AuthorID", "i64", "REFERENCES Author(full_name)"⟩ (by decide +kernel)
      [⟨.word, "REFERENCES", 0⟩, ⟨.word, "Author", 11⟩, ⟨.group, "(full_name)", 17⟩]
      (by decide +kernel)
      ⟨.clause .references, [⟨.word, "Author", 11⟩, ⟨.group, "(full_name)", 17⟩]⟩
      List.mem_cons_self rfl
      ⟨_, _, rfl, .inr (.inl ⟨author, ⟨[], _, rfl, rfl, List.forall_mem_nil _⟩, "full_name",
        by decide +kernel, ?_⟩)⟩
    rw [← Model.mapsColumn_eq_false_iff]
    decide +kernel

end Table

end AnnotatedSchema
