import AnnotatedSchema.Proofs.Balance
import AnnotatedSchema.Proofs.Composition
import AnnotatedSchema.Proofs.ReferenceTargets

/-!
# The texts of a column in brackets

A group or a literal of an annotation is closed by the scanner, but a word is taken as it stands: a
quote or a bracket inside it can stay open. So the texts of a column are closed if the words of the
annotation are, whichever clauses these end up in, and need not be if one of the words is not.
-/

namespace AnnotatedSchema

open Piece Text

/-! ## Pieces -/

namespace Piece

/-- A piece that the scanner has read, and that is closed if it is a word. -/
structure Closed (p : Piece) : Prop where
  read : ∃ offset c t rest, isBlank c = false ∧ first offset c t = .ok (p, rest)
  word : p.kind = .word → p.text.Closed

variable {p : Piece}

theorem Closed.lone (h : p.Closed) : p.Lone := by
  obtain ⟨offset, c, t, rest, hc, hfirst⟩ := h.read
  exact lone_of_first hc hfirst

-- Only a group starts with a bracket, and its own brackets are the outermost.
theorem Closed.spelled (h : p.Closed) :
    (∃ (body : Text) (start : Nat), p = ⟨.group, body.parenthesized, start⟩ ∧ body.Balanced) ∨
    ∃ c t, p.kind ≠ .group ∧ p.text = c :: t ∧ c ≠ '(' ∧ isBlank c = false ∧
      p.text.Balanced := by
  obtain ⟨offset, c, t, rest, hblank, hfirst⟩ := h.read
  rcases first_cases hfirst with ⟨body, rfl, hbody, rfl⟩ | ⟨body, hc, hbody, rfl⟩ | ⟨hc, -, rfl, -⟩
  · obtain ⟨inner, rfl, hinner⟩ := Nesting.after?_closeGroup hbody
    exact .inl ⟨inner, offset, rfl, hinner⟩
  · have hbracket : c ≠ '(' := by
      rintro rfl
      exact absurd hc (by decide)
    exact .inr ⟨c, body, nofun, rfl, hbracket, hblank, balanced_literal ⟨c, hc⟩ hbody⟩
  · exact .inr ⟨c, _, nofun, rfl, hc, hblank, closed_iff_balanced.mp (h.word rfl)⟩

theorem Closed.balanced (h : p.Closed) : p.text.Balanced := by
  obtain ⟨body, start, rfl, hbody⟩ | ⟨_, _, _, _, _, _, htext⟩ := h.spelled
  · exact hbody.parenthesized
  · exact htext

theorem Closed.balanced_groupBody (h : p.Closed) {body : Text} (hbody : p.groupBody? = some body) :
    body.Balanced := by
  obtain ⟨inner, start, rfl, hinner⟩ | ⟨_, _, hkind, _⟩ := h.spelled
  · have hgroup := Annotation.groupBody?_parenthesized inner start
    obtain rfl := Option.some.inj (hgroup.symm.trans hbody)
    exact (balanced_trim_iff inner).mpr hinner
  · exact absurd (kind_of_groupBody? hbody) hkind

end Piece

/-! ## Default values -/

namespace DefaultValue

theorem balanced_keywords : ∀ k ∈ keywords, k.2.valueSql.Balanced := by decide

-- The brackets that are taken away are those of a group, so they belong to one another.
theorem balanced_withoutParentheses {p : Piece} (h : p.Closed) :
    (withoutParentheses p.text.trim).Balanced := by
  obtain ⟨body, start, rfl, hbody⟩ | ⟨c, t, -, htext, hbracket, hblank, hclosed⟩ := h.spelled
  · have htrim : body.parenthesized.trim = body.parenthesized :=
      trim_enclosed body (by decide) (by decide)
    rw [htrim, withoutParentheses_parenthesized]
    exact (balanced_trim_iff body).mpr hbody
  · obtain ⟨u, htrim⟩ := trim_cons hblank t
    have hself : withoutParentheses (c :: u) = c :: u := by
      unfold withoutParentheses
      split
      · next hhead => exact absurd (List.cons.inj hhead).1 hbracket
      · rfl
    rw [htext, htrim, hself, ← htrim, balanced_trim_iff, ← htext]
    exact hclosed

theorem balanced_ofText {p : Piece} (h : p.Closed) : (ofText p.text).valueSql.Balanced := by
  unfold ofText
  dsimp only
  split
  · next keyword hkeyword =>
    obtain ⟨k, hfind, rfl⟩ := Option.map_eq_some_iff.mp hkeyword
    exact balanced_keywords k (List.mem_of_find?_eq_some hfind)
  · exact balanced_quoted _
  · split
    · exact (balanced_trim_iff p.text).mpr h.balanced
    · exact (balanced_withoutParentheses h).parenthesized

end DefaultValue

/-! ## Constraints -/

/-- A constraint with balanced texts; that of a reference is put together from closed pieces. -/
def Constraint.Closed : Constraint → Prop
  | primaryKey _ | notNull _ | unique _ => True
  | check sql => sql.Balanced
  | default value => value.valueSql.Balanced
  | collate collation => collation.Balanced
  | references clause =>
    ∃ body, (∀ p ∈ body, Piece.Closed p) ∧ clause = Annotation.referenceText body
  | generated g => g.expression.Balanced

structure AnnotatedConstraint.Closed (a : AnnotatedConstraint) : Prop where
  name : ∀ name ∈ a.name, name.Balanced
  constraint : a.constraint.Closed

namespace Annotation

section
variable {ps left : List Piece} (hps : ∀ p ∈ ps, p.Closed)
include hps

theorem balanced_of_readGroup? {body : Text} (h : readGroup? ps = some (body, left)) :
    body.Balanced := by
  cases ps with
  | nil => cases h
  | cons p ps =>
    rw [readGroup?] at h
    split at h
    · next c body hbody =>
      obtain ⟨rfl, -⟩ := Prod.mk.inj (Option.some.inj h)
      exact (hps p List.mem_cons_self).balanced_groupBody hbody
    · cases h

theorem balanced_of_readDefault? {value : DefaultValue}
    (h : readDefault? ps = some (value, left)) : value.valueSql.Balanced := by
  cases ps with
  | nil => cases h
  | cons p ps =>
    rw [readDefault?] at h
    split at h
    · cases h
    · obtain ⟨rfl, -⟩ := Prod.mk.inj (Option.some.inj h)
      exact DefaultValue.balanced_ofText (hps p List.mem_cons_self)

theorem balanced_of_readWord? {word : Text} (h : readWord? ps = some (word, left)) :
    word.Balanced := by
  cases ps with
  | nil => cases h
  | cons p ps =>
    rw [readWord?] at h
    split at h
    · obtain ⟨rfl, -⟩ := Prod.mk.inj (Option.some.inj h)
      exact (hps p List.mem_cons_self).balanced
    · cases h

theorem balanced_of_readGenerated? {always : Bool} {g : Generated}
    (h : readGenerated? always ps = some (g, left)) : g.expression.Balanced := by
  obtain ⟨⟨body, rest⟩, hgroup, hread⟩ := Option.map_eq_some_iff.mp h
  obtain ⟨rfl, -⟩ := Prod.mk.inj hread
  exact balanced_of_readGroup? hps hgroup

theorem balanced_readName {name : Option Text} (hname : ∀ word ∈ name, word.Balanced) :
    ∀ word ∈ (readName name ps).1, word.Balanced := by
  unfold readName
  split
  · next word rest hread =>
    rintro word' hword
    obtain rfl : word = word' := Option.some.inj hword
    exact balanced_of_readWord? hps hread
  · exact hname

theorem closed_of_readClause {column : Text} {head : ClauseHead} {c : Constraint}
    (h : readClause column head ps = .ok (c, left)) : c.Closed := by
  cases head with
  | primaryKey | notNull | unique =>
    obtain ⟨rfl, -⟩ := Prod.mk.inj (Except.ok.inj h)
    trivial
  | check =>
    obtain ⟨sql, hread, rfl⟩ := read_of_required h
    exact balanced_of_readGroup? hps hread
  | default =>
    obtain ⟨value, hread, rfl⟩ := read_of_required h
    exact balanced_of_readDefault? hps hread
  | collate =>
    obtain ⟨collation, hread, rfl⟩ := read_of_required h
    exact balanced_of_readWord? hps hread
  | references =>
    obtain ⟨rfl, -⟩ := Prod.mk.inj (Except.ok.inj h)
    refine ⟨(readReference false ps).1, fun p hp => hps p ?_, rfl⟩
    rw [← readReference_append_eq false ps]
    exact List.mem_append_left _ hp
  | generated =>
    simp only [readClause] at h
    split at h
    · cases h
    · next rest hrest =>
      obtain ⟨always, as, rfl, -, -⟩ := eq_of_afterAlwaysAs? hrest
      obtain ⟨g, hread, rfl⟩ := read_of_required h
      exact balanced_of_readGenerated? (fun p hp => hps p (by simp [hp])) hread
  | as =>
    obtain ⟨g, hread, rfl⟩ := read_of_required h
    exact balanced_of_readGenerated? hps hread

end

theorem closed_of_readConstraints {column : Text} {name : Option Text} {ps : List Piece}
    {cs : List AnnotatedConstraint} (h : readConstraints column name ps = .ok cs)
    (hname : ∀ word ∈ name, word.Balanced) (hps : ∀ p ∈ ps, p.Closed) : ∀ a ∈ cs, a.Closed := by
  -- The name is any balanced one, since a `CONSTRAINT` hands its own on to the next clause.
  fun_induction readConstraints column name ps generalizing cs with
  | case1 =>
    obtain rfl := Except.ok.inj h
    exact List.forall_mem_nil _
  | case2 name p rest hkeyword ih => exact ih h hname (List.forall_mem_cons.mp hps).2
  | case3 name p rest hkeyword ih =>
    have hrest := (List.forall_mem_cons.mp hps).2
    exact ih h (balanced_readName hrest hname) fun q hq =>
      hrest q ((suffix_readName name rest).subset hq)
  | case4 => cases h
  | case5 name p rest head hkeyword c left hread ih =>
    obtain ⟨tail, htail, rfl⟩ := map_eq_ok_iff.mp h
    have hafter : ∀ q ∈ rest.drop (Keyword.width (.clause head) - 1), q.Closed := fun q hq =>
      hps q (List.mem_cons_of_mem p (List.mem_of_mem_drop hq))
    have hleft : ∀ q ∈ left, q.Closed := fun q hq =>
      hafter q ((suffix_readClause hread).subset hq)
    exact List.forall_mem_cons.mpr
      ⟨⟨hname, closed_of_readClause hafter hread⟩, ih htail (by simp) hleft⟩

theorem closed_of_constraints {column tag : Text} {cs : List AnnotatedConstraint}
    (h : constraints column tag = .ok cs)
    (hwords : ∀ p ∈ tag.pieces, p.kind = .word → p.text.Closed) : ∀ a ∈ cs, a.Closed := by
  cases hscan : Piece.scan tag with
  | error fault =>
    rw [constraints, hscan] at h
    cases h
  | ok ps =>
    rw [constraints, hscan] at h
    have hpieces : tag.pieces = ps := congrArg Prod.fst (scan_eq_ok_iff.mp hscan)
    refine closed_of_readConstraints h (by simp) fun p hp => ?_
    rw [← hpieces] at hp
    exact ⟨first_of_mem hp, hwords p hp⟩

end Annotation

/-! ## References -/

namespace ForeignKey

theorem after?_flatten_map_trim (s : Nesting) (ts : List Text) :
    s.after? (ts.map trim).flatten = s.after? ts.flatten := by
  induction ts generalizing s with
  | nil => rfl
  | cons t ts ih =>
    rw [List.map_cons, List.flatten_cons, List.flatten_cons, Nesting.after?_append,
      Nesting.after?_append, after?_trim]
    cases s.after? t with
    | none => rfl
    | some s' => exact ih s'

theorem after?_intercalate_comma (s : Nesting) (ts : List Text) :
    s.after? (List.intercalate [','] ts) = s.after? ts.flatten := by
  match ts with
  | [] => rfl
  | [t] => simp
  | t :: u :: ts =>
    have hcomma (s : Nesting) : s.after? [','] = some s :=
      Nesting.after?_plain s (List.forall_mem_singleton.mpr (by decide))
    rw [List.intercalate_cons_cons, List.append_assoc, List.flatten_cons, Nesting.after?_append,
      Nesting.after?_append]
    cases s.after? t with
    | none => rfl
    | some s' =>
      rw [Option.bind_some, Option.bind_some, Nesting.after?_append_of_eq (hcomma s')]
      exact after?_intercalate_comma s' (u :: ts)

-- Commas and blanks are plain, so the listed columns together nest as the list does.
theorem after?_listedColumns (s : Nesting) (t : Text) :
    s.after? (listedColumns t).flatten = s.after? t := by
  calc s.after? (listedColumns t).flatten
      = s.after? ((t.splitOn ',').map trim).flatten := by
        rw [listedColumns, List.flatten_filter_ne_nil]
    _ = s.after? (List.intercalate [','] (t.splitOn ',')) := by
        rw [after?_flatten_map_trim, after?_intercalate_comma]
    _ = s.after? t := by rw [List.intercalate_splitOn]

-- Two columns of one list may be open between them, but a key on a column refers to one at most.
theorem balanced_listedAfter {ps : List Piece} (hps : ∀ p ∈ ps, p.Closed)
    (hcount : listedAfter ps = [] ∨ (listedAfter ps).length = 1) :
    ∀ t ∈ listedAfter ps, t.Balanced := by
  rcases hcount with hnone | hone
  · rw [hnone]
    exact List.forall_mem_nil _
  · obtain ⟨name, hname⟩ := List.length_eq_one_iff.mp hone
    rw [hname, List.forall_mem_singleton]
    cases ps with
    | nil => cases hname
    | cons p rest =>
      rw [listedAfter] at hname
      cases hbody : p.groupBody? with
      | none =>
        rw [hbody] at hname
        cases hname
      | some body =>
        rw [hbody] at hname
        have hbalanced := (hps p List.mem_cons_self).balanced_groupBody hbody
        rw [Text.Balanced, ← after?_listedColumns, show listedColumns body = [name] from hname,
          List.flatten_singleton] at hbalanced
        exact hbalanced

theorem balanced_clause {keyword : Text} (hkeyword : keyword.Balanced) {argument : Option Text}
    (h : ∀ t ∈ argument, t.Balanced) : (clause keyword argument).Balanced := by
  cases argument with
  | none => exact balanced_nil
  | some t =>
    have hblank : Balanced " " := by decide
    exact (hblank.append hkeyword).append (h t rfl)

theorem balanced_rowAction (action : Option RowAction) :
    ∀ t ∈ action.map RowAction.keywords, t.Balanced := by
  intro t ht
  obtain ⟨action, -, rfl⟩ := Option.map_eq_some_iff.mp ht
  cases action <;> decide

theorem balanced_deferral (deferral : Option Deferral) :
    ∀ t ∈ deferral.map Deferral.toSql, t.Balanced := by
  intro t ht
  obtain ⟨⟨deferrable, initially⟩, -, rfl⟩ := Option.map_eq_some_iff.mp ht
  cases deferrable <;> cases initially <;> decide

theorem balanced_text {fk : ForeignKey} (howner : fk.tableLevel = false)
    (htarget : fk.target.name.Balanced) (hcolumns : ∀ t ∈ fk.targetColumns, t.Balanced)
    (hmatch : ∀ t ∈ fk.matchName, t.Balanced) : fk.text.Balanced := by
  have hkeyword : Balanced (fk.ownerText ++ "REFERENCES ") := by
    have hnone : fk.ownerText = [] := if_neg (by rw [howner]; decide)
    rw [hnone]
    decide
  have htable : fk.target.table.Balanced := (balanced_identifier_iff _).mpr htarget
  have htext : fk.targetText.Balanced := by
    have hblank : Balanced " " := by decide
    unfold targetText
    split
    · exact htable
    · exact (htable.append hblank).append (balanced_identifierList hcolumns).parenthesized
  have hdelete : Balanced "ON DELETE " := by decide
  have hupdate : Balanced "ON UPDATE " := by decide
  have hname : Balanced "MATCH " := by decide
  exact ((((hkeyword.append htext).append
    (balanced_clause hdelete (balanced_rowAction fk.onDelete))).append
    (balanced_clause hupdate (balanced_rowAction fk.onUpdate))).append
    (balanced_clause hname hmatch)).append
    (balanced_clause balanced_nil (balanced_deferral fk.deferral))

theorem balanced_text_of_ofPieces {column : Text} {candidates : List Model} {keyword : Piece}
    {body : List Piece} {fk : ForeignKey}
    (h : ofPieces column candidates (keyword :: body) = .ok fk)
    (hnames : ∀ m ∈ candidates, m.name.Closed) (hbody : ∀ p ∈ body, p.Closed) :
    fk.text.Balanced := by
  obtain ⟨_, word, rest, model, hpieces, -, hmodel, htail⟩ := target_of_ofPieces h
  obtain ⟨-, rfl⟩ := List.cons.inj hpieces
  have hrest : ∀ p ∈ rest, p.Closed := (List.forall_mem_cons.mp hbody).2
  obtain ⟨hsame, hcount⟩ := targetColumns_of_readTail htail rfl
  refine balanced_text hsame.tableLevel ?_ ?_ fun name hname => ?_
  · rw [hsame.target]
    exact closed_iff_balanced.mp (hnames model hmodel.mem)
  · rw [hsame.targetColumns]
    exact balanced_listedAfter hrest hcount
  · rcases hsame.matchName name hname with hold | ⟨p, hp, -, rfl⟩
    · cases hold
    · exact (hrest p hp).balanced

end ForeignKey

/-! ## Columns -/

theorem balanced_conflictClause (conflict : Option ConflictAction) :
    (ConflictAction.clause conflict).Balanced := by
  cases conflict with
  | none => exact balanced_nil
  | some action => cases action <;> decide

theorem ColumnKey.balanced_toSql (key : ColumnKey) : key.toSql.Balanced := by
  have hkeyword : Balanced "PRIMARY KEY" := by decide
  have hauto : Balanced (if key.autoincrement then " AUTOINCREMENT" else "").toList := by
    split <;> decide
  exact ((hkeyword.append (balanced_sortClause key.order)).append
    (balanced_conflictClause key.conflict)).append hauto

theorem Generated.balanced_toSql {g : Generated} (h : g.expression.Balanced) :
    g.toSql.Balanced := by
  have halways : Balanced (if g.always then "GENERATED ALWAYS " else "").toList := by
    split <;> decide
  have has : Balanced "AS " := by decide
  have hblank : Balanced " " := by decide
  have hstorage : g.storage.keyword.Balanced := by cases g.storage <;> decide
  exact (((halways.append has).append h.parenthesized).append hblank).append hstorage

theorem balanced_namedClause {name : Option Text} (hname : ∀ word ∈ name, word.Balanced)
    {t : Text} (h : t.Balanced) : (namedClause name t).Balanced := by
  cases name with
  | none => exact h
  | some word =>
    have hkeyword : Balanced "CONSTRAINT " := by decide
    have hblank : Balanced " " := by decide
    exact ((hkeyword.append (hname word rfl)).append hblank).append h

theorem ColumnClause.balanced_toSql {field : Text} {candidates : List Model} {c : Constraint}
    {clause : ColumnClause} (h : ofConstraint field candidates c = .ok clause)
    (hnames : ∀ m ∈ candidates, m.name.Closed) (hc : c.Closed) : clause.toSql.Balanced := by
  cases c with
  | primaryKey key =>
    obtain rfl := Except.ok.inj h
    exact key.balanced_toSql
  | notNull conflict =>
    obtain rfl := Except.ok.inj h
    have hkeyword : Balanced "NOT NULL" := by decide
    exact hkeyword.append (balanced_conflictClause conflict)
  | unique conflict =>
    obtain rfl := Except.ok.inj h
    have hkeyword : Balanced "UNIQUE" := by decide
    exact hkeyword.append (balanced_conflictClause conflict)
  | check sql =>
    obtain rfl := Except.ok.inj h
    have hkeyword : Balanced "CHECK " := by decide
    exact hkeyword.append (Text.Balanced.parenthesized hc)
  | default value =>
    obtain rfl := Except.ok.inj h
    have hkeyword : Balanced "DEFAULT " := by decide
    exact hkeyword.append hc
  | collate collation =>
    obtain rfl := Except.ok.inj h
    have hkeyword : Balanced "COLLATE " := by decide
    exact hkeyword.append hc
  | references clause =>
    obtain ⟨body, hbody, rfl⟩ := hc
    obtain ⟨fk, hfk, rfl⟩ := map_eq_ok_iff.mp h
    rw [ForeignKey.ofClause_referenceText fun p hp => (hbody p hp).lone] at hfk
    exact ForeignKey.balanced_text_of_ofPieces hfk hnames hbody
  | generated g =>
    obtain rfl := Except.ok.inj h
    exact Generated.balanced_toSql hc

namespace Column

theorem Records.closed_fragments {c : Column} {field : Text} {candidates : List Model}
    {cs : List AnnotatedConstraint} (h : Records c (cs.map (.apply field candidates)))
    (hnames : ∀ m ∈ candidates, m.name.Closed) (hcs : ∀ a ∈ cs, a.Closed) :
    ∀ t ∈ c.fragments, t.Closed := by
  intro t ht
  have hmem : some t ∈ (cs.map (.apply field candidates)).map Operation.fragment? :=
    h.fragments ▸ List.mem_map_of_mem ht
  rw [List.map_map] at hmem
  obtain ⟨a, ha, hfragment⟩ := List.mem_map.mp hmem
  change (ColumnClause.ofConstraint field candidates a.constraint).toOption.map _ = _ at hfragment
  cases hclause : ColumnClause.ofConstraint field candidates a.constraint with
  | error e =>
    rw [hclause] at hfragment
    cases hfragment
  | ok clause =>
    rw [hclause] at hfragment
    obtain rfl := Option.some.inj hfragment
    have hsql := ColumnClause.balanced_toSql hclause hnames (hcs a ha).constraint
    exact closed_iff_balanced.mpr (balanced_namedClause (hcs a ha).name hsql)

/-- A column has only closed texts if the words of the annotation and the names of the candidates
are closed. -/
theorem ofField?_closed {f : Field} {candidates : List Model} {c : Column}
    (h : ofField? f candidates = .ok (some c)) (hnames : ∀ m ∈ candidates, m.name.Closed)
    (hwords : ∀ p ∈ f.tag.pieces, p.kind = .word → p.text.Closed) :
    ∀ t ∈ c.fragments, t.Closed := by
  unfold ofField? at h
  split at h
  · obtain ⟨c', hfield, hsome⟩ := map_eq_ok_iff.mp h
    obtain rfl := Option.some.inj hsome
    obtain ⟨cs, hcs, htakes⟩ := ofField_eq_ok_iff.mp hfield
    have hrecords := (records_plain f.name (Storage.infer f.type)).takes htakes
    have hclosed := Annotation.closed_of_constraints hcs hwords
    exact hrecords.closed_fragments hnames hclosed
  · cases Except.ok.inj h

/-- A field with brackets and quotes in a group, in a literal and in a word of its own. -/
def authorField : Field :=
  ⟨"AuthorID", "i64", "CONSTRAINT by REFERENCES Author (ID) MATCH FULL CHECK (author_id != ')')
    DEFAULT it''s"⟩

def authorColumn : Column where
  name := "author_id"
  storage := .integer
  fragments := ["CONSTRAINT by REFERENCES author (id) MATCH FULL",
    "CHECK (author_id != ')')", "DEFAULT (it''s)"]
  flags := { Flags.clear with check := true, default := true, foreignKey := true }

theorem ofField?_closed_author :
    ofField? authorField [Table.author] = .ok (some authorColumn) ∧
      ∀ t ∈ authorColumn.fragments, t.Closed := by
  have hfield : ofField? authorField [Table.author] = .ok (some authorColumn) := by decide +kernel
  have hnames : ∀ m ∈ [Table.author], m.name.Closed := by decide +kernel
  have hwords : ∀ p ∈ authorField.tag.pieces, p.kind = .word → p.text.Closed := by
    decide +kernel
  exact ⟨hfield, ofField?_closed hfield hnames hwords⟩

/-- A quote inside a word stays open: it is not reported, and the column has a text that is not
closed. -/
theorem ofField?_open_quote :
    ∃ c, ofField? ⟨"a", "TEXT", "DEFAULT a'b"⟩ [] = .ok (some c) ∧
      ("DEFAULT (a'b)" : Text) ∈ c.fragments ∧ ¬Text.Closed "DEFAULT (a'b)" := by
  refine ⟨⟨"a", .text, ["DEFAULT (a'b)"], { Flags.clear with default := true }⟩, ?_, ?_, ?_⟩
  · decide +kernel
  · exact List.mem_singleton_self _
  · decide +kernel

end Column

end AnnotatedSchema
