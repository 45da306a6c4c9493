import AnnotatedSchema.Proofs.ColumnRun
import Mathlib.Data.List.FinRange

/-!
# The order of constraints

Whether a column takes a list of constraints does not depend on their order: each must be possible
alone, and no two may clash. The same constraints in another order set the same flags and give the
same texts, in that order.
-/

namespace AnnotatedSchema

namespace ClauseKind

/-- The pairs of kinds that no column has: twice a kind it may have once, and two kinds that cannot
stand beside each other. -/
def clashes : List (ClauseKind × ClauseKind) :=
  [(primaryKey, primaryKey), (default, default), (collate, collate), (generated, generated),
    (generated, primaryKey), (generated, unique), (generated, default), (generated, foreignKey),
    (primaryKey, default)]

def Clash (kind other : ClauseKind) : Prop := (kind, other) ∈ clashes ∨ (other, kind) ∈ clashes

instance (kind other : ClauseKind) : Decidable (kind.Clash other) :=
  inferInstanceAs (Decidable (_ ∨ _))

-- Which of two kinds comes first does not matter, though each has a list of its own.
theorem mem_excludes_iff (kind other : ClauseKind) : kind ∈ other.excludes ↔ kind.Clash other := by
  cases kind <;> cases other <;> decide

end ClauseKind

namespace Flags

theorem ext_has {f g : Flags} (hhas : ∀ kind, f.has kind = g.has kind)
    (hauto : f.autoincrement = g.autoincrement) : f = g := by
  obtain ⟨_, _, _, _, _, _, _, _, _⟩ := f
  obtain ⟨_, _, _, _, _, _, _, _, _⟩ := g
  simp only [mk.injEq]
  exact ⟨hhas .primaryKey, hhas .notNull, hhas .unique, hhas .check, hhas .default, hhas .collate,
    hhas .foreignKey, hhas .generated, hauto⟩

end Flags

namespace Column

/-- Whether the column takes all constraints, one after the other, and then is `after`. -/
def Takes (c : Column) (field : Text) (candidates : List Model) (cs : List AnnotatedConstraint)
    (after : Column) : Prop :=
  Change.on (cs.forM (apply field candidates)) c = (.ok (), after)

/-- Whether the clause of the operation can be read, and a column with the name and storage takes it
if it has no other. -/
def Operation.Possible (column : Text) (storage : Storage) (op : Operation) : Prop :=
  ∃ clause, op.clause = .ok clause ∧ clause.fault? column storage = none

/-! ## One operation -/

theorem refusal?_eq_none_iff (c : Column) (clause : ColumnClause) :
    c.refusal? clause = none ↔
      (∀ kind ∈ clause.kind.excludes, c.has kind = false) ∧
        clause.fault? c.name c.storage = none := by
  refine ⟨fun h => ⟨has_eq_false_of_refusal? h, fault?_of_refusal? h⟩, fun ⟨hhas, hfault⟩ => ?_⟩
  rw [refusal?, Option.or_eq_none_iff, Option.map_eq_none_iff, List.find?_eq_none]
  exact ⟨fun kind hkind => Bool.eq_false_iff.mp (hhas kind hkind), hfault⟩

theorem change_on_ok_iff (op : Operation) (c after : Column) :
    op.change.on c = (.ok (), after) ↔
      ∃ clause, op.clause = .ok clause ∧ c.refusal? clause = none ∧
        after = c.extend op.name clause := by
  refine ⟨extend_of_change_on_ok, ?_⟩
  rintro ⟨clause, hclause, hrefusal, rfl⟩
  rw [change_on, hclause]
  dsimp only
  rw [hrefusal]

-- What a column has been through decides whether it takes one more clause.
theorem Records.exists_change_iff {c : Column} {done : List Operation} (h : Records c done)
    (op : Operation) :
    (∃ after, op.change.on c = (.ok (), after)) ↔
      op.Possible c.name c.storage ∧ ∀ before ∈ done, before.Apart op := by
  constructor
  · rintro ⟨after, hchange⟩
    obtain ⟨clause, hclause, hrefusal, -⟩ := extend_of_change_on_ok hchange
    exact ⟨⟨clause, hclause, fault?_of_refusal? hrefusal⟩, h.excludes hclause hrefusal⟩
  · rintro ⟨⟨clause, hclause, hfault⟩, hapart⟩
    have hhas : ∀ kind ∈ clause.kind.excludes, c.has kind = false := by
      intro kind hkind
      rw [Bool.eq_false_iff, ne_eq, h.has_iff]
      rintro ⟨before, hbefore, rfl⟩
      rw [kind_of_clause hclause] at hkind
      exact hapart before hbefore hkind
    have hrefusal := (refusal?_eq_none_iff c clause).mpr ⟨hhas, hfault⟩
    exact ⟨_, (change_on_ok_iff op c _).mpr ⟨clause, hclause, hrefusal, rfl⟩⟩

/-! ## A list of constraints -/

section
variable {c after : Column} {field : Text} {candidates : List Model}
  {cs : List AnnotatedConstraint}

theorem takes_nil_iff : c.Takes field candidates [] after ↔ after = c :=
  ⟨fun h => (Prod.mk.inj h).2.symm, fun h => by rw [h]; rfl⟩

theorem takes_cons_iff {a : AnnotatedConstraint} :
    c.Takes field candidates (a :: cs) after ↔
      ∃ next, (Operation.apply field candidates a).change.on c = (.ok (), next) ∧
        next.Takes field candidates cs after := by
  have hcons : Change.on ((a :: cs).forM (apply field candidates)) c =
      Change.on (apply field candidates a >>= fun _ => cs.forM (apply field candidates)) c := rfl
  rw [Takes, hcons, Change.on_bind]
  change _ ↔ ∃ next, (apply field candidates a).on c = (.ok (), next) ∧ _
  obtain ⟨result, next⟩ := (apply field candidates a).on c
  cases result with
  | error e =>
    refine ⟨fun h => ?_, ?_⟩
    · cases (Prod.mk.inj h).1
    · rintro ⟨next', hnext, -⟩
      cases (Prod.mk.inj hnext).1
  | ok _ =>
    refine ⟨fun h => ⟨next, rfl, h⟩, ?_⟩
    rintro ⟨next', hnext, h⟩
    obtain ⟨-, rfl⟩ := Prod.mk.inj hnext
    exact h

-- A column that has taken the constraints records them after what it had.
theorem Records.takes {done : List Operation} (h : Records c done)
    (htakes : c.Takes field candidates cs after) :
    Records after (done ++ cs.map (.apply field candidates)) := by
  induction cs generalizing c done with
  | nil =>
    obtain rfl := takes_nil_iff.mp htakes
    rwa [List.map_nil, List.append_nil]
  | cons a cs ih =>
    obtain ⟨next, hchange, hnext⟩ := takes_cons_iff.mp htakes
    obtain ⟨clause, hclause, hrefusal, rfl⟩ := extend_of_change_on_ok hchange
    have hrecords := ih (h.extend hclause hrefusal) hnext
    rwa [List.append_assoc] at hrecords

-- All are taken just if each is possible and no two of them, or of those before, clash.
theorem Records.exists_takes_iff {done : List Operation} (h : Records c done) :
    (∃ after, c.Takes field candidates cs after) ↔
      (∀ a ∈ cs, Operation.Possible c.name c.storage (.apply field candidates a)) ∧
        (done ++ cs.map (Operation.apply field candidates)).Pairwise Operation.Apart := by
  induction cs generalizing c done with
  | nil =>
    rw [List.map_nil, List.append_nil]
    exact iff_of_true ⟨c, takes_nil_iff.mpr rfl⟩ ⟨List.forall_mem_nil _, h.apart⟩
  | cons a cs ih =>
    have hassoc : done ++ (a :: cs).map (Operation.apply field candidates) =
        (done ++ [Operation.apply field candidates a]) ++
          cs.map (Operation.apply field candidates) := by
      rw [List.map_cons, List.append_assoc, List.singleton_append]
    rw [List.forall_mem_cons, hassoc]
    constructor
    · rintro ⟨after, htakes⟩
      obtain ⟨next, hchange, hnext⟩ := takes_cons_iff.mp htakes
      obtain ⟨hpossible, -⟩ := (h.exists_change_iff _).mp ⟨next, hchange⟩
      obtain ⟨clause, hclause, hrefusal, rfl⟩ := extend_of_change_on_ok hchange
      obtain ⟨hall, hapart⟩ := (ih (h.extend hclause hrefusal)).mp ⟨after, hnext⟩
      exact ⟨⟨hpossible, hall⟩, hapart⟩
    · rintro ⟨⟨hpossible, hall⟩, hapart⟩
      have hbefore : ∀ before ∈ done, before.Apart (.apply field candidates a) := fun before hmem =>
        (List.pairwise_append.mp (List.pairwise_append.mp hapart).1).2.2 before hmem _
          (List.mem_singleton.mpr rfl)
      obtain ⟨next, hchange⟩ := (h.exists_change_iff _).mpr ⟨hpossible, hbefore⟩
      obtain ⟨clause, hclause, hrefusal, rfl⟩ := extend_of_change_on_ok hchange
      obtain ⟨after, hnext⟩ := (ih (h.extend hclause hrefusal)).mpr ⟨hall, hapart⟩
      exact ⟨after, takes_cons_iff.mpr ⟨_, hchange, hnext⟩⟩

end

section
variable (declared : Text) (storage : Storage) (field : Text) (candidates : List Model)
  (cs : List AnnotatedConstraint)

theorem pairwise_apart_iff :
    (cs.map (Operation.apply field candidates)).Pairwise Operation.Apart ↔
      cs.Pairwise fun a b => ¬a.constraint.kind.Clash b.constraint.kind := by
  rw [List.pairwise_map]
  refine iff_of_eq (congrArg (List.Pairwise · cs) ?_)
  funext a b
  exact propext (not_congr (ClauseKind.mem_excludes_iff _ _))

-- Each constraint alone is taken just if it is possible.
theorem exists_takes_plain_iff :
    (∃ c, (plain declared storage).Takes field candidates cs c) ↔
      (∀ a ∈ cs, ∃ c, (plain declared storage).Takes field candidates [a] c) ∧
        cs.Pairwise fun a b => ¬a.constraint.kind.Clash b.constraint.kind := by
  have hfresh := records_plain declared storage
  have halone (a : AnnotatedConstraint) :
      (∃ c, (plain declared storage).Takes field candidates [a] c) ↔
        Operation.Possible (identifier declared) storage (.apply field candidates a) := by
    rw [hfresh.exists_takes_iff]
    exact ⟨fun h => h.1 a (List.mem_singleton.mpr rfl), fun h =>
      ⟨List.forall_mem_singleton.mpr h, List.pairwise_singleton _ _⟩⟩
  rw [hfresh.exists_takes_iff, List.nil_append, pairwise_apart_iff]
  exact and_congr_left' (forall₂_congr fun a _ => (halone a).symm)

-- A permutation of the constraints keeps which of them are possible and which clash.
theorem exists_takes_plain_perm {cs' : List AnnotatedConstraint} (hperm : cs'.Perm cs) :
    (∃ c, (plain declared storage).Takes field candidates cs c) ↔
      ∃ c, (plain declared storage).Takes field candidates cs' c := by
  rw [exists_takes_plain_iff, exists_takes_plain_iff _ _ _ _ cs']
  have hclash : ∀ {a b : AnnotatedConstraint}, ¬a.constraint.kind.Clash b.constraint.kind →
      ¬b.constraint.kind.Clash a.constraint.kind := fun h hclash => h hclash.symm
  simp only [hperm.mem_iff, hperm.pairwise_iff hclash]

end

theorem flags_eq_of_perm {c c' : Column} {done done' : List Operation} (h : Records c done)
    (h' : Records c' done') (hperm : done'.Perm done) : c'.flags = c.flags := by
  refine Flags.ext_has (fun kind => Bool.eq_iff_iff.mpr ?_) (Bool.eq_iff_iff.mpr ?_)
  · change c'.has kind = true ↔ c.has kind = true
    simp only [h.has_iff, h'.has_iff, hperm.mem_iff]
  · change c'.isAutoincrement = true ↔ c.isAutoincrement = true
    simp only [h.autoincrement_iff, h'.autoincrement_iff, hperm.mem_iff]

-- The text of a constraint is the same wherever it stands.
theorem Records.fragment_eq {c : Column} {field : Text} {candidates : List Model}
    {cs : List AnnotatedConstraint} (h : Records c (cs.map (.apply field candidates)))
    (i : Fin cs.length) :
    c.fragments[i.val]? = (Operation.apply field candidates (cs.get i)).fragment? := by
  have hget := congrArg (fun fragments => fragments[i.val]?) h.fragments
  simp only [List.getElem?_map, List.getElem?_eq_getElem i.isLt, Option.map_some] at hget
  obtain ⟨fragment, hfragment, heq⟩ := Option.map_eq_some_iff.mp hget
  rw [hfragment, heq]
  rfl

/-- A column takes constraints in any order or in none: each must be possible alone, and no two may
clash. The order decides nothing but that of their texts. -/
theorem takes_permuted (declared : Text) (storage : Storage) (field : Text)
    (candidates : List Model) (cs : List AnnotatedConstraint) :
    ((∃ c, (plain declared storage).Takes field candidates cs c) ↔
      (∀ a ∈ cs, ∃ c, (plain declared storage).Takes field candidates [a] c) ∧
        cs.Pairwise fun a b => ¬a.constraint.kind.Clash b.constraint.kind) ∧
    ∀ σ : Equiv.Perm (Fin cs.length),
      ((∃ c, (plain declared storage).Takes field candidates cs c) ↔
        ∃ c, (plain declared storage).Takes field candidates (List.ofFn (cs.get ∘ σ)) c) ∧
      ∀ c c', (plain declared storage).Takes field candidates cs c →
        (plain declared storage).Takes field candidates (List.ofFn (cs.get ∘ σ)) c' →
        c'.flags = c.flags ∧ c.fragments.length = cs.length ∧
          c'.fragments.map some = List.ofFn fun i => c.fragments[(σ i).val]? := by
  refine ⟨exists_takes_plain_iff declared storage field candidates cs, fun σ => ?_⟩
  have hperm : (List.ofFn (cs.get ∘ σ)).Perm cs := by
    have hcomp := σ.ofFn_comp_perm cs.get
    rwa [List.ofFn_get] at hcomp
  refine ⟨exists_takes_plain_perm declared storage field candidates cs hperm,
    fun c c' htakes htakes' => ?_⟩
  have h : Records c (cs.map (.apply field candidates)) :=
    (records_plain declared storage).takes htakes
  have h' : Records c' ((List.ofFn (cs.get ∘ σ)).map (.apply field candidates)) :=
    (records_plain declared storage).takes htakes'
  refine ⟨flags_eq_of_perm h h' (hperm.map _), ?_, ?_⟩
  · have hlength := congrArg List.length h.fragments
    simpa only [List.length_map] using hlength
  · calc c'.fragments.map some
        = ((List.ofFn (cs.get ∘ σ)).map (.apply field candidates)).map Operation.fragment? :=
          h'.fragments
      _ = List.ofFn fun i => (Operation.apply field candidates (cs.get (σ i))).fragment? := by
          rw [List.map_ofFn, List.map_ofFn]
          rfl
      _ = List.ofFn fun i => c.fragments[(σ i).val]? := by simp only [h.fragment_eq]

/-- Three constraints that a column takes in any order. -/
def emailConstraints : List AnnotatedConstraint :=
  [⟨none, .notNull none⟩, ⟨some "uq_email", .unique (some .ignore)⟩,
    ⟨none, .default (.text "none")⟩]

theorem takes_permuted_email :
    let σ : Equiv.Perm (Fin emailConstraints.length) := Equiv.swap (0 : Fin 3) (2 : Fin 3)
    ∃ c c', (plain "Email" .text).Takes "email" [] emailConstraints c ∧
      (plain "Email" .text).Takes "email" [] (List.ofFn (emailConstraints.get ∘ σ)) c' ∧
      c'.flags = c.flags ∧
      c'.fragments.map some = List.ofFn fun i => c.fragments[(σ i).val]? := by
  intro σ
  have htakes : ∃ c, (plain "Email" .text).Takes "email" [] emailConstraints c := ⟨_, rfl⟩
  obtain ⟨hiff, hall⟩ := (takes_permuted "Email" .text "email" [] emailConstraints).2 σ
  obtain ⟨c, hc⟩ := htakes
  obtain ⟨c', hc'⟩ := hiff.mp ⟨c, hc⟩
  obtain ⟨hflags, -, hfragments⟩ := hall c c' hc hc'
  exact ⟨c, c', hc, hc', hflags, hfragments⟩

end Column

end AnnotatedSchema
