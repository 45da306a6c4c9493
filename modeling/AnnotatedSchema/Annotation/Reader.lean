import AnnotatedSchema.Annotation.Constraint
import AnnotatedSchema.Annotation.Keyword
import AnnotatedSchema.Error

/-!
Reading the constraints of an annotation from its pieces. Pieces that no clause has a use for are
skipped; a clause that lacks its argument is an error. Every reader takes the pieces that follow and
gives back those it has left.
-/

namespace AnnotatedSchema

namespace Annotation

/-- The pieces without the word `CONFLICT` in front of them. -/
def skipConflict : List Piece → List Piece
  | [] => []
  | p :: rest => if p.isWord "CONFLICT" then rest else p :: rest

/-- Reads a word that is no keyword as a conflict action. If it names none it is read all the
same. -/
def readAction : List Piece → Option ConflictAction × List Piece
  | [] => (none, [])
  | p :: rest =>
    if p.kind = .word ∧ !Keyword.leads (p :: rest) then (ConflictAction.ofKeyword? p.text, rest)
    else (none, p :: rest)

/-- Reads the action of a conflict clause, after `ON`. The word `CONFLICT` can be left out. -/
def readConflictAction (ps : List Piece) : Option ConflictAction × List Piece :=
  readAction (skipConflict ps)

def readConflictClause : List Piece → Option ConflictAction × List Piece
  | on :: conflict :: rest =>
    if on.isWord "ON" && conflict.isWord "CONFLICT" then readConflictAction (conflict :: rest)
    else (none, on :: conflict :: rest)
  | ps => (none, ps)

theorem length_skipConflict (ps : List Piece) : (skipConflict ps).length ≤ ps.length := by
  cases ps with
  | nil => simp [skipConflict]
  | cons p rest => rw [skipConflict]; split <;> simp

theorem length_readAction (ps : List Piece) : (readAction ps).2.length ≤ ps.length := by
  cases ps with
  | nil => simp [readAction]
  | cons p rest => rw [readAction]; split <;> simp

theorem length_readConflictAction (ps : List Piece) :
    (readConflictAction ps).2.length ≤ ps.length :=
  Nat.le_trans (length_readAction _) (length_skipConflict _)

theorem length_readConflictClause (ps : List Piece) :
    (readConflictClause ps).2.length ≤ ps.length := by
  unfold readConflictClause
  split
  · split
    · exact Nat.le_trans (length_readConflictAction _) (by simp)
    · simp
  · simp

/-- Reads the options of a primary key, up to the next keyword. The first sort order counts, and the
last known conflict action. -/
def readKeyOptions (key : ColumnKey) (ps : List Piece) : ColumnKey × List Piece :=
  match ps with
  | [] => (key, [])
  | p :: rest =>
    if Keyword.leads (p :: rest) then (key, p :: rest)
    else if p.kind ≠ .word then readKeyOptions key rest
    else
      match SortOrder.ofKeyword? p.text with
      | some order => readKeyOptions { key with order := key.order.or (some order) } rest
      | none =>
        if p.isWord "AUTOINCREMENT" then readKeyOptions { key with autoincrement := true } rest
        else if p.isWord "ON" then
          readKeyOptions { key with conflict := (readConflictAction rest).1.or key.conflict }
            (readConflictAction rest).2
        else readKeyOptions key rest
termination_by ps.length
decreasing_by
  all_goals simp
  have := length_readConflictAction rest
  omega

def readGroup? : List Piece → Option (Text × List Piece)
  | [] => none
  | p :: rest =>
    match p.groupBody? with
    | some (c :: body) => some (c :: body, rest)
    | _ => none

/-- Reads a default value: any one piece but a keyword or empty brackets. -/
def readDefault? : List Piece → Option (DefaultValue × List Piece)
  | [] => none
  | p :: rest =>
    if p.groupBody? = some [] ∨ Keyword.leads (p :: rest) then none
    else some (DefaultValue.ofText p.text, rest)

def readWord? : List Piece → Option (Text × List Piece)
  | [] => none
  | p :: rest =>
    if p.kind = .word ∧ !Keyword.leads (p :: rest) then some (p.text, rest) else none

/-- Reads all pieces up to the next keyword. A `DEFAULT` right after `SET` is part of an action and
ends nothing; `afterSet` tells whether the piece before was that word. -/
def readReference (afterSet : Bool) : List Piece → List Piece × List Piece
  | [] => ([], [])
  | p :: rest =>
    if Keyword.leads (p :: rest) && !(afterSet && p.isWord "DEFAULT") then ([], p :: rest)
    else
      (p :: (readReference (p.isWord "SET") rest).1, (readReference (p.isWord "SET") rest).2)

/-- The text of a `REFERENCES` clause with the given pieces after its keyword. -/
def referenceText (body : List Piece) : Text := "REFERENCES" ++ body.flatMap fun p => ' ' :: p.text

/-- Reads where a generated column is stored, if that is said. -/
def readGeneratedStorage : List Piece → GeneratedStorage × List Piece
  | [] => (.virtual, [])
  | p :: rest =>
    match p.kind, GeneratedStorage.ofKeyword? p.text with
    | .word, some storage => (storage, rest)
    | _, _ => (.virtual, p :: rest)

/-- Reads a generated column after the word `AS`. -/
def readGenerated? (always : Bool) (ps : List Piece) : Option (Generated × List Piece) :=
  (readGroup? ps).map fun (body, rest) =>
    (⟨body, (readGeneratedStorage rest).1, always⟩, (readGeneratedStorage rest).2)

/-- The pieces after the words `ALWAYS AS`. -/
def afterAlwaysAs? : List Piece → Option (List Piece)
  | always :: as :: rest =>
    if always.isWord "ALWAYS" && as.isWord "AS" then some rest else none
  | _ => none

/-- A clause that must have an argument: what was read, or the error that says what is missing. -/
def required {α β : Type} (column constraint expected : Text) (wrap : α → Constraint)
    (read : Option (α × β)) : Except SchemaError (Constraint × β) :=
  match read with
  | some (a, rest) => .ok (wrap a, rest)
  | none => .error (.missingExpression column constraint expected)

def readClause (column : Text) (head : ClauseHead) (ps : List Piece) :
    Except SchemaError (Constraint × List Piece) :=
  match head with
  | .primaryKey =>
    .ok (.primaryKey (readKeyOptions .plain ps).1, (readKeyOptions .plain ps).2)
  | .notNull =>
    .ok (.notNull (readConflictClause ps).1, (readConflictClause ps).2)
  | .unique =>
    .ok (.unique (readConflictClause ps).1, (readConflictClause ps).2)
  | .check => required column "CHECK" "a parenthesized expression" .check (readGroup? ps)
  | .default =>
    required column "DEFAULT" "a value or parenthesized expression" .default (readDefault? ps)
  | .collate => required column "COLLATE" "a collation name" .collate (readWord? ps)
  | .references =>
    .ok (.references (referenceText (readReference false ps).1), (readReference false ps).2)
  | .generated =>
    match afterAlwaysAs? ps with
    | none => .error (.missingExpression column "GENERATED" "ALWAYS AS (expression)")
    | some rest =>
      required column "GENERATED" "a parenthesized expression" .generated (readGenerated? true rest)
  | .as => required column "AS" "a parenthesized expression" .generated (readGenerated? false ps)

theorem length_readKeyOptions (key : ColumnKey) (ps : List Piece) :
    (readKeyOptions key ps).2.length ≤ ps.length := by
  fun_induction readKeyOptions key ps with
  | case1 => simp
  | case2 => simp
  | case3 _ _ _ _ _ ih => simp; omega
  | case4 _ _ _ _ _ _ _ ih => simp only [List.length_cons]; omega
  | case5 _ _ _ _ _ _ _ ih => simp; omega
  | case6 _ _ rest _ _ _ _ _ ih =>
    have := length_readConflictAction rest
    simp; omega
  | case7 _ _ _ _ _ _ _ _ ih => simp; omega

theorem length_readGroup? {ps rest : List Piece} {body : Text}
    (h : readGroup? ps = some (body, rest)) : rest.length ≤ ps.length := by
  cases ps with
  | nil => simp [readGroup?] at h
  | cons p ps => rw [readGroup?] at h; split at h <;> simp_all

theorem length_readDefault? {ps rest : List Piece} {value : DefaultValue}
    (h : readDefault? ps = some (value, rest)) : rest.length ≤ ps.length := by
  cases ps with
  | nil => simp [readDefault?] at h
  | cons p ps => rw [readDefault?] at h; split at h <;> simp_all

theorem length_readWord? {ps rest : List Piece} {word : Text}
    (h : readWord? ps = some (word, rest)) : rest.length ≤ ps.length := by
  cases ps with
  | nil => simp [readWord?] at h
  | cons p ps => rw [readWord?] at h; split at h <;> simp_all

theorem length_readReference (afterSet : Bool) (ps : List Piece) :
    (readReference afterSet ps).2.length ≤ ps.length := by
  fun_induction readReference afterSet ps <;> simp only [List.length_cons] <;> omega

theorem length_readGeneratedStorage (ps : List Piece) :
    (readGeneratedStorage ps).2.length ≤ ps.length := by
  cases ps with
  | nil => simp [readGeneratedStorage]
  | cons p ps => rw [readGeneratedStorage]; split <;> simp

theorem length_readGenerated? {always : Bool} {ps rest : List Piece} {g : Generated}
    (h : readGenerated? always ps = some (g, rest)) : rest.length ≤ ps.length := by
  obtain ⟨⟨body, left⟩, hg, h⟩ := Option.map_eq_some_iff.mp h
  have hr : rest = (readGeneratedStorage left).2 := (congrArg Prod.snd h).symm
  exact hr ▸ Nat.le_trans (length_readGeneratedStorage left) (length_readGroup? hg)

theorem length_afterAlwaysAs? {ps rest : List Piece} (h : afterAlwaysAs? ps = some rest) :
    rest.length ≤ ps.length := by
  unfold afterAlwaysAs? at h
  split at h
  · split at h <;> simp_all; omega
  · simp at h

theorem read_of_required {α β : Type} {column constraint expected : Text} {wrap : α → Constraint}
    {read : Option (α × β)} {c : Constraint} {rest : β}
    (h : required column constraint expected wrap read = .ok (c, rest)) :
    ∃ a, read = some (a, rest) ∧ c = wrap a := by
  unfold required at h
  split at h <;> simp_all

/-- No clause gives back more pieces than it was given. -/
theorem length_readClause {column : Text} {head : ClauseHead} {ps rest : List Piece}
    {c : Constraint} (h : readClause column head ps = .ok (c, rest)) :
    rest.length ≤ ps.length := by
  cases head with
  | primaryKey => simp [readClause] at h; exact h.2 ▸ length_readKeyOptions _ _
  | notNull => simp [readClause] at h; exact h.2 ▸ length_readConflictClause _
  | unique => simp [readClause] at h; exact h.2 ▸ length_readConflictClause _
  | check => obtain ⟨_, h, _⟩ := read_of_required h; exact length_readGroup? h
  | default => obtain ⟨_, h, _⟩ := read_of_required h; exact length_readDefault? h
  | collate => obtain ⟨_, h, _⟩ := read_of_required h; exact length_readWord? h
  | references => simp [readClause] at h; exact h.2 ▸ length_readReference _ _
  | generated =>
    simp only [readClause] at h
    split at h
    · simp at h
    · rename_i left hl
      obtain ⟨_, h, _⟩ := read_of_required h
      exact Nat.le_trans (length_readGenerated? h) (length_afterAlwaysAs? hl)
  | as => obtain ⟨_, h, _⟩ := read_of_required h; exact length_readGenerated? h

/-- Reads the constraint name after `CONSTRAINT`, or keeps the one read before if there is none. -/
def readName (name : Option Text) (ps : List Piece) : Option Text × List Piece :=
  match readWord? ps with
  | some (word, rest) => (some word, rest)
  | none => (name, ps)

theorem length_readName (name : Option Text) (ps : List Piece) :
    (readName name ps).2.length ≤ ps.length := by
  unfold readName
  split
  · exact length_readWord? (by assumption)
  · exact Nat.le_refl _

/-- Reads all constraints. The name read last goes to the next constraint. -/
def readConstraints (column : Text) (name : Option Text) (ps : List Piece) :
    Except SchemaError (List AnnotatedConstraint) :=
  match ps with
  | [] => .ok []
  | p :: rest =>
    match Keyword.leading? (p :: rest) with
    | none => readConstraints column name rest
    | some .constraint => readConstraints column (readName name rest).1 (readName name rest).2
    | some (.clause head) =>
      match _h : readClause column head (rest.drop (Keyword.width (.clause head) - 1)) with
      | .error e => .error e
      | .ok (constraint, left) =>
        (readConstraints column none left).map (⟨name, constraint⟩ :: ·)
termination_by ps.length
decreasing_by
  · simp
  · have := length_readName name rest
    simp; omega
  · have := length_readClause _h
    simp at *; omega

/-- The constraints that an annotation gives to a column, in order. -/
def constraints (column tag : Text) : Except SchemaError (List AnnotatedConstraint) :=
  match Piece.scan tag with
  | .error fault => .error (.malformed column fault)
  | .ok pieces => readConstraints column none pieces

end Annotation

end AnnotatedSchema
