import AnnotatedSchema.ForeignKey.Basic
import AnnotatedSchema.Text.Blank

/-!
Reading a `REFERENCES` clause: the target, by its exact name among the candidate models, at most one
of its columns, and actions in any order. Pieces that belong to no action are skipped.
-/

namespace AnnotatedSchema.ForeignKey

def resolve (column target : Text) (candidates : List Model) : Except SchemaError Model :=
  match candidates.find? (·.name == target) with
  | some model => .ok model
  | none => .error (.unresolvedReference column target)

def startsNotDeferrable : List Piece → Bool
  | p :: q :: _ => p.isWord "NOT" && q.isWord "DEFERRABLE"
  | _ => false

def startsAction : List Piece → Bool
  | [] => false
  | p :: rest =>
    p.isWord "ON" || p.isWord "MATCH" || p.isWord "DEFERRABLE" || startsNotDeferrable (p :: rest)

/-- Splits the pieces where the next action starts. -/
def splitAction : List Piece → List Piece × List Piece
  | [] => ([], [])
  | p :: rest =>
    if startsAction (p :: rest) then ([], p :: rest)
    else (p :: (splitAction rest).1, (splitAction rest).2)

/-- The body of an action, in capital letters and with single blanks. -/
def actionBody (ps : List Piece) : Text :=
  Text.spaceSeparated ((splitAction ps).1.map fun p => p.text.upperAscii)

/-- Reads the body of an action with the given reader. -/
def readBody {α : Type} (column action : Text) (read? : Text → Option α) (ps : List Piece) :
    Except SchemaError (α × List Piece) :=
  match read? (actionBody ps) with
  | some a => .ok (a, (splitAction ps).2)
  | none => .error (.invalidAction column action (actionBody ps))

def readOn (column : Text) : List Piece → Except SchemaError (Setting × List Piece)
  | [] => .error (.invalidAction column "ON" [])
  | p :: rest =>
    if p.isWord "DELETE" then
      (readBody column "ON DELETE" RowAction.ofKeywords? rest).map
        fun (action, left) => (.onDelete action, left)
    else if p.isWord "UPDATE" then
      (readBody column "ON UPDATE" RowAction.ofKeywords? rest).map
        fun (action, left) => (.onUpdate action, left)
    else .error (.invalidAction column "ON" p.text)

def readMatch (column : Text) : List Piece → Except SchemaError (Setting × List Piece)
  | [] => .error (.invalidAction column "MATCH" [])
  | p :: rest =>
    if p.kind = .word ∧ !startsAction (p :: rest) then .ok (.matchName p.text, rest)
    else .error (.invalidAction column "MATCH" [])

def readDeferral (column : Text) (deferrable : Bool) (ps : List Piece) :
    Except SchemaError (Setting × List Piece) :=
  (readBody column (Deferral.keyword ⟨deferrable, .unspecified⟩) InitialMode.ofKeywords? ps).map
    fun (mode, left) => (.deferral ⟨deferrable, mode⟩, left)

theorem length_splitAction (ps : List Piece) : (splitAction ps).2.length ≤ ps.length := by
  fun_induction splitAction ps <;> simp only [List.length_cons] <;> omega

theorem length_readBody {α : Type} {column action : Text} {read? : Text → Option α}
    {ps rest : List Piece} {a : α} (h : readBody column action read? ps = .ok (a, rest)) :
    rest.length ≤ ps.length := by
  unfold readBody at h
  split at h
  · simp at h; exact h.2 ▸ length_splitAction ps
  · simp at h

theorem length_readOn {column : Text} {ps rest : List Piece} {s : Setting}
    (h : readOn column ps = .ok (s, rest)) : rest.length ≤ ps.length := by
  have key : ∀ {f : RowAction × List Piece → Setting × List Piece} {action : Text}
      {left : List Piece}, (∀ a, (f a).2 = a.2) →
      (readBody column action RowAction.ofKeywords? left).map f = .ok (s, rest) →
      rest.length ≤ left.length := by
    intro f action left hf h
    cases hb : readBody column action RowAction.ofKeywords? left with
    | error e => simp [hb, Except.map] at h
    | ok a =>
      simp [hb, Except.map] at h
      have := hf a
      rw [h] at this
      simp only at this
      exact this ▸ length_readBody (a := a.1) hb
  cases ps with
  | nil => simp [readOn] at h
  | cons p ps =>
    rw [readOn] at h
    split at h
    · have := key (by simp) h; simp; omega
    · split at h
      · have := key (by simp) h; simp; omega
      · simp at h

theorem length_readMatch {column : Text} {ps rest : List Piece} {s : Setting}
    (h : readMatch column ps = .ok (s, rest)) : rest.length ≤ ps.length := by
  cases ps with
  | nil => simp [readMatch] at h
  | cons p ps => rw [readMatch] at h; split at h <;> simp_all

theorem length_readDeferral {column : Text} {deferrable : Bool} {ps rest : List Piece}
    {s : Setting} (h : readDeferral column deferrable ps = .ok (s, rest)) :
    rest.length ≤ ps.length := by
  unfold readDeferral at h
  cases hb : readBody column (Deferral.keyword ⟨deferrable, .unspecified⟩)
      InitialMode.ofKeywords? ps with
  | error e => simp [hb, Except.map] at h
  | ok a => simp [hb, Except.map] at h; exact h.2 ▸ length_readBody (a := a.1) hb

def readAction? (column : Text) :
    List Piece → Option (Except SchemaError (Setting × List Piece))
  | [] => none
  | p :: rest =>
    if p.isWord "ON" then some (readOn column rest)
    else if p.isWord "MATCH" then some (readMatch column rest)
    else if p.isWord "DEFERRABLE" then some (readDeferral column true rest)
    else if startsNotDeferrable (p :: rest) then some (readDeferral column false (rest.drop 1))
    else none

theorem length_readAction? {column : Text} {p : Piece} {ps rest : List Piece} {s : Setting}
    (h : readAction? column (p :: ps) = some (.ok (s, rest))) : rest.length ≤ ps.length := by
  rw [readAction?] at h
  split at h
  · exact length_readOn (Option.some.inj h)
  · split at h
    · exact length_readMatch (Option.some.inj h)
    · split at h
      · exact length_readDeferral (Option.some.inj h)
      · split at h
        · exact Nat.le_trans (length_readDeferral (Option.some.inj h)) (by simp)
        · simp at h

def readActions (column : Text) (fk : ForeignKey) (ps : List Piece) :
    Except SchemaError ForeignKey :=
  match ps with
  | [] => .ok fk
  | p :: rest =>
    match _h : readAction? column (p :: rest) with
    | none => readActions column fk rest
    | some (.error e) => .error e
    | some (.ok (setting, left)) => readActions column (fk.set setting) left
termination_by ps.length
decreasing_by
  · simp
  · have := length_readAction? _h
    simp; omega

/-- The names in a list with commas, without those that are blank. -/
def listedColumns (t : Text) : List Text := ((t.splitOn ',').map Text.trim).filter (· ≠ [])

/-- Reads what follows the target: its columns, if they are listed, and the actions. -/
def readTail (column : Text) (fk : ForeignKey) (ps : List Piece) :
    Except SchemaError ForeignKey :=
  match ps with
  | [] => .ok fk
  | p :: rest =>
    match p.groupBody? with
    | none => readActions column fk (p :: rest)
    | some body => do
      let fk ← fk.references (listedColumns body)
      readActions column fk rest

def ofPieces (column : Text) (candidates : List Model) : List Piece → Except SchemaError ForeignKey
  | [] => .error (.invalidReference column "empty clause")
  | p :: rest =>
    if !p.isWord "REFERENCES" then
      .error (.invalidReference column ("expected REFERENCES, found '" ++ p.text ++ "'"))
    else
      match rest with
      | [] => .error (.invalidReference column "missing target entity")
      | target :: rest =>
        if target.kind ≠ .word then
          .error (.invalidReference column "missing target entity")
        else do
          let model ← resolve column target.text candidates
          readTail column (onColumn column model) rest

def ofClause (column clause : Text) (candidates : List Model) : Except SchemaError ForeignKey :=
  match Piece.scan clause with
  | .error fault => .error (.malformed column fault)
  | .ok pieces => ofPieces column candidates pieces

end AnnotatedSchema.ForeignKey
