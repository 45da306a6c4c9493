import AnnotatedSchema.Text.Basic

/-! The keywords that modify a constraint clause. -/

namespace AnnotatedSchema

/-- The direction of a key, an indexed column or an ordering term. -/
inductive SortOrder where
  | asc
  | desc
  deriving DecidableEq, Repr

namespace SortOrder

def all : List SortOrder := [asc, desc]

def keyword : SortOrder → Text
  | asc => "ASC"
  | desc => "DESC"

def ofKeyword? (t : Text) : Option SortOrder := all.find? fun o => t.sameKeyword o.keyword

/-- The order after a blank, or nothing. -/
def clause : Option SortOrder → Text
  | none => []
  | some o => " " ++ o.keyword

end SortOrder

/-- What happens to a statement that violates a constraint. -/
inductive ConflictAction where
  | rollback
  | abort
  | fail
  | ignore
  | replace
  deriving DecidableEq, Repr

namespace ConflictAction

def all : List ConflictAction := [rollback, abort, fail, ignore, replace]

def keyword : ConflictAction → Text
  | rollback => "ROLLBACK"
  | abort => "ABORT"
  | fail => "FAIL"
  | ignore => "IGNORE"
  | replace => "REPLACE"

def ofKeyword? (t : Text) : Option ConflictAction := all.find? fun a => t.sameKeyword a.keyword

/-- The conflict clause after a blank, or nothing. -/
def clause : Option ConflictAction → Text
  | none => []
  | some a => " ON CONFLICT " ++ a.keyword

end ConflictAction

/-- When the value of a generated column is computed: on every read, or once on write. -/
inductive GeneratedStorage where
  | virtual
  | stored
  deriving DecidableEq, Repr

namespace GeneratedStorage

def all : List GeneratedStorage := [virtual, stored]

def keyword : GeneratedStorage → Text
  | virtual => "VIRTUAL"
  | stored => "STORED"

def ofKeyword? (t : Text) : Option GeneratedStorage := all.find? fun s => t.sameKeyword s.keyword

end GeneratedStorage

/-- A clause after its constraint name, if it has one. -/
def namedClause : Option Text → Text → Text
  | none, clause => clause
  | some name, clause => "CONSTRAINT " ++ name ++ " " ++ clause

end AnnotatedSchema
