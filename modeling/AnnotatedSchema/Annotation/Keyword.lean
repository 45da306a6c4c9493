import AnnotatedSchema.Annotation.Piece

/-! The keywords that constraint clauses start with. -/

namespace AnnotatedSchema

/-- The heads of constraint clauses. A generated column has a long and a short form. -/
inductive ClauseHead where
  | primaryKey
  | notNull
  | unique
  | check
  | default
  | collate
  | references
  | generated
  | as
  deriving DecidableEq, Repr

/-- The word before a constraint name, or the head of a clause. -/
inductive Keyword where
  | constraint
  | clause (head : ClauseHead)
  deriving DecidableEq, Repr

namespace Keyword

def text : Keyword → Text
  | constraint => "CONSTRAINT"
  | clause .primaryKey => "PRIMARY KEY"
  | clause .notNull => "NOT NULL"
  | clause .unique => "UNIQUE"
  | clause .check => "CHECK"
  | clause .default => "DEFAULT"
  | clause .collate => "COLLATE"
  | clause .references => "REFERENCES"
  | clause .generated => "GENERATED"
  | clause .as => "AS"

/-- How many pieces the keyword takes. -/
def width : Keyword → Nat
  | clause .primaryKey => 2
  | clause .notNull => 2
  | _ => 1

def oneWord : List Keyword :=
  [constraint, clause .unique, clause .check, clause .default, clause .collate,
    clause .references, clause .generated, clause .as]

/-- The keyword that the pieces start with. One of two words needs both of them, so a lone `NOT` is
no keyword. -/
def leading? : List Piece → Option Keyword
  | [] => none
  | p :: ps =>
    let nextIs (word : Text) : Bool := ps.head?.any (·.isWord word)
    match oneWord.find? fun k => p.isWord k.text with
    | some k => some k
    | none =>
      if p.isWord "PRIMARY" && nextIs "KEY" then some (clause .primaryKey)
      else if p.isWord "NOT" && nextIs "NULL" then some (clause .notNull)
      else none

def leads (ps : List Piece) : Bool := (leading? ps).isSome

end Keyword

end AnnotatedSchema
