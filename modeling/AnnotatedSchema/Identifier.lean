import AnnotatedSchema.Text.LetterCase

/-!
SQL identifiers of declared names. A name written in words that start with capitals is written in
small letters, with an underscore where a word starts: `CategoryID` becomes `category_id`.
-/

namespace AnnotatedSchema

/-- Whether a capital letter starts a word: the character before it is a small letter or an ASCII
digit, or it is a capital too and a small letter follows. -/
def startsWord (before next : Option Char) : Bool :=
  match before with
  | none => false
  | some b => isSmall b || b.isDigit || (isCapital b && next.any isSmall)

/-- The identifier of the rest of a name, where `before` is the character that comes before it. -/
def identifierAfter (before : Option Char) : Text → Text
  | [] => []
  | c :: rest =>
    if isCapital c then
      (if startsWord before rest.head? then ['_'] else []) ++ smallForm c ++
        identifierAfter (some c) rest
    else c :: identifierAfter (some c) rest

def identifier (name : Text) : Text := identifierAfter none name

def identifierList (names : List Text) : Text := Text.commaSeparated (names.map identifier)

/-- A schema name before the name of something in it. -/
def qualifier : Option Text → Text
  | none => []
  | some schema => schema ++ "."

end AnnotatedSchema
