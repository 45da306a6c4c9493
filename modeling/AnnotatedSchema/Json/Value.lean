import AnnotatedSchema.Json.Number

/-! JSON values and their compact text. -/

namespace AnnotatedSchema

/-- An object has its members in the order of the text, and a name may occur more than once. -/
inductive Json where
  | null
  | bool (b : Bool)
  | number (n : Json.Number)
  | string (t : Text)
  | array (items : List Json)
  | object (members : List (Text × Json))

namespace Json

/-- A character of a string as it is written between the quotes. -/
def escaped (c : Char) : Text :=
  match c with
  | '"' => ['\\', '"']
  | '\\' => ['\\', '\\']
  | '\x08' => ['\\', 'b']
  | '\x0C' => ['\\', 'f']
  | '\n' => ['\\', 'n']
  | '\r' => ['\\', 'r']
  | '\t' => ['\\', 't']
  | c =>
    if c.toNat < 0x20 then "\\u00" ++ Text.smallHexByte c.toNat else [c]

def stringText (t : Text) : Text := '"' :: t.flatMap escaped ++ ['"']

/-- Puts a member among members in order of their names. It takes the place of one of its name. -/
def putMember (name text : Text) : List (Text × Text) → List (Text × Text)
  | [] => [(name, text)]
  | (other, otherText) :: rest =>
    if name < other then (name, text) :: (other, otherText) :: rest
    else if name = other then (name, text) :: rest
    else (other, otherText) :: putMember name text rest

/-- The members in order of their names, of each name the last. -/
def sortMembers (members : List (Text × Text)) : List (Text × Text) :=
  members.foldl (fun sorted (name, text) => putMember name text sorted) []

def memberText : Text × Text → Text
  | (name, text) => stringText name ++ ":" ++ text

/-- Texts between two brackets, separated by commas without blanks. -/
def bracketed (left right : Char) (ts : List Text) : Text :=
  left :: List.intercalate [','] ts ++ [right]

mutual

def toText : Json → Text
  | null => "null"
  | bool true => "true"
  | bool false => "false"
  | number n => n.toText
  | string t => stringText t
  | array items => bracketed '[' ']' (listToText items)
  | object members =>
    bracketed '\x7b' '\x7d' ((sortMembers (memberTexts members)).map memberText)

def listToText : List Json → List Text
  | [] => []
  | j :: js => j.toText :: listToText js

def memberTexts : List (Text × Json) → List (Text × Text)
  | [] => []
  | (name, j) :: rest => (name, j.toText) :: memberTexts rest

end

end Json

end AnnotatedSchema
