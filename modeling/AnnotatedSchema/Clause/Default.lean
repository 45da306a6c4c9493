import AnnotatedSchema.Text.Blank
import AnnotatedSchema.Value

/-!
Default values. One piece of an annotation is read as a keyword, a quoted text, a signed number or,
if it is none of these, an expression.
-/

namespace AnnotatedSchema

inductive DefaultValue where
  | null
  | bool (b : Bool)
  | currentTime
  | currentDate
  | currentTimestamp
  | text (t : Text)
  | number (t : Text)
  | expression (sql : Text)
  deriving DecidableEq

namespace DefaultValue

/-- The defaults that are written as one keyword. -/
def keywords : List (Text × DefaultValue) :=
  [("NULL", null), ("TRUE", bool true), ("FALSE", bool false),
    ("CURRENT_TIME", currentTime), ("CURRENT_DATE", currentDate),
    ("CURRENT_TIMESTAMP", currentTimestamp)]

def ofKeyword? (t : Text) : Option DefaultValue :=
  (keywords.find? fun k => t.sameKeyword k.1).map (·.2)

def isHexDigit (c : Char) : Bool := c.isDigit || ('a' ≤ c && c ≤ 'f') || ('A' ≤ c && c ≤ 'F')

/-- The text without one sign in front of it. -/
def withoutSign : Text → Text
  | '+' :: t => t
  | '-' :: t => t
  | t => t

def isDigits (t : Text) : Bool := t != [] && t.all Char.isDigit

/-- What may follow the digits of a number: nothing, or an exponent with an optional sign. -/
def isExponent : Text → Bool
  | [] => true
  | c :: t => (c == 'e' || c == 'E') && isDigits (withoutSign t)

/-- Digits with an optional point, at least one digit, and an optional exponent. -/
def isDecimal (t : Text) : Bool :=
  let whole := t.takeWhile Char.isDigit
  match t.dropWhile Char.isDigit with
  | '.' :: rest =>
    (whole != [] || rest.takeWhile Char.isDigit != []) && isExponent (rest.dropWhile Char.isDigit)
  | rest => whole != [] && isExponent rest

/-- A number after its sign: a decimal, or digits to the base 16 after `0x`. -/
def isUnsigned : Text → Bool
  | '0' :: 'x' :: t => t != [] && t.all isHexDigit
  | '0' :: 'X' :: t => t != [] && t.all isHexDigit
  | t => isDecimal t

def isNumber (t : Text) : Bool := isUnsigned (withoutSign t)

/-- The text between one pair of round brackets at its ends, or the whole text. -/
def withoutParentheses : Text → Text
  | '(' :: t => ((List.isSuffixOf? [')'] t).map Text.trim).getD ('(' :: t)
  | t => t

def ofText (piece : Text) : DefaultValue :=
  let t := piece.trim
  match ofKeyword? t, t.unquoted? with
  | some keyword, _ => keyword
  | none, some body => text body
  | none, none => if isNumber t then number t else expression (withoutParentheses t)

/-- The default that a program value stands for. -/
def ofValue : Value → DefaultValue
  | .null => null
  | .bool b => bool b
  | .text t => text t
  | .blob bytes => expression (Value.blob bytes).literal
  | v => number v.literal

def valueSql : DefaultValue → Text
  | null => "NULL"
  | bool true => "TRUE"
  | bool false => "FALSE"
  | currentTime => "CURRENT_TIME"
  | currentDate => "CURRENT_DATE"
  | currentTimestamp => "CURRENT_TIMESTAMP"
  | text t => t.quoted
  | number t => t
  | expression sql => sql.parenthesized

def toSql (d : DefaultValue) : Text := "DEFAULT " ++ d.valueSql

end DefaultValue

end AnnotatedSchema
