import AnnotatedSchema.Numeral.Layout
import AnnotatedSchema.Text.Quoted

/-! Literal values and binding parameters, as they are written into SQL text. -/

namespace AnnotatedSchema

/-- A digit to the base 16, in capitals. -/
def hexDigit (n : Nat) : Char := if n < 10 then Char.ofNat (48 + n) else Char.ofNat (55 + n)

def hexByte (b : UInt8) : Text := [hexDigit (b.toNat / 16), hexDigit (b.toNat % 16)]

/-- A number with its shortest digits and a point, never with an exponent. Of two equally near
decimals the larger is written. -/
def Binary64.text (x : Binary64) : Text :=
  let sign : Text := if x.negative then "-" else ""
  match x.magnitude with
  | .nan => "NaN"
  | .infinite => sign ++ "inf"
  | .finite m e => sign ++ (if m = 0 then "0.0".toList else (shortest .up m e).positional)

inductive Value where
  | null
  | bool (b : Bool)
  | int (n : Int64)
  | real (x : Binary64)
  | text (t : Text)
  | blob (bytes : List UInt8)
  deriving DecidableEq

def Value.literal : Value → Text
  | null => "NULL"
  | bool true => "TRUE"
  | bool false => "FALSE"
  | int n => Text.ofInt n.toInt
  | real x => x.text
  | text t => t.quoted
  | blob bytes => "X'" ++ (bytes.map hexByte).flatten ++ "'"

/-- A place in a statement that gets its value when the statement runs. -/
inductive Parameter where
  | anonymous
  | indexed (n : UInt32)
  | colon (name : Text)
  | at (name : Text)
  | dollar (name : Text)
  deriving DecidableEq

def Parameter.toSql : Parameter → Text
  | anonymous => "?"
  | indexed n => "?" ++ Text.ofNat n.toNat
  | colon name => ":" ++ name
  | «at» name => "@" ++ name
  | dollar name => "$" ++ name

end AnnotatedSchema
