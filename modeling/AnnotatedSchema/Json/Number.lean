import AnnotatedSchema.Numeral.Layout

/-!
Numbers in JSON text. Integers of 64 bits are kept as they are. Every other number becomes a double
precision number: its first digits are read as a 64-bit whole number, which is then scaled by a
power of ten, so the result can be a little off the nearest one.
-/

namespace AnnotatedSchema.Json

inductive Number where
  | int (n : Int)
  | real (x : Binary64)
  deriving DecidableEq, Repr

namespace Number

def digitValue (c : Char) : Nat := c.toNat - '0'.toNat

/-- Appends digits to a whole number for as long as it stays below `2 ^ 64`, and counts the digits
left over. -/
def appendDigits (n : Nat) : Text → Nat × Nat
  | [] => (n, 0)
  | c :: t =>
    if n * 10 + digitValue c < twoPow 64 then appendDigits (n * 10 + digitValue c) t
    else (n, t.length + 1)

/-- Whole powers of ten as double precision numbers. -/
def powerOfTen (k : Nat) : Binary64 := .ofNat (tenPow k)

/-- The quotient by a power of ten, taken in two steps if the power is out of range. -/
def dividedByPower (x : Binary64) (k : Nat) : Binary64 :=
  if k ≤ 308 then x.div (powerOfTen k)
  else if k ≤ 616 then (x.div (powerOfTen 308)).div (powerOfTen (k - 308))
  else .ofNat 0

/-- The product of a whole number and a power of ten, if it is in range. -/
def scale? (n : Nat) (exponent : Int) : Option Binary64 :=
  let x := Binary64.ofNat n
  if n = 0 then some x
  else if exponent < 0 then some (dividedByPower x exponent.natAbs)
  else if 308 < exponent then none
  else
    let y := x.mul (powerOfTen exponent.natAbs)
    if y.isFinite then some y else none

def readFraction? : Text → Option (Text × Text)
  | '.' :: t =>
    let digits := t.takeWhile Char.isDigit
    if digits = [] then none else some (digits, t.dropWhile Char.isDigit)
  | t => some ([], t)

/-- The sign in front of the digits of an exponent. -/
def readExponentSign : Text → Bool × Text
  | '+' :: t => (false, t)
  | '-' :: t => (true, t)
  | t => (false, t)

/-- An exponent, zero if there is none. -/
def readExponent? : Text → Option (Option Int × Text)
  | [] => some (none, [])
  | c :: t =>
    if c = 'e' ∨ c = 'E' then
      let (negative, t) := readExponentSign t
      let digits := t.takeWhile Char.isDigit
      let value : Int := Nat.ofDigitChars 10 digits 0
      if digits = [] then none
      else some (some (if negative then -value else value), t.dropWhile Char.isDigit)
    else some (none, c :: t)

/-- An integer without a fraction or an exponent. One that needs more than 64 bits, and minus zero,
is a double precision number. -/
def ofInteger (negative : Bool) (n : Nat) : Number :=
  if !negative then int n
  else if 0 < n ∧ n ≤ twoPow 63 then int (-n)
  else real (Binary64.ofNat n).minus

def signed (negative : Bool) (x : Binary64) : Number := real (if negative then x.minus else x)

/-- Reads a number after its sign. A leading zero stands alone. -/
def readUnsigned? (negative : Bool) (t : Text) : Option (Number × Text) :=
  let digits := t.takeWhile Char.isDigit
  if digits = [] ∨ (digits.head? = some '0' ∧ 1 < digits.length) then none
  else do
    let (fraction, t) ← readFraction? (t.dropWhile Char.isDigit)
    let (exponent?, t) ← readExponent? t
    let (whole, excess) := appendDigits 0 digits
    if excess = 0 ∧ fraction = [] ∧ exponent? = none then return (ofInteger negative whole, t)
    let (all, unused) := appendDigits whole fraction
    let shift : Int := (excess : Int) - ((fraction.length - unused : Nat) : Int)
    let x ← scale? all (shift + exponent?.getD 0)
    return (signed negative x, t)

def read? : Text → Option (Number × Text)
  | '-' :: t => readUnsigned? true t
  | t => readUnsigned? false t

/-- Double precision numbers are written with an exponent if the first digit counts less than
`10 ^ -5` or at least `10 ^ 16`. Of two equally near decimals the even one is written. -/
def realText (x : Binary64) : Text :=
  let sign : Text := if x.negative then "-" else ""
  match x.magnitude with
  | .finite m e =>
    if m = 0 then sign ++ "0.0"
    else
      let d := Binary64.shortest .even m e
      sign ++ (if -5 ≤ d.leadingExponent ∧ d.leadingExponent < 16 then d.positional
        else d.scientific)
  | _ => "null"

def toText : Number → Text
  | int n => Text.ofInt n
  | real x => realText x

end Number

end AnnotatedSchema.Json
