/-!
Double precision numbers as their 64 bits, with exact arithmetic on what the bits stand for.
Rounding goes to the nearest number, and of two equally near ones to the one whose last bit is zero.
-/

namespace AnnotatedSchema

def twoPow (k : Nat) : Nat := Nat.pow 2 k

def tenPow (k : Nat) : Nat := Nat.pow 10 k

structure Binary64 where
  bits : UInt64
  deriving DecidableEq, Repr

namespace Binary64

/-- What the bits of a number without its sign stand for: no number, an infinity, or
`mantissa * 2 ^ exponent`. -/
inductive Magnitude where
  | nan
  | infinite
  | finite (mantissa : Nat) (exponent : Int)
  deriving DecidableEq, Repr

def negative (x : Binary64) : Bool := twoPow 63 ≤ x.bits.toNat

/-- The eleven bits below the sign. -/
def exponentField (x : Binary64) : Nat := x.bits.toNat / twoPow 52 % twoPow 11

def fraction (x : Binary64) : Nat := x.bits.toNat % twoPow 52

def magnitude (x : Binary64) : Magnitude :=
  if x.exponentField = 2047 then
    if x.fraction = 0 then .infinite else .nan
  else if x.exponentField = 0 then .finite x.fraction (-1074)
  else .finite (twoPow 52 + x.fraction) (x.exponentField - 1075)

def isFinite (x : Binary64) : Bool := x.exponentField != 2047

/-- The number with the given sign whose other bits are `low`. -/
def ofSign (negative : Bool) (low : Nat) : Binary64 :=
  ⟨UInt64.ofNat (low + if negative then twoPow 63 else 0)⟩

def infinityBits : Nat := 2047 * twoPow 52

/-- The quotient `num / den` rounded to a whole number, half to even. -/
def roundQuotient (num den : Nat) : Nat :=
  let q := num / den
  let r := num % den
  if 2 * r < den then q
  else if 2 * r = den then q + q % 2
  else q + 1

/-- The quotient `num / den` times `2 ^ -e`, as a new pair of numerator and denominator. -/
def scaled (num den : Nat) (e : Int) : Nat × Nat :=
  if 0 ≤ e then (num, den * twoPow e.toNat) else (num * twoPow (-e).toNat, den)

/-- The exponent for which `num / den` has a mantissa of 53 bits, or the least exponent there is. -/
def exponentOf (num den : Nat) : Int :=
  let guess := max ((num.log2 : Int) - den.log2 - 53) (-1074)
  let (n, d) := scaled num den guess
  if twoPow 53 ≤ n / d then guess + 1 else guess

/-- The number nearest to `num / den`, an infinity if that is out of range. -/
def round (negative : Bool) (num den : Nat) : Binary64 :=
  if num = 0 then ofSign negative 0
  else
    let e := exponentOf num den
    let (n, d) := scaled num den e
    ofSign negative (min (roundQuotient n d + (e + 1074).toNat * twoPow 52) infinityBits)

/-- The magnitude of a finite number as a quotient. -/
def quotient (x : Binary64) : Nat × Nat :=
  match x.magnitude with
  | .finite m e => if 0 ≤ e then (m * twoPow e.toNat, 1) else (m, twoPow (-e).toNat)
  | _ => (0, 1)

def ofNat (n : Nat) : Binary64 := round false n 1

/-- The product of the magnitudes of two finite numbers, rounded. -/
def mul (x y : Binary64) : Binary64 :=
  round false (x.quotient.1 * y.quotient.1) (x.quotient.2 * y.quotient.2)

/-- The quotient of the magnitudes of two finite numbers, the second not zero, rounded. -/
def div (x y : Binary64) : Binary64 :=
  round false (x.quotient.1 * y.quotient.2) (x.quotient.2 * y.quotient.1)

def minus (x : Binary64) : Binary64 := ofSign true (x.bits.toNat % twoPow 63)

/-- The double precision number that a single precision number, given by its 32 bits, is equal
to. -/
def ofBinary32 (bits : UInt32) : Binary64 :=
  let negative : Bool := twoPow 31 ≤ bits.toNat
  let field := bits.toNat / twoPow 23 % twoPow 8
  let fraction := bits.toNat % twoPow 23
  if field = 255 then ofSign negative (infinityBits + fraction * twoPow 29)
  else if field = 0 then round negative fraction (twoPow 149)
  else ofSign negative ((field + 896) * twoPow 52 + fraction * twoPow 29)

end Binary64

end AnnotatedSchema
