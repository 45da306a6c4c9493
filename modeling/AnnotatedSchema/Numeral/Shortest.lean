import AnnotatedSchema.Numeral.Binary64

/-!
The shortest decimal of a double precision number: of all decimals that are nearer to it than to any
other number, those with the fewest digits, and of those the nearest. Everything is computed in
natural numbers.
-/

namespace AnnotatedSchema.Binary64

/-- The decimal `digits * 10 ^ exponent`. -/
structure Decimal where
  digits : Nat
  exponent : Int
  deriving DecidableEq, Repr

/-- What to do when two shortest decimals are equally near. -/
inductive Tie where
  /-- The larger one is taken. -/
  | up
  /-- The one whose last digit is even is taken. -/
  | even
  deriving DecidableEq, Repr

/-- A number and the ends of the interval that rounds to it, all three over one denominator. The
ends belong to the interval if `closed`. -/
structure RoundingInterval where
  low : Nat
  value : Nat
  high : Nat
  denominator : Nat
  closed : Bool

/-- The interval of a mantissa and an exponent. It is narrower below a power of two, where the
numbers get denser. -/
def roundingInterval (mantissa : Nat) (exponent : Int) : RoundingInterval :=
  let below := if mantissa = twoPow 52 ∧ -1074 < exponent then 1 else 2
  let (unit, denominator) :=
    if 2 ≤ exponent then (twoPow (exponent - 2).toNat, 1) else (1, twoPow (2 - exponent).toNat)
  { low := (4 * mantissa - below) * unit
    value := 4 * mantissa * unit
    high := (4 * mantissa + 2) * unit
    denominator
    closed := mantissa % 2 == 0 }

namespace RoundingInterval

/-- The interval in units of `10 ^ exponent`. -/
def inUnits (i : RoundingInterval) (exponent : Int) : RoundingInterval :=
  if 0 ≤ exponent then { i with denominator := i.denominator * tenPow exponent.toNat }
  else
    let k := tenPow (-exponent).toNat
    { i with low := i.low * k, value := i.value * k, high := i.high * k }

/-- Whether the whole number `n` is in the interval. -/
def contains (i : RoundingInterval) (n : Nat) : Bool :=
  let m := n * i.denominator
  if i.closed then i.low ≤ m && m ≤ i.high else i.low < m && m < i.high

/-- The whole number in the interval that is nearest to the value. -/
def nearest? (i : RoundingInterval) (tie : Tie) : Option Nat :=
  let n := i.value / i.denominator
  let rest := i.value % i.denominator
  match n != 0 && i.contains n, i.contains (n + 1) with
  | true, true =>
    if 2 * rest < i.denominator then some n
    else if 2 * rest = i.denominator ∧ tie = .even ∧ n % 2 = 0 then some n
    else some (n + 1)
  | true, false => some n
  | false, true => some (n + 1)
  | false, false => none

end RoundingInterval

/-- The exponents of the decimal grids, from the coarsest to the finest that a number needs. -/
def gridExponents : List Int := (List.range 650).map fun k : Nat => 309 - (k : Int)

/-- The shortest decimal of a positive mantissa and its exponent. -/
def shortest (tie : Tie) (mantissa : Nat) (exponent : Int) : Decimal :=
  let i := roundingInterval mantissa exponent
  let hit? := gridExponents.findSome? fun e =>
    ((i.inUnits e).nearest? tie).map fun n => Decimal.mk n e
  hit?.getD ⟨0, 0⟩

end AnnotatedSchema.Binary64
