import AnnotatedSchema.Numeral.Shortest
import AnnotatedSchema.Text.Basic

/-! Decimals as text, with a point among the digits or with an exponent after them. -/

namespace AnnotatedSchema.Binary64.Decimal

def digitText (d : Decimal) : Text := Text.ofNat d.digits

/-- The exponent of ten of the first digit. -/
def leadingExponent (d : Decimal) : Int := d.digitText.length + d.exponent - 1

/-- The decimal without an exponent, always with a point and a digit on both sides of it. -/
def positional (d : Decimal) : Text :=
  let digits := d.digitText
  if 0 ≤ d.exponent then digits ++ List.replicate d.exponent.toNat '0' ++ ".0"
  else
    let places := (-d.exponent).toNat
    if places < digits.length then
      digits.take (digits.length - places) ++ "." ++ digits.drop (digits.length - places)
    else "0." ++ List.replicate (places - digits.length) '0' ++ digits

/-- The decimal with one digit before the point, or with no point if it has one digit, and with a
signed exponent. -/
def scientific (d : Decimal) : Text :=
  let fraction := d.digitText.drop 1
  d.digitText.take 1 ++ (if fraction = [] then [] else '.' :: fraction) ++ "e" ++
    (if 0 ≤ d.leadingExponent then "+" else "-") ++ Text.ofNat d.leadingExponent.natAbs

end AnnotatedSchema.Binary64.Decimal
