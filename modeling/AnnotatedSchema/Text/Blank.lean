import AnnotatedSchema.Text.Basic

/-! The blank characters of Unicode, and texts without blanks at their ends. -/

namespace AnnotatedSchema

/-- The code points with the property `White_Space`, as first and last of each run. -/
def blankRuns : List (Nat × Nat) :=
  [(0x09, 0x0D), (0x20, 0x20), (0x85, 0x85), (0xA0, 0xA0), (0x1680, 0x1680), (0x2000, 0x200A),
    (0x2028, 0x2029), (0x202F, 0x202F), (0x205F, 0x205F), (0x3000, 0x3000)]

/-- Whether the character has the property `White_Space`. -/
def isBlank (c : Char) : Bool :=
  blankRuns.any fun (first, last) => first ≤ c.toNat && c.toNat ≤ last

namespace Text

/-- The text without the blanks before its first and after its last other character. -/
def trim (t : Text) : Text :=
  ((t.dropWhile isBlank).reverse.dropWhile isBlank).reverse

def blank (t : Text) : Bool := t.all isBlank

def withoutBlanks (t : Text) : Text := t.filter fun c => !isBlank c

end Text

end AnnotatedSchema
