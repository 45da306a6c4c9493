import AnnotatedSchema.Text.Basic
import AnnotatedSchema.Text.LetterCase.Table

/-! Capital and small letters of all scripts, and the small form of a capital letter. -/

namespace AnnotatedSchema

namespace LetterCase

/-- The run of capital letters that has the character. -/
def capitalRun? (c : Char) : Option Run := capitalRuns.find? (·.contains c.toNat)

end LetterCase

/-- Whether the character has the property `Uppercase`. -/
def isCapital (c : Char) : Bool := c == 'İ' || (LetterCase.capitalRun? c).isSome

/-- Whether the character has the property `Lowercase`. -/
def isSmall (c : Char) : Bool := LetterCase.smallRuns.any (·.contains c.toNat)

/-- The small form of a character; a character that is no capital letter is its own. Only the
capital I with a dot becomes two characters, an i and a combining dot. -/
def smallForm (c : Char) : Text :=
  if c = 'İ' then ['i', '\u0307']
  else match LetterCase.capitalRun? c with
    | some run => [Char.ofNat (c.toNat + run.shift).toNat]
    | none => [c]

end AnnotatedSchema
