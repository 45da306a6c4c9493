import AnnotatedSchema.Text.Basic

/-! Text that is shown on a terminal: control characters that could steer it become escapes. -/

namespace AnnotatedSchema

/-- The ASCII control characters that a terminal acts on: bell, backspace, form feed, escape and
delete. -/
def terminalControls : List Char := ['\x07', '\x08', '\x0C', '\x1B', '\x7F']

/-- The character or, if a terminal would act on it, its escape. The control characters above ASCII
have a longer form of escape. -/
def shown (c : Char) : Text :=
  if c ∈ terminalControls then "\\x" ++ Text.smallHexByte c.toNat
  else if 0x80 ≤ c.toNat ∧ c.toNat ≤ 0x9F then "\\u\x7b" ++ Text.smallHexByte c.toNat ++ "\x7d"
  else [c]

/-- The text as it is shown on a terminal. -/
def Text.shown (t : Text) : Text := t.flatMap AnnotatedSchema.shown

end AnnotatedSchema
