import AnnotatedSchema.Json.Value

/-!
Reading JSON text. A value may have 127 arrays and objects inside each other. Every reader gives
back the text it has left, which is shorter than the text it was given, so lists of values come to
an end.
-/

namespace AnnotatedSchema.Json

/-- What was read from a text, and the rest of the text, which is shorter. -/
structure Read (α : Type) (t : Text) where
  value : α
  rest : Text
  shorter : rest.length < t.length

/-- A reader fails on a text that does not start with what it reads. -/
abbrev Reader (α : Type) := (t : Text) → Option (Read α t)

/-- What was read from the rest of a text was read from the text. -/
def Read.ofRest {α : Type} {t u : Text} (r : Read α u) (h : u.length ≤ t.length) : Read α t :=
  ⟨r.value, r.rest, Nat.lt_of_lt_of_le r.shorter h⟩

def Read.map {α β : Type} {t : Text} (f : α → β) (r : Read α t) : Read β t :=
  ⟨f r.value, r.rest, r.shorter⟩

/-- The characters between the tokens of JSON text. -/
def isGap (c : Char) : Bool := c == ' ' || c == '\n' || c == '\r' || c == '\t'

def skipGap (t : Text) : Text := t.dropWhile isGap

theorem length_skipGap (t : Text) : (skipGap t).length ≤ t.length :=
  (List.dropWhile_sublist _).length_le

/-- Reads one given character, after a gap. -/
def readMark (mark : Char) : Reader Unit := fun t =>
  match h : skipGap t with
  | [] => none
  | c :: rest =>
    if c = mark then
      some ⟨(), rest, by have := length_skipGap t; simp [h] at this; omega⟩
    else none

/-- The value of a digit to the base 16. -/
def hexValue? (c : Char) : Option Nat :=
  if c.isDigit then some (c.toNat - '0'.toNat)
  else if 'a' ≤ c ∧ c ≤ 'f' then some (c.toNat - 'a'.toNat + 10)
  else if 'A' ≤ c ∧ c ≤ 'F' then some (c.toNat - 'A'.toNat + 10)
  else none

/-- The value of four digits to the base 16. -/
def hexUnit? (a b c d : Char) : Option Nat := do
  return (((← hexValue? a) * 16 + (← hexValue? b)) * 16 + (← hexValue? c)) * 16 + (← hexValue? d)

def isHighSurrogate (n : Nat) : Bool := 0xD800 ≤ n && n < 0xDC00

def isLowSurrogate (n : Nat) : Bool := 0xDC00 ≤ n && n < 0xE000

/-- Reads the four digits after `\u`. A high surrogate must be followed by a low one. -/
def readUnicode : Reader Char
  | a :: b :: c :: d :: rest =>
    match hexUnit? a b c d with
    | none => none
    | some n =>
      if isLowSurrogate n then none
      else if isHighSurrogate n then
        match rest with
        | '\\' :: 'u' :: e :: f :: g :: h :: rest =>
          match hexUnit? e f g h with
          | none => none
          | some m =>
            if isLowSurrogate m then
              some ⟨Char.ofNat (0x10000 + (n - 0xD800) * 0x400 + (m - 0xDC00)), rest, by
                simp; omega⟩
            else none
        | _ => none
      else some ⟨Char.ofNat n, rest, by simp; omega⟩
  | _ => none

/-- The characters that a backslash and one letter stand for. -/
def shortEscape? : Char → Option Char
  | '"' => some '"'
  | '\\' => some '\\'
  | '/' => some '/'
  | 'b' => some '\x08'
  | 'f' => some '\x0C'
  | 'n' => some '\n'
  | 'r' => some '\r'
  | 't' => some '\t'
  | _ => none

def readEscape : Reader Char
  | [] => none
  | c :: rest =>
    if c = 'u' then (readUnicode rest).map (·.ofRest (by simp))
    else (shortEscape? c).map fun d => ⟨d, rest, by simp⟩

/-- Reads a string after its opening quote. Control characters must be escaped. -/
def readStringTail (t : Text) : Option (Read Text t) :=
  match t with
  | [] => none
  | c :: rest =>
    if c = '"' then some ⟨[], rest, by simp⟩
    else if c = '\\' then
      match readEscape rest with
      | none => none
      | some e =>
        have := e.shorter
        (readStringTail e.rest).map fun r =>
          (r.map (e.value :: ·)).ofRest (by simp; omega)
    else if c.toNat < 0x20 then none
    else (readStringTail rest).map fun r => (r.map (c :: ·)).ofRest (by simp)
termination_by t.length
decreasing_by
  · simp; omega
  · simp

def readString : Reader Text := fun t =>
  match readMark '"' t with
  | none => none
  | some q => (readStringTail q.rest).map (·.ofRest (Nat.le_of_lt q.shorter))

/-- Reads a name that stands for a value. -/
def readName (name : Text) (value : Json) (h : 0 < name.length) : Reader Json := fun t =>
  match hp : List.isPrefixOf? name t with
  | none => none
  | some rest =>
    some ⟨value, rest, by simp [Text.eq_append_of_isPrefixOf? hp]; omega⟩

def readNumber : Reader Json := fun t =>
  match Number.read? t with
  | none => none
  | some (n, rest) =>
    if h : rest.length < t.length then some ⟨number n, rest, h⟩ else none

def readScalar : Reader Json := fun t =>
  match t with
  | [] => none
  | c :: rest =>
    if c = 'n' then readName "null" null (by decide) (c :: rest)
    else if c = 't' then readName "true" (bool true) (by decide) (c :: rest)
    else if c = 'f' then readName "false" (bool false) (by decide) (c :: rest)
    else if c = '"' then (readString (c :: rest)).map (·.map string)
    else readNumber (c :: rest)

/-- Reads one item and then, after commas, more items up to the closing mark. -/
def readItems {α : Type} (item : Reader α) (close : Char) (t : Text) : Option (Read (List α) t) :=
  match item t with
  | none => none
  | some first =>
    match readMark close first.rest with
    | some q =>
      some ⟨[first.value], q.rest, Nat.lt_trans q.shorter first.shorter⟩
    | none =>
      match readMark ',' first.rest with
      | none => none
      | some q =>
        have h := Nat.lt_trans q.shorter first.shorter
        (readItems item close q.rest).map fun r =>
          (r.map (first.value :: ·)).ofRest (Nat.le_of_lt h)
termination_by t.length

/-- Reads the items after an opening mark, none if the closing mark follows. -/
def readList {α : Type} (item : Reader α) (close : Char) : Reader (List α) := fun t =>
  match readMark close t with
  | some q => some ⟨[], q.rest, q.shorter⟩
  | none => readItems item close t

def readMember (item : Reader Json) : Reader (Text × Json) := fun t =>
  match readString t with
  | none => none
  | some name =>
    match readMark ':' name.rest with
    | none => none
    | some colon =>
      (item colon.rest).map fun r =>
        (r.map fun j => (name.value, j)).ofRest
          (Nat.le_of_lt (Nat.lt_trans colon.shorter name.shorter))

/-- Reads a value, after a gap, that has at most `depth` arrays and objects inside each other. -/
def readValue (depth : Nat) : Reader Json := fun t =>
  match depth, readMark '[' t, readMark '\x7b' t with
  | depth + 1, some q, _ =>
    (readList (readValue depth) ']' q.rest).map fun r =>
      (r.map array).ofRest (Nat.le_of_lt q.shorter)
  | depth + 1, none, some q =>
    (readList (readMember (readValue depth)) '\x7d' q.rest).map fun r =>
      (r.map object).ofRest (Nat.le_of_lt q.shorter)
  | _, _, _ => (readScalar (skipGap t)).map (·.ofRest (length_skipGap t))

/-- The largest number of arrays and objects inside each other. -/
def maxDepth : Nat := 127

/-- The value that a text is, without anything after it but a gap. -/
def ofText? (t : Text) : Option Json :=
  match readValue maxDepth t with
  | none => none
  | some r => if skipGap r.rest = [] then some r.value else none

end AnnotatedSchema.Json
