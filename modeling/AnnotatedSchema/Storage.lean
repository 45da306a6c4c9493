import AnnotatedSchema.Text.Blank

/-!
Storage classes, and the class that a declared type gets. A declared type is a storage class keyword
or the name of a program type such as `Option<i64>`.
-/

namespace AnnotatedSchema

inductive Storage where
  | null
  | text
  | integer
  | real
  | blob
  deriving DecidableEq, Repr

namespace Storage

def all : List Storage := [null, text, integer, real, blob]

def keyword : Storage → Text
  | null => "NULL"
  | text => "TEXT"
  | integer => "INTEGER"
  | real => "REAL"
  | blob => "BLOB"

/-- Reads a storage class keyword, with or without blanks around it. -/
def ofKeyword? (t : Text) : Option Storage := all.find? fun s => t.trim.sameKeyword s.keyword

/-- Opening texts of the types that add nothing to the storage class of the type inside. -/
def wrappers : List Text := ["Option<", "Box<", "std::option::Option<", "std::boxed::Box<"]

def integerTypes : List Text :=
  ["bool", "i8", "i16", "i32", "i64", "i128", "isize", "u8", "u16", "u32", "u64", "u128", "usize"]

def realTypes : List Text := ["f32", "f64"]

def blobTypes : List Text := ["Vec<u8>", "[u8]"]

/-- The class of a type without wrappers. Every type that is not known is stored as text. -/
def ofPlainType (t : Text) : Storage :=
  if t ∈ integerTypes then integer
  else if t ∈ realTypes then real
  else if t ∈ blobTypes ∨ "[u8;".toList <+: t then blob
  else text

/-- The type without the lifetimes in front of it. -/
def dropLifetimes : Text → Text
  | '\'' :: 's' :: 't' :: 'a' :: 't' :: 'i' :: 'c' :: t => dropLifetimes t
  | t => t

/-- The type that a reference refers to. -/
def referent (t : Text) : Text := dropLifetimes (t.dropWhile (· == '&'))

/-- The type inside the first wrapper that is closed at the end of the text. -/
def unwrapped? (t : Text) : Option Text :=
  wrappers.findSome? fun w => (List.isPrefixOf? w t).bind (List.isSuffixOf? ['>'] ·)

theorem length_dropLifetimes (t : Text) : (dropLifetimes t).length ≤ t.length := by
  fun_induction dropLifetimes t <;> simp; omega

theorem length_referent (t : Text) : (referent t).length ≤ t.length :=
  Nat.le_trans (length_dropLifetimes _) (List.dropWhile_sublist _).length_le

theorem length_unwrapped? {t u : Text} (h : unwrapped? t = some u) : u.length < t.length := by
  obtain ⟨w, _, h⟩ := List.exists_of_findSome?_eq_some h
  obtain ⟨v, hv, hu⟩ := Option.bind_eq_some_iff.mp h
  simp [Text.eq_append_of_isPrefixOf? hv, Text.eq_append_of_isSuffixOf? hu]
  omega

/-- The class of a program type, written without blanks. References and wrappers are looked
through. -/
def ofType (t : Text) : Storage :=
  match _h : unwrapped? (referent t) with
  | some inner => ofType inner
  | none => ofPlainType (referent t)
termination_by t.length
decreasing_by
  have := length_unwrapped? _h
  have := length_referent t
  omega

def infer (declared : Text) : Storage :=
  (ofKeyword? declared.withoutBlanks).getD (ofType declared.withoutBlanks)

end Storage

end AnnotatedSchema
