import AnnotatedSchema.Identifier
import AnnotatedSchema.Text.Blank

/-! Data models: entities with their fields, and the columns that the fields map to. -/

namespace AnnotatedSchema

/-- A field carries its annotation, the constraints of its column, as a tag. -/
structure Field where
  name : Text
  type : Text
  tag : Text
  deriving DecidableEq

namespace Field

/-- Whether the field has a column. It has none if its tag is blank or a single dash. -/
def isMapped (f : Field) : Bool := f.tag.trim != [] && f.tag.trim != ['-']

def column (f : Field) : Text := identifier f.name

/-- Whether the name is that of the field or stands for the same column. -/
def matchesName (f : Field) (name : Text) : Bool := f.name == name || f.column == identifier name

end Field

structure Model where
  name : Text
  fields : List Field
  deriving DecidableEq

namespace Model

def table (m : Model) : Text := identifier m.name

def mappedFields (m : Model) : List Field := m.fields.filter Field.isMapped

def hasField (m : Model) (name : Text) : Bool := m.fields.any (·.name == name)

/-- Whether a field has the name or its column. -/
def hasColumn (m : Model) (name : Text) : Bool := m.fields.any (·.matchesName name)

/-- Whether a field with a column has the name. -/
def mapsColumn (m : Model) (name : Text) : Bool := m.mappedFields.any (·.matchesName name)

end Model

end AnnotatedSchema
