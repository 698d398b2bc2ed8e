/-!
# Documents

The tree that values, schemas and results are written out as, whatever the format of the text.
-/

namespace CommandSchema

/-- A tree of named and listed parts. -/
inductive Document
  | bool (b : Bool)
  | int (n : Int)
  | text (s : String)
  /-- A single character, which some formats write unlike a text. -/
  | letter (c : Char)
  | list (items : List Document)
  /-- Parts under their names, in the order in which they are written. -/
  | record (members : List (String × Document))
  deriving Repr

namespace Document

/-- The member under a name, if a value for it is given. -/
def member (name : String) (value : Option Document) : List (String × Document) :=
  value.toList.map fun d => (name, d)

end Document

end CommandSchema
