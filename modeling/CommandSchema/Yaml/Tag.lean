/-!
# Tags of YAML

A tag names the sort of a node. It is made of bytes, and since every byte can be spelled out it need
not be a text. A null byte ends it.
-/

namespace CommandSchema.Yaml

/-- The name of a sort of node. -/
structure Tag where
  bytes : List UInt8
  deriving DecidableEq, Repr

namespace Tag

/-- The tag that bytes spell, up to the first null byte. -/
def ofBytes (bytes : List UInt8) : Tag :=
  ⟨bytes.takeWhile (· ≠ 0)⟩

/-- The tag that a text spells. -/
def ofText (text : String) : Tag :=
  ofBytes text.toUTF8.data.toList

/-- A tag with another one behind it. -/
def append (a b : Tag) : Tag :=
  ⟨a.bytes ++ b.bytes⟩

instance : Append Tag :=
  ⟨append⟩

/-- The tag for a sort of scalar. -/
def scalar (sort : String) : Tag :=
  ofText ("tag:yaml.org,2002:" ++ sort)

/-- Whether a tag starts with an exclamation mark. -/
def isLocal (t : Tag) : Bool :=
  t.bytes.head? == some 0x21

/-- What follows the exclamation mark of a local tag, if it is a text. -/
def word? (t : Tag) : Option String :=
  if t.isLocal then String.fromUTF8? ⟨t.bytes.tail.toArray⟩ else none

end Tag

end CommandSchema.Yaml
