import CommandSchema.Document.Encoding
import CommandSchema.Fingerprint.Sha256
import CommandSchema.Json.Writer

/-!
# Fingerprints

A fingerprint identifies what a generated file was made from: the digest of the struct's name and
the schema, written together as one JSON text. The file carries it in its opening comment, so that
it can be told from stale output without generating again.
-/

namespace CommandSchema.Fingerprint

/-- The start of the comment line that carries a fingerprint. -/
def marker : String :=
  "// fingerprint: "

/-- The text whose digest is the fingerprint. -/
def subject (structName : String) (s : Schema) : String :=
  Json.compact (.list [.text structName, s.document])

/-- The fingerprint of a schema that is generated under a struct name. -/
def of (s : Schema) (structName : String) : String :=
  Sha256.hexDigest (subject structName s).toUTF8.data.toList

/-- The fingerprint that the opening comment of a file carries. -/
def embedded (source : String) : Option String :=
  let comment := (Text.lines source.toList).takeWhile fun line => "//".toList.isPrefixOf line
  (comment.findSome? fun line => marker.toList.isPrefixOf? line).map fun rest =>
    String.ofList (Text.trim rest)

/-- Whether a file was made from anything other than a schema under a struct name. -/
def isStale (source : String) (s : Schema) (structName : String) : Bool :=
  embedded source != some (of s structName)

end CommandSchema.Fingerprint
