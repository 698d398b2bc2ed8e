import CommandSchema.Definition.Layout
import CommandSchema.Document.Encoding

/-!
# The shape of a field

How a field is read from a source. Its kind and the type that goes with it stand among the other
members and are put together at the end, in the order in which they were found. Reading does not
look at the consistency of a field.
-/

namespace CommandSchema

/-- One of the members that make up a kind. -/
inductive KindPart
  | kind (c : Content)
  | type (c : Content)

/-- How a kind is completed by the contents of its type. -/
abbrev KindMaker := Option Content → Except Fault FieldKind

namespace KindMaker

/-- A kind without a type; null may stand for it. -/
def plain (name : String) (kind : FieldKind) : KindMaker
  | none | some .null => .ok kind
  | some c => .error (.wrongType c.found ("unit variant FieldKind::" ++ name))

/-- A kind with a type. -/
def typed (make : ValueType → FieldKind) : KindMaker
  | none => .error (.missingMember "type")
  | some c => (c.choice ValueType.names).map make

/-- All kinds under their words. -/
def words : List (String × KindMaker) :=
  [("flag", plain "Flag" .flag), ("counter", plain "Counter" .counter), ("valued", typed .valued),
    ("positional_single", typed .positional),
    ("positional_list", plain "PositionalList" .positionalList)]

end KindMaker

namespace FieldKind

/-- Nothing may follow the members that make up a kind. -/
def noMore : List KindPart → Except Fault Unit
  | [] => .ok ()
  | .kind _ :: _ => .error (.duplicateMember "kind")
  | .type _ :: _ => .error (.duplicateMember "type")

/-- The kind that members make up. -/
def ofParts : List KindPart → Except Fault FieldKind
  | [] | [.type _] => .error (.missingMember "kind")
  | .type _ :: .type _ :: _ => .error (.duplicateMember "type")
  | .type t :: .kind k :: parts | .kind k :: .type t :: parts => do
    let make ← k.choice KindMaker.words
    let kind ← make (some t)
    noMore parts
    return kind
  | .kind k :: parts => do
    let make ← k.choice KindMaker.words
    noMore parts
    make none

end FieldKind

namespace Field

/-- What has been read of a field. -/
structure Draft where
  name : Option String
  short : Option (Option Char)
  long : Option (Option String)
  required : Option Bool
  default : Option (Option Value)
  description : Option (Option String)
  kindParts : List KindPart

/-- Adds a member that is no slot to a draft. Only kind and type are of use. -/
def Draft.keep (key : String) (c : Content) (d : Draft) : Draft :=
  if key = "kind" then { d with kindParts := d.kindParts ++ [.kind c] }
  else if key = "type" then { d with kindParts := d.kindParts ++ [.type c] }
  else d

variable {σ : Type} {m : Type → Type} [Monad m] [Source σ m]

/-- The shape of a field. -/
def layout : Layout σ m Draft Field where
  name := "FieldSchema"
  start := ⟨none, none, none, none, none, none, []⟩
  slots := [
    .needed "name" Draft.name (fun d v => { d with name := v }) Source.string,
    .spare "short" Draft.short (fun d v => { d with short := v })
      (Source.optional Source.letter),
    .spare "long" Draft.long (fun d v => { d with long := v })
      (Source.optional Source.string),
    .spare "required" Draft.required (fun d v => { d with required := v }) Source.truth,
    .spare "default" Draft.default (fun d v => { d with default := v })
      (Source.optional Source.value),
    .spare "description" Draft.description (fun d v => { d with description := v })
      (Source.optional Source.string)]
  others := .kept Draft.keep
  finish d := do
    let name ← Fault.require "name" d.name
    let kind ← FieldKind.ofParts d.kindParts
    return ⟨name, kind, d.short.join, d.long.join, d.required.getD false, d.default.join,
      d.description.join⟩

/-- Reads a field. -/
def read (s : σ) : m Field :=
  layout.read s

end Field

end CommandSchema
