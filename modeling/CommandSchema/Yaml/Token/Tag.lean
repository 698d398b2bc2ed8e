import CommandSchema.Yaml.Token
import CommandSchema.Yaml.Token.Scalar

/-!
# Anchors, tags and directives in a YAML text
-/

namespace CommandSchema.Yaml

/-- The name of an anchor or alias after its mark. An indicator may follow it at once. -/
def anchorName? (c : Cursor) : Option (String × Cursor) :=
  let (name, c) := c.span isNameChar
  if name ≠ [] ∧ (endsHere c.rest ∨ c.rest.head?.any fun a => "?:,]\x7d%@`".toList.contains a) then
    some (String.ofList name, c)
  else none

/-- Whether a character may stand in a tag; brackets and commas only in one that is written out. -/
def isTagChar (isWhole : Bool) (c : Char) : Bool :=
  isNameChar c || ";/?:@&=+$.%!~*'()".toList.contains c ||
    (isWhole && (c == ',' || c == '[' || c == ']'))

/-- How many bytes have to follow a byte that is spelled out, if `pending` of them have to follow the
bytes before it. -/
def pendingAfter? (pending : Nat) (byte : UInt8) : Option Nat :=
  if pending ≠ 0 then if byte &&& 0xC0 = 0x80 then some (pending - 1) else none
  else if byte &&& 0x80 = 0 then some 0
  else if byte &&& 0xE0 = 0xC0 then some 1
  else if byte &&& 0xF0 = 0xE0 then some 2
  else if byte &&& 0xF8 = 0xF0 then some 3
  else none

/-- The bytes of a tag, of which `pending` have to be spelled out by two digits of base sixteen after
a percent sign. -/
def tagBytes? : (pending : Nat) → List Char → Option (List UInt8)
  | pending, '%' :: a :: b :: cs => do
    let byte := UInt8.ofNat (← hexNumber? [a, b])
    let pending ← pendingAfter? pending byte
    return byte :: (← tagBytes? pending cs)
  | pending, c :: cs =>
    if c = '%' ∨ pending ≠ 0 then none
    else do return UInt8.ofNat c.toNat :: (← tagBytes? 0 cs)
  | pending, [] => if pending = 0 then some [] else none

/-- The characters of a tag at a place: whether there are any, and the tag that they spell. -/
def tagText? (isWhole : Bool) (c : Cursor) : Option (Bool × Tag × Cursor) := do
  let (cs, c) := c.span (isTagChar isWhole)
  return (!cs.isEmpty, .ofBytes (← tagBytes? 0 cs), c)

/-- A handle: an exclamation mark, and perhaps a name and a second mark. -/
def handle (c : Cursor) : List Char × Cursor :=
  let (name, c) := c.next.span isNameChar
  if c.rest.head? = some '!' then ('!' :: name ++ ['!'], c.next) else ('!' :: name, c)

/-- A tag at its exclamation mark: written out between angle brackets, with a handle, or local. -/
def tag? (isFlow : Bool) (c : Cursor) : Option (Token × Cursor) := do
  let (token, c) ← match c.rest with
    | '!' :: '<' :: _ => do
      let (isWritten, t, c) ← tagText? true c.next.next
      if isWritten ∧ c.rest.head? = some '>' then pure (Token.tag "" t, c.next) else none
    | _ => do
      let (name, c) := handle c
      let (isWritten, t, c) ← tagText? false c
      if name.length ≠ 1 ∧ name.getLast? = some '!' then
        if isWritten then pure (Token.tag (String.ofList name) t, c) else none
      else
        let suffix := Tag.ofText (String.ofList (name.drop 1)) ++ t
        pure (if suffix = .ofText "" then Token.tag "" (.ofText "!") else Token.tag "!" suffix, c)
  if endsHere c.rest ∨ (isFlow ∧ c.rest.head? = some ',') then return (token, c) else none

/-- The number of a version. -/
def versionNumber? (c : Cursor) : Option (Nat × Cursor) :=
  let (ds, c) := c.span Char.isDigit
  if ds = [] ∨ 9 < ds.length then none
  else some (ds.foldl (fun n d => n * 10 + (d.toNat - '0'.toNat)) 0, c)

/-- A directive at its percent sign, up to the start of the next line. -/
def directive? (c : Cursor) : Option (Token × Cursor) := do
  let (name, c) := c.next.span isNameChar
  if ¬ endsHere c.rest then none
  else
    let (token, c) ← match String.ofList name with
      | "YAML" => do
        let (major, c) ← versionNumber? (c.skip isBlank)
        if c.rest.head? = some '.' then do
          let (minor, c) ← versionNumber? c.next
          pure (Token.version major minor, c)
        else none
      | "TAG" => do
        let c := c.skip isBlank
        if c.rest.head? ≠ some '!' then none
        else
          let (name, c) := handle c
          if name.getLast? = some '!' ∧ c.rest.head?.any isBlank then do
            let (isWritten, t, c) ← tagText? true (c.skip isBlank)
            if isWritten ∧ endsHere c.rest then
              pure (Token.tagHandle (String.ofList name) t, c)
            else none
          else none
      | _ => none
    let c ← c.restOfLine?
    return (token, c)

end CommandSchema.Yaml
