import CommandSchema.Source
import CommandSchema.Yaml.Anchor
import CommandSchema.Yaml.Scalar

/-!
# YAML as a source

Definitions are read from the tree of a YAML document. A text is read from any scalar, whatever it
would mean by itself. Following an alias has its price: a document can be read only with a limited
number of such steps.
-/

namespace CommandSchema.Yaml

/-- A node to read, in its document. -/
structure Place where
  node : Node Nat
  /-- How deep sequences and mappings may still be nested. -/
  depth : Nat
  /-- The nodes that aliases refer to, the latest first. -/
  anchors : List (Nat × Node Nat)
  /-- How many aliases may be followed. -/
  limit : Nat

/-- Reading that counts the aliases that have been followed. -/
abbrev Decoder := StateT Nat (Except Fault)

namespace Place

/-- Gives up; faults of YAML texts are not told apart. -/
def refuse {α : Type} : Decoder α :=
  throw .malformed

/-- A node, with an alias replaced by what it refers to. -/
def follow (p : Place) : Decoder Place := do
  match p.node with
  | .alias n =>
    let count := (← get) + 1
    set count
    match p.anchors.find? fun a => a.1 == n with
    | some (_, node) => if p.limit < count then refuse else return { p with node := node }
    | none => refuse
  | _ => return p

/-- A part of a node. -/
def part (p : Place) (node : Node Nat) : Place :=
  { p with node := node, depth := p.depth - 1 }

/-- The parts of a node that can hold some. -/
def parts {α : Type} (p : Place) (make : (Node Nat → Place) → α) : Decoder α :=
  if p.depth = 0 then refuse else return make p.part

/-- What a scalar holds that means a given thing. An integer has to fit into 64 bits. -/
def meant (text : String) : Meaning → Except Fault Content
  | .null => .ok .null
  | .bool b => .ok (.bool b)
  | .int n =>
    if Int64.minValue.toInt ≤ n ∧ n < UInt64.size then .ok (.integer n) else .error .malformed
  | .float => .ok (.floating text)
  | .text => .ok (.text text)

/-- What a scalar holds. A tag for a sort of scalar wants that sort. -/
def scalarContent (tag : Option Tag) (style : ScalarStyle) (text : String) :
    Except Fault Content :=
  if (tag.bind Tag.word?).isSome then .error .malformed
  else if tag = some (.scalar "bool") then
    ((truth? text).elim (.error .malformed) fun b => .ok (.bool b))
  else if tag = some (.scalar "int") then
    ((integer? text).elim (.error .malformed) fun n => meant text (.int n))
  else if tag = some (.scalar "float") then
    if isFloat text then .ok (.floating text) else .error .malformed
  else if tag = some (.scalar "null") then
    if isNullWord text then .ok .null else .error .malformed
  else if style = .plain ∧ tag.all Tag.isLocal then meant text (meaning text)
  else .ok (.text text)

/-- What a node holds. A node with a local tag holds nothing that is known. -/
def contentAt : (depth : Nat) → Place → Decoder Content
  | depth, p => do
    let p ← p.follow
    match p.node with
    | .scalar _ tag style text => scalarContent tag style text
    | .sequence _ tag items =>
      match depth with
      | 0 => refuse
      | depth + 1 =>
        if (tag.bind Tag.word?).isSome then refuse
        else return .list (← items.mapM fun i => contentAt depth (p.part i))
    | .mapping _ tag entries =>
      match depth with
      | 0 => refuse
      | depth + 1 =>
        if (tag.bind Tag.word?).isSome then refuse
        else
          return .record (← entries.mapM fun (k, v) => do
            let key ← contentAt depth (p.part k)
            let value ← contentAt depth (p.part v)
            pure (key, value))
    | .alias _ => refuse

/-- A text. -/
def text (p : Place) : Decoder String := do
  match (← p.follow).node with
  | .scalar _ _ _ text => return text
  | _ => refuse

/-- Whether a scalar can be a truth value: it is plain, or a literal block with the tag for it. -/
def canBeTruth (tag : Option Tag) (style : ScalarStyle) : Bool :=
  style == .plain || (style == .literal && tag == some (.scalar "bool"))

/-- A truth value. -/
def truth (p : Place) : Decoder Bool := do
  match (← p.follow).node with
  | .scalar _ tag style text =>
    match truth? text with
    | some b => if canBeTruth tag style then return b else refuse
    | none => refuse
  | _ => refuse

/-- Whether a node is more than null. -/
def isGiven (p : Place) : Decoder Bool := do
  match p.node with
  | .scalar _ none .plain text => return text != "" && !isNullWord text
  | .scalar _ tag .plain text =>
    if tag = some (.scalar "null") then
      if isNullWord text then return false else refuse
    else return true
  | _ => return true

/-- Whether a node is an empty plain scalar. -/
def isEmpty (p : Place) : Bool :=
  match p.node with
  | .scalar _ _ .plain text => text == ""
  | _ => false

/-- The value that goes with a word: the word as a scalar, or as a local tag of nothing. -/
def choice {α : Type} (choices : List (String × α)) (p : Place) : Decoder α := do
  match (← p.follow).node with
  | .scalar _ tag style text =>
    match tag.bind Tag.word? with
    | some word =>
      if style = .plain ∧ (text = "" ∨ isNullWord text) then choose choices word else refuse
    | none => choose choices text
  | _ => refuse

end Place

instance : Source Place Decoder where
  text _ := Place.text
  truth := Place.truth
  optional f p := do
    let p ← p.follow
    if ← p.isGiven then return some (← f p) else return none
  list f p := do
    let p ← p.follow
    match p.node with
    | .sequence _ _ items => do (← p.parts fun part => items.map part).mapM f
    | _ => if p.isEmpty then return [] else Place.refuse
  choice := Place.choice
  record _ p := do
    let p ← p.follow
    match p.node with
    | .mapping _ _ entries =>
      p.parts fun part => .named (entries.map fun (k, v) => ((part k).text, part v)) (pure ())
    | _ => if p.isEmpty then return .named [] (pure ()) else Place.refuse
  content p := Place.contentAt p.depth p
  skip _ := pure ()
  fail := throw

/-- How deep sequences and mappings may be nested. -/
def maxDepth : Nat := 128

/-- How many aliases may be followed for each start or end of a part of the document. -/
def aliasesPerEvent : Nat := 100

/-- The place of the root of a text. -/
def root? (text : String) : Option Place := do
  let node ← Node.ofTokens? (← tokens? text.toList)
  let (node, _) ← node.numbered.run []
  return ⟨node, maxDepth, node.anchored.reverse, aliasesPerEvent * node.eventCount⟩

/-- Reads a text of a shape. -/
def decode {α : Type} (read : Place → Decoder α) (text : String) : Except Fault α :=
  match root? text with
  | some p => (read p).run' 0
  | none => .error .malformed

end CommandSchema.Yaml
