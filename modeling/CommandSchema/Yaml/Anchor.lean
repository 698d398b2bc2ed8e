import CommandSchema.Yaml.Node

/-!
# Anchors

Aliases refer to nodes by number. The number of an anchored node is the count of the names that are
in use before it; where two nodes share a number, the later one is meant.
-/

namespace CommandSchema.Yaml

/-- The names of anchors with their numbers. -/
abbrev AnchorNames := List (String × Nat)

namespace AnchorNames

/-- Notes the next use of a name, and gives its number. -/
def declare (names : AnchorNames) (name : String) : Nat × AnchorNames :=
  (names.length, (name, names.length) :: names.filter fun n => n.1 != name)

/-- The number of a name. -/
def number? (names : AnchorNames) (name : String) : Option Nat :=
  (names.find? fun n => n.1 == name).map Prod.snd

end AnchorNames

/-- Notes the anchor of a node, if it has one, and gives its number. -/
def declareAnchor (anchor : Option String) : StateT AnchorNames Option (Option Nat) := do
  match anchor with
  | none => return none
  | some name =>
    let (n, names) := (← get).declare name
    set names
    return some n

namespace Node

mutual

/-- A node with numbers for its anchors and aliases. An alias needs an anchor before it. -/
def numbered : Node String → StateT AnchorNames Option (Node Nat)
  | .scalar anchor tag style text => do
    let n ← declareAnchor anchor
    return .scalar n tag style text
  | .sequence anchor tag items => do
    let n ← declareAnchor anchor
    return .sequence n tag (← numberedItems items)
  | .mapping anchor tag entries => do
    let n ← declareAnchor anchor
    return .mapping n tag (← numberedEntries entries)
  | .alias name => do
    let n ← ((← get).number? name : Option Nat)
    return .alias n

/-- Items with numbers for their anchors and aliases. -/
def numberedItems : List (Node String) → StateT AnchorNames Option (List (Node Nat))
  | [] => return []
  | item :: items => do
    let i ← numbered item
    return i :: (← numberedItems items)

/-- Entries with numbers for their anchors and aliases. -/
def numberedEntries :
    List (Node String × Node String) → StateT AnchorNames Option (List (Node Nat × Node Nat))
  | [] => return []
  | (key, value) :: entries => do
    let k ← numbered key
    let v ← numbered value
    return (k, v) :: (← numberedEntries entries)

end

/-- A node with its number, if it has one. -/
def labelled (anchor : Option Nat) (node : Node Nat) : List (Nat × Node Nat) :=
  anchor.toList.map fun n => (n, node)

mutual

/-- The numbered nodes of a tree, in the order in which they start. -/
def anchored : Node Nat → List (Nat × Node Nat)
  | .scalar anchor tag style text => labelled anchor (.scalar anchor tag style text)
  | .sequence anchor tag items =>
    labelled anchor (.sequence anchor tag items) ++ anchoredItems items
  | .mapping anchor tag entries =>
    labelled anchor (.mapping anchor tag entries) ++ anchoredEntries entries
  | .alias _ => []

/-- The numbered nodes of items. -/
def anchoredItems : List (Node Nat) → List (Nat × Node Nat)
  | [] => []
  | item :: items => anchored item ++ anchoredItems items

/-- The numbered nodes of entries. -/
def anchoredEntries : List (Node Nat × Node Nat) → List (Nat × Node Nat)
  | [] => []
  | (key, value) :: entries => anchored key ++ anchored value ++ anchoredEntries entries

end

mutual

/-- The number of starts and ends of parts in a tree. -/
def eventCount : Node Nat → Nat
  | .scalar _ _ _ _ | .alias _ => 1
  | .sequence _ _ items => 2 + eventCountItems items
  | .mapping _ _ entries => 2 + eventCountEntries entries

/-- The number of starts and ends of parts in items. -/
def eventCountItems : List (Node Nat) → Nat
  | [] => 0
  | item :: items => eventCount item + eventCountItems items

/-- The number of starts and ends of parts in entries. -/
def eventCountEntries : List (Node Nat × Node Nat) → Nat
  | [] => 0
  | (key, value) :: entries => eventCount key + eventCount value + eventCountEntries entries

end

end Node

end CommandSchema.Yaml
