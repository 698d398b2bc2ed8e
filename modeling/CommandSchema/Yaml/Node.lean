import CommandSchema.Yaml.Token.Stream

/-!
# Nodes of a YAML document

The tree that the tokens of a text make up. A text holds one document. What is left out, such as the
value of a key, is an empty plain scalar.
-/

namespace CommandSchema.Yaml

/-- A node, with anchors of a type. -/
inductive Node (ν : Type)
  | scalar (anchor : Option ν) (tag : Option Tag) (style : ScalarStyle) (text : String)
  | sequence (anchor : Option ν) (tag : Option Tag) (items : List (Node ν))
  | mapping (anchor : Option ν) (tag : Option Tag) (entries : List (Node ν × Node ν))
  | alias (target : ν)

namespace Node

/-- The node of something that is left out. -/
def empty {ν : Type} : Node ν :=
  .scalar none none .plain ""

/-- What tag handles stand for. -/
abbrev Handles := List (String × Tag)

/-- The tag that a token stands for. -/
def expand? (handles : Handles) (handle : String) (suffix : Tag) : Option Tag :=
  if handle = "" then some suffix
  else (handles.find? fun h => h.1 == handle).map fun h => h.2 ++ suffix

/-- The anchor and the tag in front of a node, in either order, and the tokens after them. -/
def properties? (handles : Handles) : List Token →
    Option (Option String × Option Tag × List Token)
  | .anchor a :: .tag h s :: ts | .tag h s :: .anchor a :: ts => do
    let tag ← expand? handles h s
    return (some a, some tag, ts)
  | .anchor a :: ts => some (some a, none, ts)
  | .tag h s :: ts => do
    let tag ← expand? handles h s
    return (none, some tag, ts)
  | ts => some (none, none, ts)

/-- Whether the node that should follow a dash is left out. -/
def lacksItem : List Token → Bool
  | .blockEntry :: _ | .blockEnd :: _ => true
  | _ => false

/-- Whether the node that should follow a dash at its key's column is left out. -/
def lacksIndentlessItem : List Token → Bool
  | .blockEntry :: _ | .key :: _ | .value :: _ | .blockEnd :: _ => true
  | _ => false

/-- Whether the key or value of a block mapping is left out. -/
def lacksPart : List Token → Bool
  | .key :: _ | .value :: _ | .blockEnd :: _ => true
  | _ => false

/-- Whether the key of a flow mapping is left out. -/
def lacksFlowKey : List Token → Bool
  | .value :: _ | .flowEntry :: _ | .flowMappingEnd :: _ => true
  | _ => false

/-- Whether the value of a flow mapping is left out. -/
def lacksFlowValue : List Token → Bool
  | .flowEntry :: _ | .flowMappingEnd :: _ => true
  | _ => false

/-- Whether the value of a pair in a flow sequence is left out. -/
def lacksPairValue : List Token → Bool
  | .flowEntry :: _ | .flowSequenceEnd :: _ => true
  | _ => false

/-- The tokens after the comma in front of an item, unless it is the first one. -/
def afterComma? (isFirst : Bool) (ts : List Token) : Option (List Token) :=
  if isFirst then some ts
  else match ts with
    | .flowEntry :: ts => some ts
    | _ => none

mutual

/-- Reads a node. Block collections can stand only in block collections, and a sequence that is not
indented only behind a key. -/
def read? (handles : Handles) (isBlock isIndentless : Bool) : (fuel : Nat) → List Token →
    Option (Node String × List Token)
  | 0, _ => none
  | fuel + 1, ts =>
    match ts with
    | .alias name :: ts => some (.alias name, ts)
    | ts => do
      let (anchor, tag, ts) ← properties? handles ts
      let hasProperties := anchor.isSome || tag.isSome
      let leftOut : Option (Node String × List Token) :=
        if hasProperties then some (.scalar anchor tag .plain "", ts) else none
      match ts with
      | .scalar style text :: ts =>
        return (.scalar anchor tag style text, ts)
      | .flowSequenceStart :: ts => do
        let (items, ts) ← flowItems? handles true fuel ts
        return (.sequence anchor tag items, ts)
      | .flowMappingStart :: ts => do
        let (entries, ts) ← flowEntries? handles true fuel ts
        return (.mapping anchor tag entries, ts)
      | .blockEntry :: _ =>
        if isIndentless then do
          let (items, ts) ← indentlessItems? handles fuel ts
          return (.sequence anchor tag items, ts)
        else leftOut
      | .blockSequenceStart :: rest =>
        if isBlock then do
          let (items, ts) ← blockItems? handles fuel rest
          return (.sequence anchor tag items, ts)
        else leftOut
      | .blockMappingStart :: rest =>
        if isBlock then do
          let (entries, ts) ← blockEntries? handles fuel rest
          return (.mapping anchor tag entries, ts)
        else leftOut
      | _ => leftOut

/-- Reads the items of a block sequence and its end. -/
def blockItems? (handles : Handles) : (fuel : Nat) → List Token →
    Option (List (Node String) × List Token)
  | 0, _ => none
  | fuel + 1, ts =>
    match ts with
    | .blockEntry :: ts => do
      let (item, ts) ← if lacksItem ts then some (empty, ts) else read? handles true false fuel ts
      let (items, ts) ← blockItems? handles fuel ts
      return (item :: items, ts)
    | .blockEnd :: ts => some ([], ts)
    | _ => none

/-- Reads the items of a sequence that ends with the mapping around it. -/
def indentlessItems? (handles : Handles) : (fuel : Nat) → List Token →
    Option (List (Node String) × List Token)
  | 0, _ => none
  | fuel + 1, ts =>
    match ts with
    | .blockEntry :: ts => do
      let (item, ts) ←
        if lacksIndentlessItem ts then some (empty, ts) else read? handles true false fuel ts
      let (items, ts) ← indentlessItems? handles fuel ts
      return (item :: items, ts)
    | ts => some ([], ts)

/-- Reads the entries of a block mapping and its end. -/
def blockEntries? (handles : Handles) : (fuel : Nat) → List Token →
    Option (List (Node String × Node String) × List Token)
  | 0, _ => none
  | fuel + 1, ts =>
    match ts with
    | .key :: ts => do
      let (key, ts) ← if lacksPart ts then some (empty, ts) else read? handles true true fuel ts
      let (value, ts) ← match ts with
        | .value :: ts =>
          if lacksPart ts then some (empty, ts) else read? handles true true fuel ts
        | ts => some (empty, ts)
      let (entries, ts) ← blockEntries? handles fuel ts
      return ((key, value) :: entries, ts)
    | .blockEnd :: ts => some ([], ts)
    | _ => none

/-- Reads the items of a flow sequence and its end. An item can be a mapping of one pair. -/
def flowItems? (handles : Handles) (isFirst : Bool) : (fuel : Nat) → List Token →
    Option (List (Node String) × List Token)
  | 0, _ => none
  | fuel + 1, ts =>
    match ts with
    | .flowSequenceEnd :: ts => some ([], ts)
    | ts => do
      match ← afterComma? isFirst ts with
      | .flowSequenceEnd :: ts => return ([], ts)
      | .key :: ts => do
        let (pair, ts) ← pair? handles fuel ts
        let (items, ts) ← flowItems? handles false fuel ts
        return (pair :: items, ts)
      | ts => do
        let (item, ts) ← read? handles false false fuel ts
        let (items, ts) ← flowItems? handles false fuel ts
        return (item :: items, ts)

/-- Reads a pair in a flow sequence. If its key is left out, the token in its place is passed
over. -/
def pair? (handles : Handles) : (fuel : Nat) → List Token → Option (Node String × List Token)
  | 0, _ => none
  | fuel + 1, ts => do
    let (key, ts) ← match ts with
      | .value :: ts | .flowEntry :: ts | .flowSequenceEnd :: ts => some (empty, ts)
      | ts => read? handles false false fuel ts
    let (value, ts) ← match ts with
      | .value :: ts =>
        if lacksPairValue ts then some (empty, ts) else read? handles false false fuel ts
      | ts => some (empty, ts)
    return (.mapping none none [(key, value)], ts)

/-- Reads the entries of a flow mapping and its end. -/
def flowEntries? (handles : Handles) (isFirst : Bool) : (fuel : Nat) → List Token →
    Option (List (Node String × Node String) × List Token)
  | 0, _ => none
  | fuel + 1, ts =>
    match ts with
    | .flowMappingEnd :: ts => some ([], ts)
    | ts => do
      match ← afterComma? isFirst ts with
      | .flowMappingEnd :: ts => return ([], ts)
      | .key :: ts => do
        let (key, ts) ←
          if lacksFlowKey ts then some (empty, ts) else read? handles false false fuel ts
        let (value, ts) ← match ts with
          | .value :: ts =>
            if lacksFlowValue ts then some (empty, ts) else read? handles false false fuel ts
          | ts => some (empty, ts)
        let (entries, ts) ← flowEntries? handles false fuel ts
        return ((key, value) :: entries, ts)
      | ts => do
        let (key, ts) ← read? handles false false fuel ts
        let (entries, ts) ← flowEntries? handles false fuel ts
        return ((key, empty) :: entries, ts)

end

/-- The handles that every document knows. -/
def commonHandles : Handles :=
  [("!", .ofText "!"), ("!!", .scalar "")]

/-- The handles that directives declare in front of a document, and the tokens after them. A version
is given at most once, and so is every handle. -/
def directives? (hasVersion : Bool) (declared : Handles) : List Token →
    Option (Handles × List Token)
  | .version major minor :: ts =>
    if !hasVersion ∧ major = 1 ∧ (minor = 1 ∨ minor = 2) then directives? true declared ts else none
  | .tagHandle h e :: ts =>
    if declared.any fun d => d.1 == h then none else directives? hasVersion ((h, e) :: declared) ts
  | ts => some (declared ++ commonHandles, ts)

/-- Whether tokens start with something between documents, or end. -/
def isBetweenDocuments : List Token → Bool
  | [] | .version _ _ :: _ | .tagHandle _ _ :: _ | .documentStart :: _ | .documentEnd :: _ => true
  | _ => false

/-- Whether directives or a mark stand in front of the document. -/
def isMarked : List Token → Bool
  | .version _ _ :: _ | .tagHandle _ _ :: _ | .documentStart :: _ => true
  | _ => false

/-- The one document that tokens make up. -/
def ofTokens? (ts : List Token) : Option (Node String) := do
  let fuel := 2 * ts.length + 2
  let (root, rest) ←
    if ts.isEmpty then some (empty, ts)
    else if isMarked ts then
      match directives? false [] ts with
      | some (handles, .documentStart :: ts) =>
        if isBetweenDocuments ts then some (empty, ts) else read? handles true false fuel ts
      | _ => none
    else read? commonHandles true false fuel ts
  if rest.all (· == .documentEnd) then return root else none

end Node

end CommandSchema.Yaml
