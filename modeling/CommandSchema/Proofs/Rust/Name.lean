import CommandSchema.Proofs.Rust.Expression
import CommandSchema.Proofs.Rust.Item

/-!
# Names in Rust source

Which words can name an item or a field, and which names of types and traits source brings
into scope or refers to.  A word refers to a type where a type is written, and where it
begins a path of several parts; a path of one part in an expression names a value.
-/

namespace CommandSchema.Rust

/-! ## Words that can be names -/

/-- The keywords in use, and those that are kept for later. -/
def keywords : List String :=
  ["as", "async", "await", "break", "const", "continue", "crate", "dyn", "else", "enum",
    "extern", "false", "fn", "for", "if", "impl", "in", "let", "loop", "match", "mod", "move",
    "mut", "pub", "ref", "return", "self", "Self", "static", "struct", "super", "trait", "true",
    "type", "unsafe", "use", "where", "while"] ++
  ["abstract", "become", "box", "do", "final", "gen", "macro", "override", "priv", "try",
    "typeof", "unsized", "virtual", "yield"]

/-- The keywords that have no raw form. -/
def pathKeywords : List String :=
  ["crate", "self", "Self", "super"]

/-- The words by which something can be declared. -/
inductive IsUsable : String → Prop
  | plain {name : String} (word : IsWord name.toList) (proper : name ≠ "_")
      (free : name ∉ keywords) : IsUsable name
  | raw {keyword : String} (mem : keyword ∈ keywords) (rawable : keyword ∉ pathKeywords) :
      IsUsable ("r#" ++ keyword)

theorem isUsable_iff_of_isWord {name : String} (h : IsWord name.toList) :
    IsUsable name ↔ name ≠ "_" ∧ name ∉ keywords := by
  constructor
  · intro hname
    cases hname with
    | plain word proper free => exact ⟨proper, free⟩
    | @raw keyword mem rawable =>
        have hpart := h.parts '#' (by simp)
        exact absurd hpart (by decide)
  · rintro ⟨proper, free⟩
    exact .plain h proper free

/-! ## Types -/

/-- The words that refer to types in tokens.  After `fn` and after two colons a word belongs to
something else, and in front of a colon it is declared. -/
def typeWordsFrom (owned : Bool) : List Token → List String
  | [] => []
  | .word name :: rest =>
    if rest.head? == some (.punct ':') || owned || keywords.contains name then
      typeWordsFrom (name == "fn") rest
    else name :: typeWordsFrom false rest
  | token :: rest => typeWordsFrom (token == .sep) rest

/-- The words that refer to types in tokens of which the first belongs to nothing else. -/
def typeWords (tokens : List Token) : List String :=
  typeWordsFrom false tokens

/-- The parameters of a function that stand for types. -/
def typeParameters : List Token → List String
  | .punct '<' :: .word name :: .punct ':' :: rest => name :: typeParameters rest
  | _ :: rest => typeParameters rest
  | [] => []

/-- The names that items with `use` bring into scope: the ends of their paths. -/
def imported : List Token → List String
  | .word name :: .punct c :: rest =>
    if [',', ';', '}'].contains c then name :: imported rest else imported rest
  | _ :: rest => imported rest
  | [] => []

/-- The type that a path of several parts goes through first. -/
def pathOwner (parts : List String) : List String :=
  parts.dropLast.take 1

namespace Expr

mutual

/-- The types whose functions and constants an expression names. -/
def owners : Expr → List String
  | path parts => pathOwner parts
  | call parts args => pathOwner parts ++ ownersAll args
  | method receiver _ args => receiver.owners ++ ownersAll args
  | vec items => ownersAll items
  | closure body => body.owners
  | _ => []

/-- The types whose functions and constants expressions name. -/
def ownersAll : List Expr → List String
  | [] => []
  | e :: es => e.owners ++ ownersAll es

end

theorem mem_ownersAll {x : String} {es : List Expr} :
    x ∈ ownersAll es ↔ ∃ e ∈ es, x ∈ e.owners := by
  induction es with
  | nil => simp [ownersAll]
  | cons e es ih => simp [ownersAll, ih]

end Expr

namespace Code

mutual

/-- The types that an expression in a function names. -/
def owners : Code → List String
  | string _ => []
  | path parts => pathOwner parts
  | ref target => target.owners
  | field receiver _ => receiver.owners
  | call parts args => pathOwner parts ++ ownersAll args
  | method receiver _ args => receiver.owners ++ ownersAll args
  | bang _ args => ownersAll args
  | attempt body => body.owners
  | record type _ values => type.take 1 ++ ownersAll values
  | equal left right => left.owners ++ right.owners
  | both left right => left.owners ++ right.owners

/-- The types that expressions in a function name. -/
def ownersAll : List Code → List String
  | [] => []
  | e :: es => e.owners ++ ownersAll es

end

theorem mem_ownersAll {x : String} {es : List Code} :
    x ∈ ownersAll es ↔ ∃ e ∈ es, x ∈ e.owners := by
  induction es with
  | nil => simp [ownersAll]
  | cons e es ih => simp [ownersAll, ih]

end Code

/-- The types that a statement names. -/
def Statement.owners : Statement → List String
  | bind _ value => value.owners
  | run value => value.owners

/-- The types and traits that the head of a function refers to. -/
def headNames (head : List Token) : List String :=
  (typeWords head).filter fun name => !(typeParameters head).contains name

/-- The types and traits that a function refers to. -/
def FunctionItem.typeNames (f : FunctionItem) : List String :=
  headNames f.head ++ f.statements.flatMap Statement.owners ++ f.result.owners

/-- The types and traits that an item refers to.  The last word in the head of an
implementation is the type that it belongs to. -/
def ModuleItem.typeNames : ModuleItem → List String
  | .struct _ fields => fields.flatMap typeWords
  | .impl head functions => typeWords head.dropLast ++ functions.flatMap FunctionItem.typeNames

end CommandSchema.Rust
