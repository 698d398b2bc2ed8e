import CommandSchema.Field

/-!
# Expressions that rebuild a field

A generated module declares each field by a call of a constructor and of methods that change what
the constructor does not make as it should be. Only the needed methods are called.
-/

namespace CommandSchema.Generated

/-- A constructor of fields and its arguments. -/
inductive Constructor
  | flag (short : Option Char) (long : Option String)
  | counter (short : Option Char) (long : Option String)
  | valued (short : Option Char) (long : Option String) (type : ValueType)
  | positional (name : String) (type : ValueType)
  | positionalList (name : String)
  deriving DecidableEq, Repr

/-- A method that changes a field. -/
inductive Method
  | withName (name : String)
  | withDefault (value : Value)
  | required
  | optional
  | withDescription (text : String)
  deriving DecidableEq, Repr

/-- A call of a constructor and then of methods, in order. -/
structure FieldCall where
  constructor : Constructor
  methods : List Method
  deriving DecidableEq, Repr

namespace Constructor

/-- The field that a constructor makes. -/
def eval : Constructor → Field
  | flag short long => .flag short long
  | counter short long => .counter short long
  | valued short long type => .valued short long type
  | positional name type => .positional name type
  | positionalList name => .positionalList name

/-- The constructor for fields of a field's kind, with the field's forms or name. -/
def ofField (f : Field) : Constructor :=
  match f.kind with
  | .flag => flag f.short f.long
  | .counter => counter f.short f.long
  | .valued type => valued f.short f.long type
  | .positional type => positional f.name type
  | .positionalList => positionalList f.name

end Constructor

namespace Method

/-- The field that a method makes of a field. -/
def eval (f : Field) : Method → Field
  | withName name => f.withName name
  | withDefault value => f.withDefault value
  | required => f.asRequired
  | optional => f.asOptional
  | withDescription text => f.withDescription text

end Method

namespace FieldCall

/-- The field that an expression stands for. -/
def eval (e : FieldCall) : Field :=
  e.methods.foldl Method.eval e.constructor.eval

/-- The method that sets the default, or whether the field is required, if the field `made` by the
constructor does not have it yet. -/
def supplyMethod (f made : Field) : List Method :=
  match f.default with
  | some value => [.withDefault value]
  | none =>
    if f.required && !made.required then [.required]
    else if !f.required && made.required then [.optional]
    else []

/-- The expression for a field. -/
def ofField (f : Field) : FieldCall :=
  let constructor := Constructor.ofField f
  let made := constructor.eval
  { constructor := constructor
    methods :=
      (if made.name = f.name then [] else [.withName f.name]) ++ supplyMethod f made ++
        (f.description.map Method.withDescription).toList }

end FieldCall

end CommandSchema.Generated
