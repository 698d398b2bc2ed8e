/-!
# What a plain scalar means

A scalar that is written without quotation marks can stand for null, a truth value or a number. All
other plain scalars are texts.
-/

namespace CommandSchema.Yaml

/-- The meaning of a plain scalar. -/
inductive Meaning
  | null
  | bool (b : Bool)
  | int (n : Int)
  | float
  | text
  deriving DecidableEq, Repr

/-- Whether a scalar is one of the words for null. -/
def isNullWord (s : String) : Bool :=
  s == "null" || s == "Null" || s == "NULL" || s == "~"

/-- The truth value that a scalar is a word for. -/
def truth? (s : String) : Option Bool :=
  if s == "true" || s == "True" || s == "TRUE" then some true
  else if s == "false" || s == "False" || s == "FALSE" then some false
  else none

/-- The value of a digit, small or capital, if it is below `radix`. -/
def digit? (radix : Nat) (c : Char) : Option Nat :=
  let d :=
    if c.isDigit then some (c.toNat - '0'.toNat)
    else if c.isLower then some (c.toNat - 'a'.toNat + 10)
    else if c.isUpper then some (c.toNat - 'A'.toNat + 10)
    else none
  d.filter (· < radix)

/-- Digits as a number. -/
def digits? (radix : Nat) (cs : List Char) : Option Nat :=
  if cs = [] then none
  else cs.foldlM (fun n c => (digit? radix c).map (n * radix + ·)) 0

/-- A number without a sign: decimal, or in base sixteen, eight or two after its mark. -/
def magnitude? : List Char → Option Nat
  | '0' :: 'x' :: cs => digits? 16 cs
  | '0' :: 'o' :: cs => digits? 8 cs
  | '0' :: 'b' :: cs => digits? 2 cs
  | cs => digits? 10 cs

/-- A scalar without one leading sign. -/
def dropSign : List Char → List Char
  | '-' :: cs => cs
  | '+' :: cs => cs
  | cs => cs

/-- Whether a scalar is made of digits but is no number, because it has a needless zero in front. -/
def hasLeadingZero (s : String) : Bool :=
  match dropSign s.toList with
  | '0' :: c :: cs => (c :: cs).all Char.isDigit
  | _ => false

/-- The integer that a scalar stands for, if it fits into 128 bits. -/
def integer? (s : String) : Option Int :=
  if hasLeadingZero s then none
  else match s.toList with
    | '-' :: cs => ((magnitude? cs).filter (· ≤ 1 <<< 127)).map fun n => -(n : Int)
    | '+' :: cs => ((magnitude? cs).filter (· < 1 <<< 128)).map fun n => (n : Int)
    | cs => ((magnitude? cs).filter (· < 1 <<< 128)).map fun n => (n : Int)

/-- A decimal number with a point or an exponent: its digits and the power of ten to scale by. -/
structure Decimal where
  digits : List Char
  exponent : Int
  deriving DecidableEq, Repr

/-- The exponent after its mark. -/
def exponent? : List Char → Option Int
  | [] => some 0
  | c :: cs =>
    if c = 'e' ∨ c = 'E' then
      match cs with
      | '-' :: ds => (digits? 10 ds).map fun n => -(n : Int)
      | '+' :: ds => (digits? 10 ds).map fun n => (n : Int)
      | ds => (digits? 10 ds).map fun n => (n : Int)
    else none

/-- A decimal number without a sign; it needs a digit before or after the point. -/
def decimal? (cs : List Char) : Option Decimal :=
  let whole := cs.takeWhile Char.isDigit
  let rest := cs.dropWhile Char.isDigit
  let (fraction, rest) := match rest with
    | '.' :: r => (r.takeWhile Char.isDigit, r.dropWhile Char.isDigit)
    | r => ([], r)
  if whole ++ fraction = [] then none
  else (exponent? rest).map fun e => ⟨whole ++ fraction, e - fraction.length⟩

/-- Whether a decimal number rounds to a finite double: it is below the middle between the largest
double and the power of two after it. -/
def Decimal.isFinite (d : Decimal) : Bool :=
  let digits := d.digits.dropWhile (· == '0')
  let top := digits.length + d.exponent
  if digits = [] || top ≤ 308 then true
  else if 310 ≤ top then false
  else
    let n := (digits? 10 digits).getD 0
    let limit := 1 <<< 1024 - 1 <<< 970
    n * Nat.pow 10 d.exponent.toNat < limit * Nat.pow 10 (-d.exponent).toNat

/-- Whether a scalar stands for a number with a fraction or exponent, or for one that is not
finite. -/
def isFloat (s : String) : Bool :=
  let special := [".inf", ".Inf", ".INF", "+.inf", "+.Inf", "+.INF", "-.inf", "-.Inf", "-.INF",
    ".nan", ".NaN", ".NAN"]
  special.contains s || (decimal? (dropSign s.toList)).any Decimal.isFinite

/-- The meaning of a plain scalar. -/
def meaning (s : String) : Meaning :=
  if s == "" || isNullWord s then .null
  else match truth? s with
    | some b => .bool b
    | none =>
      match integer? s with
      | some n => .int n
      | none => if !hasLeadingZero s && isFloat s then .float else .text

end CommandSchema.Yaml
