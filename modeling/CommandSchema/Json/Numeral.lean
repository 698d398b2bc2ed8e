import CommandSchema.Text.Shortest

/-!
# Numbers in JSON

The form of a number, and what it stands for. Whole numbers of 64 bits are integers. All others are
doubles: the digits that fit into 64 bits, taken as an integer, are rounded and then scaled once by
a power of ten.
-/

namespace CommandSchema.Json

/-- A number that is written out. -/
inductive Numeral
  | integer (n : Int)
  | floating (x : Float)
  /-- The number is too large for a double. -/
  | outOfRange

/-- The parts of a number as they are written. -/
structure NumberText where
  isNegative : Bool
  whole : List Char
  fraction : Option (List Char)
  /-- Whether the exponent is negative, and its digits. -/
  exponent : Option (Bool × List Char)
  deriving DecidableEq, Repr

/-- The digits at the front of a text, and the rest. -/
def digits (cs : List Char) : List Char × List Char :=
  (cs.takeWhile Char.isDigit, cs.dropWhile Char.isDigit)

/-- Reads the whole part of a number: one zero, or digits that do not start with one. -/
def wholePart? (cs : List Char) : Option (List Char × List Char) :=
  match digits cs with
  | ([], _) => none
  | ('0' :: _ :: _, _) => none
  | parts => some parts

/-- Reads the part of a number after its point, if there is a point; it needs a digit. -/
def fractionPart? : List Char → Option (Option (List Char) × List Char)
  | '.' :: cs =>
    match digits cs with
    | ([], _) => none
    | (ds, rest) => some (some ds, rest)
  | cs => some (none, cs)

/-- Reads the exponent of a number, if there is one; it needs a digit. -/
def exponentPart? : List Char → Option (Option (Bool × List Char) × List Char)
  | c :: cs =>
    if c = 'e' ∨ c = 'E' then
      let (isNegative, cs) := match cs with
        | '-' :: r => (true, r)
        | '+' :: r => (false, r)
        | r => (false, r)
      match digits cs with
      | ([], _) => none
      | (ds, rest) => some (some (isNegative, ds), rest)
    else some (none, c :: cs)
  | [] => some (none, [])

/-- Reads the parts of a number at the front of a text. -/
def numberText? (cs : List Char) : Option (NumberText × List Char) := do
  let (isNegative, cs) := match cs with
    | '-' :: r => (true, r)
    | r => (false, r)
  let (whole, cs) ← wholePart? cs
  let (fraction, cs) ← fractionPart? cs
  let (exponent, cs) ← exponentPart? cs
  return (⟨isNegative, whole, fraction, exponent⟩, cs)

/-- The number that decimal digits name. -/
def naturalOf (ds : List Char) : Nat :=
  ds.foldl (fun n c => n * 10 + (c.toNat - '0'.toNat)) 0

/-- Digits added to a number as long as it fits into 64 bits, and those that are left. -/
def accumulate : Nat → List Char → Nat × List Char
  | n, [] => (n, [])
  | n, c :: cs =>
    let next := n * 10 + (c.toNat - '0'.toNat)
    if next < UInt64.size then accumulate next cs else (n, c :: cs)

/-- A double scaled by a power of ten, in steps of which each is rounded once. There is none if it
leaves the range of doubles. -/
def scaled : (fuel : Nat) → Float → Int → Option Float
  | 0, _, _ => none
  | fuel + 1, x, exponent =>
    if exponent.natAbs ≤ 308 then
      let power := Float.ofScientific 1 false exponent.natAbs
      if 0 ≤ exponent then
        let y := x * power
        if y.isInf then none else some y
      else some (x / power)
    else if x == 0 then some x
    else if 0 ≤ exponent then none
    else scaled fuel (x / Float.ofScientific 1 false 308) (exponent + 308)

/-- A double with a sign. -/
def signed (isNegative : Bool) (x : Float) : Float :=
  if isNegative then -x else x

namespace NumberText

/-- The significant digits as a number of 64 bits, and the power of ten to scale it by. -/
def significand (t : NumberText) : Nat × Int :=
  let (n, dropped) := accumulate 0 t.whole
  let fraction := t.fraction.getD []
  let (n, unread) := accumulate n fraction
  (n, (dropped.length : Int) - (fraction.length - unread.length : Nat))

/-- The number as a double. An exponent of more than 31 bits makes it too large or zero. -/
def double (t : NumberText) : Numeral :=
  let (n, scale) := t.significand
  let (isDown, exponent) := match t.exponent with
    | some (isDown, ds) => (isDown, naturalOf ds)
    | none => (false, 0)
  if 1 <<< 31 ≤ exponent then
    if n ≠ 0 ∧ !isDown then .outOfRange else .floating (signed t.isNegative 0)
  else
    let exponent : Int := if isDown then scale - exponent else scale + exponent
    let x := Float.ofNat n
    match scaled (exponent.natAbs / 308 + 1) x exponent with
    | some y => .floating (signed t.isNegative y)
    | none => .outOfRange

/-- What a number stands for. Minus zero is a double. -/
def numeral (t : NumberText) : Numeral :=
  let n := naturalOf t.whole
  if t.fraction.isNone ∧ t.exponent.isNone then
    if !t.isNegative ∧ n < UInt64.size then .integer n
    else if t.isNegative ∧ n ≠ 0 ∧ n ≤ 1 <<< 63 then .integer (-n)
    else t.double
  else t.double

end NumberText

end CommandSchema.Json
