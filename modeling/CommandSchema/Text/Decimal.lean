/-!
# Integers in decimal

Writing an integer in decimal, and reading one that has to fit into 64 bits. Reading goes from left
to right and reports the first fault it meets; at one character a bad digit goes before a number
that has left the range.
-/

namespace CommandSchema.Text

/-- An integer in decimal, with a minus sign if it is negative. -/
def decimal : Int → String
  | .ofNat n => String.ofList (Nat.toDigits 10 n)
  | .negSucc n => String.ofList ('-' :: Nat.toDigits 10 (n + 1))

/-- Why a text is not an integer of 64 bits. -/
inductive IntegerFault
  | empty
  | invalidDigit
  | tooLarge
  | tooSmall
  deriving DecidableEq, Repr

namespace IntegerFault

/-- The wording of a fault. -/
def message : IntegerFault → String
  | empty => "cannot parse integer from empty string"
  | invalidDigit => "invalid digit found in string"
  | tooLarge => "number too large to fit in target type"
  | tooSmall => "number too small to fit in target type"

end IntegerFault

/-- Reads decimal digits onto the number read so far. A digit that takes the number past `limit` is
the fault `overflow`. -/
def readDigits (limit : Nat) (overflow : IntegerFault) : Nat → List Char → Except IntegerFault Nat
  | n, [] => .ok n
  | n, c :: cs =>
    if c.isDigit then
      let next := n * 10 + (c.toNat - '0'.toNat)
      if next ≤ limit then readDigits limit overflow next cs else .error overflow
    else .error .invalidDigit

/-- Reads the digits of a number that is not negative; there has to be one. -/
def readUnsigned (cs : List Char) : Except IntegerFault Int64 :=
  if cs = [] then .error .invalidDigit
  else (readDigits (1 <<< 63 - 1) .tooLarge 0 cs).map fun n => Int64.ofInt n

/-- Reads the digits after a minus sign; there has to be one. -/
def readNegative (cs : List Char) : Except IntegerFault Int64 :=
  if cs = [] then .error .invalidDigit
  else (readDigits (1 <<< 63) .tooSmall 0 cs).map fun n => Int64.ofInt (-n)

/-- Reads an integer of 64 bits: one sign or none, then decimal digits. -/
def readInteger (s : String) : Except IntegerFault Int64 :=
  match s.toList with
  | [] => .error .empty
  | '+' :: cs => readUnsigned cs
  | '-' :: cs => readNegative cs
  | cs => readUnsigned cs

end CommandSchema.Text
