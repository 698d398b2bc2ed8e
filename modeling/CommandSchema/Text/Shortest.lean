/-!
# Shortest decimals

A finite double stands for all real numbers that round to it. It is written with the fewest decimal
digits that name one of them, and of those with the ones nearest to it: positionally if the point
stands in or near the digits, otherwise with an exponent.
-/

namespace CommandSchema.Text

/-- The size of a finite double: `mantissa * 2 ^ exponent`. -/
structure Magnitude where
  mantissa : Nat
  exponent : Int
  /-- Whether the double below is only half as far away as the one above. -/
  isNarrowBelow : Bool
  deriving DecidableEq, Repr

namespace Magnitude

/-- The size that the bits of a finite double give. -/
def ofBits (bits : UInt64) : Magnitude :=
  let biased := ((bits >>> 52) &&& 0x7FF).toNat
  let fraction := (bits &&& 0xFFFFFFFFFFFFF).toNat
  if biased = 0 then ⟨fraction, -1074, false⟩
  else ⟨1 <<< 52 + fraction, (biased : Int) - 1075, fraction == 0 && biased != 1⟩

/-- A quarter of the size's last place, and ten to the power `-scale`, as one fraction: the size is
`4 * mantissa` of these units. -/
def unit (x : Magnitude) (scale : Int) : Nat × Nat :=
  (1 <<< (x.exponent - 2).toNat * Nat.pow 10 (-scale).toNat,
    1 <<< (2 - x.exponent).toNat * Nat.pow 10 scale.toNat)

/-- Whether `digits * 10 ^ scale` rounds to the size: it lies between the middles to its neighbours,
or is one of them and the mantissa is even. -/
def readsBack (x : Magnitude) (digits : Nat) (scale : Int) : Bool :=
  let (up, down) := x.unit scale
  let low := (4 * x.mantissa - if x.isNarrowBelow then 1 else 2) * up
  let high := (4 * x.mantissa + 2) * up
  let point := digits * down
  if x.mantissa % 2 = 0 then low ≤ point && point ≤ high else low < point && point < high

/-- The least power of ten that is greater than the size, in a range of `fuel` exponents from
`start`. -/
def scaleFrom (x : Magnitude) : (fuel : Nat) → (start : Int) → Int
  | 0, k => k
  | fuel + 1, k =>
    let (up, down) := x.unit k
    if 4 * x.mantissa * up < down then k else x.scaleFrom fuel (k + 1)

/-- The decimal on the grid `10 ^ scale` that reads back; of two, the nearer one. -/
def onGrid? (x : Magnitude) (scale : Int) : Option Nat :=
  let (up, down) := x.unit scale
  let exact := 4 * x.mantissa * up
  let below := exact / down
  let isLowNear :=
    2 * exact < (2 * below + 1) * down || (2 * exact = (2 * below + 1) * down && below % 2 = 0)
  let candidates := if isLowNear then [below, below + 1] else [below + 1, below]
  candidates.find? fun d => x.readsBack d scale

/-- The fewest digits that read back, and the power of ten to scale them by. -/
def shortest (x : Magnitude) : Nat × Int :=
  let top := x.scaleFrom 700 (-330)
  let grids := (List.range 17).map fun (n : Nat) => top - 1 - n
  (grids.findSome? fun k => (x.onGrid? k).map fun d => (d, k)).getD (0, 0)

end Magnitude

/-- Digits without the zeros at the end, and the exponent that makes up for them. -/
def withoutZeros (digits : List Char) (exponent : Int) : List Char × Int :=
  let zeros := (digits.reverse.takeWhile (· == '0')).length
  (digits.take (digits.length - zeros), exponent + zeros)

/-- Digits scaled by a power of ten. The point stands in the digits, or at most sixteen places
behind their start or five before it; else there is one digit before the point and an exponent with
its sign. -/
def layOut (digits : List Char) (exponent : Int) : List Char :=
  let point := digits.length + exponent
  if 0 ≤ exponent ∧ point ≤ 16 then digits ++ List.replicate exponent.toNat '0' ++ ['.', '0']
  else if 0 < point ∧ point ≤ 16 then digits.take point.toNat ++ '.' :: digits.drop point.toNat
  else if -5 < point ∧ point ≤ 0 then '0' :: '.' :: List.replicate (-point).toNat '0' ++ digits
  else
    let fraction := digits.drop 1
    let power : Int := point - 1
    digits.take 1 ++ (if fraction = [] then [] else '.' :: fraction) ++ 'e' ::
      (if power < 0 then '-' else '+') :: Nat.toDigits 10 power.natAbs

/-- A finite double in its shortest form. -/
def floating (x : Float) : String :=
  let size := Magnitude.ofBits x.toBits
  let sign := if x.toBits >>> 63 = 1 then ['-'] else []
  let text :=
    if size.mantissa = 0 then ['0', '.', '0']
    else
      let (n, k) := size.shortest
      let (digits, exponent) := withoutZeros (Nat.toDigits 10 n) k
      layOut digits exponent
  String.ofList (sign ++ text)

end CommandSchema.Text
