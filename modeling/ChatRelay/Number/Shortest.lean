import ChatRelay.Number.Binary64

namespace ChatRelay

-- The number `digits * 10 ^ exponent`.
structure Decimal where
  digits : Nat
  exponent : Int
deriving DecidableEq

namespace Binary64

-- The value and the ends of the interval of reals that round to it, in quarters of the unit of
-- the last place. Just above a power of two the lower neighbour is half as far away.
structure Rounding where
  low : Nat
  value : Nat
  high : Nat
  unit : Int
  endsIncluded : Bool

def rounding (x : Binary64) : Rounding :=
  let closer := x.mantissa = leastFull ∧ leastExponent < x.exponent
  { low := 4 * x.mantissa - (if closer then 1 else 2)
    value := 4 * x.mantissa
    high := 4 * x.mantissa + 2
    unit := x.exponent - 2
    endsIncluded := x.mantissa % 2 = 0 }

-- How many digits stand before the point; zero or less when the first digit comes after it. The
-- fuel bounds the number of zeros after the point.
def pointPosition (n d : Nat) : Int :=
  if d ≤ n then ((Nat.toDigits 10 (n / d)).length : Int) else below 400 (n * 10)
where
  below : Nat → Nat → Int
    | 0, _ => 0
    | fuel + 1, n => if d ≤ n then 0 else below fuel (n * 10) - 1

-- The two decimals next to the value on the grid of a power of ten that read back as the value,
-- the nearer first.
def onGrid (r : Rounding) (exponent : Int) : List Decimal :=
  let unit := scaleRatio 1 1 r.unit
  let grid : Nat × Nat :=
    if 0 ≤ exponent then (Nat.pow 10 exponent.toNat, 1) else (1, Nat.pow 10 (-exponent).toNat)
  -- quarters of the unit, and steps of the grid, over one common denominator
  let quarter := unit.1 * grid.2
  let step := grid.1 * unit.2
  let value := r.value * quarter
  let inside (c : Nat) : Bool :=
    let x := c * step
    let lo := r.low * quarter
    let hi := r.high * quarter
    if r.endsIncluded then lo ≤ x && x ≤ hi else lo < x && x < hi
  let c := value / step
  let below := value - c * step
  let above := (c + 1) * step - value
  let order := if above < below || (above == below && c % 2 == 1) then [c + 1, c] else [c, c + 1]
  -- a whole ten arises on the coarsest grid only, from a value just below a power of ten
  (order.filter inside).map fun c => if c % 10 = 0 then ⟨c / 10, exponent + 1⟩ else ⟨c, exponent⟩

-- Tries one digit, then two, and so on; seventeen always suffice.
def shortest (x : Binary64) : Decimal :=
  let r := x.rounding
  let m := x.magnitude
  let point := pointPosition m.1 m.2
  let grids := (List.range 17).map fun (n : Nat) => point - n - 1
  (grids.findSome? fun exponent => (onGrid r exponent).head?).getD ⟨0, 0⟩

end Binary64

-- How a decimal is written: positionally while the exponent of its first digit lies between the
-- two bounds, otherwise as one digit, a fraction and an exponent.
structure DecimalLayout where
  leastPositional : Int
  greatestPositional : Int
  -- Whether a positional whole number ends in a point and a zero.
  wholeFraction : Bool
  mark : String
  positiveSign : String

namespace DecimalLayout

def zeros (n : Nat) : String := String.ofList (List.replicate n '0')

def write (layout : DecimalLayout) (x : Decimal) : String :=
  let digits := Nat.toDigits 10 x.digits
  let count := digits.length
  let leading := x.exponent + count - 1
  if layout.leastPositional ≤ leading ∧ leading ≤ layout.greatestPositional then
    if 0 ≤ x.exponent then
      String.ofList digits ++ zeros x.exponent.toNat ++ (if layout.wholeFraction then ".0" else "")
    else if 0 ≤ leading then
      let whole := (leading + 1).toNat
      String.ofList (digits.take whole) ++ "." ++ String.ofList (digits.drop whole)
    else
      "0." ++ zeros (-leading - 1).toNat ++ String.ofList digits
  else
    let fraction := digits.drop 1
    String.ofList (digits.take 1)
      ++ (if fraction.isEmpty then "" else "." ++ String.ofList fraction)
      ++ layout.mark ++ (if leading < 0 then "-" else layout.positiveSign)
      ++ toString leading.natAbs

end DecimalLayout

-- The text of a value; zero is written as the whole number zero.
def Binary64.write (x : Binary64) (layout : DecimalLayout) : String :=
  let sign := if x.negative then "-" else ""
  if x.isZero then sign ++ layout.write ⟨0, 0⟩ else sign ++ layout.write x.shortest

end ChatRelay
