namespace ChatRelay

-- The number `mantissa * 2 ^ exponent` with a sign; zero has two signs.
structure Binary64 where
  negative : Bool
  mantissa : Nat
  exponent : Int
deriving DecidableEq, Inhabited

namespace Binary64

def leastExponent : Int := -1074
def greatestExponent : Int := 971

-- The least mantissa of 53 bits.
def leastFull : Nat := 0x10_0000_0000_0000

def zero (negative : Bool) : Binary64 := ⟨negative, 0, leastExponent⟩

def isZero (x : Binary64) : Bool := x.mantissa == 0

-- The quotient rounded to the nearest natural, a tie to the even one.
def roundDiv (n d : Nat) : Nat :=
  let q := n / d
  let r := n % d
  if 2 * r < d then q else if d < 2 * r then q + 1 else q + q % 2

-- A quotient times a power of two, as a quotient.
def scaleRatio (n d : Nat) (e : Int) : Nat × Nat :=
  if 0 ≤ e then (n <<< e.toNat, d) else (n, d <<< (-e).toNat)

-- The exponent at which the quotient of two positive naturals has a 53-bit mantissa, or the
-- least exponent if that is greater.
def exponentOf (n d : Nat) : Int :=
  let guess : Int := (n.log2 : Int) - (d.log2 : Int) - 52
  let scaled := scaleRatio n d (-guess)
  let fitted := if scaled.1 < leastFull * scaled.2 then guess - 1 else guess
  max fitted leastExponent

-- The value nearest to the quotient, or `none` if it is too large.
def ofRatio? (negative : Bool) (n d : Nat) : Option Binary64 :=
  if n = 0 then some (zero negative)
  else
    let e := exponentOf n d
    let scaled := scaleRatio n d (-e)
    let m := roundDiv scaled.1 scaled.2
    let x : Binary64 := if m = 2 * leastFull then ⟨negative, leastFull, e + 1⟩ else ⟨negative, m, e⟩
    if greatestExponent < x.exponent then none else some x

def magnitude (x : Binary64) : Nat × Nat := scaleRatio x.mantissa 1 x.exponent

-- Naturals below `2 ^ 64` are far inside the range.
def ofNat (n : Nat) : Binary64 := (ofRatio? false n 1).getD (zero false)

def ofInt (n : Int) : Binary64 := (ofRatio? (n < 0) n.natAbs 1).getD (zero false)

def mul? (x y : Binary64) : Option Binary64 :=
  let a := x.magnitude
  let b := y.magnitude
  ofRatio? (x.negative ^^ y.negative) (a.1 * b.1) (a.2 * b.2)

-- The quotient by a non-zero value.
def div? (x y : Binary64) : Option Binary64 :=
  let a := x.magnitude
  let b := y.magnitude
  ofRatio? (x.negative ^^ y.negative) (a.1 * b.2) (a.2 * b.1)

def greatestPowerOfTen : Nat := 308

def powerOfTen (k : Nat) : Binary64 := ofNat (Nat.pow 10 k)

-- A significand below `2 ^ 64` times a power of ten. The significand is rounded first, then
-- multiplied or divided by the value nearest to the power of ten; below `10 ^ -308` it is first
-- divided by `10 ^ 308`, and a second such division leaves nothing.
def ofScientific? (negative : Bool) (significand : Nat) (exponent : Int) : Option Binary64 :=
  let s : Binary64 := { ofNat significand with negative }
  let k := exponent.natAbs
  if s.isZero then some s
  else if 0 ≤ exponent then
    if k ≤ greatestPowerOfTen then s.mul? (powerOfTen k) else none
  else if k ≤ greatestPowerOfTen then s.div? (powerOfTen k)
  else if k ≤ 2 * greatestPowerOfTen then
    (s.div? (powerOfTen greatestPowerOfTen)).bind
      (·.div? (powerOfTen (k - greatestPowerOfTen)))
  else some (zero negative)

end Binary64

end ChatRelay
