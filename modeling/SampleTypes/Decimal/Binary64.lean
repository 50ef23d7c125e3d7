/-!
# Double-precision numbers as data

A number in the binary64 format of IEEE 754 is its 64 bits. Keeping the bits, and not the machine's
floating-point type, makes rounding and printing ordinary arithmetic on natural numbers: a finite
number is `m · 2^q`, and both reading a decimal and choosing the shortest decimal are statements
about `m` and `q`.

`ofRatio` is the one rounding: to the nearest double, a tie to the even one.

Powers are written `Nat.pow`, so that what they mean does not depend on the instances in scope.
-/

namespace SampleTypes.Decimal

/-- A double-precision number, given by its bits. -/
structure Binary64 where
  bits : UInt64
  deriving DecidableEq, Repr

/-- What a double stands for. A finite one is `mantissa · 2 ^ exponent`, negated or not. -/
inductive Reading where
  | notANumber
  | infinite (negative : Bool)
  | finite (negative : Bool) (mantissa : Nat) (exponent : Int)
  deriving DecidableEq, Repr

namespace Binary64

/-- The exponent of the smallest positive double. -/
def leastExponent : Int := -1074

/-- The bits of positive infinity. -/
def infinityBits : Nat := 2047 * Nat.pow 2 52

/-- The sign bit. -/
def signBit (negative : Bool) : Nat :=
  if negative then Nat.pow 2 63 else 0

/-- The number that the bits stand for. -/
def reading (x : Binary64) : Reading :=
  let n := x.bits.toNat
  let negative := decide (Nat.pow 2 63 ≤ n)
  let magnitude := n % Nat.pow 2 63
  if infinityBits < magnitude then .notANumber
  else if magnitude = infinityBits then .infinite negative
  else
    let fraction := magnitude % Nat.pow 2 52
    match magnitude / Nat.pow 2 52 with
    | 0 => .finite negative fraction leastExponent
    | biased + 1 => .finite negative (Nat.pow 2 52 + fraction) (biased + leastExponent)

/-- A not-a-number. -/
def nan : Binary64 := ⟨UInt64.ofNat (infinityBits + Nat.pow 2 51)⟩

/-- The infinity of the given sign. -/
def infinity (negative : Bool) : Binary64 :=
  ⟨UInt64.ofNat (signBit negative + infinityBits)⟩

/-- The number is a not-a-number. -/
def isNaN (x : Binary64) : Bool :=
  x.reading = .notANumber

/-- The number is neither infinite nor a not-a-number. -/
def isFinite (x : Binary64) : Bool :=
  match x.reading with
  | .finite .. => true
  | _ => false

/-- The whole number that the double is, if it is one. -/
def toInt? (x : Binary64) : Option Int :=
  match x.reading with
  | .finite negative mantissa exponent =>
    let scale := Nat.pow 2 (-exponent).toNat
    if mantissa % scale = 0 then
      let magnitude : Int := mantissa * Nat.pow 2 exponent.toNat / scale
      some (if negative then -magnitude else magnitude)
    else none
  | _ => none

/-- The quotient rounded to the nearest whole number, a tie to the even one. -/
def roundHalfEven (num den : Nat) : Nat :=
  let q := num / den
  let twice := 2 * (num % den)
  if twice < den then q
  else if den < twice then q + 1
  else q + q % 2

/-- The exponent of the unit in which `num / den` has 53 binary digits, or the least exponent. -/
def unitExponent (num den : Nat) : Int :=
  let guess : Int := (num.log2 : Int) - (den.log2 : Int) - 52
  -- One less when the leading digits of the numerator are the smaller ones.
  let exact :=
    if (if 0 ≤ guess then num < Nat.pow 2 (52 + guess.toNat) * den
        else num * Nat.pow 2 (-guess).toNat < Nat.pow 2 52 * den) then guess - 1
    else guess
  max exact leastExponent

/-- The double nearest to `num / den`, with the given sign. A mantissa of 53 digits that rounds
up to 54 carries into the exponent field, which is the right result; a magnitude that reaches the
exponent field of infinity is infinite. -/
def ofRatio (negative : Bool) (num den : Nat) : Binary64 :=
  let magnitude :=
    if num = 0 then 0
    else
      let e := unitExponent num den
      let mantissa :=
        if 0 ≤ e then roundHalfEven num (den * Nat.pow 2 e.toNat)
        else roundHalfEven (num * Nat.pow 2 (-e).toNat) den
      min ((e - leastExponent).toNat * Nat.pow 2 52 + mantissa) infinityBits
  ⟨UInt64.ofNat (signBit negative + magnitude)⟩

/-- The number of decimal digits. -/
def digitCount (n : Nat) : Nat :=
  (Nat.toDigits 10 n).length

/-- The double nearest to `digits · 10 ^ exponent`. Exponents far outside the range of doubles are
answered without forming the power. -/
def ofDecimal (negative : Bool) (digits : Nat) (exponent : Int) : Binary64 :=
  let top := (digitCount digits : Int) + exponent
  if digits = 0 then ofRatio negative 0 1
  else if 400 < top then infinity negative
  else if top < -400 then ofRatio negative 0 1
  else if 0 ≤ exponent then ofRatio negative (digits * Nat.pow 10 exponent.toNat) 1
  else ofRatio negative digits (Nat.pow 10 (-exponent).toNat)

/-- The double nearest to a whole number. -/
def ofInt (n : Int) : Binary64 :=
  ofRatio (n < 0) n.natAbs 1

end Binary64

end SampleTypes.Decimal
