import SampleTypes.Decimal.Binary64

/-!
# The shortest decimal that reads back

The text of a double has the fewest significant digits that read back as that double, and among
those the ones nearest to it. All reals between the midpoints to the two neighbouring doubles read
back; the midpoints themselves do when the mantissa is even. For one digit, two digits and so on,
the two grid points around the number are tried; seventeen digits always suffice.
-/

namespace SampleTypes.Decimal.Shortest

/-- A positive rational `num / den` together with the reals that round to it: those between
`lowNum / den` and `highNum / den`, the ends included or not. -/
structure Target where
  num : Nat
  lowNum : Nat
  highNum : Nat
  den : Nat
  closed : Bool
  deriving Repr

/-- The reals that round to `mantissa · 2 ^ exponent`. Below a power of two the doubles lie twice
as close, so the lower midpoint is at a quarter of a unit. -/
def Target.of (mantissa : Nat) (exponent : Int) : Target :=
  let scale := if 0 ≤ exponent then Nat.pow 2 exponent.toNat else 1
  let below := if mantissa = Nat.pow 2 52 ∧ Binary64.leastExponent < exponent then 1 else 2
  { num := 4 * mantissa * scale
    lowNum := (4 * mantissa - below) * scale
    highNum := (4 * mantissa + 2) * scale
    den := if 0 ≤ exponent then 4 else 4 * Nat.pow 2 (-exponent).toNat
    closed := mantissa % 2 = 0 }

/-- The exponent of the leading decimal digit of `num / den`. -/
def leadingExponent (num den : Nat) : Int :=
  if den ≤ num then (Binary64.digitCount (num / den) : Int) - 1
  else
    let shift := Binary64.digitCount den - Binary64.digitCount num
    if den ≤ num * Nat.pow 10 shift then -(shift : Int) else -(shift : Int) - 1

/-- Whether `digits · 10 ^ unit` rounds to the target. -/
def Target.admits (t : Target) (digits : Nat) (unit : Int) : Bool :=
  let point := if 0 ≤ unit then digits * Nat.pow 10 unit.toNat * t.den else digits * t.den
  let factor := if 0 ≤ unit then 1 else Nat.pow 10 (-unit).toNat
  if t.closed then decide (t.lowNum * factor ≤ point ∧ point ≤ t.highNum * factor)
  else decide (t.lowNum * factor < point ∧ point < t.highNum * factor)

/-- The grid point nearest to the target that rounds to it, on the grid of multiples of
`10 ^ unit`. -/
def Target.onGrid? (t : Target) (unit : Int) : Option Nat :=
  let num := if 0 ≤ unit then t.num else t.num * Nat.pow 10 (-unit).toNat
  let den := if 0 ≤ unit then t.den * Nat.pow 10 unit.toNat else t.den
  let near := Binary64.roundHalfEven num den
  let floor := num / den
  let far := if near = floor then floor + 1 else floor
  if t.admits near unit then some near
  else if t.admits far unit then some far
  else none

/-- Tries grids of one more digit each. -/
def Target.search (t : Target) (unit : Int) : (tries : Nat) → Nat × Int
  | 0 => ((t.onGrid? unit).getD 0, unit)
  | tries + 1 =>
    match t.onGrid? unit with
    | some digits => (digits, unit)
    | none => t.search (unit - 1) tries

/-- The shortest digits of `mantissa · 2 ^ exponent` and the power of ten of the last one. -/
def digits (mantissa : Nat) (exponent : Int) : Nat × Int :=
  let t := Target.of mantissa exponent
  t.search (leadingExponent t.num t.den) 17

/-- How a number is laid out once its digits are chosen. -/
structure Layout where
  /-- The least exponent of the leading digit that is written positionally. -/
  least : Int
  /-- The first exponent of the leading digit that is no longer written positionally. -/
  beyond : Int
  notANumber : String
  infinity : String

/-- Positional from `10 ^ -4` up to below `10 ^ 16`. -/
def layout : Layout := ⟨-4, 16, "nan", "inf"⟩

/-- A run of zeros. -/
def zeros (n : Nat) : List Char :=
  List.replicate n '0'

/-- Digits with the point after the first `whole` of them, and at least one on either side. -/
def positional (ds : List Char) (leading : Int) : List Char :=
  if leading < 0 then '0' :: '.' :: zeros (-leading - 1).toNat ++ ds
  else
    let whole := leading.toNat + 1
    if ds.length ≤ whole then ds ++ zeros (whole - ds.length) ++ ['.', '0']
    else ds.take whole ++ '.' :: ds.drop whole

/-- One digit, the others after a point, and an exponent of at least two digits. -/
def scientific (ds : List Char) (leading : Int) : List Char :=
  let fraction := if ds.length ≤ 1 then [] else '.' :: ds.drop 1
  let size := (Nat.toDigits 10 leading.natAbs)
  let padded := if size.length < 2 then '0' :: size else size
  ds.take 1 ++ fraction ++ 'e' :: (if leading < 0 then '-' else '+') :: padded

/-- Digits without trailing zeros; zero keeps one. -/
def trimZeros (ds : List Char) : List Char :=
  match (ds.reverse.dropWhile (· = '0')).reverse with
  | [] => ['0']
  | kept => kept

/-- The text of a double. -/
def text (x : Binary64) : String :=
  match x.reading with
  | .notANumber => layout.notANumber
  | .infinite negative => (if negative then "-" else "") ++ layout.infinity
  | .finite negative mantissa exponent =>
    let written :=
      if mantissa = 0 then ['0', '.', '0']
      else
        let (value, unit) := digits mantissa exponent
        let ds := Nat.toDigits 10 value
        let leading := (ds.length : Int) - 1 + unit
        if layout.least ≤ leading ∧ leading < layout.beyond then
          positional (trimZeros ds) leading
        else scientific (trimZeros ds) leading
    (if negative then "-" else "") ++ String.ofList written

end SampleTypes.Decimal.Shortest
