import SchemaPlan.Json.Number

/-!
# Shortest decimals

The decimal of fewest digits that rounds to a given binary64 value, and of those the nearest to it.
The search runs through the decimal grids from coarse to fine and tries on each the two neighbours
of the value, in exact arithmetic: if a point of a grid rounds to the value, so does one of its two
neighbours on that grid.
-/

set_option autoImplicit false
set_option relaxedAutoImplicit false

namespace SchemaPlan.Json

/-- The decimal `digits` times ten to `exponent`. -/
structure Decimal where
  digits : Nat
  exponent : Int
deriving DecidableEq

/-- A positive number and the interval of numbers that round to it, over one denominator. The ends
belong to the interval when the significand is even. -/
structure Rounding where
  value : Nat
  lower : Nat
  upper : Nat
  denominator : Nat
  closed : Bool

/-- The magnitude of a finite binary64 value with its rounding interval. -/
def Rounding.ofBits (bits : UInt64) : Rounding :=
  let fraction := bits.toNat % 0x10000000000000
  let biased := exponentBits bits
  let significand := if biased = 0 then fraction else 0x10000000000000 + fraction
  -- quarters of a unit in the last place: two to this power
  let power : Int := (max biased 1 : Nat) - 1077
  let numerator := if 0 ≤ power then Nat.pow 2 power.natAbs else 1
  -- below a power of two the spacing halves
  let below := if fraction = 0 ∧ 1 < biased then 1 else 2
  { value := 4 * significand * numerator
    lower := (4 * significand - below) * numerator
    upper := (4 * significand + 2) * numerator
    denominator := if 0 ≤ power then 1 else Nat.pow 2 power.natAbs
    closed := significand % 2 = 0 }

/-- The number of decimal digits. -/
def digitCount (n : Nat) : Nat := (Nat.toDigits 10 n).length

/-- The exponent of the leading decimal digit. -/
def Rounding.leading (r : Rounding) : Int :=
  if r.denominator ≤ r.value then (digitCount (r.value / r.denominator) : Int) - 1
  else -(digitCount ((r.denominator + r.value - 1) / r.value - 1) : Int)

/-- The neighbour to take on the grid of multiples of ten to `exponent`, if one rounds to the value:
the nearer of the two, and the even one of two equally near. -/
def Rounding.neighbour? (r : Rounding) (exponent : Int) : Option Nat :=
  -- all sides over the denominator, and scaled to integers
  let scaleUp := if exponent < 0 then Nat.pow 10 exponent.natAbs else 1
  let unit := r.denominator * if exponent < 0 then 1 else Nat.pow 10 exponent.natAbs
  let value := r.value * scaleUp
  let inside (grid : Nat) : Bool :=
    let point := grid * unit
    if r.closed then r.lower * scaleUp ≤ point && point ≤ r.upper * scaleUp
    else r.lower * scaleUp < point && point < r.upper * scaleUp
  let down := value / unit
  let up := down + 1
  match inside down, inside up with
  | false, false => none
  | true, false => some down
  | false, true => some up
  | true, true =>
    let remainder := value % unit
    if 2 * remainder < unit then some down
    else if unit < 2 * remainder then some up
    else some (if down % 2 = 0 then down else up)

/-- Seventeen digits always tell a binary64 value from its neighbours. -/
def digitLimit : Nat := 17

/-- Moves trailing zeros of the digits into the exponent. -/
def Decimal.stripZeros (digits : Nat) (exponent : Int) : Decimal :=
  if h : 0 < digits ∧ digits % 10 = 0 then stripZeros (digits / 10) (exponent + 1)
  else ⟨digits, exponent⟩
termination_by digits
decreasing_by omega

/-- The shortest decimal that rounds to the magnitude of a finite binary64 value. -/
def Decimal.shortest (bits : UInt64) : Decimal :=
  let r := Rounding.ofBits bits
  if r.value = 0 then ⟨0, 0⟩
  else
    let found := (List.range digitLimit).findSome? fun (extra : Nat) ↦
      let exponent := r.leading - extra
      (r.neighbour? exponent).map fun digits ↦ Decimal.stripZeros digits exponent
    found.getD ⟨0, 0⟩

/-! ### Layout -/

/-- Which decimals are written positionally: those whose leading digit stands at one of these
powers of ten. -/
structure Layout where
  least : Int
  greatest : Int

/-- Positional from 0.00001 up to, but not including, 10 to the 16. -/
def Layout.standard : Layout := ⟨-5, 15⟩

/-- The digits with a point, and at least one digit on each side of it. -/
def positional (digits : List Char) (exponent : Int) : List Char :=
  if 0 ≤ exponent then digits ++ List.replicate exponent.natAbs '0' ++ ['.', '0']
  else
    let places := exponent.natAbs
    let padded := List.replicate (places + 1 - digits.length) '0' ++ digits
    padded.take (padded.length - places) ++ '.' :: padded.drop (padded.length - places)

/-- One digit, the others after a point if there are any, and the exponent with its sign. -/
def scientific (digits : List Char) (leading : Int) : List Char :=
  let mantissa := match digits with
    | [] => []
    | [digit] => [digit]
    | digit :: others => digit :: '.' :: others
  let sign := if leading < 0 then '-' else '+'
  mantissa ++ 'e' :: sign :: Nat.toDigits 10 leading.natAbs

/-- The text of a decimal. Zero is positional in every layout. -/
def Decimal.render (layout : Layout) (decimal : Decimal) : List Char :=
  let digits := Nat.toDigits 10 decimal.digits
  let leading := decimal.exponent + digits.length - 1
  if decimal.digits = 0 ∨ layout.least ≤ leading ∧ leading ≤ layout.greatest then
    positional digits decimal.exponent
  else scientific digits leading

/-- The text of a number. Reals always show a fraction or an exponent, so that they read back as
reals. -/
def Number.render : Number → List Char
  | .integer value _ =>
    if value < 0 then '-' :: Nat.toDigits 10 value.natAbs else Nat.toDigits 10 value.natAbs
  | .real bits _ =>
    let magnitude := (Decimal.shortest bits).render Layout.standard
    if 0x8000000000000000 ≤ bits.toNat then '-' :: magnitude else magnitude

end SchemaPlan.Json
