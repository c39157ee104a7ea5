/-!
# JSON numbers

A number token is digits with an optional fraction and exponent. `Numeral.toNumber?` reads it as an
integer when it is a plain integer that fits a machine word, and as a binary64 value otherwise; it
fails exactly when the value is too large for binary64.
-/

set_option autoImplicit false
set_option relaxedAutoImplicit false

namespace SchemaPlan.Json

/-! ### Numbers -/

/-- The integers kept exactly: from the least signed to the greatest unsigned 64-bit word. -/
def IsWord (value : Int) : Prop := -0x8000000000000000 ≤ value ∧ value < 0x10000000000000000

instance (value : Int) : Decidable (IsWord value) := inferInstanceAs (Decidable (_ ∧ _))

/-- The biased exponent of a binary64 value. -/
def exponentBits (bits : UInt64) : Nat := bits.toNat / 0x10000000000000 % 0x800

/-- Neither infinite nor undefined. -/
def IsFinite (bits : UInt64) : Prop := exponentBits bits ≠ 0x7FF

instance (bits : UInt64) : Decidable (IsFinite bits) := inferInstanceAs (Decidable (_ ≠ _))

/-- A JSON number: an exact integer, or a binary64 value given by its bits. -/
inductive Number
  | integer (value : Int) (isWord : IsWord value)
  | real (bits : UInt64) (isFinite : IsFinite bits)
deriving DecidableEq

/-- The integer as a number, when it is kept exactly. -/
def Number.ofInt? (value : Int) : Option Number :=
  if h : IsWord value then some (.integer value h) else none

/-- The binary64 value as a number, when it is finite. -/
def Number.ofFloat? (value : Float) : Option Number :=
  if h : IsFinite value.toBits then some (.real value.toBits h) else none

/-! ### Number tokens -/

/-- A number as it is written. A fraction or an exponent that is absent has no digits. -/
structure Numeral where
  negative : Bool
  whole : List Nat
  fraction : List Nat
  exponentNegative : Bool
  exponent : List Nat
deriving DecidableEq

/-- Appends digits to `significand` as long as the result fits an unsigned 64-bit word; gives the
result and the digits left over. -/
def absorb (significand : Nat) : List Nat → Nat × List Nat
  | [] => (significand, [])
  | digit :: rest =>
    let longer := significand * 10 + digit
    if longer < 0x10000000000000000 then absorb longer rest else (significand, digit :: rest)

/-- The greatest exponent that counts in full. -/
def exponentBound : Nat := 0x7FFFFFFF

/-- Reads an exponent; `none` when it is past the bound. -/
def exponentValue? (digits : List Nat) : Option Nat :=
  digits.foldl
    (fun value digit ↦ value.bind fun value ↦
      let longer := value * 10 + digit
      if longer ≤ exponentBound then some longer else none)
    (some 0)

/-- Ten to a natural power, correctly rounded. -/
def tenTo (power : Nat) : Float := OfScientific.ofScientific 1 false power

/-- Divides by ten to the power in steps that binary64 can hold. -/
def divideByTenTo (value : Float) (power : Nat) : Float :=
  if h : power ≤ 308 then value / tenTo power
  else if value == 0 then value
  else divideByTenTo (value / tenTo 308) (power - 308)
termination_by power

/-- The value of `significand` times ten to `exponent`, rounded once from the significand and once
from the scaling; `none` when it overflows. -/
def scale? (significand : Nat) (exponent : Int) : Option Float :=
  let value := significand.toUInt64.toFloat
  if exponent < 0 then some (divideByTenTo value exponent.natAbs)
  else if exponent ≤ 308 then
    let scaled := value * tenTo exponent.natAbs
    if scaled.isInf then none else some scaled
  else if significand = 0 then some value
  else none

/-- The binary64 value of a numeral without its sign. Digits of the whole part past a word raise the
exponent, digits of the fraction past a word are dropped. -/
def Numeral.magnitude? (numeral : Numeral) : Option Float :=
  let (wholePart, dropped) := absorb 0 numeral.whole
  let (significand, ignored) := absorb wholePart numeral.fraction
  let shift : Int := dropped.length - (numeral.fraction.length - ignored.length : Nat)
  match exponentValue? numeral.exponent with
  | some size =>
    let exponent : Int := if numeral.exponentNegative then -size else size
    scale? significand (shift + exponent)
  | none => if significand ≠ 0 ∧ ¬numeral.exponentNegative then none else some 0

/-- The integer that a numeral writes, when it has neither fraction nor exponent and is kept
exactly. Minus zero is not an integer. -/
def Numeral.integer? (numeral : Numeral) : Option Number :=
  if numeral.fraction.isEmpty && numeral.exponent.isEmpty then
    let value : Nat := numeral.whole.foldl (fun value digit ↦ value * 10 + digit) 0
    if numeral.negative then (if value = 0 then none else Number.ofInt? (-(value : Int)))
    else Number.ofInt? value
  else none

/-- The number that a numeral writes; `none` when it is too large. -/
def Numeral.toNumber? (numeral : Numeral) : Option Number :=
  match numeral.integer? with
  | some number => some number
  | none => do
    let value ← numeral.magnitude?
    Number.ofFloat? (if numeral.negative then -value else value)

end SchemaPlan.Json
