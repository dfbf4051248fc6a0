/-!
# Binary floating-point numbers as exact fractions

A finite nonnegative double is `mantissa * 2 ^ exponent`. `nearestBits` rounds a fraction of
natural numbers to the double next to it, and `shortest` finds the shortest decimal that rounds to
a given double. Both work in exact arithmetic on natural numbers.
-/

namespace RangeScript.Binary64

/-- `2 ^ e` for an exponent that is not negative, and 1 otherwise: a fraction is scaled by
`2 ^ e` if its numerator is multiplied by `pow2 e` and its denominator by `pow2 (-e)`. -/
def pow2 (e : Int) : Nat := Nat.pow 2 e.toNat

/-- `10 ^ e` for an exponent that is not negative, and 1 otherwise. -/
def pow10 (e : Int) : Nat := Nat.pow 10 e.toNat

/-- The number of fractions in a binade. -/
def binade : Nat := 0x10000000000000

/-! ## From a fraction to a double -/

/-- The quotient rounded to the nearest natural number, a tie to the even one. -/
def roundedQuotient (num den : Nat) : Nat :=
  let q := num / den
  let twice := 2 * (num % den)
  if twice < den then q
  else if den < twice then q + 1
  else if q % 2 = 0 then q else q + 1

/-- The exponent of the largest power of two that is no larger than `num / den`. -/
def floorLog2 (num den : Nat) : Int :=
  let guess : Int := (num.log2 : Int) - den.log2
  if den * pow2 guess ≤ num * pow2 (-guess) then guess else guess - 1

/-- The bits of positive infinity; those of every finite double are below. -/
def infinityBits : Nat := 0x7FF * binade

/-- The bits of the double nearest to the positive fraction `num / den`, a tie to the even one.
With the unit in the last place at `2 ^ e`, a rounded mantissa `m` has the bits
`(e + 1074) * 2 ^ 52 + m`, whether `m` is normal, subnormal or rounded up to the next binade. -/
def nearestBits (num den : Nat) : Nat :=
  let exact := floorLog2 num den - 52
  let e := if exact < -1074 then -1074 else exact
  let m := roundedQuotient (num * pow2 (-e)) (den * pow2 e)
  let bits := (e + 1074).toNat * binade + m
  if bits < infinityBits then bits else infinityBits

/-! ## From a double to its shortest decimal -/

/-- The decimal `digits * 10 ^ exponent`. -/
structure Decimal where
  digits : Nat
  exponent : Int

/-- A double and the decimals that read back as it: those between `lower` and `upper`, with the
ends if `closed`. The numbers are in units of `2 ^ scale`. -/
structure Interval where
  value : Nat
  lower : Nat
  upper : Nat
  scale : Int
  closed : Bool

/-- The interval of a positive finite double given by its exponent field and fraction. The double
below is only half as far away at the start of a binade. -/
def interval (exponentField fraction : Nat) : Interval :=
  let m := if exponentField = 0 then fraction else fraction + binade
  let e : Int := if exponentField = 0 then -1074 else (exponentField : Int) - 1075
  { value := 4 * m
    lower := if fraction = 0 ∧ 1 < exponentField then 4 * m - 1 else 4 * m - 2
    upper := 4 * m + 2
    scale := e - 2
    closed := m % 2 = 0 }

/-- The multiple of `10 ^ j` in the interval, if there is one: of the two next to the value, the
nearer one, and the upper one if both are equally near. -/
def Interval.onGrid? (i : Interval) (j : Int) : Option Nat :=
  let factor := pow2 i.scale * pow10 (-j)
  let unit := pow2 (-i.scale) * pow10 j
  let inside (d : Nat) : Bool :=
    if i.closed then i.lower * factor ≤ d * unit && d * unit ≤ i.upper * factor
    else i.lower * factor < d * unit && d * unit < i.upper * factor
  let below := i.value * factor / unit
  if inside below then
    if inside (below + 1) && unit ≤ 2 * (i.value * factor - below * unit) then some (below + 1)
    else some below
  else if inside (below + 1) then some (below + 1) else none

/-- The coarsest decimal in the interval, on the grids of `10 ^ j` and finer. -/
def Interval.coarsest (i : Interval) : Nat → Int → Decimal
  | 0, j => ⟨0, j⟩
  | steps + 1, j =>
    match i.onGrid? j with
    | some d => ⟨d, j⟩
    | none => i.coarsest steps (j - 1)

/-- An exponent above that of every power of ten below the interval's upper end, by less than
three. -/
def Interval.ceiling (i : Interval) : Int :=
  ((i.value.log2 + 1 : Int) + i.scale) * 30103 / 100000 + 2

/-- The shortest decimal that reads back as a positive finite double, and the nearest to it among
those. Seventeen digits always suffice. -/
def shortest (exponentField fraction : Nat) : Decimal :=
  let i := interval exponentField fraction
  i.coarsest 24 i.ceiling

end RangeScript.Binary64
