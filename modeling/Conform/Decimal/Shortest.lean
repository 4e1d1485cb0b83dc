set_option autoImplicit false

/-!
# Shortest decimals of binary floats

A binary float stands for every real number that rounds to it.  Of the decimals in that interval
the shortest is the one with the fewest digits, and of several with that many digits the one that
lies nearest to the float.

A finite float is `mantissa * 2 ^ exponent`, so the interval and every decimal grid are compared
exactly, in natural numbers.  On a grid of spacing `10 ^ k` only the two neighbours of the float
need to be looked at: if any point of the grid lies in the interval, so does one of them.

## Main definitions

* `Conform.Decimal.Magnitude`: the size of a finite float, with the interval that rounds to it.
* `Conform.Decimal.Digits`: a decimal as an integer times a power of ten.
* `Conform.Decimal.Magnitude.shortest`: the shortest decimal of a magnitude.
-/

namespace Conform.Decimal

/-- The size of a finite float: `mantissa * 2 ^ exponent`. -/
structure Magnitude where
  /-- The integer mantissa. -/
  mantissa : Nat
  /-- The binary exponent. -/
  exponent : Int
  /-- Whether the float below is half as far away as the float above. -/
  narrowBelow : Bool
  deriving DecidableEq, Repr

/-- A decimal, `digits * 10 ^ exponent`. -/
structure Digits where
  /-- The digits, read as one integer. -/
  digits : Nat
  /-- The power of ten of the last digit. -/
  exponent : Int
  deriving DecidableEq, Repr

/-- Which of two decimals equally near to a float is written. -/
inductive Tie where
  /-- The one whose last digit is even. -/
  | toEven
  /-- The larger one. -/
  | up
  deriving DecidableEq, Repr

/-- The size of the float with the given bits, if it is finite. -/
def Magnitude.ofBits? (bits : Nat) : Option Magnitude :=
  let fraction : Nat := bits % Nat.pow 2 52
  let biased : Nat := bits / Nat.pow 2 52 % Nat.pow 2 11
  if biased = 2047 then none
  else if biased = 0 then some ⟨fraction, -1074, false⟩
  else some ⟨fraction + Nat.pow 2 52, (biased : Int) - 1075, fraction = 0 && 1 < biased⟩

/-- Drops the zeros at the end of the digits, at most `fuel` of them. -/
def Digits.trimZeros : Nat → Digits → Digits
  | 0, d => d
  | fuel + 1, d =>
    if d.digits ≠ 0 ∧ d.digits % 10 = 0 then trimZeros fuel ⟨d.digits / 10, d.exponent + 1⟩ else d

namespace Magnitude

/-- A quarter of the unit in the last place is `quarter.1 / quarter.2`; in quarters the float is
`4 * mantissa`. -/
def quarter (m : Magnitude) : Nat × Nat :=
  let e := m.exponent - 2
  (Nat.pow 2 e.toNat, Nat.pow 2 (-e).toNat)

/-- The lower end of the interval that rounds to the float, in quarters. -/
def lower (m : Magnitude) : Nat := 4 * m.mantissa - if m.narrowBelow then 1 else 2

/-- The upper end of the interval that rounds to the float, in quarters. -/
def upper (m : Magnitude) : Nat := 4 * m.mantissa + 2

/-- The numbers `a` and `b` for which `d * 10 ^ k` and `x` quarters compare as `d * a` and
`x * b`. -/
def scales (m : Magnitude) (k : Int) : Nat × Nat :=
  (Nat.pow 10 k.toNat * m.quarter.2, Nat.pow 10 (-k).toNat * m.quarter.1)

/-- Whether `d * 10 ^ k` rounds to the float.  The ends of the interval do so if the mantissa is
even. -/
def holds (m : Magnitude) (k : Int) (d : Nat) : Bool :=
  let (a, b) := m.scales k
  if m.mantissa % 2 = 0 then m.lower * b ≤ d * a && d * a ≤ m.upper * b
  else m.lower * b < d * a && d * a < m.upper * b

/-- The point of the grid of spacing `10 ^ k` that lies in the interval and nearest to the
float. -/
def onGrid? (tie : Tie) (m : Magnitude) (k : Int) : Option Digits :=
  let (a, b) := m.scales k
  let x := 4 * m.mantissa * b
  let below := x / a
  let above := below + 1
  match m.holds k below, m.holds k above with
  | false, false => none
  | true, false => some ⟨below, k⟩
  | false, true => some ⟨above, k⟩
  | true, true =>
    let fromBelow := x - below * a
    let fromAbove := above * a - x
    if fromBelow < fromAbove then some ⟨below, k⟩
    else if fromAbove < fromBelow then some ⟨above, k⟩
    else match tie with
      | .toEven => some ⟨if below % 2 = 0 then below else above, k⟩
      | .up => some ⟨above, k⟩

/-- Whether the float is at least `10 ^ e`. -/
def reaches (m : Magnitude) (e : Int) : Bool :=
  let (a, b) := m.scales e
  a ≤ 4 * m.mantissa * b

/-- The power of ten of the leading digit of the float.  The binary logarithm gives it up to one,
and comparison settles the rest. -/
def leading (m : Magnitude) : Int :=
  let guess := ((m.mantissa.log2 : Int) + m.exponent) * 30103 / 100000
  if m.reaches (guess + 1) then guess + 1
  else if m.reaches guess then guess
  else guess - 1

/-- The coarsest of the grids that give `count`, `count + 1`, … digits on which a decimal rounds
to the float; seventeen digits always suffice. -/
def search (tie : Tie) (m : Magnitude) (leading : Int) : Nat → Nat → Digits
  | 0, count => ⟨4 * m.mantissa * (m.scales (leading - count + 1)).2
      / (m.scales (leading - count + 1)).1, leading - count + 1⟩
  | fuel + 1, count =>
    match m.onGrid? tie (leading - count + 1) with
    | some d => d
    | none => search tie m leading fuel (count + 1)

/-- The shortest decimal that rounds to the float, the nearest one of that length. -/
def shortest (tie : Tie) (m : Magnitude) : Digits :=
  if m.mantissa = 0 then ⟨0, 0⟩
  else (m.search tie m.leading 17 1).trimZeros 18

end Magnitude

end Conform.Decimal
