import Conform.Decimal.Shortest

set_option autoImplicit false

/-!
# Texts of floats

A float is written with its shortest decimal.  What is left to decide is how the digits are laid
out: where the point stands, when an exponent is written, and what stands for the values that are
not finite.

## Main definitions

* `Conform.Decimal.Layout`: these decisions.
* `Conform.Decimal.number`: the layout of numbers in a document.
* `Conform.Decimal.bound`: the layout of bounds in messages.
* `Conform.Decimal.Layout.text`: a float in a layout.
-/

namespace Conform.Decimal

/-- How floats are written. -/
structure Layout where
  /-- Which of two equally near decimals is taken. -/
  tie : Tie
  /-- The powers of ten of the leading digit for which no exponent is written. -/
  plain : Int → Bool
  /-- Whether a plain integral number ends in a point and a zero. -/
  pointZero : Bool

/-- Numbers of a document have an exponent below `0.00001` and from `10 ^ 16` on, and an integral
one written without exponent ends in `.0`. -/
def number : Layout := ⟨.toEven, fun e => -5 ≤ e && e < 16, true⟩

/-- Bounds in messages never have an exponent, and integral ones no point. -/
def bound : Layout := ⟨.up, fun _ => true, false⟩

/-- The digits of a number. -/
def figures (n : Nat) : List Char := Nat.toDigits 10 n

/-- Zeros. -/
def zeros (n : Nat) : List Char := List.replicate n '0'

namespace Layout

/-- Digits with a point `places` digits before their end. -/
def positional (layout : Layout) (d : Digits) : List Char :=
  if 0 ≤ d.exponent then
    figures d.digits ++ (if d.digits = 0 then [] else zeros d.exponent.toNat)
      ++ (if layout.pointZero then ['.', '0'] else [])
  else
    let digits := figures d.digits
    let places := (-d.exponent).toNat
    if places < digits.length then
      digits.take (digits.length - places) ++ '.' :: digits.drop (digits.length - places)
    else
      '0' :: '.' :: (zeros (places - digits.length) ++ digits)

/-- One digit, the others behind a point, and the power of ten of the first. -/
def scientific (leading : Int) (d : Digits) : List Char :=
  let mantissa := match figures d.digits with
    | first :: [] => [first]
    | first :: rest => first :: '.' :: rest
    | [] => []
  mantissa ++ 'e' :: (if leading < 0 then '-' else '+') :: figures leading.natAbs

/-- The text of a finite size. -/
def size (layout : Layout) (m : Magnitude) : List Char :=
  let d := m.shortest layout.tie
  let leading := d.exponent + (figures d.digits).length - 1
  if layout.plain leading then layout.positional d else scientific leading d

/-- The text of a float. -/
def text (layout : Layout) (x : Float) : String :=
  let bits := x.toBits.toNat
  let sign := if bits < Nat.pow 2 63 then [] else ['-']
  match Magnitude.ofBits? bits with
  | some m => String.ofList (sign ++ layout.size m)
  | none => if bits % Nat.pow 2 52 = 0 then String.ofList (sign ++ ['i', 'n', 'f']) else "NaN"

end Layout

end Conform.Decimal
