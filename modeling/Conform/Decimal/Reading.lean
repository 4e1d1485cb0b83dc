set_option autoImplicit false

/-!
# Floats read from text

A decimal text stands for the float nearest to it.

## Main definitions

* `Conform.Decimal.read?`: the float that a decimal text, an infinity or `NaN` stands for.
-/

namespace Conform.Decimal

/-- The number that digits stand for. -/
def ofDigits (digits : List Char) : Nat :=
  digits.foldl (fun n c => 10 * n + (c.toNat - '0'.toNat)) 0

/-- The float nearest to `digits * 10 ^ exponent`.  Beyond the exponents of all floats nothing has
to be computed. -/
def nearest (digits : Nat) (exponent : Int) : Float :=
  if digits = 0 then 0
  else
    let leading : Int := exponent + (Nat.toDigits 10 digits).length
    if leading > 400 then Float.ofScientific 1 false 400
    else if leading < -400 then 0
    else if exponent < 0 then Float.ofScientific digits true exponent.natAbs
    else Float.ofScientific digits false exponent.natAbs

/-- Reads an exponent: nothing, or `e` with an integer. -/
def readExponent? : List Char → Option Int
  | [] => some 0
  | mark :: rest =>
    if mark = 'e' ∨ mark = 'E' then
      let (negative, digits) := match rest with
        | '-' :: more => (true, more)
        | '+' :: more => (false, more)
        | more => (false, more)
      if digits.isEmpty || !digits.all Char.isDigit then none
      else
        let n : Int := ofDigits digits
        some (if negative then -n else n)
    else none

/-- Reads a decimal without a sign. -/
def readUnsigned? (text : List Char) : Option Float :=
  let whole := text.takeWhile Char.isDigit
  let rest := text.dropWhile Char.isDigit
  let (fraction, rest) := match rest with
    | '.' :: more => (more.takeWhile Char.isDigit, more.dropWhile Char.isDigit)
    | more => ([], more)
  if whole.isEmpty && fraction.isEmpty then none
  else (readExponent? rest).map fun e => nearest (ofDigits (whole ++ fraction)) (e - fraction.length)

/-- Reads a float: a decimal, `inf` or `NaN`, with or without a sign. -/
def read? (text : String) : Option Float :=
  let (negative, rest) := match text.toList with
    | '-' :: more => (true, more)
    | '+' :: more => (false, more)
    | more => (false, more)
  let size := match String.ofList rest with
    | "inf" => some (1.0 / 0.0)
    | "NaN" => some (0.0 / 0.0)
    | _ => readUnsigned? rest
  size.map fun x => if negative then -x else x

end Conform.Decimal
