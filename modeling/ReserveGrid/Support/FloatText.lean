import Mathlib.Algebra.Group.Nat.Defs

/-!
# Floating-point numbers as text

The decimal text of a double with a fixed number of fractional digits. The
exact value is rounded, halves to the even digit.
-/

namespace ReserveGrid.Support

/-- `num / den` rounded to the nearest integer, halves to the even one. -/
def roundHalfEven (num den : ℕ) : ℕ :=
  let q := num / den
  let r := num % den
  if den < 2 * r ∨ (2 * r = den ∧ q % 2 = 1) then q + 1 else q

/-- `digits` decimal digits of `n`, zeros in front. -/
def padDigits (digits n : ℕ) : String :=
  let text := toString n
  String.ofList (List.replicate (digits - text.length) '0') ++ text

/-- A number with a given number of fractional digits, given in units of the
last one. -/
def fixedPoint (digits units : ℕ) : String :=
  toString (units / 10 ^ digits) ++ "." ++ padDigits digits (units % 10 ^ digits)

/-- A double with `digits` fractional digits, from its sign, exponent and
fraction bits. -/
def formatFixed (digits : ℕ) (x : Float) : String :=
  let bits := x.toBits.toNat
  let sign := if bits / 2 ^ 63 = 1 then "-" else ""
  let exponent := bits / 2 ^ 52 % 2 ^ 11
  let fraction := bits % 2 ^ 52
  if exponent = 2 ^ 11 - 1 then
    if fraction = 0 then sign ++ "inf" else "NaN"
  else
    let mantissa := if exponent = 0 then fraction else fraction + 2 ^ 52
    let shift := max exponent 1
    sign ++ fixedPoint digits
      (roundHalfEven (mantissa * 10 ^ digits * 2 ^ shift) (2 ^ 1075))

example : fixedPoint 4 (roundHalfEven (5 * 10 ^ 4) (2 ^ 3)) = "0.6250" := by
  decide

end ReserveGrid.Support
