import AnnotationStore.Number.Shortest

/-!
# Text of binary floating-point values

A finite value is first reduced to its shortest digits (`Shortest.shortest`), held as
`Digits`: the significant digits and the position of the decimal point. Two layouts
write them: `positional` (`123.45`, `0.000025`) and `scientific` (`1.2345e+02`, with a
sign and at least two exponent digits). `general` chooses between them the way the
answers of this library print numbers: exponent form when the decimal exponent is below
-4 or at least 6. `plain` is the layout of the JSON codecs: exponent form only when the
caller asks for it (outside `[1e-6, 1e21)`), optionally without the leading zero of a
one-digit negative exponent.
-/

namespace AnnotationStore.FloatText

open Binary

/-- Significant digits `d₁ d₂ …` (no leading or trailing zero; empty for zero) and the
point position `p`, so that the magnitude is `0.d₁d₂… × 10 ^ p`. -/
structure Digits where
  negative : Bool
  digits : List Char
  point : Int

def Digits.ofDecimal (negative : Bool) (d : Shortest.Decimal) : Digits :=
  if d.digits = 0 then ⟨negative, [], 0⟩
  else
    let ds := (Nat.repr d.digits).toList
    ⟨negative, ds, (ds.length : Int) + d.exponent⟩

def Digits.ofFinite (x : Finite) : Digits :=
  Digits.ofDecimal x.negative (Shortest.shortest x)

/-- The digit at position `i` (0-based), or `0` outside the digits. -/
def Digits.at (d : Digits) (i : Int) : Char :=
  if i < 0 then '0' else d.digits.getD i.toNat '0'

/-- At least `width` decimal digits of `n`, padded with leading zeros. -/
def padded (width n : Nat) : String :=
  let s := Nat.repr n
  String.ofList (List.replicate (width - s.length) '0') ++ s

/-- Positional layout with `decimals` digits after the point. -/
def positional (d : Digits) (decimals : Nat) : String :=
  let sign := if d.negative then "-" else ""
  let whole :=
    if d.point > 0 then
      String.ofList ((List.range d.point.toNat).map fun (i : Nat) => d.at (i : Int))
    else "0"
  let frac :=
    if decimals = 0 then ""
    else "." ++ String.ofList ((List.range decimals).map fun (i : Nat) => d.at (d.point + (i : Int)))
  sign ++ whole ++ frac

/-- Exponent layout with `decimals` digits after the point and an exponent of at least
`expDigits` digits; `shortNegative` drops the leading zero of a negative exponent below 10. -/
def scientific (d : Digits) (decimals expDigits : Nat) (shortNegative : Bool) : String :=
  let sign := if d.negative then "-" else ""
  let first := d.at 0
  let frac :=
    if decimals = 0 then ""
    else "." ++ String.ofList ((List.range decimals).map fun (i : Nat) => d.at ((i : Int) + 1))
  let exp : Int := if d.digits.isEmpty then 0 else d.point - 1
  let expSign := if exp < 0 then "-" else "+"
  let width := if shortNegative && exp < 0 then 1 else expDigits
  sign ++ String.singleton first ++ frac ++ "e" ++ expSign ++ padded width exp.natAbs

/-- The shortest text in general layout: exponent form when the decimal exponent is
below -4 or at least 6, else positional. -/
def Digits.general (d : Digits) : String :=
  let n := d.digits.length
  let exp := d.point - 1
  if d.digits.isEmpty then positional d 0
  else if exp < -4 ∨ exp ≥ 6 then scientific d (n - 1) 2 false
  else positional d (n - d.point).toNat

def special : Value → String
  | .nan => "NaN"
  | .infinite true => "-Inf"
  | _ => "+Inf"

/-- The shortest general text of a value; NaN and the infinities are `NaN`, `+Inf`, `-Inf`. -/
def general : Value → String
  | .finite x => (Digits.ofFinite x).general
  | v => special v

/-- The text of a binary32 value at binary32 precision. -/
def ofFloat32 (x : Float32) : String := general (Binary.ofFloat32 x)

def ofFloat (x : Float) : String := general (Binary.ofFloat x)

/-- The shortest text in codec layout: exponent form (with `shortNegative` as in
`scientific`) when `exponential`, else positional with all significant digits. -/
def plain (v : Value) (exponential shortNegative : Bool) : String :=
  match v with
  | .finite x =>
    let d := Digits.ofFinite x
    if exponential then scientific d (d.digits.length - 1) 2 shortNegative
    else positional d (d.digits.length - d.point).toNat
  | v => special v

end AnnotationStore.FloatText
