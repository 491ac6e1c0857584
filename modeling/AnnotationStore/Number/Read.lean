/-!
# Reading decimal literals

A decimal literal is a sign, a natural mantissa and a power of ten. Two grammars read it:
`json?` is the strict number grammar of JSON (no leading zeros, digits on both sides of a
point, an exponent with digits), and `loose?` is the wider grammar of general decimal
input (an optional `+`, leading zeros, a point with digits on either side only).
`toFloat` and `toFloat32` round the exact value to nearest, ties to even; a value too
large for the format becomes an infinity, which the callers treat as out of range.
-/

namespace AnnotationStore.DecimalText

/-- A decimal literal `±mantissa * 10 ^ exponent`. -/
structure Literal where
  negative : Bool
  mantissa : Nat
  exponent : Int

def digitValue (ds : List Char) : Nat :=
  ds.foldl (fun acc c => acc * 10 + (c.toNat - 48)) 0

def digitRun (cs : List Char) : List Char × List Char :=
  cs.span Char.isDigit

/-- Reads an exponent part `[eE][+-]?digits` at the end of the text. -/
def exponentPart? : List Char → Option Int
  | [] => some 0
  | c :: rest =>
    if c = 'e' ∨ c = 'E' then
      let (neg, body) := match rest with
        | '+' :: r => (false, r)
        | '-' :: r => (true, r)
        | r => (false, r)
      let (ds, tail) := digitRun body
      if ds.isEmpty ∨ !tail.isEmpty then none
      else
        let v : Int := digitValue ds
        some (if neg then -v else v)
    else none

/-- Reads a JSON number: `-?(0|[1-9][0-9]*)(.[0-9]+)?([eE][+-]?[0-9]+)?`. -/
def json? (cs : List Char) : Option Literal :=
  let (neg, body) := match cs with
    | '-' :: r => (true, r)
    | r => (false, r)
  let (whole, afterWhole) := digitRun body
  if whole.isEmpty ∨ (whole.length > 1 ∧ whole.head? = some '0') then none
  else
    let frac : Option (List Char × List Char) := match afterWhole with
      | '.' :: r =>
        let (fs, rest) := digitRun r
        if fs.isEmpty then none else some (fs, rest)
      | r => some ([], r)
    match frac with
    | none => none
    | some (fs, rest) =>
      (exponentPart? rest).map fun e =>
        ⟨neg, digitValue (whole ++ fs), e - fs.length⟩

/-- Reads a general decimal: `[+-]?` digits with at most one point and at least one digit,
then an optional exponent. -/
def loose? (cs : List Char) : Option Literal :=
  let (neg, body) := match cs with
    | '-' :: r => (true, r)
    | '+' :: r => (false, r)
    | r => (false, r)
  let (whole, afterWhole) := digitRun body
  let (fs, rest) := match afterWhole with
    | '.' :: r => digitRun r
    | r => ([], r)
  if whole.isEmpty ∧ fs.isEmpty then none
  else (exponentPart? rest).map fun e => ⟨neg, digitValue (whole ++ fs), e - fs.length⟩

def digitCount (n : Nat) : Nat := (Nat.repr n).length

/-- The nearest binary64 value of a nonnegative `m * 10 ^ e`. -/
def magnitude (m : Nat) (e : Int) : Float :=
  if m = 0 then 0
  else if (digitCount m : Int) + e > 400 then 1 / 0
  else if (digitCount m : Int) + e < -400 then 0
  else if e ≥ 0 then Float.ofScientific m false e.toNat
  else Float.ofScientific m true (-e).toNat

/-- The nearest binary32 value of a nonnegative `m * 10 ^ e`. -/
def magnitude32 (m : Nat) (e : Int) : Float32 :=
  if m = 0 then 0
  else if (digitCount m : Int) + e > 400 then 1 / 0
  else if (digitCount m : Int) + e < -400 then 0
  else if e ≥ 0 then Float32.ofScientific m false e.toNat
  else Float32.ofScientific m true (-e).toNat

def Literal.toFloat (l : Literal) : Float :=
  let v := magnitude l.mantissa l.exponent
  if l.negative then -v else v

/-- The nearest binary32 value of a literal, rounded once. -/
def Literal.toFloat32 (l : Literal) : Float32 :=
  let v := magnitude32 l.mantissa l.exponent
  if l.negative then -v else v

end AnnotationStore.DecimalText
