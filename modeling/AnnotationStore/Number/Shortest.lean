import AnnotationStore.Number.Binary

/-!
# Shortest decimal that reads back

For a finite binary value `v = m * 2 ^ e`, the values that round to it form an interval
around `v` whose ends are halfway to the neighbours; the ends belong to it when `m` is even,
because round-half-to-even then picks `v`. `shortest` returns the decimal with the fewest
significant digits inside that interval, and of two such decimals the nearer to `v` (an
exact tie goes to the even digit string). All arithmetic is exact on naturals.
-/

namespace AnnotationStore.Shortest

open Binary

/-- Compares `a * 10 ^ i` with `b * 2 ^ j` exactly. -/
def cmpScaled (a : Nat) (i : Int) (b : Nat) (j : Int) : Ordering :=
  compare (a * 10 ^ i.toNat * 2 ^ (-j).toNat) (b * 2 ^ j.toNat * 10 ^ (-i).toNat)

/-- Moves an estimate `E` of the leading decimal exponent of `m * 2 ^ e` until
`10 ^ E ≤ m * 2 ^ e < 10 ^ (E + 1)`. -/
def fixExponent (m : Nat) (e : Int) : Nat → Int → Int
  | 0, k => k
  | fuel + 1, k =>
    if cmpScaled 1 k m e == .gt then fixExponent m e fuel (k - 1)
    else if cmpScaled 1 (k + 1) m e != .gt then fixExponent m e fuel (k + 1)
    else k

/-- The exponent of the leading decimal digit of `m * 2 ^ e`, for `m > 0`. -/
def leadExponent (m : Nat) (e : Int) : Int :=
  let l : Int := (Nat.log2 m : Int) + e
  fixExponent m e 8 ((l * 30103).fdiv 100000)

/-- A decimal `digits * 10 ^ exponent`. -/
structure Decimal where
  digits : Nat
  exponent : Int
  deriving DecidableEq, Repr

/-- The rounding interval of a finite value, in units of `2 ^ (e - 2)`. -/
structure Interval where
  low : Nat
  high : Nat
  unitExp : Int
  closed : Bool

/-- The interval of values that round to `m * 2 ^ e`. -/
def interval (x : Finite) : Interval :=
  ⟨4 * x.mantissa - (if x.lowerGapHalved then 1 else 2), 4 * x.mantissa + 2,
    x.exponent - 2, x.mantissa % 2 == 0⟩

/-- Whether `d * 10 ^ k` lies in the interval. -/
def Interval.contains (r : Interval) (d : Nat) (k : Int) : Bool :=
  let lo := cmpScaled d k r.low r.unitExp
  let hi := cmpScaled d k r.high r.unitExp
  (lo == .gt || (r.closed && lo == .eq)) && (hi == .lt || (r.closed && hi == .eq))

/-- Tries `n`, `n + 1`, … significant digits; the first count with a decimal inside the interval wins. -/
def search (x : Finite) (r : Interval) (lead : Int) : Nat → Nat → Decimal
  | 0, n =>
    let k := lead - n + 1
    ⟨x.mantissa * 2 ^ x.exponent.toNat * 10 ^ (-k).toNat /
      (2 ^ (-x.exponent).toNat * 10 ^ k.toNat), k⟩
  | fuel + 1, n =>
    let k := lead - n + 1
    let num := x.mantissa * 2 ^ x.exponent.toNat * 10 ^ (-k).toNat
    let den := 2 ^ (-x.exponent).toNat * 10 ^ k.toNat
    let down := num / den
    let rest := num % den
    let up := if rest = 0 then down else down + 1
    let okDown := r.contains down k
    let okUp := r.contains up k
    if okDown && okUp then
      if 2 * rest < den then ⟨down, k⟩
      else if 2 * rest > den then ⟨up, k⟩
      else if down % 2 = 0 then ⟨down, k⟩ else ⟨up, k⟩
    else if okDown then ⟨down, k⟩
    else if okUp then ⟨up, k⟩
    else search x r lead fuel (n + 1)

def trim : Nat → Decimal → Decimal
  | 0, d => d
  | fuel + 1, d =>
    if d.digits ≠ 0 ∧ d.digits % 10 = 0 then trim fuel ⟨d.digits / 10, d.exponent + 1⟩ else d

/-- The shortest decimal inside the rounding interval of a finite value (zero for zero). -/
def shortest (x : Finite) : Decimal :=
  if x.mantissa = 0 then ⟨0, 0⟩
  else
    let d := search x (interval x) (leadExponent x.mantissa x.exponent) 20 1
    trim 20 d

end AnnotationStore.Shortest
