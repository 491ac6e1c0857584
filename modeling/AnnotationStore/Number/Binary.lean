import AnnotationStore.Number.Power
/-!
# Binary floating-point formats

An IEEE 754 binary format is fixed by its fraction width and exponent width. `decode`
reads a bit pattern as NaN, an infinity, or a finite value `mantissa * 2 ^ exponent`, and
`Finite.lowerGapHalved` tells when the next smaller value is half as far as the next
larger one (a power of two above the subnormal range). These are the facts the shortest
decimal printer needs.
-/

namespace AnnotationStore.Binary

/-- An IEEE 754 binary interchange format. -/
structure Format where
  fracBits : Nat
  expBits : Nat

def single : Format := ⟨23, 8⟩

def double : Format := ⟨52, 11⟩

def Format.bias (f : Format) : Nat := 2 ^ (f.expBits - 1) - 1

/-- A finite nonzero or zero value `mantissa * 2 ^ exponent` with its sign. -/
structure Finite where
  negative : Bool
  mantissa : Nat
  exponent : Int
  /-- The value is a power of two above the subnormal range, so the gap below is half the gap above. -/
  lowerGapHalved : Bool

inductive Value where
  | nan
  | infinite (negative : Bool)
  | finite (x : Finite)

def Format.decode (f : Format) (bits : Nat) : Value :=
  let frac := bits % 2 ^ f.fracBits
  let biased := bits / 2 ^ f.fracBits % 2 ^ f.expBits
  let negative := bits / 2 ^ (f.fracBits + f.expBits) % 2 = 1
  if biased = 2 ^ f.expBits - 1 then
    if frac = 0 then .infinite negative else .nan
  else if biased = 0 then
    .finite ⟨negative, frac, 1 - (f.bias : Int) - f.fracBits, false⟩
  else
    .finite ⟨negative, frac + 2 ^ f.fracBits, (biased : Int) - f.bias - f.fracBits,
      frac = 0 && biased > 1⟩

def ofFloat32 (x : Float32) : Value := single.decode x.toBits.toNat

def ofFloat (x : Float) : Value := double.decode x.toBits.toNat

end AnnotationStore.Binary
