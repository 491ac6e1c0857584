import AnnotationStore.Number.Power
import AnnotationStore.Random.Source
/-!
# Drawing numbers

Uniform integers and fractions drawn from the generator.

* A 31-bit draw is the top 31 bits of a 63-bit draw.
* An integer below `n` is drawn by masking when `n` is a power of two; otherwise draws
  above the largest multiple of `n` (less one) that fits are rejected and the remainder
  is taken. Bounds that fit 31 bits use 31-bit draws, larger ones 63-bit draws. A bound
  that is not positive is refused.
* A binary64 fraction is a 63-bit draw divided by 2^63, drawn again if it rounds to 1; a
  binary32 fraction is that value rounded to binary32, drawn again if it rounds to 1.

Rejection stops after `retries` draws, which happens with probability below 2^-200.
-/

namespace AnnotationStore.Random

/-- The most draws one value may take. -/
def retries : Nat := 200

namespace Source

def next31 (s : Source) : Nat × Source :=
  let (w, s) := s.next63
  ((w >>> 32).toNat, s)

/-- Draws below `n` by rejecting draws above `top`; `draw` gives the raw draws. -/
def reject (draw : Source → Nat × Source) (n top : Nat) : Nat → Source → Nat × Source
  | 0, s => let (v, s) := draw s; (v % n, s)
  | fuel + 1, s =>
    let (v, s) := draw s
    if v > top then reject draw n top fuel s else (v % n, s)

/-- A uniform value below a positive `n` that fits 31 bits. -/
def below31 (s : Source) (n : Nat) : Nat × Source :=
  if n &&& (n - 1) = 0 then
    let (v, s) := s.next31
    (v &&& (n - 1), s)
  else reject next31 n (2 ^ 31 - 1 - 2 ^ 31 % n) retries s

/-- A uniform value below a positive `n` below 2^63. -/
def below63 (s : Source) (n : Nat) : Nat × Source :=
  if n &&& (n - 1) = 0 then
    let (w, s) := s.next63
    (w.toNat &&& (n - 1), s)
  else reject (fun s => let (w, s) := s.next63; (w.toNat, s)) n (2 ^ 63 - 1 - 2 ^ 63 % n) retries s

/-- A uniform value below `n`; none when `n` is not positive. -/
def below (s : Source) (n : Int) : Option (Nat × Source) :=
  if n ≤ 0 then none
  else if n ≤ 2 ^ 31 - 1 then some (s.below31 n.toNat)
  else some (s.below63 n.toNat)

/-- A binary64 fraction from the next draws, drawn again while it rounds to 1. -/
def fractionAux : Nat → Source → Float × Source
  | 0, s => let (w, s) := s.next63; (w.toFloat / 9223372036854775808.0, s)
  | fuel + 1, s =>
    let (w, s) := s.next63
    let f := w.toFloat / 9223372036854775808.0
    if f == 1 then fractionAux fuel s else (f, s)

/-- A uniform binary64 fraction in `[0, 1)`. -/
def fraction (s : Source) : Float × Source := fractionAux retries s

def fraction32Aux : Nat → Source → Float32 × Source
  | 0, s => let (f, s) := s.fraction; (f.toFloat32, s)
  | fuel + 1, s =>
    let (f, s) := s.fraction
    if f.toFloat32 == 1 then fraction32Aux fuel s else (f.toFloat32, s)

def fraction32 (s : Source) : Float32 × Source := fraction32Aux retries s

end Source

end AnnotationStore.Random
