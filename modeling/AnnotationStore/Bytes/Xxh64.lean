import AnnotationStore.Bytes.LittleEndian
/-!
# XXH64

The 64-bit xxHash of a byte string with seed zero, as Zstandard frames carry it in their
optional content checksum (the low 32 bits of the digest). Input is consumed in 32-byte
stripes by four accumulators, then in 8-, 4- and 1-byte steps, and the result is mixed by a
final avalanche.
-/

namespace AnnotationStore.Xxh64

def prime1 : UInt64 := 11400714785074694791
def prime2 : UInt64 := 14029467366897019727
def prime3 : UInt64 := 1609587929392839161
def prime4 : UInt64 := 9650029242287828579
def prime5 : UInt64 := 2870177450012600261

def rotl (x : UInt64) (k : UInt64) : UInt64 := (x <<< k) ||| (x >>> (64 - k))

/-- One accumulator step on an 8-byte lane. -/
def round (acc lane : UInt64) : UInt64 := rotl (acc + lane * prime2) 31 * prime1

/-- Folds an accumulator into the running hash after the stripes. -/
def merge (h v : UInt64) : UInt64 := (h ^^^ round 0 v) * prime1 + prime4

def lane64 (b : ByteArray) (off : Nat) : UInt64 :=
  ((LittleEndian.read? b off 8).getD 0).toUInt64

def lane32 (b : ByteArray) (off : Nat) : UInt64 :=
  ((LittleEndian.read? b off 4).getD 0).toUInt64

/-- Four accumulators after `k` more stripes starting at `off`. -/
def stripes (b : ByteArray) : Nat → Nat → UInt64 × UInt64 × UInt64 × UInt64 →
    UInt64 × UInt64 × UInt64 × UInt64
  | 0, _, acc => acc
  | k + 1, off, (v1, v2, v3, v4) =>
    stripes b k (off + 32)
      (round v1 (lane64 b off), round v2 (lane64 b (off + 8)),
        round v3 (lane64 b (off + 16)), round v4 (lane64 b (off + 24)))

/-- The hash after the remaining `k` bytes from `off` are taken in 8-, 4- and 1-byte steps. -/
def tail (b : ByteArray) : Nat → Nat → UInt64 → UInt64
  | 0, _, h => h
  | k + 1, off, h =>
    if 8 ≤ k + 1 then
      tail b (k - 7) (off + 8) (rotl (h ^^^ round 0 (lane64 b off)) 27 * prime1 + prime4)
    else if 4 ≤ k + 1 then
      tail b (k - 3) (off + 4) (rotl (h ^^^ lane32 b off * prime1) 23 * prime2 + prime3)
    else
      let x := (b[off]?.getD 0).toUInt64
      tail b k (off + 1) (rotl (h ^^^ x * prime5) 11 * prime1)
termination_by k => k
decreasing_by all_goals omega

/-- The final mixing of all bits. -/
def avalanche (h : UInt64) : UInt64 :=
  let h := (h ^^^ (h >>> 33)) * prime2
  let h := (h ^^^ (h >>> 29)) * prime3
  h ^^^ (h >>> 32)

/-- The XXH64 digest of `b` with seed zero. -/
def digest (b : ByteArray) : UInt64 :=
  let n := b.size
  let whole := n / 32
  let start :=
    if whole = 0 then prime5
    else
      let (v1, v2, v3, v4) := stripes b whole 0 (prime1 + prime2, prime2, 0, 0 - prime1)
      let h := rotl v1 1 + rotl v2 7 + rotl v3 12 + rotl v4 18
      merge (merge (merge (merge h v1) v2) v3) v4
  avalanche (tail b (n - 32 * whole) (32 * whole) (start + n.toUInt64))

/-- The low 32 bits of the digest, as a Zstandard frame stores them. -/
def checksum32 (b : ByteArray) : UInt32 := (digest b).toUInt32

end AnnotationStore.Xxh64
