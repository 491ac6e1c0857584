import AnnotationStore.Bytes.LittleEndian
/-!
# Bit streams of Zstandard

Zstandard numbers the bits of a byte string from the least significant bit of its first
byte. Table descriptions are read forwards from a bit position. Entropy-coded streams are
read backwards: the highest set bit of the last byte marks the end, and each read takes the
next bits below the current position, the first bit read being the most significant. Bits
before the start of a stream read as zero, and a stream is well read when exactly all of
its bits were taken.
-/

namespace AnnotationStore.Zstd

/-- The position of the highest set bit of a positive number. -/
def highBit (n : Nat) : Nat := Nat.log2 n

/-- The `n` bits of `b` from bit `p` on, the first being least significant; bits past the
end read as zero. -/
def bitsFrom (b : ByteArray) (p n : Nat) : Nat :=
  LittleEndian.wordAt b (p / 8) ((p % 8 + n + 7) / 8) / 2 ^ (p % 8) % 2 ^ n

/-- The `n` bits of `b` from bit `pos` on, where bits before the start read as zero too. -/
def bitsAt (b : ByteArray) (pos : Int) (n : Nat) : Nat :=
  if pos < 0 then
    let below := (-pos).toNat
    if n ≤ below then 0 else bitsFrom b 0 (n - below) * 2 ^ below
  else bitsFrom b pos.toNat n

/-- A stream read backwards: `left` bits remain above its start, fewer than zero once reads
went past the start. -/
structure BackStream where
  bytes : ByteArray
  left : Int

namespace BackStream

/-- Opens a stream; its last byte must hold the end mark. -/
def init? (bytes : ByteArray) : Option BackStream :=
  match bytes[bytes.size - 1]? with
  | some last => if last = 0 then none else some ⟨bytes, 8 * (bytes.size - 1) + highBit last.toNat⟩
  | none => none

def peek (s : BackStream) (n : Nat) : Nat := bitsAt s.bytes (s.left - n) n

def read (s : BackStream) (n : Nat) : Nat × BackStream :=
  (s.peek n, { s with left := s.left - n })

/-- Whether every bit was taken and none beyond. -/
def done (s : BackStream) : Bool := s.left = 0

end BackStream

end AnnotationStore.Zstd
