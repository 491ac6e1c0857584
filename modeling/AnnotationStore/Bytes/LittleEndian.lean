import AnnotationStore.Number.Power
/-!
# Little-endian words

Every fixed-width number in the block, chunk and snapshot formats is written least
significant byte first. `toBytes w n` is the `w`-byte form of `n` (bits above `8 * w` are
dropped) and `ofBytes` reads a byte list back; `ofBytes_toBytes` is the round trip.
-/

namespace AnnotationStore.LittleEndian

/-- The `w` little-endian bytes of `n`; bits above `8 * w` are dropped. -/
def toBytes : Nat → Nat → List UInt8
  | 0, _ => []
  | w + 1, n => (n % 256).toUInt8 :: toBytes w (n / 256)

def ofBytes : List UInt8 → Nat
  | [] => 0
  | b :: bs => b.toNat + 256 * ofBytes bs

@[simp] theorem length_toBytes (w n : Nat) : (toBytes w n).length = w := by
  induction w generalizing n with
  | zero => rfl
  | succ w ih => simp [toBytes, ih]

/-- Reading the bytes of `n` gives `n` modulo the width. -/
theorem ofBytes_toBytes (w n : Nat) : ofBytes (toBytes w n) = n % 256 ^ w := by
  induction w generalizing n with
  | zero => simp [toBytes, ofBytes, Nat.mod_one]
  | succ w ih =>
    have hb : (UInt8.ofNat (n % 256)).toNat = n % 256 := by simp
    simp only [toBytes, ofBytes, ih, Nat.toUInt8, hb]
    rw [Nat.pow_succ, Nat.mul_comm (256 ^ w) 256, Nat.mod_mul]

/-- Appends the `w` little-endian bytes of `n`. -/
def push (b : ByteArray) (w n : Nat) : ByteArray :=
  (toBytes w n).foldl ByteArray.push b

def pushU16 (b : ByteArray) (x : UInt16) : ByteArray := push b 2 x.toNat

def pushU32 (b : ByteArray) (x : UInt32) : ByteArray := push b 4 x.toNat

def pushU64 (b : ByteArray) (x : UInt64) : ByteArray := push b 8 x.toNat

/-- The `w` bytes at `off`, when they lie within `b`. -/
def slice? (b : ByteArray) (off w : Nat) : Option (List UInt8) :=
  if off + w ≤ b.size then some (b.extract off (off + w)).toList else none

/-- The number held by the `w` bytes at `off`, when they lie within `b`. -/
def read? (b : ByteArray) (off w : Nat) : Option Nat :=
  (slice? b off w).map ofBytes

def readU32? (b : ByteArray) (off : Nat) : Option UInt32 :=
  (read? b off 4).map Nat.toUInt32

/-- The little-endian number of the `w` bytes at `i`, where bytes past the end read as
zero. -/
def wordAt (b : ByteArray) (i : Nat) : Nat → Nat
  | 0 => 0
  | w + 1 => (b[i]?.getD 0).toNat + 256 * wordAt b (i + 1) w

/-- The 32-bit word at `off`, or zero past the end. -/
def u32At (b : ByteArray) (off : Nat) : Nat :=
  ((read? b off 4).getD 0)

end AnnotationStore.LittleEndian
