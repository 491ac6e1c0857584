import AnnotationStore.Bytes.Hex
/-!
# CRC-32C

The Castagnoli cyclic redundancy check guards chunk and snapshot blocks. It is the
reflected CRC with polynomial `0x82F63B78`, initial value and final mask `0xFFFFFFFF`; the
check value of the ASCII digits `123456789` is `0xE3069283`.
-/

namespace AnnotationStore.Crc32c

/-- The reflected Castagnoli polynomial. -/
def polynomial : UInt32 := 0x82F63B78

/-- One bit of the shift register: shift right, and add the polynomial when a one falls out. -/
def bitStep (c : UInt32) : UInt32 :=
  if c &&& 1 = 1 then (c >>> 1) ^^^ polynomial else c >>> 1

def shifts : Nat → UInt32 → UInt32
  | 0, c => c
  | k + 1, c => shifts k (bitStep c)

/-- Eight bit steps: the register change for one byte. -/
def byteStep (c : UInt32) : UInt32 :=
  shifts 8 c

/-- The register change for each byte value, computed once. -/
def table : Array UInt32 :=
  (Array.range 256).map fun i => byteStep i.toUInt32

def update (crc : UInt32) (b : UInt8) : UInt32 :=
  table.getD ((crc ^^^ b.toUInt32) &&& 0xFF).toNat 0 ^^^ (crc >>> 8)

def extend (crc : UInt32) (bs : ByteArray) : UInt32 :=
  bs.foldl update crc

def checksum (bs : ByteArray) : UInt32 :=
  extend 0xFFFFFFFF bs ^^^ 0xFFFFFFFF

def mismatchMessage (expected actual : UInt32) : String :=
  "checksum mismatch: expected 0x" ++ Hex.fixed 8 expected.toNat ++ ", got 0x" ++
    Hex.fixed 8 actual.toNat

end AnnotationStore.Crc32c
