import AnnotationStore.Block.Method
import AnnotationStore.Lz4.Compress
import AnnotationStore.Zstd.Compress
import AnnotationStore.Zstd.Frame
/-!
# Block framing

A block is an eight-byte header, the uncompressed size and the compressed size as 32-bit
little-endian words, then the data. A compressed size of zero means the data is stored as
it is. Data is stored so whenever the method is none, compression gave nothing, or the
compressed form is longer than nine tenths of the data.

Unblocking reads one block from the front of a byte string and tells how many bytes it
took, so blocks may be followed by anything. Stored blocks unblock under every method.
-/

namespace AnnotationStore

inductive BlockError where
  /-- The method byte names no method. -/
  | unknownMethod (code : Nat)
  deriving DecidableEq, Repr

def BlockError.message : BlockError → String
  | .unknownMethod n => "compress: unknown type " ++ toString n

inductive UnblockError where
  /-- The header or the data it announces is cut short. -/
  | short
  /-- The data decoded to another size than the header says. -/
  | sizeMismatch
  /-- Compressed data under a method that has no decoder. -/
  | noDecoder (code : Nat)
  /-- The decoder refused the data. -/
  | corrupt
  deriving DecidableEq, Repr

/-- The text of an unblocking error; a decoder's refusal has none of its own. -/
def UnblockError.message : UnblockError → String
  | .short => "compress: block too small"
  | .sizeMismatch => "compress: decompressed size mismatch"
  | .noDecoder n => "compress: compressed block with type " ++ Method.nameOf n
  | .corrupt => ""

def blockHeaderSize : Nat := 8

def Method.compress : Method → ByteArray → ByteArray
  | .none, _ => ByteArray.empty
  | .lz4, data => Lz4.compress data
  | .zstd, data => Zstd.compress data

/-- Whether compressed data of size `c` is stored instead, for data of size `n`. -/
def storedInstead (c n : Nat) : Bool := c = 0 ∨ 9 * n < 10 * c

/-- The block of `data` under the method byte `code`. -/
def block (data : ByteArray) (code : Nat) : Except BlockError ByteArray :=
  match Method.ofCode? code with
  | none => .error (.unknownMethod code)
  | some m =>
    let c := m.compress data
    let n := data.size % 2 ^ 32
    if storedInstead c.size data.size then
      .ok (⟨(LittleEndian.toBytes 4 n ++ LittleEndian.toBytes 4 0).toArray⟩ ++ data)
    else
      .ok (⟨(LittleEndian.toBytes 4 n ++ LittleEndian.toBytes 4 (c.size % 2 ^ 32)).toArray⟩ ++ c)

/-- Decodes compressed data of a block to exactly `size` bytes. -/
def decodeBlockData (code : Nat) (src : ByteArray) (size : Nat) : Except UnblockError ByteArray :=
  match Method.ofCode? code with
  | some .lz4 =>
    match Lz4.decode src size with
    | .decoded out => if out.size = size then .ok out else .error .sizeMismatch
    | .overlong => .error .sizeMismatch
    | .malformed => .error .corrupt
  | some .zstd =>
    match Zstd.decompress? src with
    | some out => if out.size = size then .ok out else .error .sizeMismatch
    | none => .error .corrupt
  | _ => .error (.noDecoder code)

/-- The data of the block at the front of `b` under the method byte `code`, and the bytes
the block took. -/
def unblock (b : ByteArray) (code : Nat) : Except UnblockError (ByteArray × Nat) :=
  if b.size < blockHeaderSize then .error .short
  else
    let size := LittleEndian.wordAt b 0 4
    let stored := LittleEndian.wordAt b 4 4
    if stored = 0 then
      let stop := blockHeaderSize + size
      if b.size < stop then .error .short else .ok (b.extract blockHeaderSize stop, stop)
    else
      let stop := blockHeaderSize + stored
      if b.size < stop then .error .short
      else (decodeBlockData code (b.extract blockHeaderSize stop) size).map (·, stop)

end AnnotationStore
