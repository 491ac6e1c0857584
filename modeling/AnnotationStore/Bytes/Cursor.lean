import AnnotationStore.Bytes.LittleEndian
/-!
# Reading bytes with a cursor

A cursor is a byte string and an offset into it. Reads take little-endian words, strings
with a 32-bit length in front, raw byte runs and lists of 32-bit words, and move the offset
past what they took. A read that does not fit leaves the offset where it was. The offset
may be moved anywhere, also before the start; a read there is a fault, not an error.
-/

namespace AnnotationStore

inductive ReadError where
  /-- `count` bytes do not fit at `offset` in `length` bytes (or the count is negative). -/
  | outOfBounds (count offset : Int) (length : Nat)
  /-- More 32-bit words are asked for than the remaining bytes hold. -/
  | tooManyWords (count : Int) (remaining : Nat)
  /-- A read at an offset before the start. -/
  | beforeStart
  deriving DecidableEq, Repr

def ReadError.message : ReadError → String
  | .outOfBounds n off len =>
    "sliceReader: out of bounds read (" ++ toString n ++ " bytes at " ++ toString off ++
      ", len=" ++ toString len ++ ")"
  | .tooManyWords n r =>
    "sliceReader: " ++ toString n ++ " uint32 values exceed " ++ toString r ++ " remaining bytes"
  | .beforeStart => "sliceReader: read before the start"

structure Cursor where
  bytes : ByteArray
  offset : Int := 0

/-- Reading from a cursor. A failed read keeps what earlier reads moved. -/
abbrev Reading := ExceptT ReadError (StateM Cursor)

namespace Cursor

def take (n : Int) : Reading ByteArray := do
  let c ← get
  if n < 0 ∨ c.bytes.size < c.offset + n then throw (.outOfBounds n c.offset c.bytes.size)
  if c.offset < 0 then throw .beforeStart
  let off := c.offset.toNat
  set { c with offset := c.offset + n }
  pure (c.bytes.extract off (off + n.toNat))

def word (w : Nat) : Reading Nat := do
  let b ← take w
  pure (LittleEndian.ofBytes b.toList)

def u8 : Reading Nat := word 1

def u16 : Reading Nat := word 2

def u32 : Reading Nat := word 4

def u64 : Reading Nat := word 8

/-- The next string: a 32-bit length, then that many bytes. A length that does not fit
leaves the offset after the length. -/
def string : Reading ByteArray := do
  let n ← u32
  take n

/-- The bytes after the offset; none when the offset is at or past the end. -/
def remaining : Reading ByteArray := do
  let c ← get
  if c.bytes.size ≤ c.offset then pure ByteArray.empty
  else if c.offset < 0 then throw .beforeStart
  else pure (c.bytes.extract c.offset.toNat c.bytes.size)

/-- The next `n` 32-bit words, when the remaining bytes hold them. -/
def words (n : Int) : Reading (List Nat) := do
  let rest ← remaining
  if n < 0 ∨ (rest.size / 4 : Nat) < n then throw (.tooManyWords n rest.size)
  modify fun c => { c with offset := c.offset + 4 * n }
  pure ((List.range n.toNat).map fun i => LittleEndian.wordAt rest (4 * i) 4)

/-- Moves the offset by `n`, in either direction and without bound. -/
def advance (n : Int) : Reading Unit := modify fun c => { c with offset := c.offset + n }

/-- Runs a reading from a cursor: its outcome and where the cursor ends. -/
def run {α : Type} (r : Reading α) (c : Cursor) : Except ReadError α × Cursor := r.run.run c

end Cursor

end AnnotationStore
