import AnnotationStore.Buffer.Validate
import AnnotationStore.Block.Framing
import AnnotationStore.Bytes.Cursor
import AnnotationStore.Bytes.Crc32c
import AnnotationStore.Number.Narrow
import AnnotationStore.Text.Utf8
/-!
# Chunk transport

A chunk carries a packed buffer between processes. It is a twelve-byte header (magic word
`0x414E4E43`, version 1 as 16 bits, the compression method byte, a reserved byte and the
CRC-32C of the rest) followed by one block (see `Block.Framing`) holding the payload.

The payload is the generation (64 bits) and the total pick count (32 bits); then per kind,
in kind order, the instance count, the region offset and the region pick count, and per
instance its size, its pick count, its id and its label as length-prefixed strings; last the
data length and the data. Data or a total pick count that does not fit 32 bits is refused;
offsets and pick counts are written modulo `2 ^ 32`.

Decoding checks the header, the checksum and the block, reads the payload, refusing a count
that could not fit in what remains (each instance takes at least sixteen bytes), and
validates the result. A decoded buffer always records labels.
-/

namespace AnnotationStore.Chunk

def magic : Nat := 0x414E4E43

def version : Nat := 1

def headerSize : Nat := 12

inductive EncodeError where
  | dataOverflow (e : Overflow)
  | pickOverflow (e : Overflow)
  | block (e : BlockError)
  /-- The metadata lists are shorter than the ids. -/
  | missingMetadata
  deriving Repr

inductive DecodeError where
  | short (size : Nat)
  | badMagic (got : Nat)
  | badVersion (got : Nat)
  | checksum (expected actual : UInt32)
  | unblock (e : UnblockError)
  | read (e : ReadError)
  | tooMany (k : Kind) (count : Nat)
  | layout (e : LayoutError)

def EncodeError.message : EncodeError → String
  | .dataOverflow e => "chunk: data: " ++ e.message
  | .pickOverflow e => "chunk: pick ids: " ++ e.message
  | .block e => e.message
  | .missingMetadata => "chunk: metadata shorter than ids"

def DecodeError.message : DecodeError → String
  | .short n => "chunk: " ++ toString n ++ " bytes is shorter than the header"
  | .badMagic m => "chunk: invalid magic number: got 0x" ++ Hex.fixed 8 m
  | .badVersion v => "chunk: unsupported version: got " ++ toString v
  | .checksum e a => "chunk: " ++ Crc32c.mismatchMessage e a
  | .unblock e => "chunk: " ++ e.message
  | .read e => "chunk: " ++ e.message
  | .tooMany k n => "chunk: " ++ k.tag ++ ": " ++ toString n ++ " instances exceed the payload"
  | .layout e => "chunk: " ++ e.message

/-- The bytes of a length-prefixed string. -/
def stringBytes (s : String) : List UInt8 :=
  LittleEndian.toBytes 4 s.utf8ByteSize ++ s.toUTF8.toList

/-- The payload bytes of one region, or `none` if its metadata is shorter than its ids. -/
def regionBytes (r : Region) : Option (List UInt8) := do
  let n := r.ids.length
  let each ← (List.range n).mapM fun i => do
    let size ← r.sizes[i]?
    let picks ← r.picks[i]?
    let label ← match r.labels with
      | some ls => ls[i]?
      | none => some ""
    let id ← r.ids[i]?
    pure (LittleEndian.toBytes 4 size ++ LittleEndian.toBytes 4 picks ++ stringBytes id ++
      stringBytes label)
  pure (LittleEndian.toBytes 4 n ++ LittleEndian.toBytes 4 (r.offset % 2 ^ 32).toNat ++
    LittleEndian.toBytes 4 (r.pickCount % 2 ^ 32).toNat ++ each.flatten)

def payload (b : PackedBuffer) : Except EncodeError ByteArray := do
  let _ ← (toUInt32? b.data.size).mapError .dataOverflow
  let total ← (toUInt32? b.totalPicks).mapError .pickOverflow
  let regions ← match Kind.all.mapM fun k => regionBytes (b.regions k) with
    | some rs => pure rs
    | none => throw .missingMetadata
  let head : ByteArray := ⟨(LittleEndian.toBytes 8 b.generation.toNat ++
    LittleEndian.toBytes 4 total.toNat ++ regions.flatten ++
    LittleEndian.toBytes 4 b.data.size).toArray⟩
  pure (head ++ b.data)

/-- The chunk of a packed buffer under the method byte `code`. -/
def encode (b : PackedBuffer) (code : Nat) : Except EncodeError ByteArray := do
  let p ← payload b
  let blk ← (block p code).mapError .block
  let head := LittleEndian.toBytes 4 magic ++ LittleEndian.toBytes 2 version ++
    [code.toUInt8, 0] ++ LittleEndian.toBytes 4 (Crc32c.checksum blk).toNat
  pure (⟨head.toArray⟩ ++ blk)

/-- Reads the instances of one region after its three counts. Ids and labels keep their
malformed bytes as stand-ins. -/
def readInstances : Nat → Reading (List (Nat × Nat × String × String))
  | 0 => pure []
  | n + 1 => do
    let size ← Cursor.u32
    let picks ← Cursor.u32
    let id ← Cursor.string
    let label ← Cursor.string
    let rest ← readInstances n
    pure ((size, picks, Utf8.decodeKeeping id, Utf8.decodeKeeping label) :: rest)

inductive PayloadFault where
  | read (e : ReadError)
  | tooMany (k : Kind) (count : Nat)

abbrev PayloadReading := ExceptT PayloadFault (StateM Cursor)

def liftRead {α : Type} (r : Reading α) : PayloadReading α := ExceptT.adapt .read r

def readRegion (k : Kind) : PayloadReading Region := do
  let n ← liftRead Cursor.u32
  let start ← liftRead Cursor.u32
  let picks ← liftRead Cursor.u32
  let rest ← liftRead Cursor.remaining
  if rest.size / 16 < n then throw (.tooMany k n)
  let inst ← liftRead (readInstances n)
  let ids := inst.map fun (_, _, id, _) => id
  let sizes := inst.map fun (size, _, _, _) => size
  let counts := inst.map fun (_, p, _, _) => p
  let labels := inst.map fun (_, _, _, label) => label
  pure ⟨ids, start, sizes, counts, picks, some labels⟩

def readRegions : List Kind → PayloadReading (List (Kind × Region))
  | [] => pure []
  | k :: ks => do
    let r ← readRegion k
    let rs ← readRegions ks
    pure ((k, r) :: rs)

def readPayload : PayloadReading PackedBuffer := do
  let generation ← liftRead Cursor.u64
  let total ← liftRead Cursor.u32
  let regions ← readRegions Kind.all
  let n ← liftRead Cursor.u32
  let data ← liftRead (Cursor.take n)
  let region (k : Kind) : Region := ((regions.find? (·.1 == k)).map (·.2)).getD {}
  pure { data := data, regions := region, totalPicks := total, generation := generation.toUInt64 }

def decode (b : ByteArray) : Except DecodeError PackedBuffer := do
  if b.size < headerSize then throw (.short b.size)
  let m := LittleEndian.wordAt b 0 4
  if m ≠ magic then throw (.badMagic m)
  let v := LittleEndian.wordAt b 4 2
  if v ≠ version then throw (.badVersion v)
  let code := LittleEndian.wordAt b 6 1
  let blk := b.extract headerSize b.size
  let expected := (LittleEndian.wordAt b 8 4).toUInt32
  let actual := Crc32c.checksum blk
  if expected ≠ actual then throw (.checksum expected actual)
  let (p, _) ← (unblock blk code).mapError .unblock
  let buf ← match (readPayload.run.run ⟨p, 0⟩).1 with
    | .ok buf => pure buf
    | .error (.read e) => throw (.read e)
    | .error (.tooMany k n) => throw (.tooMany k n)
  (buf.validate).mapError .layout
  pure buf

end AnnotationStore.Chunk
