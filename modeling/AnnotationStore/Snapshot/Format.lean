import AnnotationStore.Block.Framing
import AnnotationStore.Bytes.Crc32c
import AnnotationStore.Annotation.PlainJson
import AnnotationStore.Text.Quote
/-!
# Snapshots

A snapshot keeps annotations in their plain form as one JSON array. It is a 48-byte
little-endian header followed by one block (see `Block.Framing`) of the JSON text. The
header holds, in order: the magic word `0x414E4E53`, the version `0x00010000`, the
compression method byte and three padding bytes, the codec name zero-padded to eight bytes,
the number of annotations and the block size as 64-bit words, the CRC-32C of the block, four
more padding bytes and four reserved ones. A writer puts zeros in the padding and reserved
bytes unless told otherwise; a reader keeps them as they are and checks none of them.

Reading checks, in this order: the header length, the magic word, the version, that the
codec name (trailing zero bytes dropped) is registered, that the block size is what follows
the header, the checksum, and last the block itself.
-/

namespace AnnotationStore.Snapshot

def magic : Nat := 0x414E4E53

def version : Nat := 0x00010000

def headerSize : Nat := 48

def codecNameSize : Nat := 8

/-- The fields of a header besides the magic word and the version. -/
structure Header where
  compression : Nat
  /-- The eight bytes of the codec name field. -/
  codecField : ByteArray
  count : Nat
  blockSize : Nat
  checksum : UInt32
  /-- The three bytes after the method byte. -/
  padding1 : ByteArray := ⟨#[0, 0, 0]⟩
  /-- The four bytes after the checksum. -/
  padding2 : ByteArray := ⟨#[0, 0, 0, 0]⟩
  /-- The last four bytes. -/
  reserved : ByteArray := ⟨#[0, 0, 0, 0]⟩

/-- The codec name of a header: the name field without its trailing zero bytes. -/
def Header.codecName (h : Header) : ByteArray :=
  ⟨(h.codecField.toList.reverse.dropWhile (· = 0)).reverse.toArray⟩

/-- The name field holding `name`, or `none` when the name does not fit. -/
def codecField? (name : String) : Option ByteArray :=
  let b := name.toUTF8
  if codecNameSize < b.size then none
  else some (b ++ ⟨(List.replicate (codecNameSize - b.size) (0 : UInt8)).toArray⟩)

def longNameMessage (name : String) : String :=
  "unknown codec: name " ++ Quote.quote name ++ " longer than " ++ toString codecNameSize ++ " bytes"

def Header.bytes (h : Header) : ByteArray :=
  ⟨(LittleEndian.toBytes 4 magic ++ LittleEndian.toBytes 4 version ++
    [h.compression.toUInt8] ++ h.padding1.toList ++ h.codecField.toList ++
    LittleEndian.toBytes 8 h.count ++ LittleEndian.toBytes 8 h.blockSize ++
    LittleEndian.toBytes 4 h.checksum.toNat ++ h.padding2.toList ++ h.reserved.toList).toArray⟩

inductive EncodeError where
  | marshal
  | block (e : BlockError)

def EncodeError.message : EncodeError → String
  | .marshal => "persistence: encode payload"
  | .block e => "persistence: compress payload: " ++ e.message

/-- The snapshot of plain forms written by a codec, under the method byte `code`. -/
def encode (entries : List Plain) (c : Codec) (code : Nat) : Except EncodeError ByteArray := do
  let text ← match PlainJson.marshalList? c entries with
    | some t => pure t
    | none => throw .marshal
  let blk ← (block text.toUTF8 code).mapError .block
  let field := (codecField? c.name).getD ByteArray.empty
  let h : Header :=
    { compression := code, codecField := field, count := entries.length, blockSize := blk.size,
      checksum := Crc32c.checksum blk }
  pure (h.bytes ++ blk)

inductive DecodeError where
  | short (size : Nat)
  | badMagic (got : Nat)
  | badVersion (got : Nat)
  | unknownCodec (name : ByteArray)
  | blockSize (actual expected : Nat)
  | checksum (expected actual : UInt32)
  | unblock (e : UnblockError)

def DecodeError.message : DecodeError → String
  | .short n => "persistence: header needs " ++ toString headerSize ++ " bytes, got " ++ toString n
  | .badMagic m => "invalid magic number: got 0x" ++ Hex.fixed 8 m
  | .badVersion v => "unsupported version: got 0x" ++ Hex.fixed 8 v
  | .unknownCodec n => "unknown codec: " ++ Quote.quoteBytes n
  | .blockSize a e => "persistence: block size " ++ toString a ++ ", header says " ++ toString e
  | .checksum e a => Crc32c.mismatchMessage e a
  | .unblock e => "persistence: decompress payload: " ++ e.message

def readHeader (b : ByteArray) : Except DecodeError Header := do
  if b.size < headerSize then throw (.short b.size)
  let m := LittleEndian.wordAt b 0 4
  if m ≠ magic then throw (.badMagic m)
  let v := LittleEndian.wordAt b 4 4
  if v ≠ version then throw (.badVersion v)
  pure
    { compression := LittleEndian.wordAt b 8 1, padding1 := b.extract 9 12,
      codecField := b.extract 12 20, count := LittleEndian.wordAt b 20 8,
      blockSize := LittleEndian.wordAt b 28 8, checksum := (LittleEndian.wordAt b 36 4).toUInt32,
      padding2 := b.extract 40 44, reserved := b.extract 44 48 }

/-- Reads a snapshot: its header and the JSON text of its annotations. -/
def decode (b : ByteArray) : Except DecodeError (Header × ByteArray) := do
  let h ← readHeader b
  let name := h.codecName
  if ((String.fromUTF8? name).bind Codec.byName?).isNone then throw (.unknownCodec name)
  let blk := b.extract headerSize b.size
  if blk.size ≠ h.blockSize then throw (.blockSize blk.size h.blockSize)
  let actual := Crc32c.checksum blk
  if actual ≠ h.checksum then throw (.checksum h.checksum actual)
  let (payload, _) ← (unblock blk h.compression).mapError .unblock
  pure (h, payload)

end AnnotationStore.Snapshot
