import AnnotationStore.Service.Shapes
import AnnotationStore.Service.Buffers
import AnnotationStore.Number.Narrow
import AnnotationStore.Log.Level
import AnnotationStore.Block.Method
import AnnotationStore.Chunk.Key
import AnnotationStore.Bytes.Crc32c
import AnnotationStore.Service.Compression
import AnnotationStore.Service.Chunks
import AnnotationStore.Service.Snapshots
import AnnotationStore.Service.Binary
import AnnotationStore.Service.Caching
import AnnotationStore.Service.Signals
import AnnotationStore.Service.Session
import AnnotationStore.Service.Blobs
import AnnotationStore.Service.Samples
import AnnotationStore.Service.ChunkViewer

/-!
# Answering requests

`respond` reads the `op` member of a request and answers it; `respondLine` does the same
for one line of JSON text. A line that is not JSON, or an unknown operation, is answered
with a `bad_input` error.
-/

namespace AnnotationStore.Service

open Read

/-- The checksum of a byte string, verified against an expected value when one is given. -/
def checksumAnswer (j : Json) : Json :=
  let sum := Crc32c.checksum (bytes j "hex")
  let base := [("crc32c", Write.nat sum.toNat)]
  if has j "expected" then
    let e := (nat j "expected").toUInt32
    let verify := if e == sum then Json.str "ok"
      else Write.extend (Write.failure "ErrChecksumMismatch" (Crc32c.mismatchMessage e sum)) []
    .obj (base ++ [("verify", verify)])
  else .obj base

def mismatchAnswer (j : Json) : Json :=
  let bad := Crc32c.checksum (bytes j "hex") != (nat j "expected").toUInt32
  .obj [("mismatch", .bool bad), ("wrapped", .bool bad)]

def narrowAnswer (j : Json) : Json :=
  match toUInt32? (int j "value") with
  | .ok v => .obj [("value", Write.nat v.toNat)]
  | .error e => Write.failure "ErrOverflow" e.message

def chunkKeyAnswer (j : Json) : Json :=
  if has j "spatial" then
    let c := (items j "spatial").map fun v => (intOf? v).getD 0
    .obj [("key", .str (ChunkKey.spatial (c.getD 0 0) (c.getD 1 0) (c.getD 2 0) (c.getD 3 0)))]
  else .obj [("key", .str (ChunkKey.segment (uint64 j "segment")))]

def loggerAnswer (j : Json) : Json :=
  let sink : Log.Sink := match text j "kind" with
    | "noop" => .discard
    | "default" => .threshold 0
    | _ => .threshold (int j "level")
  .obj [("enabled", .obj (Log.Level.all.map fun l => (l.name, .bool (sink.enabled l))))]

def respond (j : Json) : Json :=
  match text j "op" with
  | "type_info" => typeInfo j
  | "parse_type" => parseType j
  | "handler_type" => handlerType j
  | "segment_encode" => segmentEncode j
  | "segment_decode" => segmentDecode j
  | "from_plain" => fromPlain j
  | "to_plain" => toPlain j
  | "handler" => handler j
  | "snap" => snap j
  | "with_index" => withIndex j
  | "codec_marshal" => codecMarshal j
  | "serialize" => serializeAnswer j
  | "serialized" => serializedAnswer j
  | "checksum" => checksumAnswer j
  | "compress_block" => compressBlockAnswer j
  | "compress_unblock" => compressUnblockAnswer j
  | "chunk_encode" => chunkEncodeAnswer j
  | "chunk_decode" => chunkDecodeAnswer j
  | "snapshot_encode" => snapshotEncodeAnswer j
  | "snapshot_decode" => snapshotDecodeAnswer j
  | "snapshot_header" => snapshotHeaderAnswer j
  | "binary" => binaryAnswer j
  | "binary_write" => binaryWriteAnswer j
  | "lru" => lruAnswer j
  | "resource" => resourceAnswer j
  | "signal" => signalAnswer j
  | "session" => sessionAnswer j
  | "blobs" => blobsAnswer j
  | "local" => localAnswer j
  | "mmap" => mmapAnswer j
  | "s3" => s3Answer j
  | "testutil" => testutilAnswer j
  | "fetcher" => fetcherAnswer j
  | "chunks" => chunksAnswer j
  | "is_checksum_mismatch" => mismatchAnswer j
  | "int_to_uint32" => narrowAnswer j
  | "compress_name" => .obj [("name", .str (Method.nameOf (methodCode j)))]
  | "chunk_key" => chunkKeyAnswer j
  | "logger" => loggerAnswer j
  | "s3_new" => .obj [("created", .bool true)]
  | "nil_controller" =>
    .obj [("fetch", .bool true), ("io", .bool true), ("limit", Write.nat 0),
      ("try_io", .bool true), ("try_memory", .bool true), ("usage", Write.nat 0)]
  | op => Write.failure "bad_input" ("unknown op " ++ op)

def answerStyle : Json.Style := ⟨true⟩

def respondLine (line : String) : String :=
  match Json.parse? .strict line with
  | some j => Json.render answerStyle (respond j)
  | none => Json.render answerStyle (Write.failure "bad_input" "request is not JSON")

end AnnotationStore.Service
