import AnnotationStore.Service.Buffers
import AnnotationStore.Service.Compression
import AnnotationStore.Service.StoreAnswers
/-!
# Answers about chunks

Making a chunk of a packed buffer and reading chunks back. The chunk bytes are shown only
when they are not compressed; the answer always shows what reading them gives.
-/

namespace AnnotationStore.Service

open Read

def chunkFailure (e : Chunk.DecodeError) : Json := Write.storeError (.chunk e)

def Write.chunkRead (b : ByteArray) : Json :=
  match Chunk.decode b with
  | .ok buf => Write.packedBuffer buf
  | .error e => chunkFailure e

/-- The buffer a request describes: annotations to pack, or a buffer given in full. -/
def requestedBuffer (j : Json) : PackedBuffer :=
  if has j "serialized" then packedBufferOf (field j "serialized")
  else PackedBuffer.build (byKind ((items j "annotations").map annotationOf)) (uint64 j "generation")

def chunkEncodeAnswer (j : Json) : Json :=
  let code := methodCode j
  match Chunk.encode (requestedBuffer j) code with
  | .error e => Write.storeError (.chunkEncode e)
  | .ok c =>
    .obj ([("decoded", Write.chunkRead c)] ++
      if code = 0 then [("hex", Write.hex c), ("length", Write.nat c.size)] else [])

def chunkDecodeAnswer (j : Json) : Json :=
  match Chunk.decode (bytes j "hex") with
  | .ok buf => .obj [("decoded", Write.packedBuffer buf)]
  | .error e => chunkFailure e

end AnnotationStore.Service
