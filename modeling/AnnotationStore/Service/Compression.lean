import AnnotationStore.Service.Request
import AnnotationStore.Service.Answer
import AnnotationStore.Block.Framing
/-!
# Answers about blocks

Making and reading blocks. The compressed bytes themselves are shown only for stored
blocks; for compressed ones the answer shows the round trip.
-/

namespace AnnotationStore.Service

open Read

def unblockFailure : UnblockError → Json
  | .short => Write.failure "ErrShortBlock" UnblockError.short.message
  | .sizeMismatch => Write.failure "ErrSizeMismatch" UnblockError.sizeMismatch.message
  | e@(.noDecoder _) => Write.failure "error" e.message
  | .corrupt => Write.bare "library"

def compressBlockAnswer (j : Json) : Json :=
  let data := bytes j "hex"
  let code := methodCode j
  match block data code with
  | .error e => Write.failure "error" e.message
  | .ok blk =>
    let raw := LittleEndian.wordAt blk 4 4 = 0
    let roundtrip := match unblock blk code with
      | .ok (payload, used) =>
        .obj ([("payload", Write.hex payload)] ++ if raw then [("consumed", Write.nat used)] else [])
      | .error e => unblockFailure e
    .obj ([("raw", .bool raw), ("uncompressed_size", Write.nat data.size),
      ("roundtrip", roundtrip)] ++ if raw then [("hex", Write.hex blk)] else [])

def compressUnblockAnswer (j : Json) : Json :=
  match unblock (bytes j "hex") (methodCode j) with
  | .ok (payload, used) => .obj [("payload", Write.hex payload), ("consumed", Write.nat used)]
  | .error e => unblockFailure e

end AnnotationStore.Service
