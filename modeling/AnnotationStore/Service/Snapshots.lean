import AnnotationStore.Service.Compression
import AnnotationStore.Service.Shapes
import AnnotationStore.Snapshot.Format
/-!
# Answers about snapshots

Making a snapshot of annotations and reading snapshots back. The snapshot bytes are shown
only when they are not compressed; the answer always shows what reading them gives.
-/

namespace AnnotationStore.Service

open Read

def snapshotFailure (e : Snapshot.DecodeError) : Json :=
  match e with
  | .badMagic _ => Write.failure "ErrInvalidMagic" e.message
  | .badVersion _ => Write.failure "ErrInvalidVersion" e.message
  | .unknownCodec _ => Write.failure "ErrUnknownCodec" e.message
  | .checksum _ _ => Write.failure "ErrChecksumMismatch" e.message
  | .unblock .corrupt => Write.bare "library"
  | .unblock .short => Write.failure "ErrShortBlock" e.message
  | .unblock .sizeMismatch => Write.failure "ErrSizeMismatch" e.message
  | _ => Write.failure "error" e.message

def Write.snapshotRead (b : ByteArray) : Json :=
  match Snapshot.decode b with
  | .error e => snapshotFailure e
  | .ok (h, payload) =>
    let text := match String.fromUTF8? payload with
      | some t => [("payload_text", Json.str t)]
      | none => []
    let stored := if h.compression = 0 then
        [("block_size", Write.decimal h.blockSize), ("checksum", Write.nat h.checksum.toNat)]
      else []
    .obj ([("compression", Write.nat h.compression),
      ("codec", .str (Utf8.decodeBytes h.codecName)), ("count", Write.decimal h.count),
      ("payload", Write.hex payload)] ++ text ++ stored)

/-- The plain forms of a JSON array as a codec reads them; `null` reads as no entries. -/
def plainEntries? (c : Codec) (s : String) : Option (List Plain) :=
  match c.parse? s with
  | some .null => some []
  | some (.arr xs) => xs.mapM (PlainJson.read? c)
  | _ => none

def snapshotEncodeAnswer (j : Json) : Json :=
  let c := codecOf j
  let code := methodCode j
  let entries := if has j "plain_json" then plainEntries? c (text j "plain_json")
    else some ((items j "annotations").map fun a => (annotationOf a).toPlain)
  match entries with
  | none => Write.bare "decode"
  | some es =>
    match Snapshot.encode es c code with
    | .error .marshal => Write.bare "library"
    | .error e => Write.failure "error" e.message
    | .ok b =>
      .obj ([("decoded", Write.snapshotRead b)] ++
        if code = 0 then [("hex", Write.hex b), ("length", Write.nat b.size)] else [])

def snapshotDecodeAnswer (j : Json) : Json :=
  .obj [("result", Write.snapshotRead (bytes j "hex"))]

def snapshotHeaderAnswer (j : Json) : Json :=
  let name := text j "codec"
  match Snapshot.codecField? name with
  | none => Write.failure "ErrUnknownCodec" (Snapshot.longNameMessage name)
  | some field =>
    let h : Snapshot.Header :=
      { compression := methodCode j, codecField := field, count := (uint64 j "count").toNat,
        blockSize := (uint64 j "block_size").toNat, checksum := (nat j "checksum").toUInt32 }
    .obj [("hex", Write.hex h.bytes), ("size", Write.nat h.bytes.size)]

end AnnotationStore.Service
