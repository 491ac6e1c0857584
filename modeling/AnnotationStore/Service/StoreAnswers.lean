import AnnotationStore.Service.Answer
import AnnotationStore.Service.Shapes
import AnnotationStore.Render.Layer
import AnnotationStore.Store.Facade
/-!
# Answers about the store

Store errors, restore results, log records, device commands and metrics as JSON.

An error is answered by the first kind, in a fixed order, that its chain of causes holds:
malformed data, a duplicate id, a deleted reference, a pick out of range, a checksum
mismatch, a closed store, something not found, one of the named conditions, a third-party
failure, and last any other error.
-/

namespace AnnotationStore.Service

/-- Whether a chain holds an error that satisfies `p`. -/
def holds (e : StoreError) (p : StoreError → Bool) : Bool := e.chain.any p

/-- The name of a named condition an error is, if it is one. -/
def conditionName : StoreError → Option String
  | .noStore => some "ErrNoStore"
  | .noPersistence => some "ErrNoPersistence"
  | .nilValue => some "ErrNilAnnotation"
  | .noSegmentation => some "ErrNoSegmentation"
  | .canceled => some "ErrCanceled"
  | .injected => some "ErrFake"
  | .unexpectedEnd => some "ErrUnexpectedEOF"
  | .mappingClosed => some "ErrMmapClosed"
  | .invalidOffset => some "ErrInvalidOffset"
  | .snapshot (.badMagic _) => some "ErrInvalidMagic"
  | .snapshot (.badVersion _) => some "ErrInvalidVersion"
  | .snapshot (.unknownCodec _) => some "ErrUnknownCodec"
  | .snapshot (.unblock .short) => some "ErrShortBlock"
  | .snapshot (.unblock .sizeMismatch) => some "ErrSizeMismatch"
  | .chunk (.badMagic _) => some "ErrInvalidMagic"
  | .chunk (.badVersion _) => some "ErrInvalidVersion"
  | .chunk (.unblock .short) => some "ErrShortBlock"
  | .chunk (.unblock .sizeMismatch) => some "ErrSizeMismatch"
  | .chunkEncode (.pickOverflow _) => some "ErrOverflow"
  | _ => none

def isLibrary : StoreError → Bool
  | .library | .snapshot (.unblock .corrupt) | .chunk (.unblock .corrupt) => true
  | _ => false

def malformedIn : List StoreError → Option (Option Malformed)
  | [] => none
  | .malformed m :: _ => some (some m)
  | .unreadablePayload :: _ => some none
  | _ :: rest => malformedIn rest

def duplicateIn : List StoreError → Option String
  | [] => none
  | .duplicateId id :: _ => some id
  | _ :: rest => duplicateIn rest

def deletedIn : List StoreError → Option String
  | [] => none
  | .alreadyDeleted id :: _ => some id
  | _ :: rest => deletedIn rest

def isPick : StoreError → Bool
  | .pick _ => true
  | _ => false

def isChecksum : StoreError → Bool
  | .snapshot (.checksum _ _) | .chunk (.checksum _ _) => true
  | _ => false

def isClosed : StoreError → Bool
  | .closed | .asClosed _ => true
  | _ => false

def isNotFound : StoreError → Bool
  | .notFound | .asNotFound _ | .missingBlob | .noSuchFile _ => true
  | _ => false

/-- Whether an error is a failed multipart upload, whose text is not shown. -/
def isUploadFailure : StoreError → Bool
  | .uploadFailed _ => true
  | _ => false

def Write.shownError (e : StoreError) : Json :=
  let chain := e.chain
  match malformedIn chain with
  | some none =>
    .obj [("error", .str "ErrMalformed"), ("index", Write.int (-1)), ("field", .str ""),
      ("reason", .str StoreError.unreadableReason), ("codec_error", .bool true)]
  | some (some m) =>
    if m.field.isEmpty && m.reason != StoreError.unreadableReason then Write.bare "library"
    else .obj [("error", .str "ErrMalformed"), ("index", Write.int m.index), ("field", .str m.field),
      ("reason", .str m.reason), ("message", .str e.message)]
  | none =>
    match duplicateIn chain, deletedIn chain with
    | some id, _ => Write.extend (Write.failure "ErrDuplicateID" e.message) [("id", .str id)]
    | none, some id => Write.extend (Write.failure "ErrAlreadyDeleted" e.message) [("id", .str id)]
    | none, none =>
      if holds e isPick then Write.failure "ErrPickOffsetOutOfRange" e.message
      else if holds e isChecksum then Write.failure "ErrChecksumMismatch" e.message
      else if holds e isClosed then Write.failure "ErrClosed" e.message
      else if holds e isNotFound then Write.failure "ErrNotFound" e.message
      else match chain.findSome? conditionName with
        | some n => Write.failure n e.message
        | none => if holds e isLibrary then Write.bare "library" else Write.failure "error" e.message

/-- Whether an error stands for a crash of the library rather than an error value: a
chunk of a buffer with fewer labels than ids. -/
def isCrash : StoreError → Bool
  | .chunkEncode .missingMetadata => true
  | _ => false

/-- An error as JSON; a failed multipart upload keeps its kind only. -/
def Write.storeError (e : StoreError) : Json :=
  if holds e isCrash then Write.panic
  else if holds e isUploadFailure then
    match Write.shownError e with
    | .obj ms => .obj (ms.filter (·.1 != "message"))
    | j => j
  else Write.shownError e

def Write.skip : Skip → Json
  | .undecodable i => .obj [("index", Write.nat i), ("error", .str "decode")]
  | .malformed m => .obj [("index", Write.int m.index), ("error", .str "ErrMalformed"),
      ("field", .str m.field), ("reason", .str m.reason), ("message", .str m.message)]
  | .duplicate i id => .obj [("index", Write.nat i), ("error", .str "ErrDuplicateID"),
      ("id", .str id), ("message", .str (StoreError.duplicateId id).message)]

def Write.restoreResult (r : RestoreResult) : Json :=
  .obj [("restored", Write.nat r.restored), ("skipped", .arr (r.skipped.map Write.skip))]

def Write.logValue : Log.Value → Json
  | .text s => .str s
  | .int n => Write.int n
  | .wide n => Write.decimal n
  | .flag b => .bool b
  | .failure e => Write.storeError e

/-- Whether a record names a compression other than none; its byte count is then left out. -/
def compressed (attrs : List (String × Log.Value)) : Bool :=
  attrs.any fun
    | ("compression", .text t) => t != "none"
    | _ => false

def Write.logRecord (r : Log.Record) : Json :=
  let attrs := if compressed r.attrs then r.attrs.filter (·.1 != "bytes") else r.attrs
  .obj [("level", .str r.level.name), ("msg", .str r.message),
    ("attrs", .arr (attrs.map fun (k, v) => .arr [.str k, Write.logValue v]))]

def Write.color (c : Color) : Json := .arr [Write.float c.r, Write.float c.g, Write.float c.b, Write.float c.a]

def Write.gpuEvent : GpuEvent → Json
  | .createBuffer l => .obj [("ev", .str "create_buffer"), ("label", .str l), ("usage", Write.nat bufferUsage)]
  | .upload l d => .obj [("ev", .str "upload"), ("label", .str l), ("data", Write.hex d)]
  | .bind l => .obj [("ev", .str "bind"), ("label", .str l)]
  | .destroy l => .obj [("ev", .str "destroy"), ("label", .str l)]
  | .register b n => .obj [("ev", .str "register"), ("base", Write.int b), ("n", Write.int n)]
  | .draw c => .obj [("ev", .str "draw"), ("type", .str c.kind.tag), ("buffer", .str c.buffer),
      ("layout", layoutAnswer c.kind.vertexLayout), ("byte_offset", Write.int c.byteOffset),
      ("count", Write.nat c.count), ("stride", Write.nat c.kind.stride),
      ("instance_sizes", Write.opt (fun ss => .arr (ss.map Write.nat)) c.instanceSizes),
      ("pick_id_base", Write.int c.pickBase), ("pick_id_count", Write.int c.pickCount),
      ("selected_index", Write.int c.selected), ("colors", .arr (c.colors.map Write.color)),
      ("point_size", Write.float32 c.pointSize), ("line_width", Write.float32 c.lineWidth)]

/-- A reference: its id, state and the value it shows. -/
def Write.refInfo (c : RefCell) : Json :=
  .obj [("id", .str c.id), ("state", .str c.state.name), ("value", Write.opt Write.annotation c.shown)]

def Write.sizeRange (r : Float × Float) : Json := .arr [Write.float r.1, Write.float r.2]

def Write.basicMetrics (m : BasicMetrics) : Json :=
  .obj [("add_count", Write.nat m.addCount), ("add_errors", Write.nat m.addErrors),
    ("update_count", Write.nat m.updateCount), ("update_errors", Write.nat m.updateErrors),
    ("delete_count", Write.nat m.deleteCount), ("delete_errors", Write.nat m.deleteErrors),
    ("serialize_count", Write.nat m.serializeCount), ("serialize_bytes", Write.nat m.serializeBytes),
    ("restore_count", Write.nat m.restoreCount), ("restore_errors", Write.nat m.restoreErrors),
    ("restored_entries", Write.nat m.restoredEntries), ("skipped_entries", Write.nat m.skippedEntries),
    ("avg_add_nonnegative", .bool true), ("avg_serialize_nonnegative", .bool true)]

def opLabels (k : String × String) : Json := .obj [("op", .str k.1), ("status", .str k.2)]

/-- Labelled counts, as metric families sorted by name. -/
def Write.labelledMetrics (m : LabelledMetrics) : Json :=
  let ops := m.operations.mergeSort fun a b => a.1.1 < b.1.1 || (a.1.1 == b.1.1 && a.1.2 ≤ b.1.2)
  let family (name kind : String) (ms : List Json) : List Json :=
    if ms.isEmpty then [] else [.obj [("name", .str name), ("type", .str kind), ("metrics", .arr ms)]]
  let latency := ops.map fun (k, n) => Json.obj [("labels", opLabels k), ("count", Write.nat n)]
  let totals := ops.map fun (k, n) => Json.obj [("labels", opLabels k), ("counter", Write.float n.toFloat)]
  let restored := match m.restored with
    | some (r, s) =>
      [Json.obj [("labels", .obj [("result", .str "restored")]), ("counter", Write.float r.toFloat)],
       .obj [("labels", .obj [("result", .str "skipped")]), ("counter", Write.float s.toFloat)]]
    | none => []
  let buckets := LabelledMetrics.bounds.map fun b =>
    Json.arr [Write.float b.toFloat, Write.nat (m.serialized.filter (· ≤ b)).length]
  let sizes := [Json.obj [("labels", .obj []), ("count", Write.nat m.serialized.length),
    ("sum", Write.float (m.serialized.foldr (· + ·) 0).toFloat), ("buckets", .arr buckets)]]
  .arr (family "annostore_operation_latency_seconds" "HISTOGRAM" latency ++
    family "annostore_operations_total" "COUNTER" totals ++
    family "annostore_restored_entries_total" "COUNTER" restored ++
    family "annostore_serialized_bytes" "HISTOGRAM" sizes)

def Write.metrics : Metrics → Json
  | .none => .null
  | .basic m => Write.basicMetrics m
  | .labelled m => Write.labelledMetrics m

end AnnotationStore.Service
