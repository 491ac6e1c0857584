import AnnotationStore.Service.Shapes
import AnnotationStore.Buffer.Validate
import AnnotationStore.Buffer.Build
import AnnotationStore.Buffer.Pick

/-!
# Requests about packed buffers

Packed buffers in and out of JSON, packing, checking, pick resolution and id lookup.
-/

namespace AnnotationStore.Service

open Read

/-- The `i`-th of six per-kind entries of a member, `null` when missing. -/
def perKind (j : Json) (key : String) (k : Kind) : Json := (items j key).getD k.index .null

def natsOf : Json → List Nat
  | .arr xs => xs.map fun x => ((intOf? x).getD 0).toNat
  | _ => []

def textsOf : Json → List String
  | .arr xs => xs.map fun | .str s => s | _ => ""
  | _ => []

def packedBufferOf (j : Json) : PackedBuffer :=
  let region (k : Kind) : Region :=
    { ids := textsOf (perKind j "ids" k), offset := (intOf? (perKind j "offsets" k)).getD 0,
      sizes := natsOf (perKind j "sizes" k), picks := natsOf (perKind j "pick_ids" k),
      pickCount := (intOf? (perKind j "pick_counts" k)).getD 0,
      labels := match perKind j "anntypes" k with
        | .arr xs => some (xs.map fun | .str s => s | _ => "")
        | _ => none }
  { data := bytes j "data", regions := region, totalPicks := int j "total_pick_ids",
    generation := uint64 j "generation" }

def Write.packedBuffer (b : PackedBuffer) : Json :=
  let each (f : Region → Json) : Json := .arr (Kind.all.map fun k => f (b.regions k))
  .obj [("data", Write.hex b.data),
    ("ids", each fun r => .arr (r.ids.map Json.str)),
    ("sizes", each fun r => .arr (r.sizes.map Write.nat)),
    ("pick_ids", each fun r => .arr (r.picks.map Write.nat)),
    ("anntypes", each fun r => Write.opt (fun ls => .arr (ls.map Json.str)) r.labels),
    ("offsets", each fun r => Write.int r.offset),
    ("pick_counts", each fun r => Write.int r.pickCount),
    ("total_pick_ids", Write.int b.totalPicks),
    ("generation", Write.decimal b.generation.toNat)]

def Write.pick : Except PickFailure Pick → Json
  | .ok p => .obj [("id", .str p.id), ("type", .str p.kind.tag), ("index", Write.nat p.index),
      ("part", Write.int p.part), ("byte_offset", Write.int p.byteOffset),
      ("position", Write.vec3 p.position)]
  | .error .fault => Write.panic
  | .error e => Write.failure "ErrPickOffsetOutOfRange" e.message

/-- Where an id is found in a packed buffer, and its bytes. -/
def findAnswer (b : PackedBuffer) (id : String) : Json :=
  match b.find? id with
  | none => .null
  | some (k, i) =>
    match b.instanceOffset? k i, b.pickOffset? k i, b.instance? k i with
    | some off, some po, some inst =>
      .obj [("type", .str k.tag), ("index", Write.nat i), ("offset", Write.int off),
        ("pick_offset", Write.nat po), ("instance", Write.hex inst)]
    | _, _, _ => Write.panic

def bufferReport (b : PackedBuffer) (j : Json) : List (String × Json) :=
  [("serialized", Write.packedBuffer b),
    ("validate", match b.validate with
      | .ok () => .null
      | .error e => .str e.message),
    ("len", Write.nat b.size),
    ("picks", .arr ((items j "picks").map fun p =>
      Write.pick (b.resolvePick (int p "offset") (vec3 p "mouse")))),
    ("find", .arr ((texts j "find").map (findAnswer b)))]

def serializeAnswer (j : Json) : Json :=
  let as := (items j "annotations").map annotationOf
  let b := PackedBuffer.build (byKind as) (uint64 j "generation")
  .obj (bufferReport b j ++
    [("region_sizes", .arr (Kind.all.map fun k => Write.int (b.regionSize k)))])

def serializedAnswer (j : Json) : Json :=
  .obj (bufferReport (packedBufferOf (field j "serialized")) j)

end AnnotationStore.Service
