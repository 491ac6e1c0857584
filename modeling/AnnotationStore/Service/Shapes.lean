import AnnotationStore.Service.Request
import AnnotationStore.Service.Answer
import AnnotationStore.Annotation.PlainJson
import AnnotationStore.Annotation.Snap
import AnnotationStore.Annotation.Id
import AnnotationStore.Render.Layout

/-!
# Requests about single annotations

Kinds and their layouts, segment words, the plain form in both codecs, packing, pick
counts and snapping.
-/

namespace AnnotationStore.Service

open Read

/-- The codec a request names, the default when it names none. -/
def codecOf (j : Json) : Codec := (Codec.byName? (text j "codec")).getD Codec.default

/-- A kind number as the library's 8-bit kind field holds it. -/
def kindNumber (j : Json) : Nat := (int j "type" % 256).toNat

def layoutAnswer (l : VertexLayout) : Json :=
  .obj [("array_stride", Write.nat l.arrayStride), ("step_mode", .str l.stepMode.name),
    ("attributes", .arr (l.attributes.map fun a =>
      .obj [("format", .str "Float32x3"), ("offset", Write.nat a.offset),
        ("location", Write.nat a.location)]))]

def typeInfo (j : Json) : Json :=
  let n := kindNumber j
  match Kind.ofIndex? n with
  | some k =>
    .obj [("string", .str k.tag), ("valid", .bool true), ("stride", Write.nat k.stride),
      ("fixed_size", .bool k.fixedSize), ("layout", layoutAnswer k.vertexLayout)]
  | none => .obj [("string", .str (Kind.nameOf n)), ("valid", .bool false)]

def parseType (j : Json) : Json :=
  .obj [("type", Write.opt (fun k => Write.nat (Kind.index k)) (Kind.parse? (text j "name")))]

/-- The tag of a kind number; no kind is a failure. -/
def handlerType (j : Json) : Json :=
  match Kind.ofIndex? (kindNumber j) with
  | some k => .obj [("type", .str k.tag)]
  | none => Write.panic

def segmentEncode (j : Json) : Json :=
  let (hi, lo) := Segment.encode (uint64 j "id")
  .obj [("parts", .arr [.str hi, .str lo])]

def segmentDecode (j : Json) : Json :=
  let ps := texts j "parts"
  match Segment.decode (ps.getD 0 "", ps.getD 1 "") with
  | .ok id => .obj [("id", Write.decimal id.toNat)]
  | .error e => Write.malformed e

/-- Builds an annotation from plain JSON text, then writes it back. -/
def fromPlain (j : Json) : Json :=
  let c := codecOf j
  match PlainJson.parse? c (text j "json") with
  | none => Write.bare "decode"
  | some p =>
    match p.toAnnotation (MintedId.ofCounter 0) with
    | .error e => Write.malformed e
    | .ok a =>
      match PlainJson.marshal? c a.toPlain with
      | some t => .obj [("annotation", Write.annotation a), ("plain_json", .str t)]
      | none => .obj [("annotation", Write.annotation a), ("marshal_error", .bool true)]

def toPlain (j : Json) : Json :=
  let a := annotationOf (field j "ann")
  match PlainJson.marshal? (codecOf j) a.toPlain with
  | some t => .obj [("plain_json", .str t)]
  | none => Write.bare "marshal"

/-- Packing, pick count, unpacking and snapping of one annotation. -/
def handler (j : Json) : Json :=
  let a := annotationOf (field j "ann")
  let packed := ByteArray.mk a.shape.packedBytes.toArray
  let unpacked := match a.kind.unpack? packed with
    | some s => .obj (Write.geometry s)
    | none => Write.panic
  let snaps := (items j "snaps").map fun s =>
    match a.kind.snap? packed (int s "part") (vec3 s "mouse") with
    | some v => Write.vec3 v
    | none => Write.panic
  .obj [("packed_size", Write.nat a.shape.packedSize), ("packed", Write.hex packed),
    ("pick_ids", Write.nat a.shape.pickCount), ("unpacked", unpacked), ("snaps", .arr snaps)]

def snap (j : Json) : Json :=
  match Kind.parse? (text j "type") with
  | none => Write.panic
  | some k =>
    match k.snap? (bytes j "instance") (int j "part") (vec3 j "mouse") with
    | some v => .obj [("position", Write.vec3 v)]
    | none => Write.panic

def withIndex (j : Json) : Json :=
  let i := int j "index"
  let answer (e : Malformed) (unwraps : Bool) : Json :=
    .obj [("index", Write.int e.index), ("field", .str e.field), ("reason", .str e.reason),
      ("message", .str e.message), ("unwraps_to_original", .bool unwraps)]
  match text j "kind" with
  | "malformed" =>
    let e := match ({ tag := text j "type" } : Plain).kind with
      | .error e => e
      | .ok _ => { reason := "" }
    answer (e.atIndex i) false
  | "plain" => answer { index := i, reason := text j "text" } true
  | _ => .obj [("result", .null)]

/-- A generic value written by a codec, and appended to bytes by the default codec. -/
def codecMarshal (j : Json) : Json :=
  let v := field j "value"
  match (codecOf j).marshal? v, Codec.goJson.marshal? v with
  | some t, some u =>
    .obj [("json", .str t), ("appended", Write.hex (bytes j "append_to" ++ u.toUTF8))]
  | _, _ => Write.bare "library"

end AnnotationStore.Service
