import AnnotationStore.Service.Request
import AnnotationStore.Service.Answer
import AnnotationStore.Render.Layer
/-!
# Requests about drawing

What the programs that draw have in common: the options of a new layer, steps on the visible
segment set, and the pointer after a pick.

A step on the visible set gives the new set, whether it changed (which is when listeners
hear of it) and its result; steps that change the set have no result of their own.
-/

namespace AnnotationStore.Service

open Read

def colorOf (j : Json) (dflt : Color) : Color :=
  match j with
  | .arr [r, g, b, a] => ⟨floatOf r, floatOf g, floatOf b, floatOf a⟩
  | _ => dflt

/-- A style from a step, starting from the default style. -/
def styleOf (j : Json) : Style :=
  let d : Style := {}
  match j with
  | .obj _ =>
    { default := colorOf (field j "default") d.default
      highlight := colorOf (field j "highlight") d.highlight
      byLabel := match field j "by_anntype" with
        | .obj ms => ms.map fun (k, v) => (k, colorOf v d.default)
        | _ => []
      pointSize := if has j "point_size" then float32Of (field j "point_size") else d.pointSize
      lineWidth := if has j "line_width" then float32Of (field j "line_width") else d.lineWidth }
  | _ => d

structure LayerOptions where
  label : String
  style : Style
  segmented : Bool
  filter : Bool

/-- The options a step gives for a new layer; buffers are labelled `annotations` unless
the step names a label. -/
def layerOptionsOf (j : Json) : LayerOptions :=
  { label := if has j "label" then text j "label" else "annotations"
    style := styleOf (field j "style")
    segmented := flag j "segmentation"
    filter := flag j "filter" }

def segmentsOf (j : Json) (k : String) : List SegmentId := (items j k).map uint64Of

/-- A step on the visible set: the new set, whether it changed, and the result. -/
def visibleStep (v : VisibleSet) (j : Json) (op : String) : VisibleSet × Bool × Json :=
  let change (r : VisibleSet × Bool) : VisibleSet × Bool × Json := (r.1, r.2, .null)
  match op with
  | "seg_show" => change (v.perform (.reveal (segmentsOf j "ids")))
  | "seg_hide" => change (v.perform (.hide (segmentsOf j "ids")))
  | "seg_set" => change (v.perform (.setVisible (segmentsOf j "ids")))
  | "seg_merge" => change (v.perform (.merge (uint64 j "a") (uint64 j "b")))
  | "seg_reset" => change (v.perform .resetEquivalences)
  | "seg_clear" => change (v.perform .clear)
  | "seg_canonical" =>
    let (w, c) := v.query (uint64 j "id")
    (w, false, Write.decimal c.toNat)
  | "seg_visible" =>
    let (w, shown) := v.queryVisible (uint64 j "id")
    (w, false, .bool shown)
  | "seg_state" =>
    (v, false, .obj [("visible", .arr (v.visible.map fun x => Write.decimal x.toNat)),
      ("len", Write.nat v.len)])
  | _ => (v, false, .arr ((v.visible.take (nat j "n")).map fun x => Write.decimal x.toNat))

def Write.mouse (m : MouseState) : List (String × Json) :=
  match m.picked with
  | some p =>
    [("picked", .bool true), ("position", Write.vec3 m.position), ("id", .str p.id),
      ("type", .str p.kind.tag), ("part", Write.int p.part), ("buffer_offset", Write.int p.byteOffset),
      ("layer_is_self", .bool true)]
  | none => [("picked", .bool false), ("position", Write.vec3 m.position)]

/-- The answer of a pick from a pointer position and a picked offset, with the cleared
pointer when the step asks for it. -/
def pickAnswer (j : Json) (b : Option PackedBuffer) : Json × List Log.Record :=
  let m : MouseState := { position := vec3 j "mouse" }
  let (m, logs) := updateMouse m b (int j "offset")
  let cleared := if flag j "then_clear" then
      [("cleared", Json.obj (Write.mouse { position := m.position }))] else []
  (.obj (Write.mouse m ++ cleared), logs)

end AnnotationStore.Service
