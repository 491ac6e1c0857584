import AnnotationStore.Annotation.Kind
import AnnotationStore.Geometry.Vec3

/-!
# Annotations

An annotation is descriptive data (`Info`: id, description, category label, review and
visit flags, the segments it lists, an optional size) together with a `Shape`, whose
constructor is its kind: a point, a line, an axis-aligned box given by two corners, an
ellipsoid given by centre and radii, or a polygon or line string given by its vertices.
-/

namespace AnnotationStore

abbrev SegmentId := UInt64

/-- The descriptive data of an annotation. -/
structure Info where
  id : String := ""
  description : String := ""
  annType : String := ""
  reviewed : Bool := false
  visited : Bool := false
  segments : List SegmentId := []
  size : Option Float := none
  deriving Inhabited

/-- The geometry of an annotation; the constructor is its kind. -/
inductive Shape where
  | point (p : Vec3)
  | line (a b : Vec3)
  | box (a b : Vec3)
  | ellipsoid (center radii : Vec3)
  | polygon (points : List Vec3)
  | lineString (points : List Vec3)
  deriving Inhabited

def Shape.kind : Shape → Kind
  | .point .. => .point
  | .line .. => .line
  | .box .. => .box
  | .ellipsoid .. => .ellipsoid
  | .polygon .. => .polygon
  | .lineString .. => .lineString

structure Annotation where
  info : Info
  shape : Shape
  deriving Inhabited

namespace Annotation

def id (a : Annotation) : String := a.info.id

def kind (a : Annotation) : Kind := a.shape.kind

/-- The same annotation under another id. -/
def withId (a : Annotation) (id : String) : Annotation := { a with info := { a.info with id } }

def hasSegment (a : Annotation) (s : SegmentId) : Bool := a.info.segments.contains s

@[simp] theorem id_withId (a : Annotation) (i : String) : (a.withId i).id = i := rfl

@[simp] theorem kind_withId (a : Annotation) (i : String) : (a.withId i).kind = a.kind := rfl

end Annotation

end AnnotationStore
