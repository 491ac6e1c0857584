import AnnotationStore.Annotation.Basic
import AnnotationStore.Annotation.Segment

/-!
# The plain form

The plain form is the persisted shape of an annotation: the kind as its tag, segment ids
as pairs of decimal words, and geometry as coordinate lists under keys named by the kind
(`point`; `pointA` and `pointB`; `center` and `radii`; `points`). Keys of other kinds are
ignored when reading.

`Plain.toAnnotation` checks, in this order: the tag names a kind; each geometry key of the
kind holds exactly three finite coordinates (polylines first need enough points, then each
point is checked); no ellipsoid radius is below zero (`-0` passes); every segment pair
reads as two 32-bit words. The first failure is reported. An empty id is replaced by the
fresh id given.
-/

namespace AnnotationStore

structure Plain where
  id : String := ""
  tag : String := ""
  description : String := ""
  annType : String := ""
  reviewed : Bool := false
  visited : Bool := false
  segments : List (String × String) := []
  size : Option Float := none
  point : List Float32 := []
  pointA : List Float32 := []
  pointB : List Float32 := []
  center : List Float32 := []
  radii : List Float32 := []
  points : List (List Float32) := []
  deriving Inhabited

namespace Plain

/-- A point read from a coordinate list of the named field. -/
def vec3 (field : String) (cs : List Float32) : Except Malformed Vec3 :=
  match Vec3.ofList? cs with
  | none =>
    let n := cs.length
    .error (.atField field ("expected 3 coordinates, got " ++ toString n))
  | some v => if v.isFinite then .ok v else .error (.atField field "non-finite coordinate")

/-- The vertices of a polyline that needs at least `least` of them. -/
def vertices (least : Nat) (pts : List (List Float32)) : Except Malformed (List Vec3) :=
  if pts.length < least then
    let n := pts.length
    .error (.atField "points"
      ("expected at least " ++ toString least ++ " points, got " ++ toString n))
  else pts.mapM (vec3 "points")

def negative (r : Float32) : Bool := r < 0

def shape (p : Plain) : Kind → Except Malformed Shape
  | .point => return .point (← vec3 "point" p.point)
  | .line => return .line (← vec3 "pointA" p.pointA) (← vec3 "pointB" p.pointB)
  | .box => return .box (← vec3 "pointA" p.pointA) (← vec3 "pointB" p.pointB)
  | .ellipsoid => do
    let c ← vec3 "center" p.center
    let r ← vec3 "radii" p.radii
    if negative r.x || negative r.y || negative r.z then
      .error (.atField "radii" "negative radius")
    else pure (.ellipsoid c r)
  | .polygon => return .polygon (← vertices Kind.polygon.minPoints p.points)
  | .lineString => return .lineString (← vertices Kind.lineString.minPoints p.points)

def kind (p : Plain) : Except Malformed Kind :=
  match Kind.parse? p.tag with
  | some k => .ok k
  | none => .error (.atField "type" (Quote.quote p.tag))

/-- Builds the annotation; an empty id becomes `fresh`. -/
def toAnnotation (p : Plain) (fresh : String) : Except Malformed Annotation := do
  let k ← p.kind
  let s ← p.shape k
  let segs ← p.segments.mapM Segment.decode
  pure ⟨{ id := if p.id.isEmpty then fresh else p.id, description := p.description,
          annType := p.annType, reviewed := p.reviewed, visited := p.visited,
          segments := segs, size := p.size }, s⟩

end Plain

def Annotation.toPlain (a : Annotation) : Plain :=
  let base : Plain :=
    { id := a.info.id, tag := a.kind.tag, description := a.info.description,
      annType := a.info.annType, reviewed := a.info.reviewed, visited := a.info.visited,
      segments := a.info.segments.map Segment.encode, size := a.info.size }
  match a.shape with
  | .point p => { base with point := p.toList }
  | .line x y | .box x y => { base with pointA := x.toList, pointB := y.toList }
  | .ellipsoid c r => { base with center := c.toList, radii := r.toList }
  | .polygon ps | .lineString ps => { base with points := ps.map Vec3.toList }

end AnnotationStore
