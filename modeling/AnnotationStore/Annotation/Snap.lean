import AnnotationStore.Annotation.Packing

/-!
# Snapping the pointer to an instance

Given the packed bytes of one instance, the part under the pointer and the pointer
position, `Kind.snap?` gives the point of the instance to snap to. A point snaps to
itself, a line to its nearest point, a box clamps the pointer into its corners, an ellipsoid
projects it onto its surface. Polyline parts count vertices first and then edges: a part
below the vertex count `n` is that vertex (a negative part is vertex 0); an edge index
`part - n` wraps around a closed polyline and is capped at the last edge of an open one;
an edge snaps to its nearest point. A polyline with no vertex leaves the pointer where it
is. `none` means a fixed kind was given fewer bytes than it packs to; polylines only read
whole vertices within the bytes.
-/

namespace AnnotationStore

def vertexAt? (b : ByteArray) (i : Nat) : Option Vec3 := Vec3.read? b (12 * i)

/-- The edge a polyline part names, given `n > 0` vertices and `part ≥ n`: wrapped for a
closed polyline, capped at `n - 2` for an open one (which is `-1` when `n = 1`). -/
def edgeIndex (closed : Bool) (n : Nat) (part : Int) : Int :=
  let e := part - n
  if closed then e % n else if e ≥ (n : Int) - 1 then (n : Int) - 2 else e

def snapPolyline (closed : Bool) (b : ByteArray) (part : Int) (mouse : Vec3) : Option Vec3 :=
  let n := b.size / 12
  if n = 0 then some mouse
  else if part < n then vertexAt? b (if part < 0 then 0 else part.toNat)
  else
    let e := edgeIndex closed n part
    if e < 0 then vertexAt? b 0
    else do
      let a ← vertexAt? b e.toNat
      let c ← vertexAt? b ((e.toNat + 1) % n)
      pure (closestOnSegment a c mouse)

/-- The position a part of an instance snaps the pointer to. -/
def Kind.snap? (k : Kind) (b : ByteArray) (part : Int) (mouse : Vec3) : Option Vec3 :=
  match k with
  | .point => Vec3.read? b 0
  | .line => return closestOnSegment (← Vec3.read? b 0) (← Vec3.read? b 12) mouse
  | .box => return (mouse.max (← Vec3.read? b 0)).min (← Vec3.read? b 12)
  | .ellipsoid => return projectOntoEllipsoid (← Vec3.read? b 0) (← Vec3.read? b 12) mouse
  | .polygon => snapPolyline true b part mouse
  | .lineString => snapPolyline false b part mouse

end AnnotationStore
