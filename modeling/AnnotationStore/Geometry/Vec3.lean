/-!
# Points in space

Coordinates are binary32 numbers and every operation rounds after each step, in the order
written; nothing is fused. `Coord.min` and `Coord.max` order `-0` below `+0` and return NaN
when either side is NaN. `closestOnSegment` and `projectOntoEllipsoid` are the two
snapping rules that the annotation kinds use.
-/

namespace AnnotationStore

/-- A point or direction with binary32 coordinates. -/
structure Vec3 where
  x : Float32
  y : Float32
  z : Float32
  deriving Inhabited

namespace Coord

def signBit (a : Float32) : Bool := a.toBits >>> 31 == 1

/-- The lesser of two coordinates: NaN if either is NaN, `-0` if either zero is `-0`. -/
def min (a b : Float32) : Float32 :=
  if b.isNaN || b < a then b
  else if a.isNaN || a < b || a != 0 then a
  else if signBit a || signBit b then -0 else 0

/-- The greater of two coordinates: NaN if either is NaN, `+0` unless both zeros are `-0`. -/
def max (a b : Float32) : Float32 :=
  if b.isNaN || b > a then b
  else if a.isNaN || a > b || a != 0 then a
  else if signBit a && signBit b then -0 else 0

def isFinite (a : Float32) : Bool := !(a.isNaN || a.isInf)

end Coord

namespace Vec3

/-- The point with coordinates given by a list of exactly three. -/
def ofList? : List Float32 → Option Vec3
  | [x, y, z] => some ⟨x, y, z⟩
  | _ => none

def toList (v : Vec3) : List Float32 := [v.x, v.y, v.z]

def zip (f : Float32 → Float32 → Float32) (a b : Vec3) : Vec3 :=
  ⟨f a.x b.x, f a.y b.y, f a.z b.z⟩

def add (a b : Vec3) : Vec3 := zip (· + ·) a b

def sub (a b : Vec3) : Vec3 := zip (· - ·) a b

def scale (a : Vec3) (s : Float32) : Vec3 := ⟨a.x * s, a.y * s, a.z * s⟩

/-- The dot product, summed from the first coordinate. -/
def dot (a b : Vec3) : Float32 := a.x * b.x + a.y * b.y + a.z * b.z

def min (a b : Vec3) : Vec3 := zip Coord.min a b

def max (a b : Vec3) : Vec3 := zip Coord.max a b

def isFinite (v : Vec3) : Bool := Coord.isFinite v.x && Coord.isFinite v.y && Coord.isFinite v.z

end Vec3

/-- The point of segment `[a, b]` nearest to `p`: the projection parameter is clamped to
`[0, 1]`, and a zero-length segment gives `a`. -/
def closestOnSegment (a b p : Vec3) : Vec3 :=
  let d := b.sub a
  let l2 := d.dot d
  if l2 == 0 then a
  else
    let t := (p.sub a).dot d / l2
    let t := Coord.min (Coord.max t 0) 1
    a.add (d.scale t)

/-- One coordinate of the normalised offset: `(p - c) / r`, or `0` for a zero radius. -/
def unitOffset (p c r : Float32) : Float32 :=
  if r == 0 then 0 else (p - c) / r

/-- The point where the ray from the centre towards `p` meets the ellipsoid surface, in
the space scaled by the radii; the centre itself when `p` is the centre. The length is
taken in binary64 and rounded back. -/
def projectOntoEllipsoid (center radii p : Vec3) : Vec3 :=
  let n : Vec3 := ⟨unitOffset p.x center.x radii.x, unitOffset p.y center.y radii.y,
    unitOffset p.z center.z radii.z⟩
  let l := (n.dot n).toFloat.sqrt.toFloat32
  if l == 0 then center
  else ⟨center.x + radii.x * n.x / l, center.y + radii.y * n.y / l, center.z + radii.z * n.z / l⟩

end AnnotationStore
