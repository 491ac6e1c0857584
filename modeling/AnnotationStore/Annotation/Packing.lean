import AnnotationStore.Annotation.Basic
import AnnotationStore.Bytes.LittleEndian

/-!
# Packed geometry

The packed form of a shape is a run of little-endian binary32 coordinates, three per
vertex: a point packs itself; a line its two ends; a box its lower and upper corner, taken
coordinate-wise with `Coord.min` and `Coord.max` (so the corners come out ordered whatever
order they were given in); an ellipsoid its centre and radii; a polyline its vertices.
`packedSize` is the byte count, `pickCount` the number of pick ids an instance takes: one
for a fixed kind, and for a polyline of `n > 0` vertices one per vertex plus one per edge
(`2n` closed, `2n - 1` open). `unpack?` reads a shape back from packed bytes.
-/

namespace AnnotationStore

/-- The little-endian bytes of the three coordinates. -/
def Vec3.bytes (v : Vec3) : List UInt8 :=
  [v.x, v.y, v.z].flatMap fun c => LittleEndian.toBytes 4 c.toBits.toNat

/-- The point held by the 12 bytes at `off`, if they lie within `b`. -/
def Vec3.read? (b : ByteArray) (off : Nat) : Option Vec3 := do
  let x ← LittleEndian.read? b off 4
  let y ← LittleEndian.read? b (off + 4) 4
  let z ← LittleEndian.read? b (off + 8) 4
  pure ⟨Float32.ofBits x.toUInt32, Float32.ofBits y.toUInt32, Float32.ofBits z.toUInt32⟩

namespace Shape

def packedVertices : Shape → List Vec3
  | .point p => [p]
  | .line a b => [a, b]
  | .box a b => [a.min b, a.max b]
  | .ellipsoid c r => [c, r]
  | .polygon ps | .lineString ps => ps

def packedBytes (s : Shape) : List UInt8 := s.packedVertices.flatMap Vec3.bytes

def packedSize : Shape → Nat
  | .point _ => 12
  | .line .. | .box .. | .ellipsoid .. => 24
  | .polygon ps | .lineString ps => 12 * ps.length

/-- The pick ids a polyline of `n` vertices takes. -/
def polylinePicks (closed : Bool) (n : Nat) : Nat :=
  if n = 0 then 0 else if closed then 2 * n else 2 * n - 1

def pickCount : Shape → Nat
  | .polygon ps => polylinePicks true ps.length
  | .lineString ps => polylinePicks false ps.length
  | _ => 1

@[simp] theorem length_bytes (v : Vec3) : v.bytes.length = 12 := by simp [Vec3.bytes]

theorem length_flatMap_bytes (ps : List Vec3) : (ps.flatMap Vec3.bytes).length = 12 * ps.length := by
  induction ps with
  | nil => rfl
  | cons v ps ih => simp [Vec3.bytes, ih]; omega

theorem length_packedBytes (s : Shape) : s.packedBytes.length = s.packedSize := by
  cases s <;> simp only [packedBytes, packedVertices, packedSize, length_flatMap_bytes] <;> simp

end Shape

/-- The vertices packed in the first `12 * n` bytes, `n` as many as fit. -/
def readVertices (b : ByteArray) : List Vec3 :=
  (List.range (b.size / 12)).filterMap fun i => Vec3.read? b (12 * i)

/-- Reads a shape of a kind back from packed bytes; fixed kinds need their full size. -/
def Kind.unpack? (k : Kind) (b : ByteArray) : Option Shape :=
  match k with
  | .point => (Vec3.read? b 0).map Shape.point
  | .line => return .line (← Vec3.read? b 0) (← Vec3.read? b 12)
  | .box => return .box (← Vec3.read? b 0) (← Vec3.read? b 12)
  | .ellipsoid => return .ellipsoid (← Vec3.read? b 0) (← Vec3.read? b 12)
  | .polygon => some (.polygon (readVertices b))
  | .lineString => some (.lineString (readVertices b))

end AnnotationStore
