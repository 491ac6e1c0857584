import AnnotationStore.Json.Basic
import AnnotationStore.Number.Text
import AnnotationStore.Annotation.Basic
import AnnotationStore.Annotation.Malformed
import AnnotationStore.Bytes.Hex

/-!
# Writing answers

Answers are JSON objects. Binary32 and binary64 numbers are written as their shortest
general text, non-finite values as the strings `NaN`, `+Inf` and `-Inf`; segment ids and
other 64-bit counters as decimal strings; byte strings as lowercase hexadecimal. An error
is an object with its kind under `error` and its text under `message`.
-/

namespace AnnotationStore.Service.Write

def nat (n : Nat) : Json := .num (toString n)

def int (n : Int) : Json := .num (toString n)

def float (x : Float) : Json :=
  if x.isNaN ∨ x.isInf then .str (FloatText.ofFloat x) else .num (FloatText.ofFloat x)

def float32 (x : Float32) : Json :=
  if x.isNaN ∨ x.isInf then .str (FloatText.ofFloat32 x) else .num (FloatText.ofFloat32 x)

def vec3 (v : Vec3) : Json := .arr [float32 v.x, float32 v.y, float32 v.z]

/-- A 64-bit counter as a decimal string. -/
def decimal (n : Nat) : Json := .str (toString n)

def hex (b : ByteArray) : Json := .str (Hex.encode b)

/-- An optional value, `null` when absent. -/
def opt {α : Type} (f : α → Json) : Option α → Json
  | some a => f a
  | none => .null

def failure (kind message : String) : Json := .obj [("error", .str kind), ("message", .str message)]

def bare (kind : String) : Json := .obj [("error", .str kind)]

/-- The answer for a failure inside the library that has no error value. -/
def panic : Json := bare "panic"

def geometry : Shape → List (String × Json)
  | .point p => [("point", vec3 p)]
  | .line a b | .box a b => [("pointA", vec3 a), ("pointB", vec3 b)]
  | .ellipsoid c r => [("center", vec3 c), ("radii", vec3 r)]
  | .polygon ps | .lineString ps => [("points", .arr (ps.map vec3))]

def annotation (a : Annotation) : Json :=
  .obj ([("type", .str a.kind.tag), ("id", .str a.info.id),
    ("description", .str a.info.description), ("anntype", .str a.info.annType),
    ("reviewed", .bool a.info.reviewed), ("visited", .bool a.info.visited),
    ("segments", .arr (a.info.segments.map fun s => decimal s.toNat)),
    ("size", opt float a.info.size)] ++ geometry a.shape)

def malformed (e : Malformed) : Json :=
  .obj [("error", .str "ErrMalformed"), ("index", int e.index), ("field", .str e.field),
    ("reason", .str e.reason), ("message", .str e.message)]

def extend (j : Json) (ms : List (String × Json)) : Json :=
  match j with
  | .obj xs => .obj (xs ++ ms)
  | j => j

end AnnotationStore.Service.Write
