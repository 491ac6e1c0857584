/-!
# Kinds of annotation

Six kinds, numbered 0 to 5 in this order: point, line, axis-aligned bounding box,
ellipsoid, polygon and line string. Each has a tag, its name in text, which `parse?` reads
back exactly (`parse?_tag`). A number that names no kind is written `Type(n)`. The first
four kinds have a fixed packed size; polygons and line strings pack one vertex per 12 bytes.
-/

namespace AnnotationStore

inductive Kind where
  | point
  | line
  | box
  | ellipsoid
  | polygon
  | lineString
  deriving DecidableEq, Repr, Inhabited

namespace Kind

/-- All kinds, in number order. -/
def all : List Kind := [.point, .line, .box, .ellipsoid, .polygon, .lineString]

def index : Kind → Nat
  | .point => 0
  | .line => 1
  | .box => 2
  | .ellipsoid => 3
  | .polygon => 4
  | .lineString => 5

def ofIndex? : Nat → Option Kind
  | 0 => some .point
  | 1 => some .line
  | 2 => some .box
  | 3 => some .ellipsoid
  | 4 => some .polygon
  | 5 => some .lineString
  | _ => none

def tag : Kind → String
  | .point => "point"
  | .line => "line"
  | .box => "axis_aligned_bounding_box"
  | .ellipsoid => "ellipsoid"
  | .polygon => "polygon"
  | .lineString => "line_string"

/-- The kind with a tag, matched exactly. -/
def parse? (s : String) : Option Kind := all.find? (·.tag == s)

/-- The text of a kind number: its tag, or `Type(n)`. -/
def nameOf (n : Nat) : String :=
  match ofIndex? n with
  | some k => k.tag
  | none => "Type(" ++ toString n ++ ")"

/-- Whether every instance packs to the same number of bytes. -/
def fixedSize : Kind → Bool
  | .polygon | .lineString => false
  | _ => true

/-- Packed bytes per instance (fixed kinds) or per vertex (polylines). -/
def stride : Kind → Nat
  | .point | .polygon | .lineString => 12
  | _ => 24

/-- Whether a polyline closes back to its first vertex. -/
def closed : Kind → Bool
  | .polygon => true
  | _ => false

/-- The fewest points a polyline of this kind needs. -/
def minPoints : Kind → Nat
  | .polygon => 3
  | _ => 2

@[simp] theorem ofIndex?_index (k : Kind) : ofIndex? k.index = some k := by
  cases k <;> rfl

theorem parse?_tag (k : Kind) : parse? k.tag = some k := by
  cases k <;> decide

theorem index_lt (k : Kind) : k.index < 6 := by
  cases k <;> decide

end Kind

end AnnotationStore
