import AnnotationStore.Annotation.Kind

/-!
# Vertex layouts

How a drawing pipeline reads packed instances. A fixed-size kind steps once per instance
and reads one three-coordinate attribute per packed point (two for a line, a box or an
ellipsoid); a polyline steps once per vertex and reads one attribute.
-/

namespace AnnotationStore

/-- How often the pipeline advances through a buffer. -/
inductive StepMode where
  | perInstance
  | perVertex
  deriving DecidableEq, Repr

def StepMode.name : StepMode → String
  | .perInstance => "Instance"
  | .perVertex => "Vertex"

/-- One attribute: three binary32 coordinates at an offset, bound to a shader location. -/
structure Attribute where
  offset : Nat
  location : Nat
  deriving DecidableEq, Repr

structure VertexLayout where
  arrayStride : Nat
  stepMode : StepMode
  attributes : List Attribute
  deriving DecidableEq, Repr

def Kind.vertexLayout (k : Kind) : VertexLayout :=
  if k.fixedSize then
    ⟨k.stride, .perInstance, (List.range (k.stride / 12)).map fun i => ⟨12 * i, i⟩⟩
  else ⟨k.stride, .perVertex, [⟨0, 0⟩]⟩

end AnnotationStore
