import AnnotationStore.Buffer.Basic
import AnnotationStore.Annotation.Packing

/-!
# Packing annotations into a buffer

`PackedBuffer.build` packs a list of annotations per kind: each list is sorted by id
(bytewise, keeping the given order of equal ids), regions follow each other in kind order,
and each instance records its id, packed size, pick count and label.
-/

namespace AnnotationStore

/-- Sorts annotations by id, keeping the order of equal ids. -/
def sortById (as : List Annotation) : List Annotation :=
  as.mergeSort fun a b => decide (a.id ≤ b.id)

/-- The region of a sorted list of annotations of one kind, starting at `offset`. -/
def regionOf (offset : Nat) (as : List Annotation) : Region :=
  { ids := as.map Annotation.id, offset, sizes := as.map fun a => a.shape.packedSize,
    picks := as.map fun a => a.shape.pickCount,
    pickCount := ((as.map fun a => a.shape.pickCount).foldr (· + ·) 0 : Nat),
    labels := some (as.map fun a => a.info.annType) }

/-- Regions and bytes for the kinds in order, from `offset` on. -/
def packRegions (byKind : Kind → List Annotation) :
    List Kind → Nat → List (Kind × Region) × List UInt8
  | [], _ => ([], [])
  | k :: ks, offset =>
    let sorted := sortById (byKind k)
    let bytes := sorted.flatMap fun a => a.shape.packedBytes
    let (rest, restBytes) := packRegions byKind ks (offset + bytes.length)
    ((k, regionOf offset sorted) :: rest, bytes ++ restBytes)

def PackedBuffer.build (byKind : Kind → List Annotation) (generation : UInt64 := 0) :
    PackedBuffer :=
  let (regions, bytes) := packRegions byKind Kind.all 0
  let region (k : Kind) : Region := ((regions.find? (·.1 == k)).map (·.2)).getD {}
  { data := ⟨bytes.toArray⟩, regions := region,
    totalPicks := ((regions.map fun (_, r) => r.pickCount).foldr (· + ·) 0), generation }

/-- Groups annotations by kind, keeping their order. -/
def byKind (as : List Annotation) (k : Kind) : List Annotation := as.filter (·.kind == k)

end AnnotationStore
