import AnnotationStore.Buffer.Basic
import AnnotationStore.Annotation.Snap

/-!
# Resolving picks

A pick id read back from the screen is an offset into the pick ids of a packed buffer:
regions in kind order, instances in region order, parts within an instance. `resolvePick`
walks the metadata to the instance and part the offset falls on, and snaps the pointer to
that part. An offset below zero or past the last pick id is out of range; so is one that
falls on metadata that runs out or points past the bytes. `PickFailure.fault` is a read the
metadata makes impossible (a negative byte offset, an instance too short for its kind, or an
end past the largest 64-bit integer, which wraps below zero and so passes the length check).

Offsets and pick counts are 64-bit integers. Skipping a region subtracts its pick count, which
metadata from elsewhere may give negative, so the offset may pass the largest integer and
wrap to the negatives (`sub64`); a part is then negative. Byte offsets are summed exactly: an
end that passes the largest integer faults at once, and a sum of sizes could wrap all the way
round only after `2 ^ 31` instances.
-/

namespace AnnotationStore

structure Pick where
  id : String
  kind : Kind
  index : Nat
  part : Int
  byteOffset : Int
  position : Vec3

inductive PickFailure where
  | outOfRange (offset total : Int)
  | fault
  deriving DecidableEq, Repr

def PickFailure.message : PickFailure → String
  | .outOfRange o t => "pick offset " ++ toString o ++ " out of range [0, " ++ toString t ++ ")"
  | .fault => "fault"

def maxInt64 : Int := 2 ^ 63 - 1

/-- The difference `x - y`, `y ≤ x`, of a 64-bit `x`: past the largest 64-bit integer it wraps
around to the negatives. A value beyond the 64-bit range keeps the exact difference. -/
def sub64 (x y : Int) : Int := if x ≤ maxInt64 ∧ maxInt64 < x - y then x - y - 2 ^ 64 else x - y

/-- Walks the instances of a region from instance `i` at byte `byteOff`, with `off` pick ids
still to skip. -/
def walkInstances (b : PackedBuffer) (k : Kind) (mouse : Vec3) (miss : PickFailure) :
    List Nat → Nat → Int → Int → Except PickFailure Pick
  | [], _, _, _ => .error miss
  | p :: ps, i, off, byteOff =>
    let r := b.regions k
    match r.sizes[i]?, r.ids[i]? with
    | some size, some id =>
      -- `0 ≤ p ≤ off`: the difference stays within 64 bits
      if off ≥ p then walkInstances b k mouse miss ps (i + 1) (off - p) (byteOff + size)
      else if byteOff + size > b.data.size then
        if byteOff + size > maxInt64 then .error .fault else .error miss
      else if byteOff < 0 then .error .fault
      else
        let inst := b.data.extract byteOff.toNat (byteOff.toNat + size)
        match k.snap? inst off mouse with
        | some pos => .ok ⟨id, k, i, off, byteOff, pos⟩
        | none => .error .fault
    | _, _ => .error miss

/-- Walks the regions from the first of `ks`, with `off` pick ids still to skip. -/
def walkRegions (b : PackedBuffer) (mouse : Vec3) (miss : PickFailure) :
    List Kind → Int → Except PickFailure Pick
  | [], _ => .error miss
  | k :: ks, off =>
    let r := b.regions k
    if off ≥ r.pickCount then walkRegions b mouse miss ks (sub64 off r.pickCount)
    else walkInstances b k mouse miss r.picks 0 off r.offset

/-- The instance and part a pick offset falls on, and the snapped pointer. -/
def PackedBuffer.resolvePick (b : PackedBuffer) (offset : Int) (mouse : Vec3) :
    Except PickFailure Pick :=
  let miss := PickFailure.outOfRange offset b.totalPicks
  if offset < 0 then .error miss else walkRegions b mouse miss Kind.all offset

end AnnotationStore
