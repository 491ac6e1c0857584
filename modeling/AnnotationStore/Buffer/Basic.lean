import AnnotationStore.Annotation.Kind

/-!
# Packed buffers

A packed buffer holds many annotations in one byte string, as six regions, one per kind
in kind order. A region lists, per instance, the id, the packed byte size, the number of
pick ids and optionally a category label, and records where the region starts and how
many pick ids it takes in total. The metadata may come from elsewhere and need not agree
with the bytes; `validate` (in `Buffer.Validate`) checks that it does.

The lookups are what a renderer needs: where an instance starts (`instanceOffset?`),
its bytes (`instance?`), where its pick ids start within the region (`pickOffset?`), and
the position of an id in a region by binary search (`indexOf`), which is exact on sorted
regions. A lookup that would read outside the metadata or the bytes is `none`.
-/

namespace AnnotationStore

/-- The instances of one kind in a packed buffer. -/
structure Region where
  ids : List String := []
  offset : Int := 0
  sizes : List Nat := []
  picks : List Nat := []
  pickCount : Int := 0
  /-- The category label of each instance, when labels are recorded. -/
  labels : Option (List String) := none
  deriving Inhabited

/-- Annotations packed into one byte string, in six regions. -/
structure PackedBuffer where
  data : ByteArray := .empty
  regions : Kind → Region := fun _ => {}
  totalPicks : Int := 0
  generation : UInt64 := 0
  deriving Inhabited

namespace Kind

/-- The kind after this one in number order. -/
def next? : Kind → Option Kind
  | .point => some .line
  | .line => some .box
  | .box => some .ellipsoid
  | .ellipsoid => some .polygon
  | .polygon => some .lineString
  | .lineString => none

end Kind

namespace PackedBuffer

def count (b : PackedBuffer) (k : Kind) : Nat := (b.regions k).ids.length

def size (b : PackedBuffer) : Nat := (Kind.all.map b.count).foldr (· + ·) 0

/-- The bytes between a region's start and the next region's start (or the end). -/
def regionSize (b : PackedBuffer) (k : Kind) : Int :=
  match k.next? with
  | some k' => (b.regions k').offset - (b.regions k).offset
  | none => (b.data.size : Int) - (b.regions k).offset

/-- Where instance `i` of a kind starts: the region start plus the sizes before it. -/
def instanceOffset? (b : PackedBuffer) (k : Kind) (i : Nat) : Option Int :=
  let r := b.regions k
  if i ≤ r.sizes.length then some (r.offset + ((r.sizes.take i).foldr (· + ·) 0 : Nat)) else none

def instance? (b : PackedBuffer) (k : Kind) (i : Nat) : Option ByteArray := do
  let off ← b.instanceOffset? k i
  let size ← (b.regions k).sizes[i]?
  if 0 ≤ off ∧ off + size ≤ b.data.size then
    some (b.data.extract off.toNat (off.toNat + size))
  else none

/-- The first pick id of instance `i` within its region. -/
def pickOffset? (b : PackedBuffer) (k : Kind) (i : Nat) : Option Nat :=
  let r := b.regions k
  if i ≤ r.picks.length then some ((r.picks.take i).foldr (· + ·) 0) else none

/-- Binary search for the first position in `[lo, hi)` whose id is not below `target`. -/
def lowerBound (ids : Array String) (target : String) (lo hi : Nat) : Nat :=
  if h : lo < hi then
    let mid := (lo + hi) / 2
    if ids.getD mid "" < target then lowerBound ids target (mid + 1) hi
    else lowerBound ids target lo mid
  else lo
termination_by hi - lo

/-- The position an id has, or would have, in a region, and whether it is there. -/
def indexOf (b : PackedBuffer) (k : Kind) (id : String) : Nat × Bool :=
  let ids := (b.regions k).ids.toArray
  let i := lowerBound ids id 0 ids.size
  (i, i < ids.size && ids.getD i "" == id)

/-- The first kind whose region holds an id, with the id's position. -/
def find? (b : PackedBuffer) (id : String) : Option (Kind × Nat) :=
  Kind.all.findSome? fun k =>
    let (i, found) := b.indexOf k id
    if found then some (k, i) else none

end PackedBuffer

end AnnotationStore
