import AnnotationStore.Buffer.Basic
import AnnotationStore.Text.Quote

/-!
# Checking a packed buffer

`validate` checks the metadata of a packed buffer against itself and its bytes, region by
region in kind order, and reports the first fault: per-instance lists of different
lengths, a label list of the wrong length, ids out of order or repeated, a region that does
not start where the previous one ended, an instance size that is not the kind's fixed size
or not a whole number of vertices, a region pick count that is not the sum of its
instances', regions that do not cover the bytes exactly, and a total pick count that is not
the sum of the regions'.
-/

namespace AnnotationStore

/-- A fault in the metadata of a packed buffer. -/
inductive LayoutError where
  | lengths (k : Kind) (n : Nat)
  | labels (k : Kind) (labels n : Nat)
  | unsorted (k : Kind)
  | duplicate (k : Kind) (id : String)
  | regionOffset (k : Kind) (got want : Int)
  | instanceSize (k : Kind) (i size want : Nat)
  | notWhole (k : Kind) (i size stride : Nat)
  | pickCount (k : Kind) (got : Int) (want : Nat)
  | coverage (covered : Int) (data : Nat)
  | totalPicks (got : Int) (want : Int)
  deriving DecidableEq, Repr

def LayoutError.message : LayoutError → String
  | .lengths k n => "serialize: " ++ k.tag ++ ": metadata lengths differ from " ++ toString n ++ " ids"
  | .labels k l n => "serialize: " ++ k.tag ++ ": " ++ toString l ++ " labels for " ++ toString n ++ " ids"
  | .unsorted k => "serialize: " ++ k.tag ++ ": ids are not sorted"
  | .duplicate k id => "serialize: " ++ k.tag ++ ": duplicate id " ++ Quote.quote id
  | .regionOffset k g w =>
    "serialize: " ++ k.tag ++ ": region offset " ++ toString g ++ ", want " ++ toString w
  | .instanceSize k i s w =>
    "serialize: " ++ k.tag ++ "[" ++ toString i ++ "]: size " ++ toString s ++ ", want " ++ toString w
  | .notWhole k i s st =>
    "serialize: " ++ k.tag ++ "[" ++ toString i ++ "]: size " ++ toString s ++
      " is not a multiple of " ++ toString st
  | .pickCount k g w =>
    "serialize: " ++ k.tag ++ ": pick count " ++ toString g ++ ", want " ++ toString w
  | .coverage c d => "serialize: regions cover " ++ toString c ++ " bytes, data has " ++ toString d
  | .totalPicks g w => "serialize: total pick ids " ++ toString g ++ ", want " ++ toString w

def sortedIds : List String → Bool
  | a :: b :: rest => !(b < a) && sortedIds (b :: rest)
  | _ => true

/-- The first id equal to the one before it. -/
def repeatedId? : List String → Option String
  | a :: b :: rest => if a = b then some b else repeatedId? (b :: rest)
  | _ => none

/-- Checks the instance sizes of a region: the first size that is wrong for the kind. -/
def checkSizes (k : Kind) : Nat → List Nat → Except LayoutError Unit
  | _, [] => .ok ()
  | i, s :: rest =>
    if k.fixedSize ∧ s ≠ k.stride then .error (.instanceSize k i s k.stride)
    else if s % k.stride ≠ 0 then .error (.notWhole k i s k.stride)
    else checkSizes k (i + 1) rest

/-- Checks one region that should start at `off`; gives the end of its bytes and its pick ids. -/
def Region.check (r : Region) (k : Kind) (off : Int) : Except LayoutError (Int × Nat) := do
  let n := r.ids.length
  if r.sizes.length ≠ n ∨ r.picks.length ≠ n then throw (.lengths k n)
  match r.labels with
  | some ls => if ls.length ≠ n then throw (.labels k ls.length n)
  | none => pure ()
  if !sortedIds r.ids then throw (.unsorted k)
  match repeatedId? r.ids with
  | some id => throw (.duplicate k id)
  | none => pure ()
  if r.offset ≠ off then throw (.regionOffset k r.offset off)
  checkSizes k 0 r.sizes
  let picks : Nat := r.picks.foldr (· + ·) 0
  if r.pickCount ≠ picks then throw (.pickCount k r.pickCount picks)
  pure (off + (r.sizes.foldr (· + ·) 0 : Nat), picks)

/-- Checks the regions in order from offset `off`, with `total` pick ids so far. -/
def checkRegions (b : PackedBuffer) : List Kind → Int → Nat → Except LayoutError (Int × Nat)
  | [], off, total => .ok (off, total)
  | k :: ks, off, total => do
    let (off', picks) ← (b.regions k).check k off
    checkRegions b ks off' (total + picks)

/-- Checks all metadata of a packed buffer; the first fault found. -/
def PackedBuffer.validate (b : PackedBuffer) : Except LayoutError Unit := do
  let (off, total) ← checkRegions b Kind.all 0 0
  if off ≠ b.data.size then throw (.coverage off b.data.size)
  if b.totalPicks ≠ total then throw (.totalPicks b.totalPicks total)

end AnnotationStore
