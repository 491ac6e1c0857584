import AnnotationStore.Annotation.Basic
/-!
# The size range

The least and greatest finite size among the stored annotations, as the source keeps it. A
size takes part when it is present, not NaN and not infinite. Bounds are taken with the
minimum and maximum of binary64 values, where negative zero is below positive zero. While no
size takes part the bounds are the two infinities.

The source widens the range when an annotation comes and rescans when one goes. When one is
replaced it rescans only if the replaced size equalled a bound, and otherwise widens the
range by the new size.
-/

namespace AnnotationStore

/-- The kept size range: its bounds, and whether some size defines them. -/
structure SizeRange where
  bounds : Float × Float := (-(1 / 0), 1 / 0)
  hasSize : Bool := false

namespace SizeRange

def negZero (x : Float) : Bool := x == 0 && x.toBits != 0

/-- The lesser of two numbers; of two zeros, the negative one. -/
def lesser (a b : Float) : Float :=
  if a < b then a else if b < a then b else if negZero b then b else a

/-- The greater of two numbers; of two zeros, the positive one. -/
def greater (a b : Float) : Float :=
  if a < b then b else if b < a then a else if negZero a then b else a

/-- The size of an annotation when it takes part in the range. -/
def finiteSize (a : Annotation) : Option Float :=
  match a.info.size with
  | some x => if x.isNaN || x.isInf then none else some x
  | none => none

/-- Widens the range by an annotation's size, when it takes part. -/
def extend (r : SizeRange) (a : Annotation) : SizeRange :=
  match finiteSize a with
  | some x =>
    if r.hasSize then { bounds := (lesser r.bounds.1 x, greater r.bounds.2 x), hasSize := true }
    else { bounds := (x, x), hasSize := true }
  | none => r

/-- The range of a list of annotations, by a full scan. -/
def recompute (as : List Annotation) : SizeRange := as.foldl extend {}

/-- The range after `old` was replaced by `a`, giving the annotations `as`: a rescan when the
old size equalled a bound, else the range widened by the new size. -/
def replace (r : SizeRange) (old a : Annotation) (as : List Annotation) : SizeRange :=
  match old.info.size with
  | some x => if x == r.bounds.1 || x == r.bounds.2 then recompute as else r.extend a
  | none => r.extend a

end SizeRange

end AnnotationStore
