import AnnotationStore.Annotation.Basic
/-!
# The segment index

For each segment, the ids of the stored annotations that list it, as the source keeps them
while annotations come and go. Linking an annotation puts its id under each segment it
lists; unlinking takes the id out again and drops a segment whose last id went, so a
segment is present exactly while some id is under it. An annotation may list a segment more
than once; its id still stands under it once.
-/

namespace AnnotationStore

/-- The ids under each segment. -/
abbrev SegmentIndex := List (SegmentId × List String)

namespace SegmentIndex

/-- The ids under a segment, none when it is absent. -/
def idsOf (idx : SegmentIndex) (g : SegmentId) : List String := (idx.lookup g).getD []

/-- Puts an id under a segment; an id already there stays once. -/
def link (idx : SegmentIndex) (g : SegmentId) (id : String) : SegmentIndex :=
  match idx.lookup g with
  | some ids =>
    if ids.contains id then idx
    else idx.map fun e => if e.1 == g then (g, ids ++ [id]) else e
  | none => idx ++ [(g, [id])]

/-- Takes an id from under a segment, dropping the segment when no id is left. -/
def unlink (idx : SegmentIndex) (g : SegmentId) (id : String) : SegmentIndex :=
  match idx.lookup g with
  | some ids =>
    let rest := ids.filter (· != id)
    if rest.isEmpty then idx.filter (·.1 != g)
    else idx.map fun e => if e.1 == g then (g, rest) else e
  | none => idx

/-- Links an annotation under each segment it lists. -/
def index (idx : SegmentIndex) (a : Annotation) : SegmentIndex :=
  a.info.segments.foldl (fun idx g => idx.link g a.id) idx

/-- Unlinks an annotation from each segment it lists. -/
def unindex (idx : SegmentIndex) (a : Annotation) : SegmentIndex :=
  a.info.segments.foldl (fun idx g => idx.unlink g a.id) idx

/-- The index of a list of annotations, built from nothing. -/
def build (as : List Annotation) : SegmentIndex := as.foldl index []

end SegmentIndex

end AnnotationStore
