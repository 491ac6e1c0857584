import AnnotationStore.Store.Source
import AnnotationStore.Buffer.Build
import AnnotationStore.Segment.Visibility
/-!
# Memoized packing

A memo keeps the packed buffer of a source and packs again only when the source's
generation moved on or the memo was invalidated. Each packing is a new buffer, numbered by
how many packings the memo has done, so a reader can tell a new buffer from an old one even
when their bytes agree.

With the segment filter on, only annotations linked to a visible segment class are packed;
the classes are those of the visible set at the time of packing.
-/

namespace AnnotationStore

/-- The memoized packed buffer of a source. -/
structure Memo where
  /-- Whether only annotations on visible segments are packed. -/
  segmentFilter : Bool := false
  /-- The last packing and its number. -/
  current : Option (Nat × PackedBuffer) := none
  builtAt : Nat := 0
  valid : Bool := false
  builds : Nat := 0

namespace Memo

/-- Whether an annotation is packed under the filter. -/
def keeps (m : Memo) (vis : VisibleSet) (a : Annotation) : Bool :=
  !m.segmentFilter || a.info.segments.any vis.isVisible

/-- Sets the filter; the next update packs again. -/
def setFilter (m : Memo) (on : Bool) : Memo := { m with segmentFilter := on, valid := false }

/-- Makes the next update pack again. -/
def invalidate (m : Memo) : Memo := { m with valid := false }

/-- Packs the source. Gives the memo and the log record of the packing. -/
def pack (m : Memo) (s : Source) (vis : VisibleSet) : Memo × Option Log.Record :=
  let b := PackedBuffer.build (fun k => (s.byKind k).filter (m.keeps vis)) s.generation.toUInt64
  let log := Log.debug "annotation buffer rebuilt" [("generation", .wide s.generation),
    ("count", .int b.size), ("bytes", .int b.data.size), ("pick_ids", .int b.totalPicks)]
  let m := { m with
    current := some (m.builds + 1, b)
    builtAt := s.generation
    valid := true
    builds := m.builds + 1 }
  (m, some log)

/-- The packed buffer of the source now, packing again if needed. Gives the memo and the
log record of a packing, if one was done. -/
def update (m : Memo) (s : Source) (vis : VisibleSet) : Memo × Option Log.Record :=
  match m.current with
  | some _ => if m.valid ∧ s.generation = m.builtAt then (m, none) else m.pack s vis
  | none => m.pack s vis

def buffer? (m : Memo) : Option PackedBuffer := m.current.map (·.2)

end Memo

end AnnotationStore
