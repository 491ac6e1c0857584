import AnnotationStore.Render.Layer
import AnnotationStore.Chunk.Manager
import AnnotationStore.Chunk.Key
/-!
# Layers of chunks

A chunked layer draws chunks that a chunk manager delivers instead of packing a source
itself. Each chunk gets a device buffer of its own, labelled with the layer's label, a slash
and the key.

Drawing first decides the keys: with the segment filter on, the chunk of each visible
segment class (`segment/<id>`, ascending), otherwise the keys asked for. It then asks the
manager for exactly those keys, and draws each one whose chunk is cached, in order (a key
given twice is drawn twice): the device buffer is made on first use and the chunk uploaded
when a newer chunk arrived since the last upload. It reports whether every chunk was
there. A disposed layer draws nothing and reports false.

When a chunk arrives the layer marks its buffer stale and asks for a redraw; when a chunk
is pushed out of the cache the layer destroys its buffer. Hovering always asks for a
redraw, selecting and filtering when they change something, and a change of visibility when
the filter is on. A filter asked for without segments is off.
-/

namespace AnnotationStore

/-- A layer drawing delivered chunks. -/
structure ChunkedLayer where
  label : String := "annotations"
  style : Style := {}
  /-- Whether the layer is linked to the visible segments. -/
  segmented : Bool := false
  filter : Bool := false
  /-- The keys with a device buffer, in the order the buffers were made, and whether the
  buffer holds the last chunk that arrived. -/
  buffers : List (String × Bool) := []
  hoverId : String := ""
  hoverPart : Int := 0
  selected : String := ""
  disposed : Bool := false

namespace ChunkedLayer

def make (label : String) (style : Style) (segmented filter : Bool) : ChunkedLayer :=
  { label, style, segmented, filter := filter && segmented }

def bufferLabel (l : ChunkedLayer) (key : String) : String := l.label ++ "/" ++ key

def keys (l : ChunkedLayer) (vis : VisibleSet) (spatial : List String) : List String :=
  if l.filter then vis.visible.map ChunkKey.segment else spatial

/-- Draws the chunk of one key if it is cached. Gives the layer, the manager, the next
free pick id, whether the chunk was there, and the commands. -/
def drawKey (l : ChunkedLayer) (m : Chunk.Manager) (nextPick : Int) (key : String) :
    ChunkedLayer × Chunk.Manager × Int × Bool × List GpuEvent :=
  let (got, m) := m.chunk key
  match got with
  | none => (l, m, nextPick, false, [])
  | some b =>
    let label := l.bufferLabel key
    let (l, create) := match l.buffers.lookup key with
      | some _ => (l, [])
      | none => ({ l with buffers := l.buffers ++ [(key, false)] }, [GpuEvent.createBuffer label])
    let (l, upload) :=
      if l.buffers.lookup key == some true then (l, [])
      else
        ({ l with buffers := l.buffers.map fun (k, v) => (k, if k == key then true else v) },
          [GpuEvent.upload label b.data])
    let hl : Highlight := { hover := some (l.hoverId, l.hoverPart), selected := l.selected }
    let (nextPick, draws) := drawBuffer l.style label b hl nextPick
    (l, m, nextPick, true, create ++ upload ++ draws)

/-- Draws the chunks of the keys asked for. Gives the layer, the manager, the fetches the
request started, the next free pick id, whether every chunk was there, and the commands. -/
def draw (l : ChunkedLayer) (m : Chunk.Manager) (vis : VisibleSet) (spatial : List String)
    (nextPick : Int) :
    ChunkedLayer × Chunk.Manager × List (String × Nat) × Int × Bool × List GpuEvent :=
  if l.disposed then (l, m, [], nextPick, false, [])
  else
    let keys := l.keys vis spatial
    let (m, starts) := m.request keys
    let (l, m, nextPick, ready, events) := keys.foldl (fun (l, m, pick, ready, events) k =>
        let (l, m, pick, there, more) := l.drawKey m pick k
        (l, m, pick, ready && there, events ++ more))
      (l, m, nextPick, true, ([] : List GpuEvent))
    (l, m, starts, nextPick, ready, events)

/-- What the arrival of a key's chunk does: its buffer, if any, becomes stale. -/
def chunkArrived (l : ChunkedLayer) (key : String) : ChunkedLayer :=
  { l with buffers := l.buffers.map fun (k, v) => (k, if k == key then false else v) }

/-- What the eviction of a key's chunk does: its buffer, if any, is destroyed. -/
def chunkEvicted (l : ChunkedLayer) (key : String) : ChunkedLayer × List GpuEvent :=
  match l.buffers.lookup key with
  | some _ => ({ l with buffers := l.buffers.filter (·.1 != key) }, [.destroy (l.bufferLabel key)])
  | none => (l, [])

/-- What an announcement of the manager does to the layer: an arrival marks the key's buffer
stale and an eviction destroys it. A disposed layer no longer listens. -/
def hear (l : ChunkedLayer) : Chunk.Event → ChunkedLayer × List GpuEvent
  | .evicted k => if l.disposed then (l, []) else l.chunkEvicted k
  | .ready k => if l.disposed then (l, []) else (l.chunkArrived k, [])

/-- Hovers part of an annotation by id; an empty id hovers nothing. -/
def setHover (l : ChunkedLayer) (id : String) (part : Int) : ChunkedLayer :=
  { l with hoverId := id, hoverPart := part }

/-- Selects an id; gives whether it changed. -/
def setSelected (l : ChunkedLayer) (id : String) : ChunkedLayer × Bool :=
  if id = l.selected then (l, false) else ({ l with selected := id }, true)

/-- Turns the segment filter on or off; gives whether it changed. -/
def setFilter (l : ChunkedLayer) (on : Bool) : Except StoreError (ChunkedLayer × Bool) :=
  if on && !l.segmented then .error .noSegmentation
  else if on = l.filter then .ok (l, false)
  else .ok ({ l with filter := on }, true)

/-- Destroys every buffer, in the order of their labels, and stops listening. -/
def dispose (l : ChunkedLayer) : ChunkedLayer × List GpuEvent :=
  if l.disposed then (l, [])
  else
    let labels := (l.buffers.map fun (k, _) => l.bufferLabel k).mergeSort (· ≤ ·)
    ({ l with disposed := true, buffers := [] }, labels.map .destroy)

end ChunkedLayer

end AnnotationStore
