import AnnotationStore.Service.ChunkFetcher
import AnnotationStore.Service.Drawing
import AnnotationStore.Render.Chunked
/-!
# The chunks program

A scripted viewer of chunks: a chunk manager, optionally fetching from a memory blob store,
a visible segment set and chunked layers. Each step is answered with the events it caused,
its result or error, and the device commands it issued.

Events are what listeners hear, in the order they were registered: the script listens to
the manager's ready and evicted announcements and to the visible set's changes before any
layer exists, and each layer, numbered from 1 in the order they were made, asks for redraws
after that. Fetches are taken to finish as soon as they start, so their deliveries are
queued in the order the fetches started. When asked, every answer also counts the
deliveries so far.
-/

namespace AnnotationStore.Service

open Read

structure Viewer where
  manager : Chunk.Manager
  fetcher : Option Chunk.Fetcher := none
  vis : VisibleSet := {}
  /-- Layers in the order they were made. -/
  layers : Array ChunkedLayer := #[]
  /-- The layer the script works with. -/
  slot : Option Nat := none
  nextPick : Int := 0
  /-- Whether answers count the deliveries. -/
  counting : Bool := false

structure ViewerOut where
  reply : Except Json Json := .ok .null
  events : List String := []
  gpu : List GpuEvent := []

namespace Viewer

/-- Runs the fetches of tickets and queues what they deliver. Without a fetcher nothing
is fetched. -/
def startFetches (v : Viewer) (starts : List (String × Nat)) : Viewer :=
  match v.fetcher with
  | none => v
  | some f =>
    let manager := starts.foldl (fun m (k, t) =>
      let delivery := match f.fetch false k with
        | .ok b => Chunk.Delivery.chunk b
        | .error e => .failed e.message
      m.deliver ⟨k, t, delivery⟩) v.manager
    { v with manager }

/-- Asks the manager for keys and runs the fetches that starts. -/
def request (v : Viewer) (keys : List String) : Viewer :=
  let (manager, starts) := v.manager.request keys
  { v with manager }.startFetches starts

/-- The redraw events of the live layers that satisfy `p`, in the order they were made. -/
def redraws (v : Viewer) (p : ChunkedLayer → Bool) : List String :=
  (v.layers.toList.zipIdx.filter fun (l, _) => !l.disposed && p l).map fun (_, i) =>
    "redraw:" ++ toString (i + 1)

def hear (v : Viewer) (e : Chunk.Event) : Viewer × List String × List GpuEvent :=
  match e with
  | .evicted k =>
    let (layers, gpu) := v.layers.foldl (fun (ls, gpu) l =>
        let (l, more) := l.hear e; (ls.push l, gpu ++ more))
      (#[], ([] : List GpuEvent))
    ({ v with layers }, ["evicted:" ++ k], gpu)
  | .ready k =>
    let events := ("ready:" ++ k) :: v.redraws fun _ => true
    let layers := v.layers.map fun l => (l.hear e).1
    ({ v with layers }, events, [])

def hearAll (v : Viewer) (es : List Chunk.Event) : Viewer × List String × List GpuEvent :=
  es.foldl (fun (v, events, gpu) e =>
    let (v, more, moreGpu) := v.hear e
    (v, events ++ more, gpu ++ moreGpu)) (v, [], [])

def managed (v : Viewer) (j : Json) (op : String) : Viewer × ViewerOut :=
  let m := v.manager
  let withFetcher (act : Chunk.Fetcher → Except StoreError Chunk.Fetcher) : Viewer × ViewerOut :=
    match v.fetcher with
    | none => (v, { reply := .error Write.panic })
    | some f =>
      match act f with
      | .ok f => ({ v with fetcher := some f }, {})
      | .error e => (v, { reply := .error (Write.storeError e) })
  match op with
  | "request" => (v.request (texts j "keys"), {})
  | "pending" =>
    (v, { reply := .ok (.arr (m.pending.map fun (k, t) =>
      .obj [("key", .str k), ("ticket", Write.nat t)])) })
  | "deliver" =>
    let key := text j "key"
    let ticket := match field j "ticket" with
      | .str "pending" => m.pendingTicket key
      | t => (uint64Of t).toNat
    let delivery : Chunk.Delivery :=
      if has j "fail" then .failed (text j "fail")
      else if flag j "nil" then .nothing
      else .chunk (requestedBuffer j)
    ({ v with manager := m.deliver ⟨key, ticket, delivery⟩ }, { reply := .ok (Write.nat ticket) })
  | "flush" =>
    let (manager, applied, es) := m.flush
    let (v, events, gpu) := { v with manager }.hearAll es
    (v, { reply := .ok (Write.nat applied), events, gpu })
  | "chunk" =>
    let (b, manager) := m.chunk (text j "key")
    ({ v with manager }, { reply := .ok (Write.opt Write.packedBuffer b) })
  | "is_ready" => (v, { reply := .ok (.bool (m.isReady (texts j "keys"))) })
  | "dropped" => (v, { reply := .ok (Write.nat m.dropped) })
  | "memory" => (v, { reply := .ok (Write.int m.memory) })
  | "publish" => withFetcher fun f => f.publish false (text j "key") (requestedBuffer j)
  | "put_blob" => withFetcher fun f => f.putBlob false (text j "name") (bytes j "hex")
  | "wait" => (v, {})
  | _ => (v, { reply := .error (Write.bare "library") })

def slotRedraw (i : Nat) : List String := ["redraw:" ++ toString (i + 1)]

def layered (v : Viewer) (j : Json) (op : String) : Viewer × ViewerOut :=
  match op with
  | "layer_new" =>
    let o := layerOptionsOf j
    let l := ChunkedLayer.make o.label o.style o.segmented o.filter
    ({ v with layers := v.layers.push l, slot := some v.layers.size }, {})
  | _ =>
    match v.slot with
    | none => (v, { reply := .error Write.panic })
    | some i =>
      let l := v.layers.getD i {}
      let put (l : ChunkedLayer) : Viewer := { v with layers := v.layers.set! i l }
      match op with
      | "layer_keys" => (v, { reply := .ok (Write.names (l.keys v.vis (texts j "keys"))) })
      | "layer_draw" =>
        let (l, manager, starts, nextPick, ready, gpu) :=
          l.draw v.manager v.vis (texts j "keys") v.nextPick
        let v := { put l with manager, nextPick }
        (v.startFetches starts, { reply := .ok (.bool ready), gpu })
      | "layer_hover" => (put (l.setHover (text j "id") (int j "part")), { events := slotRedraw i })
      | "layer_select" =>
        let (l, changed) := l.setSelected (text j "id")
        (put l, { events := if changed then slotRedraw i else [] })
      | "layer_filter" =>
        match l.setFilter (flag j "enabled" true) with
        | .ok (l, changed) => (put l, { events := if changed then slotRedraw i else [] })
        | .error e => (v, { reply := .error (Write.storeError e) })
      | "layer_pick" =>
        let (b, manager) := v.manager.chunk (text j "key")
        ({ v with manager }, { reply := .ok (pickAnswer j b).1 })
      | "layer_dispose" =>
        let (l, gpu) := l.dispose
        (put l, { gpu })
      | _ => (v, { reply := .error (Write.bare "library") })

def step (v : Viewer) (j : Json) : Viewer × ViewerOut :=
  let op := text j "do"
  if op.startsWith "seg_" then
    let (vis, changed, r) := visibleStep v.vis j op
    let v := { v with vis }
    let events := if changed then "seg_changed" :: v.redraws fun l => l.segmented && l.filter else []
    (v, { reply := .ok r, events })
  else if op.startsWith "layer_" then v.layered j op
  else v.managed j op

def answer (v : Viewer) (o : ViewerOut) : Json :=
  let common := [("events", Json.arr (o.events.map Json.str))] ++
    (if o.gpu.isEmpty then [] else [("gpu", .arr (o.gpu.map Write.gpuEvent))]) ++
    (if v.counting then [("wakeups", Write.nat v.manager.deliveries)] else [])
  match o.reply with
  | .ok r => .obj (common ++ [("result", r)])
  | .error e => Write.extend e common

def run : List Json → Viewer → List Json
  | [], _ => []
  | j :: rest, v => let (v, o) := v.step j; v.answer o :: run rest v

end Viewer

def chunksAnswer (j : Json) : Json :=
  let controller := if has j "memory_limit" then
      some (Controller.make { memory := int j "memory_limit" }) else none
  let v : Viewer :=
    { manager := Chunk.Manager.make (int j "capacity") controller
      fetcher := if flag j "fetcher" then
          some { method := if has j "compression" then methodCode j else 1 } else none
      counting := flag j "wake" }
  .obj [("steps", .arr (Viewer.run (items j "steps") v))]

end AnnotationStore.Service
