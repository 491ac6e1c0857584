import AnnotationStore.Service.StoreAnswers
import AnnotationStore.Service.Snapshots
import AnnotationStore.Service.Buffers
import AnnotationStore.Service.Drawing
/-!
# The session program

A scripted run of one store with its snapshots in a blob store, references held under
names, a visible segment set, drawing layers, a separate memoized packing and a separate
snapshot manager. Each step is answered with the events it caused, the generation after
it, the device commands and (when asked for) the log records, and its result or error.

Events are what listeners registered by the script hear, in order: the source's own
signals, the change signals of the references the script has seen, the visible set's
change signal and each layer's redraw request (layers are numbered from 1 in the order
they were made). The script's listeners were registered before any layer's.
-/

namespace AnnotationStore.Service

open Read

structure Session where
  store : Store
  blobs : BlobStore
  codec : Codec
  logging : Bool := false
  vis : VisibleSet := {}
  /-- Reference cells held under names. -/
  handles : List (String × Nat) := []
  /-- Reference cells whose changes the script listens to. -/
  seen : List Nat := []
  /-- Layers in the order they were made. -/
  layers : Array Layer := #[]
  /-- The layer the script works with. -/
  slot : Option Nat := none
  memo : Memo := {}
  manager : Option Snapshot.Manager := none
  nextPick : Int := 0

structure StepOut where
  reply : Except Json Json := .ok .null
  events : List String := []
  gpu : List GpuEvent := []
  logs : List Log.Record := []

namespace Session

def source (s : Session) : Source := s.store.source

def withSource (s : Session) (src : Source) : Session := { s with store := { s.store with source := src } }

/-- The redraw events of the live layers that satisfy `p`, in the order they were made. -/
def redraws (s : Session) (p : Layer → Bool) : List String :=
  (s.layers.toList.zipIdx.filter fun (l, _) => !l.disposed && p l).map fun (_, i) =>
    "redraw:" ++ toString (i + 1)

def heard (s : Session) (ns : List Notice) : List String :=
  ns.flatMap fun
    | .changed => "changed" :: s.redraws fun _ => true
    | .added id => ["added:" ++ id]
    | .updated id => ["updated:" ++ id]
    | .deleted id => ["deleted:" ++ id]
    | .committed id => ["committed:" ++ id]
    | .refChanged c =>
      if s.seen.contains c then ["ref_changed:" ++ ((s.source.cell? c).map (·.id)).getD ""] else []

/-- Tells listeners the visible set changed: with their filter on, linked layers drop
their packing. -/
def visibilityChanged (s : Session) : Session × List String :=
  let events := "seg_changed" :: s.redraws (·.segmented)
  let layers := s.layers.map fun l => if !l.disposed && l.segmented then l.visibilityChanged else l
  ({ s with layers }, events)

/-- Holds a cell under a name and listens to it. -/
def hold (s : Session) (name : String) (c : Nat) : Session :=
  { s with
    handles := (name, c) :: s.handles.filter (·.1 != name)
    seen := if s.seen.contains c then s.seen else s.seen ++ [c] }

def cellOf (s : Session) (j : Json) : Option Nat := s.handles.lookup (text j "ref")

def refAnswer (s : Session) (c : Nat) : Json :=
  match s.source.cell? c with
  | some r => Write.refInfo r
  | none => .null

def finish {α : Type} (s : Session) (o : StoreOutcome (Except StoreError α)) (write : α → Json) :
    Session × StepOut :=
  let s := { s with store := o.store }
  (s, { reply := (o.result.map write).mapError Write.storeError
        events := s.heard o.notices
        logs := o.logs })

end Session

/-- The annotation of a step's `ann`, absent when null. -/
def annOf (j : Json) : Option Annotation :=
  match field j "ann" with
  | .null => none
  | a => some (annotationOf a)


namespace Session

def mutate (s : Session) (j : Json) (op : String) : Session × StepOut :=
  match op, s.cellOf j with
  | "add", _ =>
    let o := s.store.add (annOf j) (flag j "commit" true)
    let name := if has j "as" then text j "as" else text (field j "ann") "id"
    let s := { s with store := o.store }
    match o.result with
    | .ok c =>
      let s := s.hold name c
      (s, { reply := .ok (s.refAnswer c), events := s.heard o.notices, logs := o.logs })
    | .error e => (s, { reply := .error (Write.storeError e), events := s.heard o.notices, logs := o.logs })
  | "commit", some c =>
    let o := s.store.commit c
    let s := { s with store := o.store }
    (s, { events := s.heard o.notices, logs := o.logs })
  | "update", some c => s.finish (s.store.update c (annOf j)) fun _ => .null
  | "delete", some c => s.finish (s.store.delete c (flag j "nullify")) fun _ => .null
  | "reference", _ =>
    let id := text j "id"
    let (c, src) := s.source.reference id
    let s := (s.withSource src).hold (if has j "as" then text j "as" else id) c
    (s, { reply := .ok (s.refAnswer c) })
  | "retain", some c => (s.withSource (s.source.retain c), {})
  | "dispose", some c => (s.withSource (s.source.dispose c), {})
  | "ref_info", some c => (s, { reply := .ok (s.refAnswer c) })
  | _, _ => (s, { reply := .error Write.panic })

def query (s : Session) (j : Json) (op : String) : Session × StepOut :=
  let src := s.source
  let reply : Except Json Json := match op with
    | "get" => (s.store.get (text j "id")).map Write.annotation |>.mapError Write.storeError
    | "is_pending" => .ok (.bool (src.isPending (text j "id")))
    | "len" => .ok (Write.nat src.len)
    | "all" =>
      if has j "limit" then .ok (Write.int (max 0 (min (int j "limit") src.len)))
      else .ok (.arr (src.ids.map Json.str))
    | "size_range" => .ok (Write.sizeRange src.sizeRange)
    | "for_segment" => .ok (.arr ((src.forSegment (uint64 j "segment")).map Json.str))
    | "by_type" => .ok (.arr (Kind.all.map fun k => .arr ((src.byKind k).map fun a => .str a.id)))
    | "has_segment" =>
      .ok (Write.opt (fun (a : Annotation) => .bool (a.hasSegment (uint64 j "segment"))) (src.get? (text j "id")))
    | _ =>
      match PlainJson.marshalList? (codecOf j) src.toPersistable with
      | some t => .ok (.str t)
      | none => .error (Write.bare "library")
  (s, { reply })

def payloadOf (j : Json) : String :=
  if has j "payload_hex" then Utf8.decodeKeeping (bytes j "payload_hex") else text j "payload"

/-- Entries as the standard codec decodes a payload; `null` is no entries. -/
def plainEntries (payload : String) : Option (List Plain) :=
  match Codec.json.parse? payload with
  | some .null => some []
  | some (.arr xs) => xs.mapM (PlainJson.read? .json)
  | _ => none

def persist (s : Session) (j : Json) (op : String) : Session × StepOut :=
  let cancelled := flag j "cancelled"
  let name := text j "name"
  match op with
  | "clear" =>
    let o := s.store.source.clear
    let s := s.withSource o.source
    (s, { events := s.heard o.notices })
  | "restore" => s.finish (s.store.restoreState (payloadOf j)) Write.restoreResult
  | "restore_with" =>
    let c := if has j "codec" then codecOf j else s.source.codec
    let o := s.source.restoreWith c (payloadOf j)
    let s := s.withSource o.source
    (s, { reply := (o.result.map Write.restoreResult).mapError Write.storeError
          events := s.heard o.notices
          logs := o.logs })
  | "restore_plain" =>
    match plainEntries (payloadOf j) with
    | some es =>
      let o := s.source.restore es
      let s := s.withSource o.source
      (s, { reply := .ok (Write.restoreResult o.result), events := s.heard o.notices, logs := o.logs })
    | none => (s, { reply := .error (Write.bare "decode") })
  | "save" =>
    let o := s.store.save s.blobs cancelled name
    let s := { s with store := o.store, blobs := (o.result.toOption).getD s.blobs }
    (s, { reply := (o.result.map fun _ => Json.null).mapError Write.storeError, logs := o.logs })
  | "load" => s.finish (s.store.load s.blobs cancelled name) Write.restoreResult
  | "snapshots" =>
    let names := (s.store.snapshots s.blobs cancelled).map fun ns => Json.arr (ns.map Json.str)
    (s, { reply := names.mapError Write.storeError })
  | "put_blob" =>
    match s.blobs.put cancelled name (bytes j "hex") with
    | .ok b => ({ s with blobs := b }, {})
    | .error e => (s, { reply := .error (Write.storeError e) })
  | "get_blob" =>
    (s, { reply := ((s.blobs.read cancelled name).map Write.snapshotRead).mapError Write.storeError })
  | "list_blobs" =>
    let names := (s.blobs.list cancelled (text j "prefix")).map fun ns => Json.arr (ns.map Json.str)
    (s, { reply := names.mapError Write.storeError })
  | _ => ({ s with store := s.store.close }, {})

def managed (s : Session) (j : Json) (op : String) : Session × StepOut :=
  let cancelled := flag j "cancelled"
  let name := text j "name"
  let fail (e : StoreError) : Session × StepOut := (s, { reply := .error (Write.storeError e) })
  match op, s.manager with
  | "pm_new", _ =>
    let c := if has j "codec" then codecOf j else s.codec
    match Snapshot.Manager.make (flag j "store" true) (text j "prefix") c (methodCode j) with
    | .ok m => ({ s with manager := some m }, {})
    | .error e => fail e
  | "pm_save", some m =>
    match (m.save s.blobs cancelled name s.source).1 with
    | .ok b => ({ s with blobs := b }, {})
    | .error e => fail e
  | "pm_load", some m =>
    let o := m.load s.blobs cancelled name s.source
    let s := s.withSource o.source
    (s, { reply := (o.result.map Write.restoreResult).mapError Write.storeError
          events := s.heard o.notices
          logs := o.logs })
  | "pm_list", some m =>
    let names := (m.list s.blobs cancelled).map fun ns => Json.arr (ns.map Json.str)
    (s, { reply := names.mapError Write.storeError })
  | "pm_delete", some m =>
    match m.delete s.blobs cancelled name with
    | .ok b => ({ s with blobs := b }, {})
    | .error e => fail e
  | "pm_close", some m => ({ s with manager := some { m with closed := true } }, {})
  | _, _ => (s, { reply := .error Write.panic })

def memoAnswer (m : Memo) : Json :=
  .obj [("builds", Write.nat m.builds), ("data", Write.opt Write.packedBuffer m.buffer?)]

def packing (s : Session) (j : Json) (op : String) : Session × StepOut :=
  match op with
  | "serialize" =>
    let o := s.store.serialize
    ({ s with store := o.store }, { reply := .ok (Write.packedBuffer o.result), logs := o.logs })
  | "pick" =>
    let o := s.store.serialize
    let r := o.result.resolvePick (int j "offset") (vec3 j "mouse")
    let reply : Except Json Json := match r with
      | .ok _ => .ok (Write.pick r)
      | .error (.outOfRange o t) => .error (Write.storeError (.pick (.outOfRange o t)))
      | .error .fault => .error Write.panic
    ({ s with store := o.store }, { reply, logs := o.logs })
  | "buffer_update" =>
    let (memo, _) := s.memo.update s.source s.vis
    ({ s with memo }, { reply := .ok (memoAnswer memo) })
  | "buffer_current" => (s, { reply := .ok (memoAnswer s.memo) })
  | "buffer_filter" => ({ s with memo := s.memo.setFilter (flag j "enabled") }, {})
  | _ => ({ s with memo := s.memo.invalidate }, {})

def segments (s : Session) (j : Json) (op : String) : Session × StepOut :=
  let (vis, changed, r) := visibleStep s.vis j op
  let s := { s with vis }
  if changed then let (s, events) := s.visibilityChanged; (s, { events, reply := .ok r })
  else (s, { reply := .ok r })

def slotRedraw (i : Nat) : List String := ["redraw:" ++ toString (i + 1)]

def layered (s : Session) (j : Json) (op : String) : Session × StepOut :=
  match op with
  | "layer_new" =>
    let o := layerOptionsOf j
    let l := Layer.make o.label o.style o.segmented o.filter
    ({ s with layers := s.layers.push l, slot := some s.layers.size }, {})
  | _ =>
    match s.slot with
    | none => (s, { reply := .error Write.panic })
    | some i =>
      let l := s.layers.getD i {}
      let put (l : Layer) : Session := { s with layers := s.layers.set! i l }
      let live := !l.disposed
      match op with
      | "layer_draw" =>
        let (l, nextPick, gpu, logs) := l.draw s.source s.vis s.nextPick
        ({ put l with nextPick }, { gpu, logs })
      | "layer_hover" =>
        let cell := if has j "ref" then s.cellOf j else none
        let (l, src) := l.setHover s.source cell (int j "part")
        let s := (put l).withSource src
        (s, { events := if live then slotRedraw i else [] })
      | "layer_select" =>
        let (l, changed) := l.setSelected (text j "id")
        (put l, { events := if changed && live then slotRedraw i else [] })
      | "layer_filter" =>
        match l.setFilter (flag j "enabled" true) with
        | .ok (l, changed) => (put l, { events := if changed && live then slotRedraw i else [] })
        | .error e => (s, { reply := .error (Write.storeError e) })
      | "layer_data" => (s, { reply := .ok (Write.opt Write.packedBuffer l.data) })
      | "layer_dispose" =>
        let (l, src, gpu) := l.dispose s.source
        ((put l).withSource src, { gpu })
      | _ =>
        let (r, logs) := pickAnswer j l.data
        (s, { reply := .ok r, logs })

def step (s : Session) (j : Json) : Session × StepOut :=
  let op := text j "do"
  if ["add", "commit", "update", "delete", "reference", "retain", "dispose", "ref_info"].contains op then
    s.mutate j op
  else if ["get", "is_pending", "len", "all", "size_range", "for_segment", "by_type", "has_segment",
      "to_persistable"].contains op then s.query j op
  else if ["clear", "restore", "restore_with", "restore_plain", "save", "load", "snapshots",
      "put_blob", "get_blob", "list_blobs", "close"].contains op then s.persist j op
  else if op.startsWith "pm_" then s.managed j op
  else if ["serialize", "pick", "buffer_update", "buffer_current", "buffer_filter",
      "buffer_invalidate"].contains op then s.packing j op
  else if op.startsWith "seg_" then s.segments j op
  else if op.startsWith "layer_" then s.layered j op
  else if op == "metrics" then (s, { reply := .ok (Write.metrics s.store.metrics) })
  else (s, { reply := .error (Write.bare "library") })

def answer (s : Session) (o : StepOut) : Json :=
  let common := [("events", Json.arr (o.events.map Json.str)), ("gen", Write.nat s.source.generation)] ++
    (if o.gpu.isEmpty then [] else [("gpu", .arr (o.gpu.map Write.gpuEvent))]) ++
    (if s.logging && !o.logs.isEmpty then [("logs", .arr (o.logs.map Write.logRecord))] else [])
  match o.reply with
  | .ok r => .obj (common ++ [("result", r)])
  | .error e => Write.extend e common

def run : List Json → Session → List Json
  | [], _ => []
  | j :: rest, s => let (s, o) := s.step j; s.answer o :: run rest s

end Session

def metricsOf (j : Json) : Metrics :=
  match text j "metrics" with
  | "basic" => .basic {}
  | "prometheus" => .labelled {}
  | _ => .none

def sessionAnswer (j : Json) : Json :=
  let codec := codecOf j
  let compression := if has j "compression" then methodCode j else 2
  let blobs : BlobStore := if text j "blob_store" == "local" then .files {} else .emptyMemory
  let manager := if flag j "persistence" true then
      (Snapshot.Manager.make true (text j "prefix") codec compression).map some
    else .ok none
  match manager with
  | .error e => Write.storeError e
  | .ok manager =>
    let s : Session :=
      { store := { source := { codec }, manager, metrics := metricsOf j }, blobs, codec,
        logging := match field j "log" with
          | .bool true => true
          | _ => false }
    .obj [("steps", .arr (Session.run (items j "steps") s))]

end AnnotationStore.Service
