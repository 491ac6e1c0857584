import AnnotationStore.Service.StoreAnswers
import AnnotationStore.Blob.Cached
import AnnotationStore.Blob.Remote
/-!
# The blob store programs

Scripted runs of blob stores: a block-cached memory store, a file store (optionally
block-cached) in a directory of its own, file mappings, and a remote store over a recorded
object service. Blobs opened by a script are kept under names and read, copied out or
closed by later steps.

Long data is shown by its length and its first and last 16 bytes. The directory the files
live in is shown as `<root>`, and the digits of a temporary file's name as `*`.
-/

namespace AnnotationStore.Service

open Read

inductive OpenBlob where
  | plain (b : Blob)
  | cached (b : CachedBlob)
  | remote (b : RemoteBlob)

namespace OpenBlob

/-- The size of the blob when it was opened. -/
def size : OpenBlob → Nat
  | .plain b => b.size
  | .cached b => b.size
  | .remote b => b.size

def close : OpenBlob → OpenBlob
  | .plain b => .plain b.close
  | .cached b => .cached b.close
  | .remote b => .remote b

/-- The whole content of a blob that holds it in memory; none for one that must be read. -/
def bytes? : OpenBlob → Option (Except StoreError ByteArray)
  | .plain b => some b.bytes
  | _ => none

end OpenBlob

inductive ScriptStore where
  | files (s : FileStore)
  | cached (s : CachingStore)
  | remote (s : RemoteStore)

namespace ScriptStore

def openBlob (st : ScriptStore) (cancelled : Bool) (name : String) : ScriptStore × Except StoreError OpenBlob :=
  match st with
  | .files s => (st, (s.openBlob cancelled name).map .plain)
  | .cached s => (st, (s.openBlob cancelled name).map .cached)
  | .remote s => let (s, r) := s.openBlob name; (.remote s, r.map .remote)

def put (st : ScriptStore) (cancelled : Bool) (name : String) (data : ByteArray) :
    ScriptStore × Except StoreError Unit :=
  match st with
  | .files s =>
    match s.put cancelled name data with
    | .ok s => (.files s, .ok ())
    | .error e => (st, .error e)
  | .cached s => let (s, r) := s.put cancelled name data; (.cached s, r)
  | .remote s => let (s, r) := s.put name data; (.remote s, r)

def delete (st : ScriptStore) (cancelled : Bool) (name : String) : ScriptStore × Except StoreError Unit :=
  match st with
  | .files s =>
    match s.delete cancelled name with
    | .ok s => (.files s, .ok ())
    | .error e => (st, .error e)
  | .cached s => let (s, r) := s.delete cancelled name; (.cached s, r)
  | .remote s => let (s, r) := s.delete name; (.remote s, r)

def list (st : ScriptStore) (cancelled : Bool) (pfx : String) : ScriptStore × Except StoreError (List String) :=
  match st with
  | .files s => (st, (BlobStore.files s).list cancelled pfx)
  | .cached s => (st, s.inner.list cancelled pfx)
  | .remote s => let (s, r) := s.list pfx; (.remote s, r)

/-- Reads from an open blob. A blob read through a cache or a service needs the store that
opened it; read elsewhere it fails. -/
def readAt (st : ScriptStore) (b : OpenBlob) (cancelled : Bool) (off : Int) (len : Nat) :
    ScriptStore × ReadOutcome :=
  match st, b with
  | _, .plain b => (st, b.readAt off len)
  | .cached s, .cached b =>
    let (r, cache) := b.readAt s.cache cancelled off len
    (.cached { s with cache }, r)
  | .remote s, .remote b =>
    let (svc, r) := b.readAt s.service cancelled off len
    (.remote { s with service := svc }, r)
  | _, _ => (st, .failure .library)

/-- The whole content of an open blob: copied out if it is in memory, else read from the
start; a read that stops short is an unexpected end. -/
def readBlob (st : ScriptStore) (b : OpenBlob) (cancelled : Bool) : ScriptStore × Except StoreError ByteArray :=
  match b.bytes? with
  | some r => (st, r)
  | none =>
    let (st, r) := st.readAt b cancelled 0 b.size
    match r.stop with
    | .failed e => (st, .error e)
    | _ =>
      if r.data.size = b.size then (st, .ok r.data)
      else (st, .error (.within ("short read " ++ toString r.data.size ++ " of " ++ toString b.size)
        .unexpectedEnd))

/-- Opens a blob, copies its content out and closes it. -/
def readAll (st : ScriptStore) (cancelled : Bool) (name : String) : ScriptStore × Except StoreError ByteArray :=
  match st.openBlob cancelled name with
  | (st, .error e) => (st, .error e)
  | (st, .ok b) =>
    match st.readBlob b cancelled with
    | (st, .ok d) => (st, .ok d)
    | (st, .error e) => (st, .error (.within ("read blob " ++ Quote.quote name) e))

def tree? : ScriptStore → Option FileTree
  | .files s => some s.tree
  | .cached { inner := .files s, .. } => some s.tree
  | _ => none

def withTree (st : ScriptStore) (t : FileTree) : ScriptStore :=
  match st with
  | .files s => .files { s with tree := t }
  | .cached c =>
    match c.inner with
    | .files s => .cached { c with inner := .files { s with tree := t } }
    | _ => st
  | _ => st

end ScriptStore

/-- The bytes a step writes: `hex`, or `len` copies of the byte `fill`. -/
def writtenBytes (j : Json) : ByteArray :=
  if has j "hex" then bytes j "hex"
  else ⟨Array.replicate (nat j "len") (int j "fill" % 256).toNat.toUInt8⟩

/-- Data as hexadecimal text, or for more than 64 bytes its length, first and last 16 bytes. -/
def Write.blobData (d : ByteArray) : Json :=
  if d.size ≤ 64 then Write.hex d
  else .obj [("len", Write.nat d.size), ("head", Write.hex (d.extract 0 16)),
    ("tail", Write.hex (d.extract (d.size - 16) d.size))]

def Write.readError (r : ReadOutcome) : List (String × Json) :=
  match r.error? with
  | some e => [("read_error", Write.storeError e)]
  | none => []

def Write.blobRead (r : ReadOutcome) : Json :=
  .obj ([("n", Write.nat r.data.size), ("data", Write.blobData r.data), ("eof", .bool r.atEnd)] ++
    Write.readError r)

def Write.stepResult {α : Type} (write : α → Json) : Except StoreError α → Json
  | .ok a => .obj [("result", write a)]
  | .error e => Write.storeError e

def Write.names (ns : List String) : Json := .arr (ns.map Json.str)

/-- The name of a temporary file with its digits hidden. -/
def maskTemporary (part : String) : String :=
  if part.startsWith ".tmp-" && part.length > 5 && (part.toList.drop 5).all Char.isDigit then ".tmp-*"
  else part

/-- The name a step gives an open blob: `blob`, else `name`. -/
def handleName (j : Json) : String := if has j "blob" then text j "blob" else text j "name"

/-- A scripted run over a store: the store and the blobs opened, by name. -/
structure BlobRun where
  store : ScriptStore
  handles : List (String × OpenBlob) := []

namespace BlobRun

/-- The steps on blobs common to the file and remote programs. -/
def common (r : BlobRun) (j : Json) : BlobRun × Json :=
  let cancelled := flag j "cancelled"
  let name := text j "name"
  let st := r.store
  match text j "do" with
  | "put" => let (st, x) := st.put cancelled name (writtenBytes j); ({ r with store := st }, Write.stepResult (fun _ => .null) x)
  | "delete" => let (st, x) := st.delete cancelled name; ({ r with store := st }, Write.stepResult (fun _ => .null) x)
  | "list" => let (st, x) := st.list cancelled (text j "prefix"); ({ r with store := st }, Write.stepResult Write.names x)
  | "read_all" => let (st, x) := st.readAll cancelled name; ({ r with store := st }, Write.stepResult Write.blobData x)
  | "open" =>
    match st.openBlob cancelled name with
    | (st, .ok b) =>
      let key := if has j "as" then text j "as" else name
      ({ store := st, handles := (key, b) :: r.handles.filter (·.1 != key) },
        .obj [("result", .obj [("size", Write.nat b.size)])])
    | (st, .error e) => ({ r with store := st }, Write.storeError e)
  | op =>
    let key := handleName j
    match r.handles.lookup key, op with
    | some b, "read" =>
      let (st, x) := st.readAt b cancelled (int j "off") (nat j "len")
      if int j "len" < 0 then (r, Write.panic) else ({ r with store := st }, .obj [("result", Write.blobRead x)])
    | some b, "read_blob" => let (st, x) := st.readBlob b cancelled; ({ r with store := st }, Write.stepResult Write.blobData x)
    | some b, "bytes" =>
      match b.bytes? with
      | none => (r, .obj [("result", .obj [("mappable", .bool false)])])
      | some (.ok d) => (r, .obj [("result", .obj [("mappable", .bool true), ("data", Write.blobData d)])])
      | some (.error e) => (r, Write.storeError e)
    | some b, "close" =>
      ({ r with handles := r.handles.map fun (k, h) => if k == key then (k, b.close) else (k, h) },
        .obj [("result", .null)])
    | _, _ => (r, Write.panic)

/-- A step of the file program: writing raw files and directories next to the store,
listing every file, or a common step. -/
def fileStep (r : BlobRun) (j : Json) : BlobRun × Json :=
  let path := FileTree.resolve [] (text j "path")
  match r.store.tree?, text j "do" with
  | some t, "write_file" =>
    match t.put path (writtenBytes j) with
    | .ok t => ({ r with store := r.store.withTree t }, .obj [("result", .null)])
    | .error e => (r, Write.storeError e)
  | some t, "mkdir" =>
    match t.makeDirs path with
    | .ok t => ({ r with store := r.store.withTree t }, .obj [("result", .null)])
    | .error e => (r, Write.storeError e)
  | some t, "files" =>
    let names := (t.filesBelow []).map fun p => "/".intercalate (p.map maskTemporary)
    (r, .obj [("result", Write.names (names.mergeSort (· ≤ ·)))])
  | _, _ => r.common j

def fileSteps : List Json → BlobRun → List Json
  | [], _ => []
  | j :: rest, r => let (r, a) := r.fileStep j; a :: fileSteps rest r

/-- Runs the remote program's steps; each answer lists the calls the step made, sorted. -/
def remoteSteps : List Json → BlobRun → List Json × BlobRun
  | [], r => ([], r)
  | j :: rest, r =>
    let r := match r.store with
      | .remote s => { r with store := .remote { s with service := { s.service with calls := [] } } }
      | _ => r
    let (r, a) := r.common j
    let calls := match r.store with
      | .remote s => s.service.calls.mergeSort (· ≤ ·)
      | _ => []
    let (answers, r) := remoteSteps rest r
    (Write.extend a [("calls", Write.names calls)] :: answers, r)

end BlobRun

/-- The file program: a file store in a directory of its own, below `root`, block-cached
when a cache block size or capacity is given. -/
def localAnswer (j : Json) : Json :=
  let fs : FileStore := { root := FileTree.resolve [] (text j "root") }
  let st := if has j "cache_block_size" || has j "cache_capacity" then
      ScriptStore.cached (CachingStore.make (.files fs) (int j "cache_capacity") (int j "cache_block_size"))
    else .files fs
  .obj [("steps", .arr (BlobRun.fileSteps (items j "steps") { store := st }))]

def remoteStoreOf (j : Json) : RemoteStore :=
  let up := field j "upload"
  let svc : ObjectService :=
    { bucket := if has j "bucket" then text j "bucket" else "bucket"
      failing := texts j "fail"
      missingDeleteFails := flag j "delete_missing_error"
      pageSize := nat j "page_size"
      shortBodies := flag j "short_get" }
  match up with
  | .obj _ =>
    { service := svc, pfx := text j "prefix", partSize := int up "part_size",
      concurrency := int up "concurrency", checksum := flag up "checksum" }
  | _ => { service := svc, pfx := text j "prefix" }

/-- The remote program: its step answers and the objects stored at the end. -/
def s3Answer (j : Json) : Json :=
  let (answers, r) := BlobRun.remoteSteps (items j "steps") { store := .remote (remoteStoreOf j) }
  let objects := match r.store with
    | .remote s => (s.service.objects.mergeSort fun a b => a.1 ≤ b.1).map fun (k, d) =>
        Json.obj [("key", .str k), ("data", Write.blobData d)]
    | _ => []
  .obj [("steps", .arr answers), ("objects", .arr objects)]

def cachedStep (s : CachingStore) (j : Json) : CachingStore × Json :=
  let cancelled := flag j "cancelled"
  let name := text j "name"
  let done (x : Except StoreError Unit) : Json := Write.stepResult (fun _ => .null) x
  match text j "do" with
  | "put" => let (s, x) := s.put cancelled name (bytes j "hex"); (s, done x)
  | "put_inner" =>
    match s.inner.put cancelled name (bytes j "hex") with
    | .ok inner => ({ s with inner }, done (.ok ()))
    | .error e => (s, done (.error e))
  | "delete" => let (s, x) := s.delete cancelled name; (s, done x)
  | "list" => (s, Write.stepResult Write.names (s.inner.list cancelled (text j "prefix")))
  | "read" =>
    match s.openBlob cancelled name with
    | .error e => (s, Write.storeError e)
    | .ok b =>
      if int j "len" < 0 then (s, Write.panic)
      else
        let (x, cache) := b.readAt s.cache cancelled (int j "off") (nat j "len")
        ({ s with cache }, .obj [("result", .obj ([("n", Write.nat x.data.size), ("eof", .bool x.atEnd),
          ("data", Write.hex x.data), ("size", Write.nat b.size)] ++ Write.readError x))])
  | "read_all" =>
    let (st, x) := (ScriptStore.cached s).readAll cancelled name
    let s := match st with
      | .cached s => s
      | _ => s
    (s, Write.stepResult Write.hex x)
  | "stats" =>
    (s, .obj [("result", .obj [("len", Write.nat s.cache.len), ("size", Write.int s.cache.size),
      ("hits", Write.nat s.cache.hits), ("misses", Write.nat s.cache.misses)])])
  | _ => (s, Write.panic)

def cachedSteps : List Json → CachingStore → List Json
  | [], _ => []
  | j :: rest, s => let (s, a) := cachedStep s j; a :: cachedSteps rest s

def blobsAnswer (j : Json) : Json :=
  let s := CachingStore.make .emptyMemory (int j "capacity") (int j "block_size")
  .obj [("steps", .arr (cachedSteps (items j "steps") s))]

/-- The file mapping program's state: the files and the mappings, by file name. -/
structure MappingRun where
  tree : FileTree := {}
  maps : List (String × Mapping) := []

def mappingStep (r : MappingRun) (j : Json) : MappingRun × Json :=
  let name := if has j "name" then text j "name" else "f"
  let path := FileTree.resolve [] name
  let ok (x : Json) : Json := .obj [("result", x)]
  match text j "do", r.maps.lookup name with
  | "write_file", _ =>
    match r.tree.put path (writtenBytes j) with
    | .ok t => ({ r with tree := t }, ok .null)
    | .error e => (r, Write.storeError e)
  | "open", _ =>
    match r.tree.read path with
    | .ok d =>
      ({ r with maps := (name, ⟨d, false⟩) :: r.maps.filter (·.1 != name) }, ok (.obj [("size", Write.nat d.size)]))
    | .error .missingBlob => (r, Write.storeError (.noSuchFile ("/".intercalate ("<root>" :: path))))
    | .error e => (r, Write.storeError e)
  | "read", some m =>
    if int j "len" < 0 then (r, Write.panic)
    else
      let x := m.readAt (int j "off") (nat j "len")
      match x.error? with
      | some e => (r, Write.storeError e)
      | none =>
        let eof := if x.atEnd then [("eof", Json.bool true)] else []
        (r, ok (.obj ([("n", Write.nat x.data.size), ("data", Write.blobData x.data)] ++ eof)))
  | "bytes", some m =>
    let d := m.bytes?
    (r, ok (.obj [("nil", .bool d.isNone), ("data", Write.blobData (d.getD .empty))]))
  | "size", some m => (r, ok (Write.nat m.data.size))
  | "advise", some m =>
    match m.advise with
    | .ok () => (r, ok .null)
    | .error e => (r, Write.storeError e)
  | "close", some m =>
    ({ r with maps := r.maps.map fun (k, x) => if k == name then (k, m.close) else (k, x) }, ok .null)
  | _, _ => (r, Write.panic)

def mappingSteps : List Json → MappingRun → List Json
  | [], _ => []
  | j :: rest, r => let (r, a) := mappingStep r j; a :: mappingSteps rest r

def mmapAnswer (j : Json) : Json := .obj [("steps", .arr (mappingSteps (items j "steps") {}))]

end AnnotationStore.Service
