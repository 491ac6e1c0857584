import AnnotationStore.Service.Blobs
import AnnotationStore.Service.Chunks
import AnnotationStore.Chunk.Fetcher
/-!
# The fetcher program

Chunks published to and fetched from a memory blob store. Chunks are compressed with LZ4
unless the request names another method; a request that names an I/O or fetch limit bounds
the fetches by a resource controller. Each step answers its result or its error.
-/

namespace AnnotationStore.Service

open Read

def fetcherOf (j : Json) : Chunk.Fetcher :=
  { method := if has j "compression" then methodCode j else 1
    bounded := has j "io_limit" || has j "max_fetches" }

def fetcherStep (f : Chunk.Fetcher) (j : Json) : Chunk.Fetcher × Json :=
  let cancelled := flag j "cancelled"
  let change (r : Except StoreError Chunk.Fetcher) : Chunk.Fetcher × Json :=
    match r with
    | .ok f => (f, .obj [("result", .null)])
    | .error e => (f, Write.storeError e)
  match text j "do" with
  | "publish" => change (f.publish cancelled (text j "key") (requestedBuffer j))
  | "put_blob" => change (f.putBlob cancelled (text j "name") (bytes j "hex"))
  | "list" => (f, Write.stepResult Write.names (f.list cancelled (text j "prefix")))
  | "fetch" => (f, Write.stepResult Write.packedBuffer (f.fetch cancelled (text j "key")))
  | "fetch_all" =>
    let write (cs : List (String × PackedBuffer)) : Json :=
      .arr (cs.map fun (k, b) => .obj [("key", .str k), ("data", Write.packedBuffer b)])
    (f, Write.stepResult write (f.fetchAll cancelled (texts j "keys")))
  | _ => (f, Write.bare "library")

def fetcherSteps : Chunk.Fetcher → List Json → List Json
  | _, [] => []
  | f, j :: rest => let (f, r) := fetcherStep f j; r :: fetcherSteps f rest

def fetcherAnswer (j : Json) : Json :=
  .obj [("steps", .arr (fetcherSteps (fetcherOf j) (items j "steps")))]

end AnnotationStore.Service
