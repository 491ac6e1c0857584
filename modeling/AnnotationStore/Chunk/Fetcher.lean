import AnnotationStore.Blob.Store
/-!
# Chunks kept in a blob store

A fetcher keeps the chunk of key `k` as the blob `chunk/k`. Publishing makes a chunk of a
packed buffer with the fetcher's compression method and writes it; fetching reads the blob
back and decodes it. A failure names the key: its text is `chunk <key>: ` followed by the
cause.

A fetcher may be bounded by a resource controller, and then waits for a fetch slot before
each read. A cancelled request never gets a slot, so its fetches fail at once with the
cancellation itself; an unbounded fetcher never looks at cancellation, since the memory
store does not.

Fetching several keys fetches each in the order given and fails with the first failure;
the chunks come once per key, sorted by key.
-/

namespace AnnotationStore.Chunk

def blobName (key : String) : String := "chunk/" ++ key

def aboutKey (key : String) (e : StoreError) : StoreError := .within ("chunk " ++ key) e

/-- Chunks in a blob store. -/
structure Fetcher where
  blobs : BlobStore := .emptyMemory
  /-- The compression method byte of published chunks. -/
  method : Nat := 1
  /-- Whether each fetch first waits for a slot of a resource controller. -/
  bounded : Bool := false

namespace Fetcher

def fetch (f : Fetcher) (cancelled : Bool) (key : String) : Except StoreError PackedBuffer :=
  if cancelled && f.bounded then .error .canceled
  else do
    let data ← (f.blobs.read cancelled (blobName key)).mapError (aboutKey key)
    (decode data).mapError fun e => aboutKey key (.chunk e)

/-- Fetches the chunks of several keys: each key once, sorted. -/
def fetchAll (f : Fetcher) (cancelled : Bool) (keys : List String) :
    Except StoreError (List (String × PackedBuffer)) := do
  let got ← keys.mapM fun k => (f.fetch cancelled k).map fun b => (k, b)
  let sorted := keys.eraseDups.mergeSort (· ≤ ·)
  pure (sorted.filterMap fun k => (got.lookup k).map fun b => (k, b))

def publish (f : Fetcher) (cancelled : Bool) (key : String) (b : PackedBuffer) :
    Except StoreError Fetcher := do
  let data ← (encode b f.method).mapError fun e => aboutKey key (.chunkEncode e)
  let blobs ← f.blobs.put cancelled (blobName key) data
  pure { f with blobs }

/-- Stores bytes under a blob name as they are. -/
def putBlob (f : Fetcher) (cancelled : Bool) (name : String) (data : ByteArray) :
    Except StoreError Fetcher :=
  (f.blobs.put cancelled name data).map fun blobs => { f with blobs }

/-- The blob names with a prefix, sorted. -/
def list (f : Fetcher) (cancelled : Bool) (pfx : String) : Except StoreError (List String) :=
  f.blobs.list cancelled pfx

end Fetcher

end AnnotationStore.Chunk
