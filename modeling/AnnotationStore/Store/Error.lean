import AnnotationStore.Annotation.Malformed
import AnnotationStore.Buffer.Pick
import AnnotationStore.Snapshot.Format
import AnnotationStore.Chunk.Codec
/-!
# Store errors

Why an operation of the store, its snapshots or its layers failed. Errors nest: an error
raised deep down is given context on its way up (`within`), and the store facade marks some
as "not found" or "closed" while keeping the cause. The text of a nested error is the
context, a colon and a space, then the text of the cause.

The text of an error raised by a third-party decoder (a JSON codec, a compressor, the file
system) is not modelled; such errors carry no text of their own here.
-/

namespace AnnotationStore

inductive StoreError where
  | nilValue
  | duplicateId (id : String)
  | alreadyDeleted (id : String)
  | notFound
  | closed
  | noPersistence
  | managerClosed
  | noStore
  | canceled
  | missingBlob
  | malformed (m : Malformed)
  /-- A restore payload the codec could not read as an array. -/
  | unreadablePayload
  | snapshot (e : Snapshot.DecodeError)
  | chunk (e : Chunk.DecodeError)
  | chunkEncode (e : Chunk.EncodeError)
  | block (e : BlockError)
  | pick (e : PickFailure)
  | noSegmentation
  /-- An error raised by a third-party decoder or the file system. -/
  | library
  /-- A failure the test double of a remote object store was told to give. -/
  | injected
  /-- Data that ended before the length asked for. -/
  | unexpectedEnd
  /-- A read of a file mapping that was closed. -/
  | mappingClosed
  /-- A read of a file mapping at a negative offset. -/
  | invalidOffset
  /-- A file to be mapped that does not exist, at a path shown with its directory hidden. -/
  | noSuchFile (path : String)
  /-- A remote object that vanished between opening and reading. -/
  | noSuchKey
  /-- A failed multipart upload; its text names an upload id and is not shown. -/
  | uploadFailed (e : StoreError)
  | within (context : String) (e : StoreError)
  /-- An error the store reports as "not found". -/
  | asNotFound (e : StoreError)
  /-- An error the store reports as "closed". -/
  | asClosed (e : StoreError)

namespace StoreError

/-- The reason of an unreadable payload, before the codec's own text. -/
def unreadableReason : String := "payload is not an array of annotations"

def message : StoreError → String
  | .nilValue => "annotation is nil"
  | .duplicateId id => "duplicate annotation id " ++ Quote.quote id
  | .alreadyDeleted id => "annotation " ++ Quote.quote id ++ " already deleted"
  | .notFound => "not found"
  | .closed => "store is closed"
  | .noPersistence => "persistence not configured"
  | .managerClosed => "persistence manager is closed"
  | .noStore => "blob store not configured"
  | .canceled => "context canceled"
  | .missingBlob => "file does not exist"
  | .malformed m => m.message
  | .unreadablePayload => "malformed annotation data: " ++ unreadableReason ++ ": "
  | .snapshot e => e.message
  | .chunk e => e.message
  | .chunkEncode e => e.message
  | .block e => e.message
  | .pick e => e.message
  | .noSegmentation => "render: layer has no segmentation"
  | .library => ""
  | .injected => "fake: injected failure"
  | .unexpectedEnd => "unexpected EOF"
  | .mappingClosed => "mmap: mapping is closed"
  | .invalidOffset => "mmap: invalid offset"
  | .noSuchFile p => "open " ++ p ++ ": no such file or directory"
  | .noSuchKey => "NoSuchKey: "
  | .uploadFailed e => "upload multipart failed: " ++ e.message
  | .within c e => c ++ ": " ++ e.message
  | .asNotFound e => "not found: " ++ e.message
  | .asClosed e => "store is closed: " ++ e.message

/-- The causes of an error, outermost first. -/
def chain : StoreError → List StoreError
  | e@(.within _ c) => e :: c.chain
  | e@(.asNotFound c) => e :: c.chain
  | e@(.asClosed c) => e :: c.chain
  | e@(.uploadFailed c) => e :: c.chain
  | e => [e]

/-- Whether an error is one the store reports with its own cause. -/
def keepsCause : StoreError → Bool
  | .duplicateId _ | .alreadyDeleted _ | .malformed _ | .unreadablePayload => true
  | _ => false

def isMissingBlob : StoreError → Bool
  | .missingBlob => true
  | _ => false

def isManagerClosed : StoreError → Bool
  | .managerClosed => true
  | _ => false

/-- The store's view of an error: a duplicate, a deleted reference or malformed data keep
their cause; a missing blob is "not found"; a closed manager is "closed". -/
def restate (e : StoreError) : StoreError :=
  if e.chain.any keepsCause then e
  else if e.chain.any isMissingBlob then .asNotFound e
  else if e.chain.any isManagerClosed then .asClosed e
  else e

end StoreError

end AnnotationStore
