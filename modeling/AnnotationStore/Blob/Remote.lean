import AnnotationStore.Blob.Handle
import AnnotationStore.Bytes.Crc32c
import AnnotationStore.Bytes.Base64
import AnnotationStore.Text.Path
/-!
# Remote object storage

A remote store keeps blobs as objects in a bucket of an object service, each under the key
made by joining the store's prefix and the blob's name as paths.

* Opening a blob asks the service for the object's size; a missing object is a missing blob.
  Reading asks for the byte range from the offset to the end of the read, cut at the size;
  a read of nothing, or before the start or at or after the end, asks for nothing. A body
  shorter than the range is an unexpected end, or the end when it is empty.
* Data of at most one part is written with one call, giving its length and, when
  checksums are on, its CRC-32C (base64 of the big-endian value). Larger data is uploaded
  in parts: the part size must be at least 5 MiB (none given means 5 MiB, and it grows so
  that there are fewer than 10000 parts); data fitting one part is then written with one
  call without its length; otherwise an upload is started, the parts are sent in order and
  the upload is completed. A failed part or completion aborts the upload.
* Deleting a missing object is not an error. Listing asks for the keys with the joined
  prefix (keeping a trailing slash) page by page, and gives them without the store's
  prefix, sorted.

The object service is a stand-in for a real one. It keeps objects in memory and records
every call it is given, and can be told to fail calls (all of one kind, or those for one
key), to serve listings in pages of a given size, each in reverse key order, to give
bodies one byte short, and to report deleting a missing object as an error.
-/

namespace AnnotationStore

structure ObjectService where
  bucket : String := "bucket"
  objects : List (String × ByteArray) := []
  /-- The calls to fail: a call name, or a call name, a colon and a key. -/
  failing : List String := []
  missingDeleteFails : Bool := false
  /-- Keys per listing page; zero serves one page. -/
  pageSize : Nat := 0
  shortBodies : Bool := false
  /-- Parts of uploads in progress, by key. -/
  uploads : List (String × List ByteArray) := []
  /-- The calls made, in order. -/
  calls : List String := []

namespace ObjectService

def record (s : ObjectService) (call : String) : ObjectService := { s with calls := s.calls ++ [call] }

def fails (s : ObjectService) (op key : String) : Bool :=
  s.failing.contains op || s.failing.contains (op ++ ":" ++ key)

/-- Records a call and gives the injected failure if it is to fail. -/
def enter (s : ObjectService) (op key call : String) : ObjectService × Bool :=
  (s.record call, s.fails op key)

def store (s : ObjectService) (key : String) (data : ByteArray) : ObjectService :=
  { s with objects := (s.objects.filter (·.1 != key)) ++ [(key, data)] }

def head (s : ObjectService) (key : String) : ObjectService × Except StoreError Nat :=
  match s.enter "head" key ("head " ++ s.bucket ++ " " ++ key) with
  | (s, true) => (s, .error .injected)
  | (s, false) =>
    match s.objects.lookup key with
    | some d => (s, .ok d.size)
    | none => (s, .error .noSuchKey)

/-- The bytes from `first` to `last` of an object. -/
def get (s : ObjectService) (key : String) (first last : Nat) : ObjectService × Except StoreError ByteArray :=
  match s.enter "get" key ("get " ++ key ++ " bytes=" ++ toString first ++ "-" ++ toString last) with
  | (s, true) => (s, .error .injected)
  | (s, false) =>
    match s.objects.lookup key with
    | some d =>
      let body := d.extract first (last + 1)
      (s, .ok (if s.shortBodies then body.extract 0 (body.size - 1) else body))
    | none => (s, .error .noSuchKey)

def put (s : ObjectService) (key : String) (data : ByteArray) (length : Option Nat) (crc : Option String)
    (algorithm : Bool) : ObjectService × Except StoreError Unit :=
  let call := "put " ++ key ++ " len=" ++ toString data.size ++
    (match length with
      | some n => if 0 < n then " content_length=" ++ toString n else ""
      | none => "") ++
    (match crc with
      | some c => " crc32c=" ++ c
      | none => "") ++
    (if algorithm then " algorithm=CRC32C" else "")
  match s.enter "put" key call with
  | (s, true) => (s, .error .injected)
  | (s, false) => (s.store key data, .ok ())

def delete (s : ObjectService) (key : String) : ObjectService × Except StoreError Unit :=
  match s.enter "delete" key ("delete " ++ key) with
  | (s, true) => (s, .error .injected)
  | (s, false) =>
    if (s.objects.lookup key).isNone && s.missingDeleteFails then (s, .error .noSuchKey)
    else ({ s with objects := s.objects.filter (·.1 != key) }, .ok ())

/-- One page of the keys with a prefix, from the position a token names, and the token of
the next page if there is one. -/
def list (s : ObjectService) (pfx : String) (token : Option String) :
    ObjectService × Except StoreError (List String × Option String) :=
  match s.enter "list" pfx ("list " ++ pfx ++ " " ++ token.getD "") with
  | (s, true) => (s, .error .injected)
  | (s, false) =>
    let keys := ((s.objects.map (·.1)).filter pfx.isPrefixOf).mergeSort (· ≤ ·)
    let start := (token.bind String.toNat?).getD 0
    let rest := keys.drop start
    if 0 < s.pageSize && s.pageSize < rest.length then
      (s, .ok ((rest.take s.pageSize).reverse, some (toString (start + s.pageSize))))
    else (s, .ok (rest.reverse, none))

def createMultipart (s : ObjectService) (key : String) (algorithm : Bool) : ObjectService × Except StoreError Unit :=
  match s.enter "create_multipart" key ("create_multipart " ++ key ++ if algorithm then " algorithm=CRC32C" else "") with
  | (s, true) => (s, .error .injected)
  | (s, false) => ({ s with uploads := (s.uploads.filter (·.1 != key)) ++ [(key, [])] }, .ok ())

def uploadPart (s : ObjectService) (key : String) (n : Nat) (data : ByteArray) : ObjectService × Except StoreError Unit :=
  match s.enter "upload_part" key ("upload_part " ++ key ++ " " ++ toString n ++ " len=" ++ toString data.size) with
  | (s, true) => (s, .error .injected)
  | (s, false) =>
    ({ s with uploads := s.uploads.map fun (k, ps) => if k == key then (k, ps ++ [data]) else (k, ps) }, .ok ())

/-- Completes an upload of `n` parts, putting the parts together in order. -/
def completeMultipart (s : ObjectService) (key : String) (n : Nat) : ObjectService × Except StoreError Unit :=
  match s.enter "complete_multipart" key ("complete_multipart " ++ key ++ " parts=" ++ toString n) with
  | (s, true) => (s, .error .injected)
  | (s, false) =>
    let parts := (s.uploads.lookup key).getD []
    let s := { s with uploads := s.uploads.filter (·.1 != key) }
    (s.store key (parts.foldl (· ++ ·) .empty), .ok ())

/-- Aborts an upload; a failure to abort is not reported. -/
def abortMultipart (s : ObjectService) (key : String) : ObjectService :=
  match s.enter "abort_multipart" key ("abort_multipart " ++ key) with
  | (s, true) => s
  | (s, false) => { s with uploads := s.uploads.filter (·.1 != key) }

end ObjectService

/-- A blob of a remote store: its key and its size when opened. -/
structure RemoteBlob where
  key : String
  size : Nat

/-- A store of blobs in an object service. -/
structure RemoteStore where
  service : ObjectService
  pfx : String := ""
  partSize : Int := 8 * 1024 * 1024
  /-- Parallel part uploads; with more than one, every part is sent even after one fails. -/
  concurrency : Int := 5
  checksum : Bool := true

namespace RemoteStore

def minPartSize : Int := 5 * 1024 * 1024

def maxParts : Int := 10000

def key (s : RemoteStore) (name : String) : String := Path.join s.pfx name

/-- The checksum sent with data: base64 of the big-endian CRC-32C. -/
def checksumText (data : ByteArray) : String :=
  let c := Crc32c.checksum data
  Base64.encode ⟨#[(c >>> 24).toUInt8, (c >>> 16).toUInt8, (c >>> 8).toUInt8, c.toUInt8]⟩

/-- Sends parts `n`, `n + 1`, … of an upload; gives the first failure. -/
def sendParts (key : String) (all : Bool) : ObjectService → Nat → List ByteArray →
    ObjectService × Option StoreError
  | svc, _, [] => (svc, none)
  | svc, n, p :: ps =>
    match svc.uploadPart key n p with
    | (svc, .ok ()) => sendParts key all svc (n + 1) ps
    | (svc, .error e) =>
      if all then
        let (svc, _) := sendParts key all svc (n + 1) ps
        (svc, some e)
      else (svc, some e)

/-- The parts of data, `size` bytes each but the last. -/
def parts (data : ByteArray) (size : Nat) (count : Nat) : List ByteArray :=
  (List.range count).map fun i => data.extract (i * size) (i * size + size)

def upload (s : RemoteStore) (key : String) (data : ByteArray) : RemoteStore × Except StoreError Unit :=
  let total : Int := data.size
  let size := if s.partSize = 0 then minPartSize else s.partSize
  let size := if maxParts ≤ total.tdiv size then total / maxParts + 1 else size
  if size < minPartSize then (s, .error .library)
  else if total ≤ size then
    let (svc, r) := s.service.put key data none none s.checksum
    ({ s with service := svc }, r)
  else
    match s.service.createMultipart key s.checksum with
    | (svc, .error e) => ({ s with service := svc }, .error e)
    | (svc, .ok ()) =>
      let count := ((total + size - 1) / size).toNat
      let all := s.concurrency != 1
      match sendParts key all svc 1 (parts data size.toNat count) with
      | (svc, some e) => ({ s with service := svc.abortMultipart key }, .error (.uploadFailed e))
      | (svc, none) =>
        match svc.completeMultipart key count with
        | (svc, .ok ()) => ({ s with service := svc }, .ok ())
        | (svc, .error e) => ({ s with service := svc.abortMultipart key }, .error (.uploadFailed e))

def put (s : RemoteStore) (name : String) (data : ByteArray) : RemoteStore × Except StoreError Unit :=
  let key := s.key name
  if (data.size : Int) ≤ s.partSize then
    let crc := if s.checksum then some (checksumText data) else none
    let (svc, r) := s.service.put key data (some data.size) crc false
    ({ s with service := svc }, r)
  else s.upload key data

def openBlob (s : RemoteStore) (name : String) : RemoteStore × Except StoreError RemoteBlob :=
  let key := s.key name
  match s.service.head key with
  | (svc, .ok n) => ({ s with service := svc }, .ok ⟨key, n⟩)
  | (svc, .error .noSuchKey) => ({ s with service := svc }, .error .missingBlob)
  | (svc, .error e) => ({ s with service := svc }, .error e)

def delete (s : RemoteStore) (name : String) : RemoteStore × Except StoreError Unit :=
  match s.service.delete (s.key name) with
  | (svc, .error .noSuchKey) => ({ s with service := svc }, .ok ())
  | (svc, r) => ({ s with service := svc }, r)

/-- A text without a leading prefix, if it starts with it. -/
def trimStart (t p : String) : String := if p.isPrefixOf t then String.ofList (t.toList.drop p.length) else t

/-- Collects listing pages; `fuel` bounds the pages. -/
def listPages (full : String) : Nat → ObjectService → Option String → List String →
    ObjectService × Except StoreError (List String)
  | 0, svc, _, acc => (svc, .ok acc)
  | fuel + 1, svc, token, acc =>
    match svc.list full token with
    | (svc, .error e) => (svc, .error e)
    | (svc, .ok (keys, none)) => (svc, .ok (acc ++ keys))
    | (svc, .ok (keys, some next)) => listPages full fuel svc (some next) (acc ++ keys)

def list (s : RemoteStore) (pfx : String) : RemoteStore × Except StoreError (List String) :=
  let full := s.key pfx ++ if pfx.endsWith "/" then "/" else ""
  let (svc, r) := listPages full (s.service.objects.length + 1) s.service none []
  let names (keys : List String) : List String :=
    (keys.map fun k => trimStart (trimStart k s.pfx) "/").mergeSort (· ≤ ·)
  ({ s with service := svc }, r.map names)

end RemoteStore

namespace RemoteBlob

def readAt (b : RemoteBlob) (svc : ObjectService) (cancelled : Bool) (off : Int) (len : Nat) :
    ObjectService × ReadOutcome :=
  if len = 0 then (svc, ⟨.empty, .complete⟩)
  else if off < 0 ∨ b.size ≤ off then (svc, .ended)
  else if cancelled then (svc, .failure .canceled)
  else
    let last := min (off.toNat + len) b.size - 1
    match svc.get b.key off.toNat last with
    | (svc, .error e) => (svc, .failure e)
    | (svc, .ok body) =>
      let want := last + 1 - off.toNat
      if want ≤ body.size then (svc, ⟨body.extract 0 want, if want < len then .atEnd else .complete⟩)
      else if body.size = 0 then (svc, .ended)
      else (svc, ⟨body, .failed .unexpectedEnd⟩)

end RemoteBlob

end AnnotationStore
