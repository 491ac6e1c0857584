import AnnotationStore.Blob.Store
import AnnotationStore.Cache.Lru
/-!
# Block-cached blobs

A caching store puts a cache of fixed-size blocks in front of another store. Blocks are
numbered from the start of their blob and cached under the blob's name and number, costed
by their byte size. Writing or deleting a blob through the caching store drops its blocks
first; writing around it leaves them, so reads may then see the old bytes.

A read of `len` bytes at `off` reads nothing for no bytes, fails on a cancelled context, and
ends at the end before the start or at or past the end. Otherwise it first loads the
blocks the cache lacks, one read of the blob under it per run of consecutive missing blocks,
and then copies from each block in turn, looked up in the cache (a hit or a miss) or read
again on its own when the cache would not keep it. A block shorter than expected stops the
copy there.
-/

namespace AnnotationStore

/-- Blocks of blobs by name and number. -/
abbrev BlockCache := Lru (String × Int) ByteArray

/-- An empty block cache holding at most `capacity` bytes. -/
def BlockCache.make (capacity : Int) : BlockCache := Lru.empty capacity (fun d => d.size) none

structure CachedBlob where
  inner : Blob
  name : String
  /-- The block size, positive. -/
  blockSize : Int

namespace CachedBlob

def size (b : CachedBlob) : Nat := b.inner.size

def close (b : CachedBlob) : CachedBlob := { b with inner := b.inner.close }

/-- The runs of consecutive blocks the cache lacks, as first block and count. -/
def missingRuns (c : BlockCache) (name : String) (blocks : List Int) : List (Int × Nat) :=
  (blocks.foldl (fun runs blk =>
    if c.contains (name, blk) then runs
    else match runs with
      | (first, n) :: rest => if first + n = blk then (first, n + 1) :: rest else (blk, 1) :: runs
      | [] => [(blk, 1)]) []).reverse

/-- Loads one run of missing blocks with a single read. -/
def fillRun (b : CachedBlob) (c : BlockCache) (run : Int × Nat) : BlockCache × Option StoreError :=
  let (first, count) := run
  let start := first * b.blockSize
  let len := min (count * b.blockSize) (b.size - start)
  if len ≤ 0 then (c, none)
  else
    let r := b.inner.readAt start len.toNat
    match r.stop with
    | .failed e => (c, some e)
    | _ =>
      let bs := b.blockSize.toNat
      let c := (List.range count).foldl (fun c i =>
        if r.data.size ≤ i * bs then c
        else (c.set (b.name, first + i) (r.data.extract (i * bs) (i * bs + bs))).2.1) c
      (c, none)

/-- Loads every run; the first failure is kept. -/
def fill (b : CachedBlob) (c : BlockCache) (runs : List (Int × Nat)) : BlockCache × Option StoreError :=
  runs.foldl (fun (c, err) run =>
    let (c, e) := b.fillRun c run
    (c, err <|> e)) (c, none)

/-- One block, from the cache or read on its own. -/
def fetchBlock (b : CachedBlob) (c : BlockCache) (blk : Int) : Except StoreError ByteArray × BlockCache :=
  match c.get (b.name, blk) with
  | (some d, c) => (.ok d, c)
  | (none, c) =>
    let r := b.inner.readAt (blk * b.blockSize) b.blockSize.toNat
    match r.stop with
    | .failed e => (.error e, c)
    | _ => (.ok r.data, if 0 < r.data.size then (c.set (b.name, blk) r.data).2.1 else c)

/-- Copies the part of each block inside `[off, off + want)` into `p`, counting the bytes
copied; stops at a failure or a block too short to reach the range. -/
def copyBlocks (b : CachedBlob) (off want : Int) :
    List Int → BlockCache → ByteArray → Nat → ByteArray × Nat × Option StoreError × BlockCache
  | [], c, p, total => (p, total, none, c)
  | blk :: rest, c, p, total =>
    let start := blk * b.blockSize
    let lo := max start off
    let hi := min (start + b.blockSize) (off + want)
    match b.fetchBlock c blk with
    | (.error e, c) => (p, total, some e, c)
    | (.ok d, c) =>
      let src := (lo - start).toNat
      if d.size ≤ src then (p, total, none, c)
      else
        let n := min (hi - lo).toNat (d.size - src)
        copyBlocks b off want rest c (d.copySlice src p (lo - off).toNat n) (total + n)

def readAt (b : CachedBlob) (c : BlockCache) (cancelled : Bool) (off : Int) (len : Nat) :
    ReadOutcome × BlockCache :=
  if len = 0 then (⟨.empty, .complete⟩, c)
  else if cancelled then (.failure .canceled, c)
  else if off < 0 ∨ b.size ≤ off then (.ended, c)
  else
    let want := min (len : Int) (b.size - off)
    let first := off / b.blockSize
    let last := (off + want - 1) / b.blockSize
    let blocks := (List.range (last - first + 1).toNat).map fun (i : Nat) => first + (i : Int)
    match b.fill c (missingRuns c b.name blocks) with
    | (c, some e) => (.failure e, c)
    | (c, none) =>
      let (p, total, err, c) := b.copyBlocks off want blocks c (ByteArray.mk (Array.replicate len 0)) 0
      let data := p.extract 0 total
      match err with
      | some e => (⟨data, .failed e⟩, c)
      | none => (⟨data, if total < len then .atEnd else .complete⟩, c)

end CachedBlob

/-- A store with a block cache in front of it. -/
structure CachingStore where
  inner : BlobStore
  cache : BlockCache
  blockSize : Int

namespace CachingStore

/-- A caching store; a block size that is not positive means 4096. -/
def make (inner : BlobStore) (capacity blockSize : Int) : CachingStore :=
  { inner, cache := BlockCache.make capacity, blockSize := if blockSize ≤ 0 then 4096 else blockSize }

def invalidate (s : CachingStore) (name : String) : CachingStore :=
  { s with cache := (s.cache.invalidate fun k => k.1 == name).1 }

def openBlob (s : CachingStore) (cancelled : Bool) (name : String) : Except StoreError CachedBlob :=
  (s.inner.openBlob cancelled name).map fun inner => ⟨inner, name, s.blockSize⟩

/-- Writes a blob, its cached blocks dropped first. -/
def put (s : CachingStore) (cancelled : Bool) (name : String) (data : ByteArray) :
    CachingStore × Except StoreError Unit :=
  let s := s.invalidate name
  match s.inner.put cancelled name data with
  | .ok inner => ({ s with inner }, .ok ())
  | .error e => (s, .error e)

/-- Deletes a blob, its cached blocks dropped first. -/
def delete (s : CachingStore) (cancelled : Bool) (name : String) : CachingStore × Except StoreError Unit :=
  let s := s.invalidate name
  match s.inner.delete cancelled name with
  | .ok inner => ({ s with inner }, .ok ())
  | .error e => (s, .error e)

end CachingStore

end AnnotationStore
