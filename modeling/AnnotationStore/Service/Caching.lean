import AnnotationStore.Service.Request
import AnnotationStore.Service.Answer
import AnnotationStore.Cache.Lru
/-!
# The cache and resource programs

Scripted runs of a least-recently-used cache of strings and of a resource controller. Each
step is answered in order; the cache answers also list the keys each step removed, sorted
when a step removes a group.
-/

namespace AnnotationStore.Service

open Read

/-- A controller with the limits a request gives, when it gives a memory limit. -/
def memoryController? (j : Json) : Option Controller :=
  if has j "memory_limit" then some (Controller.make { memory := int j "memory_limit" }) else none

def lruOf (j : Json) : Lru String String :=
  let cost : String → Int := if text j "cost" == "len" then fun v => v.utf8ByteSize else fun _ => 1
  Lru.empty (int j "capacity") cost (memoryController? j)

def sortKeys (ks : List String) : List String := ks.mergeSort (· ≤ ·)

/-- One cache step: its result, the cache after it and the keys it removed. -/
def lruStep (c : Lru String String) (s : Json) : Json × Lru String String × List String :=
  let k := text s "key"
  match text s "do" with
  | "set" =>
    let (ok, c, gone) := c.set k (text s "value")
    (.bool ok, c, gone.map (·.key))
  | "get" =>
    let (v, c) := c.get k
    (Write.opt Json.str v, c, [])
  | "contains" => (.bool (c.contains k), c, [])
  | "remove" =>
    let (ok, c, gone) := c.remove k
    (.bool ok, c, gone.map (·.key))
  | "invalidate" =>
    let p := text s "prefix"
    let (c, gone) := c.invalidate fun key => p.isPrefixOf key
    (.null, c, sortKeys (gone.map (·.key)))
  | "purge" =>
    let (c, gone) := c.purge
    (.null, c, sortKeys (gone.map (·.key)))
  | "stats" =>
    (.obj [("len", Write.nat c.len), ("size", Write.int c.size), ("hits", Write.nat c.hits),
      ("misses", Write.nat c.misses),
      ("memory", Write.int ((c.controller.map (·.memoryUsed)).getD 0))], c, [])
  | _ => (.null, c, [])

def lruSteps : List Json → Lru String String → List Json
  | [], _ => []
  | s :: rest, c =>
    let (r, c, gone) := lruStep c s
    .obj [("result", r), ("evicted", .arr (gone.map Json.str))] :: lruSteps rest c

def lruAnswer (j : Json) : Json := .obj [("steps", .arr (lruSteps (items j "steps") (lruOf j)))]

def resourceStep (c : Controller) (s : Json) : Json × Controller :=
  let n := int s "n"
  match text s "do" with
  | "try_memory" => let (ok, c) := c.tryAcquireMemory n; (.obj [("result", .bool ok)], c)
  | "acquire_memory" =>
    let (ok, c) := c.tryAcquireMemory n
    (if ok then .obj [("result", .null)]
      else Write.failure "ErrMemoryLimitExceeded" "memory limit exceeded", c)
  | "release_memory" =>
    let (c, fault) := c.releaseMemory n
    (if fault then Write.panic else .obj [("result", .null)], c)
  | "usage" => (.obj [("result", Write.int c.memoryUsed)], c)
  | "limit" => (.obj [("result", Write.int c.limits.memory)], c)
  | "acquire_fetch" =>
    match c.acquireFetch with
    | some c => (.obj [("result", .null)], c)
    | none => (Write.panic, c)
  | "release_fetch" =>
    let (c, fault) := c.releaseFetch
    (if fault then Write.panic else .obj [("result", .null)], c)
  | "acquire_io" => (.obj [("result", .null)], c.acquireIO n)
  | "try_io" => let (ok, c) := c.tryAcquireIO n; (.obj [("result", .bool ok)], c)
  | _ => (.obj [("result", .null)], c)

def resourceSteps : List Json → Controller → List Json
  | [], _ => []
  | s :: rest, c => let (r, c) := resourceStep c s; r :: resourceSteps rest c

def resourceAnswer (j : Json) : Json :=
  let c := Controller.make
    { memory := int j "memory_limit", fetches := int j "max_fetches", ioPerSecond := int j "io_limit" }
  .obj [("steps", .arr (resourceSteps (items j "steps") c))]

end AnnotationStore.Service
