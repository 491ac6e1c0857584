import AnnotationStore.Cache.Lru
import AnnotationStore.Buffer.Validate
/-!
# Chunk manager

The manager keeps track of the chunks a viewer wants and keeps those that arrived in a
least-recently-used cache bounded by bytes.

* Asking for a set of keys replaces the wanted set. A key already wanted keeps its
  ticket; every other key gets the next ticket (tickets count from 1), and a fetch of it
  starts unless its chunk is cached. Repeated keys count once.
* What fetches deliver is queued, and applied only when the queue is flushed. An arrival
  whose ticket is not the wanted ticket of its key is stale and dropped (and counted). A
  failed fetch, an empty delivery or a chunk whose layout does not check makes the key no
  longer wanted. Otherwise the chunk is cached, which may push other chunks out, or may be
  refused when it does not fit.
* After a flush, every key pushed out is no longer wanted and is announced as evicted, in
  the order they went; then every cached arrival that is still cached is announced as
  ready, in arrival order, and counted.
* A chunk costs its data bytes and 48 bytes per instance.
-/

namespace AnnotationStore.Chunk

inductive Delivery where
  | chunk (b : PackedBuffer)
  /-- A fetch that gave neither a chunk nor an error. -/
  | nothing
  | failed (reason : String)

/-- The chunk a delivery brings, if it brings one whose layout checks. -/
def Delivery.accepted : Delivery → Option PackedBuffer
  | .chunk b => if b.validate.isOk then some b else none
  | _ => none

/-- A delivery for a ticket of a key. -/
structure Arrival where
  key : String
  ticket : Nat
  delivery : Delivery

inductive Event where
  | evicted (key : String)
  | ready (key : String)

/-- The cost of a chunk in the cache: its data bytes and 48 bytes per instance. -/
def cost (b : PackedBuffer) : Int := b.data.size + 48 * b.size

/-- The byte budget of the cache when none is given. -/
def defaultCapacity : Int := 64 * 1024 * 1024

/-- The wanted keys with their tickets, the cached chunks and the queued arrivals. -/
structure Manager where
  cache : Lru String PackedBuffer
  /-- Wanted keys and their tickets, in the order they were asked for. -/
  wanted : List (String × Nat) := []
  lastTicket : Nat := 0
  /-- How many stale arrivals were dropped. -/
  dropped : Nat := 0
  /-- Arrivals not yet applied, in arrival order. -/
  queue : List Arrival := []
  deliveries : Nat := 0

namespace Manager

/-- A manager with a cache budget (a budget that is not positive means the default) and
an optional memory controller. -/
def make (capacity : Int) (controller : Option Controller) : Manager :=
  { cache := Lru.empty (if 0 < capacity then capacity else defaultCapacity) cost controller }

/-- Wants exactly `keys`. Gives the tickets whose fetches start, in order. -/
def request (m : Manager) (keys : List String) : Manager × List (String × Nat) :=
  let (next, last, starts) := keys.foldl (fun (next, last, starts) k =>
    if (next.lookup k).isSome then (next, last, starts)
    else match m.wanted.lookup k with
      | some t => (next ++ [(k, t)], last, starts)
      | none =>
        let t := last + 1
        (next ++ [(k, t)], t, if m.cache.contains k then starts else starts ++ [(k, t)]))
    (([] : List (String × Nat)), m.lastTicket, ([] : List (String × Nat)))
  ({ m with wanted := next, lastTicket := last }, starts)

/-- The wanted keys that are not cached, with their tickets, sorted by key. -/
def pending (m : Manager) : List (String × Nat) :=
  (m.wanted.filter fun (k, _) => !m.cache.contains k).mergeSort fun a b => a.1 ≤ b.1

/-- The pending ticket of a key, or 0 when it has none. -/
def pendingTicket (m : Manager) (key : String) : Nat := (m.pending.lookup key).getD 0

def deliver (m : Manager) (a : Arrival) : Manager :=
  { m with queue := m.queue ++ [a], deliveries := m.deliveries + 1 }

/-- Applies one arrival. Gives the key if its chunk was cached, and the keys pushed out. -/
def receive (m : Manager) (a : Arrival) : Manager × Option String × List String :=
  if m.wanted.lookup a.key != some a.ticket then ({ m with dropped := m.dropped + 1 }, none, [])
  else
    match a.delivery.accepted with
    | none => ({ m with wanted := m.wanted.filter (·.1 != a.key) }, none, [])
    | some b =>
      let (ok, cache, gone) := m.cache.set a.key b
      ({ m with cache }, if ok then some a.key else none, gone.map (·.key))

/-- Applies the queued arrivals. Gives how many chunks became available and the events. -/
def flush (m : Manager) : Manager × Nat × List Event :=
  let (m, ready, evicted) := m.queue.foldl (fun (m, ready, evicted) a =>
      let (m, got, gone) := m.receive a
      (m, ready ++ got.toList, evicted ++ gone))
    ({ m with queue := [] }, ([] : List String), ([] : List String))
  let m := { m with wanted := m.wanted.filter fun (k, _) => !evicted.contains k }
  let applied := ready.filter m.cache.contains
  (m, applied.length, evicted.map .evicted ++ applied.map .ready)

/-- The cached chunk of a key; a lookup counts as a use. -/
def chunk (m : Manager) (key : String) : Option PackedBuffer × Manager :=
  let (b, cache) := m.cache.get key
  (b, { m with cache })

/-- Whether every key's chunk is cached. -/
def isReady (m : Manager) (keys : List String) : Bool := keys.all m.cache.contains

/-- The memory charged to the controller, or 0 without one. -/
def memory (m : Manager) : Int := (m.cache.controller.map (·.memoryUsed)).getD 0

end Manager

end AnnotationStore.Chunk
