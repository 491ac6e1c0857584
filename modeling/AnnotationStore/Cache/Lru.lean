import AnnotationStore.Resource.Controller
/-!
# Least-recently-used cache

A cache bounded by the summed cost of its values. Entries are kept most recently used
first; a lookup that finds its key moves it to the front and counts a hit, one that does
not counts a miss. Every operation reports the entries it removed, in the order they went.

Setting a new key first removes least recently used entries until the value fits, and only
then asks the memory controller for its cost, so a refused value may still have pushed
others out. Setting a key already present asks the controller only for the growth, and
then trims from the back. A value costing more than the whole capacity is never cached.
-/

namespace AnnotationStore

structure LruEntry (κ ν : Type) where
  key : κ
  value : ν
  cost : Int

/-- A cost-bounded least-recently-used cache. -/
structure Lru (κ ν : Type) where
  capacity : Int
  cost : ν → Int
  /-- Entries, most recently used first. -/
  entries : List (LruEntry κ ν) := []
  size : Int := 0
  hits : Nat := 0
  misses : Nat := 0
  controller : Option Controller := none

namespace Lru

variable {κ ν : Type} [BEq κ]

def empty (capacity : Int) (cost : ν → Int) (controller : Option Controller) : Lru κ ν :=
  { capacity := capacity, cost := cost, controller := controller }

def len (c : Lru κ ν) : Nat := c.entries.length

def find? (c : Lru κ ν) (k : κ) : Option (LruEntry κ ν) := c.entries.find? (·.key == k)

/-- Whether a key is cached; recency and counts are left alone. -/
def contains (c : Lru κ ν) (k : κ) : Bool := (c.find? k).isSome

def without (c : Lru κ ν) (k : κ) : List (LruEntry κ ν) := c.entries.filter fun e => !(e.key == k)

/-- Looks a key up, marking it recently used. -/
def get (c : Lru κ ν) (k : κ) : Option ν × Lru κ ν :=
  match c.find? k with
  | some e => (some e.value, { c with entries := e :: c.without k, hits := c.hits + 1 })
  | none => (none, { c with misses := c.misses + 1 })

/-- Drops an entry, giving its memory back. -/
def drop (c : Lru κ ν) (e : LruEntry κ ν) : Lru κ ν :=
  { c with
    entries := c.without e.key
    size := c.size - e.cost
    controller := releaseMemory? c.controller e.cost }

/-- Drops least recently used entries while `tooBig` holds; `fuel` bounds the drops. -/
def trim (tooBig : Lru κ ν → Bool) : Nat → Lru κ ν → Lru κ ν × List (LruEntry κ ν)
  | 0, c => (c, [])
  | fuel + 1, c =>
    if tooBig c then
      match c.entries.getLast? with
      | some e =>
        let (c, gone) := trim tooBig fuel (c.drop e)
        (c, e :: gone)
      | none => (c, [])
    else (c, [])

/-- Caches a value. Gives whether it was cached and the entries removed. -/
def set (c : Lru κ ν) (k : κ) (v : ν) : Bool × Lru κ ν × List (LruEntry κ ν) :=
  let cost := c.cost v
  if c.capacity < cost then (false, c, [])
  else
    match c.find? k with
    | some e =>
      let (ok, rc) := if e.cost < cost then tryAcquireMemory? c.controller (cost - e.cost)
        else (true, c.controller)
      if !ok then (false, c, [])
      else
        let rc := if cost < e.cost then releaseMemory? rc (e.cost - cost) else rc
        let c := { c with
          entries := ⟨k, v, cost⟩ :: c.without k
          size := c.size + cost - e.cost
          controller := rc }
        let (c, gone) := trim (fun c => c.capacity < c.size) c.len c
        (true, c, gone)
    | none =>
      let (c, gone) := trim (fun c => c.capacity < c.size + cost) c.len c
      let (ok, rc) := tryAcquireMemory? c.controller cost
      if !ok then (false, c, gone)
      else
        let c := { c with
          entries := ⟨k, v, cost⟩ :: c.entries
          size := c.size + cost
          controller := rc }
        (true, c, gone)

/-- Removes a key. Gives whether it was cached. -/
def remove (c : Lru κ ν) (k : κ) : Bool × Lru κ ν × List (LruEntry κ ν) :=
  match c.find? k with
  | some e => (true, c.drop e, [e])
  | none => (false, c, [])

/-- Removes every entry whose key satisfies `p`. -/
def invalidate (c : Lru κ ν) (p : κ → Bool) : Lru κ ν × List (LruEntry κ ν) :=
  let gone := c.entries.filter fun e => p e.key
  (gone.foldl drop c, gone)

def purge (c : Lru κ ν) : Lru κ ν × List (LruEntry κ ν) := c.invalidate fun _ => true

end Lru

end AnnotationStore
