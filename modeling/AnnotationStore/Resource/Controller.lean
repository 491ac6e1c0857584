/-!
# Resource limits

A controller bounds the memory held by cached chunks, the number of fetches in flight and
the bytes read per second.

* Memory is counted always and limited only when the limit is positive: a reservation
  that would pass the limit is refused. Under a limit the reservations are also held by a
  semaphore; releasing more than it holds is a fault that leaves the semaphore lowered
  and the count as it was.
* Fetch slots are a counting semaphore of the configured size (four when none is given);
  releasing a slot that is not taken is a fault that leaves the semaphore lowered.
* Reads draw tokens from a bucket that holds at most one second's worth and starts full.
  Time is not modelled: a bucket refills only while a reader waits for it, so waiting
  for `n` tokens leaves the bucket at `max 0 (tokens - n)`.

Memory amounts that are not positive always succeed and change nothing.
-/

namespace AnnotationStore

/-- The limits a controller is made with; zero means no limit. -/
structure ResourceLimits where
  memory : Int := 0
  fetches : Int := 0
  ioPerSecond : Int := 0

structure Controller where
  limits : ResourceLimits
  memoryUsed : Int := 0
  /-- What the memory semaphore holds, when memory is limited. -/
  memoryHeld : Int := 0
  fetchSlots : Int
  fetchesHeld : Int := 0
  /-- The tokens in the read bucket, when reads are limited. -/
  ioTokens : Int

namespace Controller

def make (l : ResourceLimits) : Controller :=
  { limits := l, fetchSlots := if l.fetches ≤ 0 then 4 else l.fetches,
    ioTokens := l.ioPerSecond }

def memoryLimited (c : Controller) : Bool := 0 < c.limits.memory

/-- Reserves `n` bytes of memory if the limit allows it. -/
def tryAcquireMemory (c : Controller) (n : Int) : Bool × Controller :=
  if n ≤ 0 then (true, c)
  else if !c.memoryLimited then (true, { c with memoryUsed := c.memoryUsed + n })
  else if c.limits.memory - c.memoryHeld < n then (false, c)
  else (true, { c with memoryUsed := c.memoryUsed + n, memoryHeld := c.memoryHeld + n })

/-- Releases `n` bytes of memory. Gives the controller and whether the release faulted. -/
def releaseMemory (c : Controller) (n : Int) : Controller × Bool :=
  if n ≤ 0 then (c, false)
  else if !c.memoryLimited then ({ c with memoryUsed := c.memoryUsed - n }, false)
  else if c.memoryHeld < n then ({ c with memoryHeld := c.memoryHeld - n }, true)
  else ({ c with memoryUsed := c.memoryUsed - n, memoryHeld := c.memoryHeld - n }, false)

/-- Takes a fetch slot; `none` when every slot is taken, where a caller would wait. -/
def acquireFetch (c : Controller) : Option Controller :=
  if c.fetchesHeld < c.fetchSlots then some { c with fetchesHeld := c.fetchesHeld + 1 }
  else none

/-- Gives a fetch slot back. Gives the controller and whether the release faulted. -/
def releaseFetch (c : Controller) : Controller × Bool :=
  ({ c with fetchesHeld := c.fetchesHeld - 1 }, c.fetchesHeld ≤ 0)

def ioLimited (c : Controller) : Bool := 0 < c.limits.ioPerSecond

/-- The bucket as the next call sees it: never above one second's worth. -/
def bucket (c : Controller) : Int := min c.ioTokens c.limits.ioPerSecond

/-- Takes `n` read tokens without waiting, if the bucket holds them. -/
def tryAcquireIO (c : Controller) (n : Int) : Bool × Controller :=
  if !c.ioLimited then (true, c)
  else if n ≤ c.bucket then (true, { c with ioTokens := c.bucket - n })
  else (false, c)

/-- Takes `n` read tokens, waiting as long as needed. -/
def acquireIO (c : Controller) (n : Int) : Controller :=
  if !c.ioLimited ∨ n ≤ 0 then c
  else { c with ioTokens := max 0 (c.bucket - n) }

end Controller

/-- Reserves memory on a controller that may be absent; an absent one allows everything. -/
def tryAcquireMemory? (rc : Option Controller) (n : Int) : Bool × Option Controller :=
  match rc with
  | none => (true, none)
  | some c => let (ok, c) := c.tryAcquireMemory n; (ok, some c)

def releaseMemory? (rc : Option Controller) (n : Int) : Option Controller :=
  rc.map fun c => (c.releaseMemory n).1

end AnnotationStore
