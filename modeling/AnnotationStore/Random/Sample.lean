import AnnotationStore.Random.Draw
import AnnotationStore.Annotation.Basic
import AnnotationStore.Bytes.Hex
/-!
# Sample annotations

A seeded source of sample data: coordinates, Zipf-distributed segment ids and whole
annotations, the same for the same seed and the same calls.

* A coordinate triple draws three binary32 fractions `f` and gives `lo + f * (hi - lo)` in
  binary32 arithmetic.
* A Zipf draw over `n` values with exponent `e` gives `k - 1` for the first `k` whose
  cumulative weight `Σ_{i ≤ k} i^-e` reaches a fraction of the total weight; fewer than
  two values give 0 without drawing.
* Segment lists make `count` Zipf draws over the universe and keep the first of each id
  (ids count from 1).
* An annotation takes the next number, giving the id `seed · 2^32 + number` as 16
  hexadecimal digits (modulo 2^64), then draws a category label, a segment list of up to
  two ids, and its geometry: coordinates in `[-100, 100)`, ellipsoid radii in
  `[0.5, 10)`, 3 to 8 polygon points and 2 to 8 line string points.
* A batch of `n` annotations cycles through the kinds in order.
-/

namespace AnnotationStore.Random

/-- The category labels samples draw from. -/
def labels : List String := ["", "synapse", "soma", "error"]

/-- A seeded sample source. -/
structure Sampler where
  seed : Int
  source : Source
  issued : Nat := 0

namespace Sampler

def make (seed : Int) : Sampler := { seed, source := Source.seeded seed }

def reset (s : Sampler) : Sampler := make s.seed

/-- A uniform integer below `n`; none when `n` is not positive. -/
def below (s : Sampler) (n : Int) : Option (Nat × Sampler) :=
  (s.source.below n).map fun (v, src) => (v, { s with source := src })

def pick (s : Sampler) (n : Nat) : Nat × Sampler :=
  ((s.below n).getD (0, s))

def fraction32 (s : Sampler) : Float32 × Sampler :=
  let (f, src) := s.source.fraction32
  (f, { s with source := src })

/-- A coordinate triple with each coordinate in `[lo, hi)`. -/
def vec3 (s : Sampler) (lo hi : Float32) : Vec3 × Sampler :=
  let span := hi - lo
  let (a, s) := s.fraction32
  let (b, s) := s.fraction32
  let (c, s) := s.fraction32
  (⟨lo + a * span, lo + b * span, lo + c * span⟩, s)

/-- The weight of the `i`-th of the Zipf values. -/
def weight (e : Float) (i : Nat) : Float := 1 / Float.pow i.toFloat e

/-- The index of the first value whose cumulative weight reaches `u`, from value `k` on. -/
def firstReaching (e u : Float) (n : Nat) : Nat → Nat → Float → Nat
  | 0, _, _ => n - 1
  | fuel + 1, k, acc =>
    let acc := acc + weight e k
    if u ≤ acc then k - 1 else firstReaching e u n fuel (k + 1) acc

/-- A Zipf-distributed index below `n` with exponent `e`. -/
def zipf (s : Sampler) (n : Int) (e : Float) : Nat × Sampler :=
  if n ≤ 1 then (0, s)
  else
    let n := n.toNat
    let total := (List.range n).foldl (fun acc i => acc + weight e (i + 1)) 0
    let (f, src) := s.source.fraction
    (firstReaching e (f * total) n n 1 0, { s with source := src })

/-- Segment ids from `count` Zipf draws over `range` values, first occurrences kept. -/
def segments (s : Sampler) (count range : Int) (e : Float) : List SegmentId × Sampler :=
  (List.range count.toNat).foldl (fun (out, s) _ =>
    let (k, s) := s.zipf range e
    let id : SegmentId := (k + 1).toUInt64
    (if out.contains id then out else out ++ [id], s)) ([], s)

/-- Coordinate triples in `[-100, 100)`. -/
def points (s : Sampler) (n : Nat) : List Vec3 × Sampler :=
  (List.range n).foldl (fun (out, s) _ =>
    let (p, s) := s.vec3 (-100) 100
    (out ++ [p], s)) ([], s)

def shape (s : Sampler) : Kind → Shape × Sampler
  | .point => let (p, s) := s.vec3 (-100) 100; (.point p, s)
  | .line =>
    let (a, s) := s.vec3 (-100) 100
    let (b, s) := s.vec3 (-100) 100
    (.line a b, s)
  | .box =>
    let (a, s) := s.vec3 (-100) 100
    let (b, s) := s.vec3 (-100) 100
    (.box a b, s)
  | .ellipsoid =>
    let (c, s) := s.vec3 (-100) 100
    let (r, s) := s.vec3 0.5 10
    (.ellipsoid c r, s)
  | .polygon =>
    let (n, s) := s.pick 6
    let (ps, s) := s.points (3 + n)
    (.polygon ps, s)
  | .lineString =>
    let (n, s) := s.pick 7
    let (ps, s) := s.points (2 + n)
    (.lineString ps, s)

/-- The next number, and the id, label and segments of an annotation with it. -/
def info (s : Sampler) : Info × Sampler :=
  let s := { s with issued := s.issued + 1 }
  let id := Hex.fixed 16 (((UInt64.ofInt s.seed <<< 32) ||| s.issued.toUInt64).toNat)
  let (l, s) := s.pick labels.length
  let (count, s) := s.pick 3
  let (segs, s) := s.segments count 1000 1.5
  ({ id, annType := labels.getD l "", segments := segs }, s)

def annotation (s : Sampler) (k : Kind) : Annotation × Sampler :=
  let (i, s) := s.info
  let (sh, s) := s.shape k
  ({ info := i, shape := sh }, s)

/-- `n` sample annotations, cycling through the kinds. -/
def annotations (s : Sampler) (n : Nat) : List Annotation × Sampler :=
  (List.range n).foldl (fun (out, s) i =>
    let (a, s) := s.annotation (Kind.all.getD (i % Kind.all.length) .point)
    (out ++ [a], s)) ([], s)

end Sampler

end AnnotationStore.Random
