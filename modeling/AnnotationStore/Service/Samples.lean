import AnnotationStore.Service.Request
import AnnotationStore.Service.Answer
import AnnotationStore.Random.Sample
/-!
# The sample data program

A scripted run of a seeded sample source. Each step is answered by its value. A bound
that is not positive, an unknown kind or a negative count is refused as a panic; an
unknown kind still takes the next number and draws the label and segments first.
-/

namespace AnnotationStore.Service

open Read AnnotationStore.Random

def sampleStep (s : Sampler) (j : Json) : Json × Sampler :=
  match text j "do" with
  | "seed" => (Write.int s.seed, s)
  | "reset" => (.null, s.reset)
  | "intn" =>
    match s.below (int j "n") with
    | some (v, s) => (Write.nat v, s)
    | none => (Write.panic, s)
  | "float32" => let (f, s) := s.fraction32; (Write.float32 f, s)
  | "vec3" => let (v, s) := s.vec3 (float32Of (field j "min")) (float32Of (field j "max")); (Write.vec3 v, s)
  | "zipf" => let (k, s) := s.zipf (int j "n") (float j "s"); (Write.nat k, s)
  | "segments" =>
    let (ids, s) := s.segments (int j "count") (int j "universe") (float j "s")
    (.arr (ids.map fun x => Write.decimal x.toNat), s)
  | "annotation" =>
    let k := if int j "type" < 0 then none else Kind.ofIndex? (int j "type").toNat
    match k with
    | some k => let (a, s) := s.annotation k; (Write.annotation a, s)
    | none => (Write.panic, s.info.2)
  | "annotations" =>
    if int j "n" < 0 then (Write.panic, s)
    else
      let (as, s) := s.annotations (nat j "n")
      let counts := Kind.all.map fun k => Write.nat (as.filter (·.kind == k)).length
      (.obj [("annotations", .arr (as.map Write.annotation)), ("by_type_counts", .arr counts)], s)
  | _ => (Write.panic, s)

def sampleSteps : List Json → Sampler → List Json
  | [], _ => []
  | j :: rest, s => let (a, s) := sampleStep s j; a :: sampleSteps rest s

def testutilAnswer (j : Json) : Json :=
  .obj [("steps", .arr (sampleSteps (items j "steps") (Sampler.make (int j "seed"))))]

end AnnotationStore.Service
