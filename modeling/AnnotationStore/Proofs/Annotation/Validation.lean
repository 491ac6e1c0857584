import Mathlib
import AnnotationStore.Annotation.Plain
/-!
# What reading a plain form accepts

`Plain.toAnnotation` checks a plain form in a fixed order and stops at the first check that
fails. `Plain.faults` lists every check that fails, in that order, without stopping: the tag,
then the geometry keys of the tag's kind (for each coordinate list its count before its
finiteness, the radii's sign after both vectors, a polyline's point count before its points),
then each segment's high and low word. Reading fails with the head of that list and succeeds
when it is empty (`toAnnotation_firstFault`). The list is empty exactly for the forms that
`Plain.Valid` describes (`faults_eq_nil_iff`), so reading accepts exactly those, and every
fault it reports is about a single value, at index `-1` (`toAnnotation_accepts_valid`).
-/

namespace AnnotationStore

/-! ## Decimal words -/

/-- The value of a run of decimal digits, most significant first. -/
def decimalValue (cs : List Char) : Nat := Nat.ofDigits 10 (cs.reverse.map fun c => c.toNat - 48)

theorem decimalValue_append_singleton (cs : List Char) (c : Char) :
    decimalValue (cs ++ [c]) = decimalValue cs * 10 + (c.toNat - 48) := by
  simp only [decimalValue, List.reverse_append, List.reverse_singleton, List.singleton_append,
    List.map_cons, Nat.ofDigits_cons]
  ring

/-- Summing digits from the left, ten times the sum so far plus the next digit, gives the
decimal value. -/
theorem foldl_digits_eq_decimalValue (cs : List Char) :
    cs.foldl (fun acc c => acc * 10 + (c.toNat - 48)) 0 = decimalValue cs := by
  induction cs using List.reverseRecOn with
  | nil => rfl
  | append_singleton cs c ih => rw [List.foldl_append, ih, decimalValue_append_singleton]; rfl

/-- A 32-bit word in decimal: a non-empty run of ASCII digits, leading zeros allowed, whose
value is below `2 ^ 32`. -/
def DecimalWord (s : String) : Prop :=
  s.toList ≠ [] ∧ (∀ c ∈ s.toList, c.isDigit) ∧ decimalValue s.toList < 2 ^ 32

instance (s : String) : Decidable (DecimalWord s) := inferInstanceAs (Decidable (_ ∧ _ ∧ _))

namespace Segment

theorem word?_eq_some_iff {s : String} {n : Nat} :
    word? s = some n ↔ DecimalWord s ∧ decimalValue s.toList = n := by
  have hdigits : s.toList.all Char.isDigit = true ↔ ∀ c ∈ s.toList, c.isDigit := List.all_eq_true
  unfold word?
  simp only [DecimalWord, List.isEmpty_iff, foldl_digits_eq_decimalValue, ← hdigits]
  split_ifs with hbad hlt
  · -- empty, or holding a character that is no digit
    simp only [false_iff, not_and]
    intro hne hall
    simp_all
  · simp_all
  · simp_all

theorem word?_eq_none_iff {s : String} : word? s = none ↔ ¬DecimalWord s := by
  constructor
  · intro h hw
    have := word?_eq_some_iff.mpr ⟨hw, rfl⟩
    simp [h] at this
  · intro h
    cases hs : word? s with
    | none => rfl
    | some n => exact absurd (word?_eq_some_iff.mp hs).1 h

end Segment

theorem Kind.parse?_eq_some_iff {s : String} {k : Kind} : Kind.parse? s = some k ↔ s = k.tag := by
  constructor
  · intro h
    unfold Kind.parse? at h
    have htag := List.find?_some h
    exact (beq_iff_eq.mp htag).symm
  · rintro rfl
    exact parse?_tag k

/-! ## Failing with the first fault -/

/-- A computation that fails with the first fault of a list, and succeeds when the list is
empty. -/
def FirstFault {α : Type} (r : Except Malformed α) : List Malformed → Prop
  | [] => ∃ a, r = .ok a
  | m :: _ => r = .error m

namespace FirstFault

variable {α β : Type} {r : Except Malformed α} {fs gs : List Malformed}

theorem error_iff (h : FirstFault r fs) (m : Malformed) : r = .error m ↔ fs.head? = some m := by
  cases fs with
  | nil =>
    obtain ⟨a, rfl⟩ := h
    simp
  | cons m' _ =>
    rw [show r = .error m' from h]
    simp [eq_comm]

theorem ok_iff (h : FirstFault r fs) : (∃ a, r = .ok a) ↔ fs = [] := by
  cases fs with
  | nil => exact ⟨fun _ => rfl, fun _ => h⟩
  | cons m' _ =>
    rw [show r = .error m' from h]
    simp

/-- Running one computation after another fails with the first fault of the first, else with
the first fault of the second. -/
theorem bind {f : α → Except Malformed β} (hr : FirstFault r fs)
    (hf : ∀ a, r = .ok a → FirstFault (f a) gs) : FirstFault (r >>= f) (fs ++ gs) := by
  cases fs with
  | nil =>
    obtain ⟨a, rfl⟩ := hr
    exact hf a rfl
  | cons m _ =>
    rw [show r = .error m from hr]
    rfl

theorem map (h : FirstFault r fs) (f : α → β) : FirstFault (f <$> r) fs := by
  cases fs with
  | nil =>
    obtain ⟨a, rfl⟩ := h
    exact ⟨f a, rfl⟩
  | cons m _ =>
    rw [show r = .error m from h]
    rfl

theorem pure (a : α) : FirstFault (Pure.pure a : Except Malformed α) [] := ⟨a, rfl⟩

theorem error (m : Malformed) : FirstFault (Except.error m : Except Malformed α) [m] := rfl

/-- Reading a list item by item fails with the first fault of the first item that has one. -/
theorem mapM {γ : Type} {f : γ → Except Malformed α} {g : γ → List Malformed}
    (h : ∀ x, FirstFault (f x) (g x)) : ∀ l : List γ, FirstFault (l.mapM f) (l.flatMap g)
  | [] => ⟨[], rfl⟩
  | x :: l => by
    rw [List.mapM_cons, List.flatMap_cons]
    refine bind (h x) fun a _ => ?_
    simpa using bind (mapM h l) fun as _ => pure (a :: as)

end FirstFault

/-! ## The checks -/

namespace Plain

/-- The faults of a coordinate list read as the point of `field`: a count other than three,
then a coordinate that is not finite. -/
def coordFaults (field : String) (cs : List Float32) : List Malformed :=
  (if cs.length = 3 then [] else [.atField field ("expected 3 coordinates, got " ++ toString cs.length)]) ++
    if ∀ x ∈ cs, Coord.isFinite x then [] else [.atField field "non-finite coordinate"]

/-- The fault of radii with a component below zero; `-0` is not below zero. -/
def radiiFaults (radii : List Float32) : List Malformed :=
  if ∃ x ∈ radii, x < 0 then [.atField "radii" "negative radius"] else []

def countFaults (least : Nat) (pts : List (List Float32)) : List Malformed :=
  if least ≤ pts.length then []
  else [.atField "points" ("expected at least " ++ toString least ++ " points, got " ++ toString pts.length)]

/-- The faults of the geometry keys of a kind, in the order its handler reads them. -/
def geometryFaults (p : Plain) : Kind → List Malformed
  | .point => coordFaults "point" p.point
  | .line | .box => coordFaults "pointA" p.pointA ++ coordFaults "pointB" p.pointB
  | .ellipsoid => coordFaults "center" p.center ++ coordFaults "radii" p.radii ++ radiiFaults p.radii
  | .polygon => countFaults 3 p.points ++ p.points.flatMap (coordFaults "points")
  | .lineString => countFaults 2 p.points ++ p.points.flatMap (coordFaults "points")

/-- The fault of one word of a segment pair, with the reason's opening words. -/
def wordFaults (label s : String) : List Malformed :=
  if DecimalWord s then [] else [.atField "segments" (label ++ Quote.quote s)]

/-- The faults of a segment pair: its high word, then its low word. -/
def segmentFaults (seg : String × String) : List Malformed :=
  wordFaults "invalid high word " seg.1 ++ wordFaults "invalid low word " seg.2

/-- Every check of a plain form that fails, in the order reading makes them: the tag, the
geometry keys of its kind, then the segments. -/
def faults (p : Plain) : List Malformed :=
  (match Kind.parse? p.tag with
    | some k => p.geometryFaults k
    | none => [.atField "type" (Quote.quote p.tag)]) ++
    p.segments.flatMap segmentFaults

def CoordsValid (cs : List Float32) : Prop := cs.length = 3 ∧ ∀ x ∈ cs, Coord.isFinite x

/-- The geometry keys of a kind hold what its handler accepts: three finite coordinates in
each, no radius below zero, and at least three points for a polygon and two for a line
string. -/
def GeometryValid (p : Plain) : Kind → Prop
  | .point => CoordsValid p.point
  | .line | .box => CoordsValid p.pointA ∧ CoordsValid p.pointB
  | .ellipsoid => CoordsValid p.center ∧ CoordsValid p.radii ∧ ∀ x ∈ p.radii, ¬x < 0
  | .polygon => 3 ≤ p.points.length ∧ ∀ cs ∈ p.points, CoordsValid cs
  | .lineString => 2 ≤ p.points.length ∧ ∀ cs ∈ p.points, CoordsValid cs

/-- The plain forms reading accepts: the tag is one of the six, the geometry keys of its kind
are valid, and each segment is two decimal words. Keys of other kinds play no part. -/
structure Valid (p : Plain) : Prop where
  kind : ∃ k, p.tag = k.tag ∧ p.GeometryValid k
  segments : ∀ s ∈ p.segments, DecimalWord s.1 ∧ DecimalWord s.2

/-! ## Reading reports the first fault -/

theorem vec3_eq_ok_iff {field : String} {cs : List Float32} {v : Vec3} :
    vec3 field cs = .ok v ↔ cs = v.toList ∧ v.isFinite := by
  unfold vec3
  split
  · rename_i hnone
    simp only [reduceCtorEq, false_iff, not_and]
    rintro rfl
    simp [Vec3.toList, Vec3.ofList?] at hnone
  · rename_i w hsome
    have hcs : cs = w.toList := by
      unfold Vec3.ofList? at hsome
      split at hsome <;> cases hsome
      rfl
    subst hcs
    split
    · rename_i hfin
      simp only [Except.ok.injEq]
      constructor
      · rintro rfl
        exact ⟨rfl, hfin⟩
      · rintro ⟨htl, -⟩
        cases w; cases v
        simp_all [Vec3.toList]
    · rename_i hfin
      simp only [reduceCtorEq, false_iff, not_and]
      intro htl hv
      cases w; cases v
      simp_all [Vec3.toList]

theorem vec3_firstFault (field : String) (cs : List Float32) :
    FirstFault (vec3 field cs) (coordFaults field cs) := by
  by_cases hlen : cs.length = 3
  · obtain ⟨x, y, z, rfl⟩ := List.length_eq_three.mp hlen
    -- three coordinates: only finiteness can fail
    by_cases hfin : Coord.isFinite x ∧ Coord.isFinite y ∧ Coord.isFinite z
    · simp [vec3, Vec3.ofList?, Vec3.isFinite, coordFaults, hfin, FirstFault]
    · simp only [not_and_or] at hfin
      simp [vec3, Vec3.ofList?, Vec3.isFinite, coordFaults, FirstFault]
      grind
  · have hnone : Vec3.ofList? cs = none := by
      unfold Vec3.ofList?
      split
      · simp at hlen
      · rfl
    simp [vec3, hnone, coordFaults, hlen, FirstFault]

theorem vertices_firstFault (least : Nat) (pts : List (List Float32)) :
    FirstFault (vertices least pts) (countFaults least pts ++ pts.flatMap (coordFaults "points")) := by
  unfold vertices countFaults
  by_cases h : pts.length < least
  · rw [if_pos h, if_neg (by omega)]
    rfl
  · rw [if_neg h, if_pos (by omega), List.nil_append]
    exact FirstFault.mapM (vec3_firstFault "points") pts

/-- Reading the radii after both vectors fails exactly when one of them is below zero. -/
theorem radii_firstFault {p : Plain} {c r : Vec3} (hr : p.radii = r.toList) :
    FirstFault (if negative r.x || negative r.y || negative r.z then
        .error (.atField "radii" "negative radius") else Pure.pure (Shape.ellipsoid c r))
      (radiiFaults p.radii) := by
  have hiff : (negative r.x || negative r.y || negative r.z) = true ↔ ∃ x ∈ r.toList, x < 0 := by
    simp [negative, Vec3.toList, or_assoc]
  rw [hr, radiiFaults]
  by_cases hneg : ∃ x ∈ r.toList, x < 0
  · rw [if_pos (hiff.mpr hneg), if_pos hneg]
    rfl
  · rw [if_neg (mt hiff.mp hneg), if_neg hneg]
    exact ⟨_, rfl⟩

theorem shape_firstFault (p : Plain) (k : Kind) : FirstFault (p.shape k) (p.geometryFaults k) := by
  cases k with
  | point =>
    simpa [shape, geometryFaults] using
      (vec3_firstFault "point" p.point).bind fun v _ => FirstFault.pure (Shape.point v)
  | line =>
    simpa [shape, geometryFaults] using
      (vec3_firstFault "pointA" p.pointA).bind fun a _ =>
        (vec3_firstFault "pointB" p.pointB).bind fun b _ => FirstFault.pure (Shape.line a b)
  | box =>
    simpa [shape, geometryFaults] using
      (vec3_firstFault "pointA" p.pointA).bind fun a _ =>
        (vec3_firstFault "pointB" p.pointB).bind fun b _ => FirstFault.pure (Shape.box a b)
  | ellipsoid =>
    simpa [shape, geometryFaults] using
      (vec3_firstFault "center" p.center).bind fun c _ =>
        (vec3_firstFault "radii" p.radii).bind fun r hr => radii_firstFault (vec3_eq_ok_iff.mp hr).1
  | polygon =>
    simpa [shape, geometryFaults, Kind.minPoints] using
      (vertices_firstFault 3 p.points).bind fun ps _ => FirstFault.pure (Shape.polygon ps)
  | lineString =>
    simpa [shape, geometryFaults, Kind.minPoints] using
      (vertices_firstFault 2 p.points).bind fun ps _ => FirstFault.pure (Shape.lineString ps)

theorem decode_firstFault (seg : String × String) : FirstFault (Segment.decode seg) (segmentFaults seg) := by
  unfold Segment.decode segmentFaults wordFaults
  cases h1 : Segment.word? seg.1 with
  | none => simp [Segment.word?_eq_none_iff.mp h1, FirstFault]
  | some hi =>
    have hw1 := (Segment.word?_eq_some_iff.mp h1).1
    cases h2 : Segment.word? seg.2 with
    | none => simp [hw1, Segment.word?_eq_none_iff.mp h2, FirstFault]
    | some lo => simp [hw1, (Segment.word?_eq_some_iff.mp h2).1, FirstFault]

/-- Reading a plain form fails with its first fault, and succeeds when it has none. -/
theorem toAnnotation_firstFault (p : Plain) (fresh : String) :
    FirstFault (p.toAnnotation fresh) p.faults := by
  unfold toAnnotation faults kind
  cases hk : Kind.parse? p.tag with
  | none => simp [FirstFault, bind, Except.bind]
  | some k =>
    have hkind : FirstFault (Except.ok k : Except Malformed Kind) [] := ⟨k, rfl⟩
    simpa using hkind.bind fun k' hk' => by
      cases hk'
      exact (shape_firstFault p k).bind fun s _ => (FirstFault.mapM decode_firstFault p.segments).map _

/-! ## The forms reading accepts -/

theorem coordFaults_eq_nil_iff (field : String) (cs : List Float32) :
    coordFaults field cs = [] ↔ CoordsValid cs := by
  simp [coordFaults, CoordsValid]

theorem geometryFaults_eq_nil_iff (p : Plain) (k : Kind) : p.geometryFaults k = [] ↔ p.GeometryValid k := by
  cases k <;> simp [geometryFaults, GeometryValid, coordFaults_eq_nil_iff, radiiFaults, countFaults]
  -- simp writes the line string's bound as `1 < n`
  exact fun _ => by omega

theorem segmentFaults_eq_nil_iff (seg : String × String) :
    segmentFaults seg = [] ↔ DecimalWord seg.1 ∧ DecimalWord seg.2 := by
  simp [segmentFaults, wordFaults]

instance (p : Plain) (k : Kind) : Decidable (p.GeometryValid k) :=
  decidable_of_iff _ (geometryFaults_eq_nil_iff p k)

/-- No check fails exactly for the valid forms. -/
theorem faults_eq_nil_iff (p : Plain) : p.faults = [] ↔ p.Valid := by
  unfold faults
  rw [List.append_eq_nil_iff, List.flatMap_eq_nil_iff]
  constructor
  · rintro ⟨hgeo, hsegs⟩
    cases hk : Kind.parse? p.tag with
    | none => simp [hk] at hgeo
    | some k =>
      rw [hk] at hgeo
      exact ⟨⟨k, Kind.parse?_eq_some_iff.mp hk, (geometryFaults_eq_nil_iff p k).mp hgeo⟩,
        fun s hs => (segmentFaults_eq_nil_iff s).mp (hsegs s hs)⟩
  · rintro ⟨⟨k, htag, hgeo⟩, hsegs⟩
    rw [htag, Kind.parse?_tag]
    exact ⟨(geometryFaults_eq_nil_iff p k).mpr hgeo, fun s hs => (segmentFaults_eq_nil_iff s).mpr (hsegs s hs)⟩

instance (p : Plain) : Decidable p.Valid := decidable_of_iff _ (faults_eq_nil_iff p)

/-- Every fault is about a single value: it has no payload index. -/
theorem index_of_mem_faults {p : Plain} {m : Malformed} (h : m ∈ p.faults) : m.index = -1 := by
  simp only [faults, List.mem_append, List.mem_flatMap] at h
  rcases h with h | ⟨seg, -, h⟩
  · split at h
    · rename_i k _
      cases k <;>
        simp [geometryFaults, coordFaults, radiiFaults, countFaults] at h <;> grind [Malformed.atField]
    · simp only [List.mem_singleton] at h
      rw [h]
      rfl
  · simp only [segmentFaults, wordFaults] at h
    grind [Malformed.atField]

/-- Reading a plain form succeeds exactly when the form is valid; otherwise it fails with the
first check that fails, in the order the tag, the geometry keys of its kind, the segments,
and that fault is about the value alone, at index `-1`. -/
theorem toAnnotation_accepts_valid (p : Plain) (fresh : String) :
    ((∃ a, p.toAnnotation fresh = .ok a) ↔ p.Valid) ∧
      (∀ m, p.toAnnotation fresh = .error m ↔ p.faults.head? = some m) ∧
      ∀ m ∈ p.faults, m.index = -1 := by
  have h := toAnnotation_firstFault p fresh
  exact ⟨h.ok_iff.trans (faults_eq_nil_iff p), h.error_iff, fun m hm => index_of_mem_faults hm⟩

-- a radius of `-0` is not below zero
example : ({ tag := "ellipsoid", center := [0, 0, 0], radii := [-0, 1, 1] } : Plain).Valid := by decide

-- the point count is checked before the points, and the geometry before the segments
example : ({ tag := "polygon", points := [[0, 0]], segments := [("x", "1")] } : Plain).faults.head? =
    some (.atField "points" "expected at least 3 points, got 1") := by decide

end Plain

end AnnotationStore
