import Mathlib
import AnnotationStore.Proofs.Annotation.Validation
import AnnotationStore.Proofs.Annotation.Plain
import AnnotationStore.Proofs.Buffer.Layout
/-!
# Plain forms, both ways

Writing an annotation as its plain form and reading it back gives the annotation again when
it has an id, finite coordinates, no radius below zero and as many points as its polyline
needs (`toAnnotation_toPlain_eq`); box corners keep their order, and segment ids come back
from their two decimal words. Reading a plain form that has an id and writing it back gives
the form in canonical shape (`toPlain_toAnnotation_eq`): the geometry keys of its kind alone,
and each segment word in canonical decimal, without leading zeros. What reading builds is
itself read back unchanged, so writing after reading is idempotent
(`plain_form_round_trips`).
-/

namespace AnnotationStore

/-! ## Readings that succeed -/

section Inversion
variable {ε α β : Type} {x : Except ε α} {b : β}

@[simp] theorem pure_eq_ok_iff {a : α} {a' : α} : (pure a : Except ε α) = .ok a' ↔ a = a' := by
  simp [pure, Except.pure]

/-- A traversal that succeeds pairs each item with its result. -/
theorem forall₂_of_mapM_eq_ok {f : α → Except ε β} :
    ∀ {l : List α} {r : List β}, l.mapM f = .ok r → List.Forall₂ (fun x y => f x = .ok y) l r
  | [], r, h => by
    rw [List.mapM_nil] at h
    cases h
    exact .nil
  | x :: l, r, h => by
    rw [List.mapM_cons, bind_eq_ok_iff] at h
    obtain ⟨y, hy, h⟩ := h
    rw [bind_eq_ok_iff] at h
    obtain ⟨ys, hys, h⟩ := h
    cases h
    exact .cons hy (forall₂_of_mapM_eq_ok hys)

end Inversion

theorem Coord.not_lt_zero_of_nonneg {x : Float32} (h : 0 ≤ x) : ¬x < 0 := by
  have hzero : (0 : Float32).toModel.unpack = .zero .positive := rfl
  have hle : (0 : Float32).toModel.unpack.le x.toModel.unpack = true := of_decide_eq_true h
  intro hlt
  have hlt' : x.toModel.unpack.lt (0 : Float32).toModel.unpack = true := of_decide_eq_true hlt
  rw [hzero] at hle hlt'
  generalize x.toModel.unpack = u at hle hlt'
  -- at or above zero: a zero, a positive number or positive infinity; none is below zero
  rcases u with ⟨_ | _⟩ | _ | ⟨_ | _⟩ | ⟨_ | _, m, e, _⟩ <;>
    simp_all [Float.Model.UnpackedFloat.le, Float.Model.UnpackedFloat.lt,
      Float.Model.UnpackedFloat.compare]

/-! ## Writing, then reading -/

/-- The vectors a shape is given by, in the order its plain form lists them. -/
def Shape.vectors : Shape → List Vec3
  | .point p => [p]
  | .line a b | .box a b => [a, b]
  | .ellipsoid c r => [c, r]
  | .polygon ps | .lineString ps => ps

/-- Finite vectors, radii at or above zero and enough points for a polyline make a shape
storable. -/
theorem Shape.storable_of {s : Shape} (hfinite : ∀ v ∈ s.vectors, v.isFinite)
    (hradii : ∀ c r, s = .ellipsoid c r → 0 ≤ r.x ∧ 0 ≤ r.y ∧ 0 ≤ r.z)
    (hpolygon : ∀ ps, s = .polygon ps → 3 ≤ ps.length)
    (hlineString : ∀ ps, s = .lineString ps → 2 ≤ ps.length) : s.Storable := by
  cases s with
  | point p => exact hfinite p (by simp [vectors])
  | line a b | box a b => exact ⟨hfinite a (by simp [vectors]), hfinite b (by simp [vectors])⟩
  | ellipsoid c r =>
    obtain ⟨hx, hy, hz⟩ := hradii c r rfl
    refine ⟨hfinite c (by simp [vectors]), hfinite r (by simp [vectors]), ?_⟩
    simp [Plain.negative, Coord.not_lt_zero_of_nonneg hx, Coord.not_lt_zero_of_nonneg hy,
      Coord.not_lt_zero_of_nonneg hz]
  | polygon ps => exact ⟨hpolygon ps rfl, fun p hp => hfinite p hp⟩
  | lineString ps => exact ⟨hlineString ps rfl, fun p hp => hfinite p hp⟩

/-- An annotation with an id, finite coordinates, radii at or above zero and enough points is
read back from its plain form as it was, whatever fresh id reading is offered. -/
theorem toAnnotation_toPlain_eq {a : Annotation} (hid : a.id ≠ "")
    (hfinite : ∀ v ∈ a.shape.vectors, v.isFinite)
    (hradii : ∀ c r, a.shape = .ellipsoid c r → 0 ≤ r.x ∧ 0 ≤ r.y ∧ 0 ≤ r.z)
    (hpolygon : ∀ ps, a.shape = .polygon ps → 3 ≤ ps.length)
    (hlineString : ∀ ps, a.shape = .lineString ps → 2 ≤ ps.length) (fresh : String) :
    a.toPlain.toAnnotation fresh = .ok a :=
  Annotation.toAnnotation_toPlain_of_shape hid (Shape.storable_of hfinite hradii hpolygon hlineString) fresh

/-! ## Reading, then writing -/

namespace Segment

/-- The two words of a segment pair in canonical decimal: each word's value, written without
leading zeros. -/
def canonical (seg : String × String) : String × String :=
  (toString (decimalValue seg.1.toList), toString (decimalValue seg.2.toList))

/-- A segment id read from two words is written back as the words in canonical decimal. -/
theorem encode_of_decode_eq_ok {seg : String × String} {id : UInt64} (h : decode seg = .ok id) :
    encode id = canonical seg := by
  unfold decode at h
  cases h1 : word? seg.1 with
  | none => simp [h1] at h
  | some hi =>
    cases h2 : word? seg.2 with
    | none => simp [h1, h2] at h
    | some lo =>
      simp only [h1, h2, Except.ok.injEq] at h
      subst h
      obtain ⟨⟨-, -, hhi⟩, rfl⟩ := word?_eq_some_iff.mp h1
      obtain ⟨⟨-, -, hlo⟩, rfl⟩ := word?_eq_some_iff.mp h2
      -- below `2 ^ 64`, the id's high and low words are the two values read
      have hval : (decimalValue seg.1.toList * 2 ^ 32 + decimalValue seg.2.toList).toUInt64.toNat =
          decimalValue seg.1.toList * 2 ^ 32 + decimalValue seg.2.toList := by
        rw [Nat.toUInt64_eq, UInt64.toNat_ofNat']
        exact Nat.mod_eq_of_lt (by omega)
      simp only [encode, canonical, hval]
      congr 2 <;> omega

theorem map_encode_of_mapM_decode {segs : List (String × String)} {ids : List UInt64}
    (h : segs.mapM decode = .ok ids) : ids.map encode = segs.map canonical := by
  have hall := forall₂_of_mapM_eq_ok h
  clear h
  induction hall with
  | nil => rfl
  | cons hx _ ih => simp [encode_of_decode_eq_ok hx, ih]

end Segment

namespace Plain

/-- The plain form as reading it and writing it back gives it: each geometry key is kept when
it is a key of kind `k` and cleared otherwise, and each segment word is in canonical
decimal. -/
def canonical (p : Plain) (k : Kind) : Plain :=
  { p with
    segments := p.segments.map Segment.canonical
    point := if k = .point then p.point else []
    pointA := if k = .line ∨ k = .box then p.pointA else []
    pointB := if k = .line ∨ k = .box then p.pointB else []
    center := if k = .ellipsoid then p.center else []
    radii := if k = .ellipsoid then p.radii else []
    points := if k = .polygon ∨ k = .lineString then p.points else [] }

theorem mapM_vec3_eq_ok {field : String} {pts : List (List Float32)} {ps : List Vec3}
    (h : pts.mapM (vec3 field) = .ok ps) : pts = ps.map Vec3.toList ∧ ∀ v ∈ ps, v.isFinite := by
  have hall := forall₂_of_mapM_eq_ok h
  clear h
  induction hall with
  | nil => simp
  | cons hx _ ih =>
    obtain ⟨rfl, hfin⟩ := vec3_eq_ok_iff.mp hx
    obtain ⟨rfl, hrest⟩ := ih
    simp_all

theorem vertices_eq_ok {least : Nat} {pts : List (List Float32)} {ps : List Vec3}
    (h : vertices least pts = .ok ps) :
    least ≤ pts.length ∧ pts = ps.map Vec3.toList ∧ ∀ v ∈ ps, v.isFinite := by
  unfold vertices at h
  split at h
  · cases h
  · exact ⟨by omega, mapM_vec3_eq_ok h⟩

/-- The geometry a kind reads is a storable shape of that kind, and writing it back puts under
the kind's keys exactly what the form held there. -/
theorem shape_eq_ok {p : Plain} {k : Kind} {s : Shape} (hs : p.shape k = .ok s) (info : Info) :
    s.kind = k ∧ s.Storable ∧
      (⟨info, s⟩ : Annotation).toPlain =
        { p.canonical k with
          id := info.id, tag := k.tag, description := info.description, annType := info.annType,
          reviewed := info.reviewed, visited := info.visited,
          segments := info.segments.map Segment.encode, size := info.size } := by
  cases k with
  | point =>
    simp only [shape, bind_eq_ok_iff, pure_eq_ok_iff] at hs
    obtain ⟨v, hv, rfl⟩ := hs
    obtain ⟨hpt, hfin⟩ := vec3_eq_ok_iff.mp hv
    refine ⟨rfl, hfin, ?_⟩
    simp [ Annotation.toPlain, canonical, Annotation.kind, Shape.kind, hpt]
  | line | box =>
    simp only [shape, bind_eq_ok_iff, pure_eq_ok_iff] at hs
    obtain ⟨a, ha, b, hb, rfl⟩ := hs
    obtain ⟨hpa, hfa⟩ := vec3_eq_ok_iff.mp ha
    obtain ⟨hpb, hfb⟩ := vec3_eq_ok_iff.mp hb
    refine ⟨rfl, ⟨hfa, hfb⟩, ?_⟩
    simp [ Annotation.toPlain, canonical, Annotation.kind, Shape.kind, hpa, hpb]
  | ellipsoid =>
    simp only [shape, bind_eq_ok_iff, ite_error_eq_ok, pure_eq_ok_iff] at hs
    obtain ⟨c, hc, r, hr, hneg, hs⟩ := hs
    cases hs
    obtain ⟨hpc, hfc⟩ := vec3_eq_ok_iff.mp hc
    obtain ⟨hpr, hfr⟩ := vec3_eq_ok_iff.mp hr
    refine ⟨rfl, ⟨hfc, hfr, by simpa using hneg⟩, ?_⟩
    simp [ Annotation.toPlain, canonical, Annotation.kind, Shape.kind, hpc, hpr]
  | polygon | lineString =>
    simp only [shape, bind_eq_ok_iff, pure_eq_ok_iff] at hs
    obtain ⟨ps, hps, rfl⟩ := hs
    obtain ⟨hlen, hpts, hfin⟩ := vertices_eq_ok hps
    refine ⟨rfl, ⟨by simpa [Kind.minPoints, hpts] using hlen, hfin⟩, ?_⟩
    simp [ Annotation.toPlain, canonical, Annotation.kind, Shape.kind, hpts]

/-- What a successful reading builds: the kind the tag names, the geometry that kind reads,
the segments read, and the descriptive fields as they stand. -/
theorem toAnnotation_eq_ok {p : Plain} {fresh : String} {a : Annotation}
    (h : p.toAnnotation fresh = .ok a) :
    ∃ k s segs, Kind.parse? p.tag = some k ∧ p.shape k = .ok s ∧
      p.segments.mapM Segment.decode = .ok segs ∧
      a = ⟨{ id := if p.id.isEmpty then fresh else p.id
             description := p.description, annType := p.annType, reviewed := p.reviewed,
             visited := p.visited, segments := segs, size := p.size }, s⟩ := by
  unfold toAnnotation kind at h
  cases hk : Kind.parse? p.tag with
  | none => simp [hk] at h
  | some k =>
    simp only [hk, bind_eq_ok_iff, pure_eq_ok_iff, Except.ok.injEq] at h
    obtain ⟨_, rfl, s, hs, segs, hsegs, rfl⟩ := h
    exact ⟨k, s, segs, rfl, hs, hsegs, rfl⟩

/-- A form read with an id is written back in canonical shape, under the kind its tag names. -/
theorem toPlain_toAnnotation_eq {p : Plain} {fresh : String} {a : Annotation}
    (h : p.toAnnotation fresh = .ok a) (hid : p.id ≠ "") :
    p.tag = a.kind.tag ∧ a.toPlain = p.canonical a.kind := by
  obtain ⟨k, s, segs, hk, hs, hsegs, rfl⟩ := toAnnotation_eq_ok h
  have htag := Kind.parse?_eq_some_iff.mp hk
  have hnonempty : p.id.isEmpty = false := by simpa [String.isEmpty_iff] using hid
  obtain ⟨hkind, -, hplain⟩ := shape_eq_ok hs
    { id := if p.id.isEmpty then fresh else p.id
      description := p.description, annType := p.annType, reviewed := p.reviewed,
      visited := p.visited, segments := segs, size := p.size }
  have hcanon := Segment.map_encode_of_mapM_decode hsegs
  simp only [ Annotation.kind, hkind]
  refine ⟨htag, ?_⟩
  rw [hplain, hcanon, hnonempty, ← htag]
  rfl

/-- What reading builds from a form with an id is read back unchanged from its own plain form. -/
theorem toAnnotation_toPlain_of_toAnnotation {p : Plain} {fresh : String} {a : Annotation}
    (h : p.toAnnotation fresh = .ok a) (hid : p.id ≠ "") (fresh' : String) :
    a.toPlain.toAnnotation fresh' = .ok a := by
  obtain ⟨k, s, segs, -, hs, -, rfl⟩ := toAnnotation_eq_ok h
  have hnonempty : p.id.isEmpty = false := by simpa [String.isEmpty_iff] using hid
  refine Annotation.toAnnotation_toPlain_of_shape ?_ (shape_eq_ok hs default).2.1 fresh'
  simpa [ Annotation.id, hnonempty] using hid

end Plain

/-- Plain forms both ways. An annotation with an id, finite coordinates, radii at or above
zero and enough points is read back from its plain form as it was, segment ids included. A
form read with an id is written back in canonical shape, under the kind its tag names, and
what is written so is read and written back unchanged. -/
theorem plain_form_round_trips :
    (∀ (a : Annotation) (fresh : String), a.id ≠ "" → (∀ v ∈ a.shape.vectors, v.isFinite) →
      (∀ c r, a.shape = .ellipsoid c r → 0 ≤ r.x ∧ 0 ≤ r.y ∧ 0 ≤ r.z) →
      (∀ ps, a.shape = .polygon ps → 3 ≤ ps.length) →
      (∀ ps, a.shape = .lineString ps → 2 ≤ ps.length) →
      a.toPlain.toAnnotation fresh = .ok a) ∧
    (∀ id : UInt64, Segment.decode (Segment.encode id) = .ok id) ∧
    (∀ (p : Plain) (fresh : String) (a : Annotation), p.toAnnotation fresh = .ok a → p.id ≠ "" →
      p.tag = a.kind.tag ∧ a.toPlain = p.canonical a.kind ∧
        ∀ fresh', (a.toPlain.toAnnotation fresh').map Annotation.toPlain = .ok a.toPlain) := by
  refine ⟨fun a fresh hid hfinite hradii hpolygon hlineString =>
    toAnnotation_toPlain_eq hid hfinite hradii hpolygon hlineString fresh, Segment.decode_encode, ?_⟩
  intro p fresh a h hid
  obtain ⟨htag, hcanon⟩ := Plain.toPlain_toAnnotation_eq h hid
  refine ⟨htag, hcanon, fun fresh' => ?_⟩
  rw [Plain.toAnnotation_toPlain_of_toAnnotation h hid fresh']
  rfl

end AnnotationStore
