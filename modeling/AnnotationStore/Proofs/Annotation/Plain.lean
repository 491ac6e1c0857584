import Mathlib
import AnnotationStore.Annotation.PlainJson
/-!
# Plain forms read back

The plain form of an annotation builds the annotation again (`toAnnotation_toPlain`) when
its geometry is storable: finite coordinates, no radius below zero and enough points for a
polyline, and its id is not empty. Segment ids come back from their two decimal words
(`Segment.decode_encode`), because the decimal text of a number below `2 ^ 32` reads back
as the number. Every codec writes such a plain form (`write_toPlain_isSome`): it has no
non-finite coordinate to refuse.
-/

namespace AnnotationStore

-- Plain forms compare field by field, so a closed read-back can be checked by evaluation.
deriving instance DecidableEq for Plain

/-! ## Decimal words -/

/-- The decimal digits of a number, summed as `Segment.word?` sums them, give the number. -/
theorem foldl_toDigits (n : Nat) :
    (Nat.toDigits 10 n).foldl (fun acc c => acc * 10 + (c.toNat - 48)) 0 = n := by
  induction n using Nat.strong_induction_on with
  | _ n ih =>
    rcases Nat.lt_or_ge n 10 with hn | hn
    · rw [Nat.toDigits_of_lt_base hn]
      simp [Nat.toNat_digitChar_of_lt_ten hn]
    · -- the last digit is the remainder, the ones before it the quotient's digits
      rw [Nat.toDigits_of_base_le (by norm_num) hn, List.foldl_append, ih (n / 10) (by omega)]
      simp only [List.foldl_cons, List.foldl_nil, Nat.toNat_digitChar_of_lt_ten (Nat.mod_lt n (by norm_num))]
      omega

namespace Segment

theorem word?_toString {n : Nat} (hn : n < 2 ^ 32) : word? (toString n) = some n := by
  have hall : (Nat.toDigits 10 n).all Char.isDigit = true :=
    List.all_eq_true.mpr fun c hc => Nat.isDigit_of_mem_toDigits (by norm_num) (by norm_num) hc
  unfold word?
  simp [hall, Nat.toDigits_ne_nil, foldl_toDigits, hn]

theorem decode_encode (id : UInt64) : decode (encode id) = .ok id := by
  have hlt : id.toNat < 2 ^ 64 := id.toNat_lt
  have hhi : word? (toString (id.toNat / 2 ^ 32)) = some (id.toNat / 2 ^ 32) := word?_toString (by omega)
  have hlo : word? (toString (id.toNat % 2 ^ 32)) = some (id.toNat % 2 ^ 32) := word?_toString (by omega)
  simp only [decode, encode, hhi, hlo]
  rw [Nat.div_add_mod']
  simp

theorem mapM_decode_encode : ∀ segs : List UInt64, (segs.map encode).mapM decode = .ok segs
  | [] => rfl
  | s :: segs => by
    simp [List.mapM_cons, decode_encode s, mapM_decode_encode segs, bind, Except.bind, pure, Except.pure]

end Segment

/-! ## Geometry read back -/

/-- Geometry the plain form carries back: finite coordinates, no radius below zero, and at
least as many points as a polyline of its kind needs. -/
def Shape.Storable : Shape → Prop
  | .point p => p.isFinite
  | .line a b | .box a b => a.isFinite ∧ b.isFinite
  | .ellipsoid c r =>
    c.isFinite ∧ r.isFinite ∧ (Plain.negative r.x || Plain.negative r.y || Plain.negative r.z) = false
  | .polygon ps => Kind.polygon.minPoints ≤ ps.length ∧ ∀ p ∈ ps, p.isFinite
  | .lineString ps => Kind.lineString.minPoints ≤ ps.length ∧ ∀ p ∈ ps, p.isFinite

/-- An annotation whose plain form builds it again: a stored id, storable geometry, and a
size, if any, that is finite. -/
structure Annotation.Storable (a : Annotation) : Prop where
  id_ne_empty : a.id ≠ ""
  shape : a.shape.Storable
  size : ∀ x ∈ a.info.size, ¬(x.isNaN ∨ x.isInf)

namespace Plain

theorem vec3_toList (field : String) {v : Vec3} (hv : v.isFinite) : vec3 field v.toList = .ok v := by
  simp [vec3, Vec3.toList, Vec3.ofList?, hv]

theorem mapM_vec3_toList (field : String) :
    ∀ {ps : List Vec3}, (∀ p ∈ ps, p.isFinite) → (ps.map Vec3.toList).mapM (vec3 field) = .ok ps
  | [], _ => rfl
  | p :: ps, h => by
    have hp := vec3_toList field (h p List.mem_cons_self)
    have hps := mapM_vec3_toList field fun q hq => h q (List.mem_cons_of_mem p hq)
    simp [List.mapM_cons, hp, hps, bind, Except.bind, pure, Except.pure]

theorem vertices_toList {least : Nat} {ps : List Vec3} (hlen : least ≤ ps.length)
    (hfin : ∀ p ∈ ps, p.isFinite) : vertices least (ps.map Vec3.toList) = .ok ps := by
  unfold vertices
  rw [List.length_map, if_neg (by omega), mapM_vec3_toList "points" hfin]

end Plain

namespace Annotation

/-- What the plain form keeps of the descriptive data, whatever the shape. -/
theorem toPlain_info (a : Annotation) :
    a.toPlain.id = a.info.id ∧ a.toPlain.tag = a.kind.tag ∧
      a.toPlain.description = a.info.description ∧ a.toPlain.annType = a.info.annType ∧
      a.toPlain.reviewed = a.info.reviewed ∧ a.toPlain.visited = a.info.visited ∧
      a.toPlain.segments = a.info.segments.map Segment.encode ∧ a.toPlain.size = a.info.size := by
  obtain ⟨info, shape⟩ := a
  cases shape <;> simp [toPlain, kind]

theorem kind_toPlain (a : Annotation) : a.toPlain.kind = .ok a.kind := by
  simp [Plain.kind, a.toPlain_info.2.1, Kind.parse?_tag]

theorem shape_toPlain {a : Annotation} (h : a.shape.Storable) : a.toPlain.shape a.kind = .ok a.shape := by
  obtain ⟨info, shape⟩ := a
  cases shape with
  | point p =>
    simp [toPlain, kind, Shape.kind, Plain.shape, Plain.vec3_toList _ h]
  | line x y | box x y =>
    obtain ⟨hx, hy⟩ := h
    simp [toPlain, kind, Shape.kind, Plain.shape, Plain.vec3_toList _ hx, Plain.vec3_toList _ hy, bind,
      Except.bind, pure, Except.pure]
  | ellipsoid c r =>
    obtain ⟨hc, hr, hneg⟩ := h
    simp only [Bool.or_eq_false_iff] at hneg
    simp [toPlain, kind, Shape.kind, Plain.shape, Plain.vec3_toList _ hc, Plain.vec3_toList _ hr, hneg,
      bind, Except.bind, pure, Except.pure]
  | polygon ps | lineString ps =>
    obtain ⟨hlen, hfin⟩ := h
    simp [toPlain, kind, Shape.kind, Plain.shape, Plain.vertices_toList hlen hfin]

/-- An annotation with an id and storable geometry is built again from its plain form, under
its own id; its size plays no part. -/
theorem toAnnotation_toPlain_of_shape {a : Annotation} (hid : a.id ≠ "") (hs : a.shape.Storable)
    (fresh : String) : a.toPlain.toAnnotation fresh = .ok a := by
  obtain ⟨hpid, -, hdesc, hann, hrev, hvis, hsegs, hsize⟩ := a.toPlain_info
  have hnonempty : a.info.id.isEmpty = false := by
    simpa [String.isEmpty_iff, Annotation.id] using hid
  unfold Plain.toAnnotation
  simp only [kind_toPlain, shape_toPlain hs, hsegs, Segment.mapM_decode_encode, bind, Except.bind,
    pure, Except.pure, hpid, hdesc, hann, hrev, hvis, hsize, hnonempty, Bool.false_eq_true, if_false]

/-- A storable annotation is built again from its plain form, under its own id. -/
theorem toAnnotation_toPlain {a : Annotation} (h : a.Storable) (fresh : String) :
    a.toPlain.toAnnotation fresh = .ok a :=
  toAnnotation_toPlain_of_shape h.id_ne_empty h.shape fresh

end Annotation

/-! ## Writing -/

theorem mapM_isSome {α β : Type} {f : α → Option β} :
    ∀ {l : List α}, (∀ x ∈ l, (f x).isSome) → (l.mapM f).isSome
  | [], _ => rfl
  | x :: l, h => by
    obtain ⟨y, hy⟩ := Option.isSome_iff_exists.mp (h x List.mem_cons_self)
    obtain ⟨ys, hys⟩ := Option.isSome_iff_exists.mp (mapM_isSome fun z hz => h z (List.mem_cons_of_mem x hz))
    simp [List.mapM_cons, hy, hys]

namespace PlainJson

theorem writeCoords_isSome (c : Codec) {xs : List Float32} (h : ∀ x ∈ xs, Coord.isFinite x) :
    (writeCoords c xs).isSome := by
  have hmap : (xs.mapM c.float32Text).isSome := mapM_isSome fun x hx => by
    have hx' := h x hx
    simp only [Coord.isFinite, Bool.not_eq_true', Bool.or_eq_false_iff] at hx'
    simp only [Codec.float32Text, hx'.1, hx'.2, Bool.false_eq_true, or_self, if_false, Option.isSome_some]
  simpa [writeCoords] using hmap

/-- A plain form whose coordinates are all finite and whose size, if any, is finite is
written by every codec. -/
theorem write_isSome (c : Codec) {p : Plain} (hsize : ∀ x ∈ p.size, ¬(x.isNaN ∨ x.isInf))
    (hcoords : ∀ xs ∈ [p.point, p.pointA, p.pointB, p.center, p.radii] ++ p.points, ∀ x ∈ xs, Coord.isFinite x) :
    (write c p).isSome := by
  have hw : ∀ xs ∈ [p.point, p.pointA, p.pointB, p.center, p.radii] ++ p.points, ∃ j, writeCoords c xs = some j :=
    fun xs hxs => Option.isSome_iff_exists.mp (writeCoords_isSome c (hcoords xs hxs))
  obtain ⟨j1, h1⟩ := hw p.point (by simp)
  obtain ⟨j2, h2⟩ := hw p.pointA (by simp)
  obtain ⟨j3, h3⟩ := hw p.pointB (by simp)
  obtain ⟨j4, h4⟩ := hw p.center (by simp)
  obtain ⟨j5, h5⟩ := hw p.radii (by simp)
  obtain ⟨js, hjs⟩ := Option.isSome_iff_exists.mp
    (mapM_isSome (f := writeCoords c) (l := p.points) fun xs hxs => writeCoords_isSome c (hcoords xs (by simp [hxs])))
  cases hs : p.size with
  | none =>
    simp only [write, hs, h1, h2, h3, h4, h5, hjs, Option.map_some, Option.bind_eq_bind,
      ← apply_ite (f := @some (List (String × Json))), Option.bind_some, Option.pure_def]
    split <;> rfl
  | some x =>
    have hx := hsize x hs
    simp only [not_or] at hx
    simp only [write, hs, h1, h2, h3, h4, h5, hjs, Codec.floatText, hx.1, hx.2, Option.map_some,
      Option.bind_eq_bind, Bool.false_eq_true, or_self, if_false,
      ← apply_ite (f := @some (List (String × Json))), Option.bind_some, Option.pure_def]
    split <;> rfl

end PlainJson

theorem Vec3.isFinite_toList {v : Vec3} (h : v.isFinite) : ∀ x ∈ v.toList, Coord.isFinite x := by
  simp only [Vec3.isFinite, Bool.and_eq_true] at h
  simp [Vec3.toList, h.1.1, h.1.2, h.2]

namespace Annotation

theorem write_toPlain_isSome (c : Codec) {a : Annotation} (h : a.Storable) :
    (PlainJson.write c a.toPlain).isSome := by
  obtain ⟨-, -, -, -, -, -, -, hsize⟩ := a.toPlain_info
  refine PlainJson.write_isSome c (by rw [hsize]; exact h.size) ?_
  obtain ⟨info, shape⟩ := a
  have hs := h.shape
  cases shape with
  | point p => simpa [toPlain] using Vec3.isFinite_toList hs
  | line x y | box x y =>
    simpa [toPlain] using ⟨Vec3.isFinite_toList hs.1, Vec3.isFinite_toList hs.2⟩
  | ellipsoid x y =>
    simpa [toPlain] using ⟨Vec3.isFinite_toList hs.1, Vec3.isFinite_toList hs.2.1⟩
  | polygon ps | lineString ps =>
    simpa [toPlain] using fun p hp => Vec3.isFinite_toList (hs.2 p hp)

end Annotation

end AnnotationStore
