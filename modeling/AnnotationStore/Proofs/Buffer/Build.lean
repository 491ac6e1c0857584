import Mathlib
import AnnotationStore.Proofs.Buffer.Layout
import AnnotationStore.Proofs.Bytes.Read
import AnnotationStore.Buffer.Build
/-!
# Packing annotations into a buffer

`PackedBuffer.build` lays annotations grouped by kind out as a packed buffer. When every
annotation sits under its own kind and the ids under each kind are distinct, the buffer
`Packs` them (`build_packs`): it passes `validate`; each region lists its kind's annotations
by strictly ascending id, with their packed sizes, pick counts and labels; the regions start
where the earlier kinds' bytes end; and each instance's bytes are its shape's packed bytes,
which unpack to the shape, a box with its corners ordered. Since the order is by distinct
ids, the buffer does not depend on the order the annotations were given in.
-/

namespace AnnotationStore

/-! ## Shapes read back -/

namespace Shape

/-- The shape that packed bytes read back as: a box with its corners ordered. -/
def normalize : Shape → Shape
  | .box a b => .box (a.min b) (a.max b)
  | s => s

theorem packedSize_whole (s : Shape) :
    (s.kind.fixedSize → s.packedSize = s.kind.stride) ∧ s.packedSize % s.kind.stride = 0 := by
  cases s <;> simp [kind, packedSize, Kind.fixedSize, Kind.stride]

end Shape

theorem readVertices_eq {b : ByteArray} {ps : List Vec3} (h : b.data.toList = ps.flatMap Vec3.bytes) :
    readVertices b = ps := by
  have hsize : b.size / 12 = ps.length := by
    rw [ByteArray.size_eq_length, h, Shape.length_flatMap_bytes]
    omega
  have hread : ∀ i, i < ps.length → Vec3.read? b (12 * i) = some (ps.getD i default) := by
    intro i hi
    have h' : b.data.toList = [] ++ ps.flatMap Vec3.bytes ++ [] := by simp [h]
    simpa [List.getElem?_eq_getElem hi] using Vec3.read?_flatMap_bytes h' hi
  have hmap : (List.range ps.length).filterMap (fun i => Vec3.read? b (12 * i)) =
      (List.range ps.length).map fun i => ps.getD i default := by
    rw [List.filterMap_eq_map_iff_forall_eq_some]
    simpa using hread
  have hps : ((List.range ps.length).map fun i => ps.getD i default) = ps := by
    apply List.ext_getElem
    · simp
    · intro i hi _
      simp [List.getElem?_eq_getElem (by simpa using hi)]
  unfold readVertices
  rw [hsize, hmap, hps]

/-- Packed bytes unpack, under the shape's kind, to the shape with its box corners ordered. -/
theorem unpack?_packedBytes {b : ByteArray} {s : Shape} (h : b.data.toList = s.packedBytes) :
    s.kind.unpack? b = some s.normalize := by
  -- vertex `i` is read after the `12 * i` bytes of the vertices before it
  have hread : ∀ i (hi : i < s.packedVertices.length),
      Vec3.read? b (12 * i) = some s.packedVertices[i] := by
    intro i hi
    have h' : b.data.toList = [] ++ s.packedVertices.flatMap Vec3.bytes ++ [] := by
      simpa [Shape.packedBytes] using h
    simpa using Vec3.read?_flatMap_bytes h' hi
  cases s with
  | point p =>
    have h0 := hread 0 (by simp [Shape.packedVertices])
    simp only [Shape.packedVertices] at h0
    simp [Shape.kind, Kind.unpack?, Shape.normalize, h0]
  | line a c | box a c | ellipsoid a c =>
    have h0 := hread 0 (by simp [Shape.packedVertices])
    have h1 := hread 1 (by simp [Shape.packedVertices])
    simp only [Shape.packedVertices] at h0 h1
    simp_all [Shape.kind, Kind.unpack?, Shape.normalize]
  | polygon ps | lineString ps =>
    simp only [Shape.packedBytes, Shape.packedVertices] at h
    simp [Shape.kind, Kind.unpack?, Shape.normalize, readVertices_eq h]

/-! ## Sorting by id -/

section Sorting
variable {as as' : List Annotation}

theorem sortById_perm (as : List Annotation) : (sortById as).Perm as := List.mergeSort_perm _ _

theorem pairwise_sortById (as : List Annotation) :
    (sortById as).Pairwise fun a b => a.id ≤ b.id := by
  have h : (sortById as).Pairwise fun a b => decide (a.id ≤ b.id) = true :=
    List.pairwise_mergeSort
      (fun a b c hab hbc => by simp only [decide_eq_true_eq] at *; exact le_trans hab hbc)
      (fun a b => by simpa using le_total a.id b.id) as
  exact h.imp (by simp)

/-- Sorted annotations with distinct ids strictly ascend by id. -/
theorem isChain_sortById (h : (as.map Annotation.id).Nodup) :
    ((sortById as).map Annotation.id).IsChain (· < ·) := by
  have hnodup : ((sortById as).map Annotation.id).Nodup :=
    ((sortById_perm as).map _).nodup_iff.mpr h
  have hle : ((sortById as).map Annotation.id).Pairwise (· ≤ ·) :=
    List.pairwise_map.mpr (pairwise_sortById as)
  apply List.isChain_iff_pairwise.mpr
  exact (hle.and hnodup).imp fun hab => lt_of_le_of_ne hab.1 hab.2

/-- Annotations with distinct ids sort alike in whatever order they come. -/
theorem sortById_eq_of_perm (hp : as'.Perm as) (h : (as.map Annotation.id).Nodup) :
    sortById as' = sortById as := by
  have hperm : (sortById as').Perm (sortById as) :=
    (sortById_perm as').trans (hp.trans (sortById_perm as).symm)
  -- ids equal only on equal annotations, so the id order is antisymmetric on them
  have hinj : ∀ a ∈ sortById as', ∀ b ∈ sortById as, a.id = b.id → a = b := by
    intro a ha b hb hab
    have ha' : a ∈ as := hp.subset ((sortById_perm as').subset ha)
    have hb' : b ∈ as := (sortById_perm as).subset hb
    exact List.inj_on_of_nodup_map h ha' hb' hab
  exact List.Perm.eq_of_pairwise (fun a b ha hb hab hba => hinj a ha b hb (le_antisymm hab hba))
    (pairwise_sortById as') (pairwise_sortById as) hperm

end Sorting

/-! ## The regions in kind order -/

section Pack
variable (byKind : Kind → List Annotation)

def kindBytes (k : Kind) : List UInt8 := (sortById (byKind k)).flatMap fun a => a.shape.packedBytes

theorem length_kindBytes (k : Kind) :
    (kindBytes byKind k).length = ((byKind k).map fun a => a.shape.packedSize).sum := by
  have hperm := (sortById_perm (byKind k)).map fun a => a.shape.packedSize
  simp only [kindBytes, List.length_flatMap, Shape.length_packedBytes]
  exact hperm.sum_eq

theorem packRegions_cons (k : Kind) (ks : List Kind) (off : Nat) :
    packRegions byKind (k :: ks) off =
      ((k, regionOf off (sortById (byKind k))) ::
          (packRegions byKind ks (off + (kindBytes byKind k).length)).1,
        kindBytes byKind k ++ (packRegions byKind ks (off + (kindBytes byKind k).length)).2) :=
  rfl

theorem packRegions_snd :
    ∀ (ks : List Kind) (off : Nat), (packRegions byKind ks off).2 = ks.flatMap (kindBytes byKind)
  | [], _ => rfl
  | k :: ks, off => by rw [packRegions_cons, packRegions_snd ks, List.flatMap_cons]

/-- A kind's region starts after the bytes of the kinds packed before it. -/
theorem find?_packRegions (k : Kind) (post : List Kind) :
    ∀ (pre : List Kind) (off : Nat), k ∉ pre →
      (packRegions byKind (pre ++ k :: post) off).1.find? (·.1 == k) =
        some (k, regionOf (off + (pre.flatMap (kindBytes byKind)).length) (sortById (byKind k)))
  | [], off, _ => by simp [packRegions_cons]
  | k' :: pre, off, hk => by
    have hne : k' ≠ k := fun h => hk (h ▸ List.mem_cons_self)
    have hk' : k ∉ pre := fun h => hk (List.mem_cons_of_mem _ h)
    rw [List.cons_append, packRegions_cons, List.find?_cons_of_neg (by simpa using hne),
      find?_packRegions k post pre _ hk']
    simp [Nat.add_assoc]

theorem map_pickCount_packRegions :
    ∀ (ks : List Kind) (off : Nat), (packRegions byKind ks off).1.map (·.2.pickCount) =
      ks.map fun k => ((((byKind k).map fun a => a.shape.pickCount).sum : Nat) : Int)
  | [], _ => rfl
  | k :: ks, off => by
    have hperm := (sortById_perm (byKind k)).map fun a => a.shape.pickCount
    rw [packRegions_cons, List.map_cons, map_pickCount_packRegions ks, List.map_cons]
    simp only [regionOf, ← List.sum_eq_foldr, hperm.sum_eq]

theorem build_eq (gen : UInt64) : PackedBuffer.build byKind gen =
    { data := ⟨(packRegions byKind Kind.all 0).2.toArray⟩,
      regions := fun k => (((packRegions byKind Kind.all 0).1.find? (·.1 == k)).map (·.2)).getD {},
      totalPicks := ((packRegions byKind Kind.all 0).1.map (·.2.pickCount)).foldr (· + ·) 0,
      generation := gen } :=
  rfl

/-- Packing reads the annotations only through their sorted lists. -/
theorem packRegions_congr {byKind' : Kind → List Annotation}
    (h : ∀ k, sortById (byKind' k) = sortById (byKind k)) :
    ∀ (ks : List Kind) (off : Nat), packRegions byKind' ks off = packRegions byKind ks off
  | [], _ => rfl
  | k :: ks, off => by
    have hbytes : kindBytes byKind' k = kindBytes byKind k := by simp only [kindBytes, h k]
    rw [packRegions_cons, packRegions_cons, hbytes, h k, packRegions_congr h ks]

variable (gen : UInt64)

theorem build_congr {byKind' : Kind → List Annotation}
    (h : ∀ k, sortById (byKind' k) = sortById (byKind k)) :
    PackedBuffer.build byKind' gen = PackedBuffer.build byKind gen := by
  rw [build_eq, build_eq, packRegions_congr byKind h]

theorem build_data : (PackedBuffer.build byKind gen).data.data.toList = Kind.all.flatMap (kindBytes byKind) := by
  rw [build_eq, packRegions_snd]

theorem build_regions (k : Kind) : (PackedBuffer.build byKind gen).regions k =
    regionOf ((Kind.all.take k.index).flatMap (kindBytes byKind)).length (sortById (byKind k)) := by
  have hk : k ∉ Kind.all.take k.index := by cases k <;> decide
  have hfind := find?_packRegions byKind k (Kind.all.drop (k.index + 1)) (Kind.all.take k.index) 0 hk
  rw [← Kind.all_eq_take_append k, zero_add] at hfind
  rw [build_eq]
  simp only [hfind, Option.map_some, Option.getD_some]

theorem build_totalPicks : (PackedBuffer.build byKind gen).totalPicks =
    (Kind.all.map fun k => ((((byKind k).map fun a => a.shape.pickCount).sum : Nat) : Int)).sum := by
  rw [build_eq]
  simp only [map_pickCount_packRegions, ← List.sum_eq_foldr]

theorem regionBytes_build (k : Kind) :
    (PackedBuffer.build byKind gen).regionBytes k = (kindBytes byKind k).length := by
  simp [PackedBuffer.regionBytes, build_regions, regionOf, kindBytes, List.length_flatMap,
    Shape.length_packedBytes]

theorem sum_regionBytes_build (ks : List Kind) :
    (ks.map (PackedBuffer.build byKind gen).regionBytes).sum = (ks.flatMap (kindBytes byKind)).length := by
  have hbytes : (PackedBuffer.build byKind gen).regionBytes = fun k => (kindBytes byKind k).length :=
    funext (regionBytes_build byKind gen)
  rw [hbytes, List.length_flatMap]

end Pack

/-! ## What a packed buffer holds -/

/-- A region lists annotations, in order, with their packed sizes, pick counts and labels. -/
structure Region.Lists (r : Region) (as : List Annotation) : Prop where
  ids : r.ids = as.map Annotation.id
  sizes : r.sizes = as.map fun a => a.shape.packedSize
  picks : r.picks = as.map fun a => a.shape.pickCount
  labels : r.labels = some (as.map fun a => a.info.annType)

/-- A buffer packs annotations grouped by kind: it passes the check; each kind's region lists
the kind's annotations by strictly ascending id, each instance's bytes being its shape's packed
bytes, which unpack to the shape; the regions lie in kind order; and the pick counts add up. -/
structure PackedBuffer.Packs (byKind : Kind → List Annotation) (b : PackedBuffer) : Prop where
  validate : b.validate = .ok ()
  region : ∀ k, ∃ as : List Annotation, as.Perm (byKind k) ∧ (as.map Annotation.id).IsChain (· < ·) ∧
    (b.regions k).Lists as ∧ ∀ i (hi : i < as.length),
      b.instance? k i = some ⟨as[i].shape.packedBytes.toArray⟩ ∧
        (b.instance? k i).bind k.unpack? = some as[i].shape.normalize
  offset : ∀ k, (b.regions k).offset =
    (((Kind.all.take k.index).map fun k' => ((byKind k').map fun a => a.shape.packedSize).sum).sum : Nat)
  pickCount : ∀ k, (b.regions k).pickCount = (((byKind k).map fun a => a.shape.pickCount).sum : Nat)
  totalPicks : b.totalPicks =
    ((Kind.all.map fun k => ((byKind k).map fun a => a.shape.pickCount).sum).sum : Nat)

/-- An instance whose bytes follow the bytes before it in the buffer. -/
theorem PackedBuffer.instance?_eq {b : PackedBuffer} {k : Kind} {i : Nat} {pre mid post : List UInt8}
    (hdata : b.data.data.toList = pre ++ mid ++ post)
    (hoff : (b.regions k).offset + ((b.regions k).sizes.take i).sum = pre.length)
    (hsize : (b.regions k).sizes[i]? = some mid.length) :
    b.instance? k i = some ⟨mid.toArray⟩ := by
  have hi : i < (b.regions k).sizes.length := (List.getElem?_eq_some_iff.mp hsize).1
  have hlen : b.data.size = pre.length + mid.length + post.length := by
    rw [ByteArray.size_eq_length, hdata]
    simp only [List.length_append]
  unfold PackedBuffer.instance? PackedBuffer.instanceOffset?
  simp only [if_pos hi.le, ← List.sum_eq_foldr, Option.bind_eq_bind, Option.bind_some, hsize, hoff]
  rw [if_pos (by omega), Int.toNat_natCast, ByteArray.extract_eq_of_toList hdata]

/-! ## The packed buffer -/

theorem regionOf_wellFormed {k : Kind} {as : List Annotation} (hkind : ∀ a ∈ as, a.kind = k)
    (hids : (as.map Annotation.id).Nodup) (off : Nat) : (regionOf off (sortById as)).WellFormed k where
  sizes_length := by simp [regionOf]
  picks_length := by simp [regionOf]
  labels_length := by
    intro ls hls
    simp only [regionOf, Option.mem_def, Option.some.injEq] at hls
    simp [← hls, regionOf]
  ascending := isChain_sortById hids
  sizes_whole := by
    intro s hs
    simp only [regionOf, List.mem_map] at hs
    obtain ⟨a, ha, rfl⟩ := hs
    have hk : a.shape.kind = k := hkind a ((sortById_perm as).subset ha)
    exact hk ▸ a.shape.packedSize_whole
  pickCount_eq := by simp [regionOf, List.sum_eq_foldr]

section Build
variable {byKind : Kind → List Annotation} (gen : UInt64)

theorem sum_picks_build (k : Kind) :
    ((PackedBuffer.build byKind gen).regions k).picks.sum = ((byKind k).map fun a => a.shape.pickCount).sum := by
  rw [build_regions]
  exact ((sortById_perm (byKind k)).map _).sum_eq

theorem wellLaidOut_build (hkind : ∀ k, ∀ a ∈ byKind k, a.kind = k)
    (hids : ∀ k, ((byKind k).map Annotation.id).Nodup) : (PackedBuffer.build byKind gen).WellLaidOut where
  region k := by
    rw [build_regions]
    exact regionOf_wellFormed (hkind k) (hids k) _
  offset k := by
    rw [build_regions, PackedBuffer.regionStart, sum_regionBytes_build]
    rfl
  covers := by rw [ByteArray.size_eq_length, build_data, sum_regionBytes_build]
  totalPicks := by
    rw [build_totalPicks]
    simp only [sum_picks_build, Nat.cast_list_sum, List.map_map, Function.comp_def]

/-- The bytes of instance `i` of a kind: the earlier kinds' bytes and the earlier instances'
come before it. -/
theorem instance?_build {k : Kind} {i : Nat} (hi : i < (sortById (byKind k)).length) :
    (PackedBuffer.build byKind gen).instance? k i =
      some ⟨((sortById (byKind k))[i]).shape.packedBytes.toArray⟩ := by
  set as := sortById (byKind k) with has
  have hkindBytes : kindBytes byKind k = (as.take i).flatMap (·.shape.packedBytes) ++
      as[i].shape.packedBytes ++ (as.drop (i + 1)).flatMap (·.shape.packedBytes) :=
    flatMap_eq_take_getElem_drop _ hi
  have hdata : (PackedBuffer.build byKind gen).data.data.toList =
      ((Kind.all.take k.index).flatMap (kindBytes byKind) ++ (as.take i).flatMap (·.shape.packedBytes)) ++
        as[i].shape.packedBytes ++
        ((as.drop (i + 1)).flatMap (·.shape.packedBytes) ++ (Kind.all.drop (k.index + 1)).flatMap (kindBytes byKind)) := by
    rw [build_data]
    conv_lhs => rw [Kind.all_eq_take_append k]
    rw [List.flatMap_append, List.flatMap_cons, hkindBytes]
    simp only [List.append_assoc]
  apply PackedBuffer.instance?_eq hdata
  · rw [build_regions, ← has]
    simp [regionOf, List.length_flatMap, Shape.length_packedBytes, ← List.map_take]
  · rw [build_regions, ← has]
    simp [regionOf, Shape.length_packedBytes, hi]

/-- Packing annotations, each under its kind and with distinct ids under each kind, gives a
buffer that packs them, whatever order each kind's annotations are given in. -/
theorem build_packs (hkind : ∀ k, ∀ a ∈ byKind k, a.kind = k)
    (hids : ∀ k, ((byKind k).map Annotation.id).Nodup) :
    (PackedBuffer.build byKind gen).Packs byKind ∧
      ∀ byKind' : Kind → List Annotation, (∀ k, (byKind' k).Perm (byKind k)) →
        PackedBuffer.build byKind' gen = PackedBuffer.build byKind gen := by
  refine ⟨⟨?validate, fun k => ?region, fun k => ?offset, fun k => ?pickCount, ?totalPicks⟩, ?order⟩
  case validate => exact (PackedBuffer.validate_eq_ok_iff _).mpr (wellLaidOut_build gen hkind hids)
  case region =>
    have hlists : ((PackedBuffer.build byKind gen).regions k).Lists (sortById (byKind k)) := by
      rw [build_regions]
      exact ⟨rfl, rfl, rfl, rfl⟩
    refine ⟨sortById (byKind k), sortById_perm _, isChain_sortById (hids k), hlists, fun i hi => ?_⟩
    have hk : ((sortById (byKind k))[i]).shape.kind = k :=
      hkind k _ ((sortById_perm _).subset (List.getElem_mem hi))
    have hunpack := unpack?_packedBytes (b := ⟨((sortById (byKind k))[i]).shape.packedBytes.toArray⟩)
      (s := ((sortById (byKind k))[i]).shape) (by simp)
    rw [hk] at hunpack
    refine ⟨instance?_build gen hi, ?_⟩
    rw [instance?_build gen hi, Option.bind_some, hunpack]
  case offset =>
    rw [build_regions]
    simp only [regionOf, List.length_flatMap, length_kindBytes]
  case pickCount =>
    rw [build_regions]
    simp only [regionOf, ← List.sum_eq_foldr, ((sortById_perm (byKind k)).map _).sum_eq]
  case totalPicks =>
    rw [build_totalPicks, Nat.cast_list_sum, List.map_map]
    rfl
  case order =>
    intro byKind' hperm
    exact build_congr byKind gen fun k => sortById_eq_of_perm (hperm k) (hids k)

theorem build_packs_points_and_box :
    let byKind : Kind → List Annotation := fun k => match k with
      | .point => [⟨{ id := "b" }, .point default⟩, ⟨{ id := "a" }, .point default⟩]
      | .box => [⟨{ id := "c" }, .box default default⟩]
      | _ => []
    (∀ k, ∀ a ∈ byKind k, a.kind = k) ∧ (∀ k, ((byKind k).map Annotation.id).Nodup) ∧
      ((PackedBuffer.build byKind 0).Packs byKind ∧
        ∀ byKind' : Kind → List Annotation, (∀ k, (byKind' k).Perm (byKind k)) →
          PackedBuffer.build byKind' 0 = PackedBuffer.build byKind 0) := by
  intro byKind
  have hkind : ∀ k, ∀ a ∈ byKind k, a.kind = k := by
    intro k
    cases k <;> decide
  have hids : ∀ k, ((byKind k).map Annotation.id).Nodup := by
    intro k
    cases k <;> decide
  exact ⟨hkind, hids, build_packs 0 hkind hids⟩

end Build

end AnnotationStore
