import Mathlib
import AnnotationStore.Proofs.Buffer.Layout
import AnnotationStore.Proofs.Bytes.Read
import AnnotationStore.Buffer.Pick
import AnnotationStore.Render.Layer
/-!
# Pick ids and their resolution

Drawing a packed buffer gives each region a base pick id: the pick counts of the regions
before it, after the first id the layer reserved. Within a region, instance `i` starts at the
pick counts of the instances before it, and its parts follow. So in a well laid-out buffer
the pick id of part `p` of instance `i` of kind `k` is `pickBase k + pickOffset k i + p`
(`PickAt`), and `resolvePick` inverts this: it resolves exactly the offsets below the total,
each to the one instance and part that has it as pick id (`resolvesPickIds_of_validate`).
-/

namespace AnnotationStore

/-! ## Offsets into a run of counts -/

section Runs
variable {l : List Nat}

/-- An offset below the total of a run of counts falls into one of them. -/
theorem exists_take_sum_add {o : Nat} (h : o < l.sum) :
    ∃ j, ∃ hj : j < l.length, ∃ x < l[j], o = (l.take j).sum + x := by
  induction l generalizing o with
  | nil => simp at h
  | cons a l ih =>
    by_cases ha : o < a
    · exact ⟨0, by simp, o, by simpa using ha, by simp⟩
    · have hrest : o - a < l.sum := by simp only [List.sum_cons] at h; omega
      obtain ⟨j, hj, x, hx, hxo⟩ := ih hrest
      refine ⟨j + 1, by simpa using hj, x, by simpa using hx, ?_⟩
      simp only [List.take_succ_cons, List.sum_cons]
      omega

/-- The counts before a later index cover the whole of an earlier one. -/
theorem take_sum_add_le {i j : Nat} (hi : i < l.length) (hij : i < j) :
    (l.take i).sum + l[i] ≤ (l.take j).sum := by
  rw [← List.sum_take_succ l i hi]
  obtain ⟨d, rfl⟩ := Nat.exists_eq_add_of_lt hij
  have hsplit : (l.take (i + d + 1)).sum = (l.take (i + 1)).sum + ((l.drop (i + 1)).take d).sum := by
    rw [show i + d + 1 = (i + 1) + d by omega, List.take_add, List.sum_append]
  omega

/-- Each offset falls into one count only, at one place. -/
theorem take_sum_add_inj {i j x y : Nat} (hi : i < l.length) (hj : j < l.length)
    (hx : x < l[i]) (hy : y < l[j]) (h : (l.take i).sum + x = (l.take j).sum + y) :
    i = j ∧ x = y := by
  rcases lt_trichotomy i j with hij | rfl | hij
  · have := take_sum_add_le hi hij
    omega
  · exact ⟨rfl, by omega⟩
  · have := take_sum_add_le hj hij
    omega

theorem take_sum_le_sum (i : Nat) : (l.take i).sum ≤ l.sum := by
  rw [← List.sum_take_add_sum_drop l i]
  omega

end Runs

/-! ## Reading instances -/

theorem vertexAt?_isSome {b : ByteArray} {i : Nat} (h : i < b.size / 12) : (vertexAt? b i).isSome :=
  Vec3.read?_isSome (by omega)

/-- The edge a part past the vertices names is a vertex, or `-1` for a lone open vertex. -/
theorem edgeIndex_bounds (closed : Bool) {n : Nat} {part : Int} (hn : 0 < n) (hpart : n ≤ part) :
    edgeIndex closed n part < 0 ∨ (0 ≤ edgeIndex closed n part ∧ edgeIndex closed n part < n) := by
  unfold edgeIndex
  cases closed with
  | true =>
    have h0 := Int.emod_nonneg (part - n) (b := n) (by omega)
    have h1 := Int.emod_lt_of_pos (part - n) (b := n) (by omega)
    simp only [ite_true]
    omega
  | false =>
    simp only [Bool.false_eq_true, ite_false]
    split <;> omega

/-- Every part of a polyline with whole vertices snaps. -/
theorem snapPolyline_isSome (closed : Bool) {b : ByteArray} {part : Int} (mouse : Vec3) :
    (snapPolyline closed b part mouse).isSome := by
  unfold snapPolyline
  dsimp only
  by_cases hn : b.size / 12 = 0
  · simp [hn]
  rw [if_neg hn]
  by_cases hvertex : part < (b.size / 12 : Nat)
  · -- a vertex, vertex 0 for a negative part
    rw [if_pos hvertex]
    split <;> exact vertexAt?_isSome (by omega)
  rw [if_neg hvertex]
  -- an edge: its index and its successor's are vertices
  rcases edgeIndex_bounds closed (Nat.pos_of_ne_zero hn) (not_lt.mp hvertex) with hneg | ⟨h0, h1⟩
  · rw [if_pos hneg]
    exact vertexAt?_isSome (by omega)
  · rw [if_neg (by omega)]
    obtain ⟨a, ha⟩ := Option.isSome_iff_exists.mp (vertexAt?_isSome (b := b) (i := (edgeIndex closed (b.size / 12) part).toNat) (by omega))
    obtain ⟨c, hc⟩ := Option.isSome_iff_exists.mp (vertexAt?_isSome (b := b)
      (i := ((edgeIndex closed (b.size / 12) part).toNat + 1) % (b.size / 12)) (Nat.mod_lt _ (by omega)))
    simp [ha, hc]

/-- Every part of an instance of the right size snaps. -/
theorem Kind.snap?_isSome {k : Kind} {b : ByteArray} {part : Int} (mouse : Vec3)
    (hfixed : k.fixedSize → b.size = k.stride) : (k.snap? b part mouse).isSome := by
  cases k with
  | polygon => exact snapPolyline_isSome true mouse
  | lineString => exact snapPolyline_isSome false mouse
  | point =>
    have hsize : b.size = 12 := hfixed rfl
    exact Vec3.read?_isSome (by omega)
  | line | box | ellipsoid =>
    have hsize : b.size = 24 := hfixed rfl
    obtain ⟨p, hp⟩ := Option.isSome_iff_exists.mp (Vec3.read?_isSome (by omega : 0 + 12 ≤ b.size))
    obtain ⟨q, hq⟩ := Option.isSome_iff_exists.mp (Vec3.read?_isSome (by omega : 12 + 12 ≤ b.size))
    simp [Kind.snap?, hp, hq]

/-! ## The walk over the instances of a region -/

/-- Subtracting a count that is not negative never wraps. -/
theorem sub64_of_nonneg {x y : Int} (hy : 0 ≤ y) : sub64 x y = x - y := by
  unfold sub64
  rw [if_neg (by omega)]

section Walk
variable {b : PackedBuffer} {k : Kind} {mouse : Vec3} {miss : PickFailure}

/-- An instance whose pick ids all lie before the offset is skipped. -/
theorem walkInstances_skip {p : Nat} {ps : List Nat} {i size : Nat} {id : String} {off byteOff : Int}
    (hsize : (b.regions k).sizes[i]? = some size) (hid : (b.regions k).ids[i]? = some id)
    (hoff : p ≤ off) :
    walkInstances b k mouse miss (p :: ps) i off byteOff =
      walkInstances b k mouse miss ps (i + 1) (off - p) (byteOff + size) := by
  simp only [walkInstances, hsize, hid]
  rw [if_pos hoff]

/-- The instance the offset falls on is resolved, when its bytes are within the buffer. -/
theorem walkInstances_hit {p : Nat} {ps : List Nat} {i size : Nat} {id : String} {off byteOff : Int}
    {pos : Vec3} (hsize : (b.regions k).sizes[i]? = some size) (hid : (b.regions k).ids[i]? = some id)
    (hoff : off < p) (hstart : 0 ≤ byteOff) (hend : byteOff + size ≤ b.data.size)
    (hsnap : k.snap? (b.data.extract byteOff.toNat (byteOff.toNat + size)) off mouse = some pos) :
    walkInstances b k mouse miss (p :: ps) i off byteOff = .ok ⟨id, k, i, off, byteOff, pos⟩ := by
  simp only [walkInstances, hsize, hid]
  rw [if_neg (by omega), if_neg (by omega), if_neg (by omega), hsnap]

/-- Each instance of a kind lies within the bytes, at its place in the region, with the size of
the kind. -/
def PackedBuffer.InstancesFit (b : PackedBuffer) (k : Kind) : Prop :=
  ∀ i (hi : i < (b.regions k).sizes.length),
    0 ≤ (b.regions k).offset + ((b.regions k).sizes.take i).sum ∧
    (b.regions k).offset + ((b.regions k).sizes.take (i + 1)).sum ≤ b.data.size ∧
    (k.fixedSize → (b.regions k).sizes[i] = k.stride)

/-- The offset of part `x` of instance `i + j`, counted from instance `i`, resolves to that part. -/
theorem walkInstances_at (hsizes : (b.regions k).sizes.length = (b.regions k).picks.length)
    (hids : (b.regions k).ids.length = (b.regions k).picks.length) (hfit : b.InstancesFit k) :
    ∀ (j i x : Nat) (hij : i + j < (b.regions k).picks.length), x < (b.regions k).picks[i + j] →
      ∃ id pos, (b.regions k).ids[i + j]? = some id ∧
        walkInstances b k mouse miss ((b.regions k).picks.drop i) i
          ((((b.regions k).picks.drop i).take j).sum + x : Nat)
          ((b.regions k).offset + ((b.regions k).sizes.take i).sum) =
        .ok ⟨id, k, i + j, x, (b.regions k).offset + ((b.regions k).sizes.take (i + j)).sum, pos⟩ := by
  intro j
  induction j with
  | zero =>
    intro i x hij hx
    have hi : i < (b.regions k).picks.length := hij
    have hsize := List.getElem?_eq_getElem (l := (b.regions k).sizes) (i := i) (by omega)
    have hid := List.getElem?_eq_getElem (l := (b.regions k).ids) (i := i) (by omega)
    obtain ⟨hstart, hend, hfixed⟩ := hfit i (by omega)
    rw [List.sum_take_succ _ _ (by omega)] at hend
    have hbytes : (b.data.extract ((b.regions k).offset + ((b.regions k).sizes.take i).sum).toNat
        (((b.regions k).offset + ((b.regions k).sizes.take i).sum).toNat + (b.regions k).sizes[i])).size =
        (b.regions k).sizes[i] := by
      rw [ByteArray.size_extract]
      omega
    obtain ⟨pos, hpos⟩ := Option.isSome_iff_exists.mp
      (Kind.snap?_isSome mouse (fun h => hbytes.trans (hfixed h)))
    refine ⟨_, pos, hid, ?_⟩
    have hoff : ((((b.regions k).picks.drop i).take 0).sum + x : Nat) = x := by simp
    rw [hoff, List.drop_eq_getElem_cons hi, walkInstances_hit hsize hid (by exact_mod_cast hx) hstart
      (by omega) (by simpa using hpos)]
    simp
  | succ j ih =>
    intro i x hij hx
    have hi : i < (b.regions k).picks.length := by omega
    have hsize := List.getElem?_eq_getElem (l := (b.regions k).sizes) (i := i) (by omega)
    have hid := List.getElem?_eq_getElem (l := (b.regions k).ids) (i := i) (by omega)
    have hnext : i + 1 + j = i + (j + 1) := by omega
    obtain ⟨id, pos, hidj, hwalk⟩ := ih (i + 1) x (by omega) (by simpa only [hnext] using hx)
    refine ⟨id, pos, by rwa [hnext] at hidj, ?_⟩
    rw [List.drop_eq_getElem_cons hi, walkInstances_skip hsize hid
      (by simp only [List.take_succ_cons, List.sum_cons]; omega)]
    rw [hnext] at hwalk
    convert hwalk using 2
    · simp only [List.take_succ_cons, List.sum_cons]
      omega
    · rw [List.sum_take_succ _ _ (by omega)]
      omega

/-- An offset past the pick ids of the remaining instances is out of range. -/
theorem walkInstances_of_le :
    ∀ (ps : List Nat) (i : Nat) (off byteOff : Int), (ps.sum : Int) ≤ off →
      walkInstances b k mouse miss ps i off byteOff = .error miss
  | [], _, _, _, _ => rfl
  | p :: ps, i, off, byteOff, h => by
    have hp : (p : Int) ≤ off := by simp only [List.sum_cons, Nat.cast_add] at h; omega
    cases hsize : (b.regions k).sizes[i]? with
    | none => simp [walkInstances, hsize]
    | some size =>
      cases hid : (b.regions k).ids[i]? with
      | none => simp [walkInstances, hsize, hid]
      | some id =>
        rw [walkInstances_skip hsize hid hp]
        exact walkInstances_of_le ps (i + 1) _ _ (by simp only [List.sum_cons, Nat.cast_add] at h; omega)

/-! ## The walk over the regions -/

theorem walkRegions_of_le :
    ∀ (ks : List Kind) (off : Int), (∀ k ∈ ks, 0 ≤ (b.regions k).pickCount) →
      (ks.map fun k => (b.regions k).pickCount).sum ≤ off → walkRegions b mouse miss ks off = .error miss
  | [], _, _, _ => rfl
  | k :: ks, off, hcounts, h => by
    have hrest : 0 ≤ (ks.map fun k => (b.regions k).pickCount).sum :=
      List.sum_nonneg (by simpa using fun k hk => hcounts k (List.mem_cons_of_mem _ hk))
    simp only [List.map_cons, List.sum_cons] at h
    simp only [walkRegions]
    rw [if_pos (by omega), sub64_of_nonneg (hcounts k List.mem_cons_self)]
    exact walkRegions_of_le ks _ (fun k hk => hcounts k (List.mem_cons_of_mem _ hk)) (by omega)

/-- An offset within the pick ids of a region is walked within that region. -/
theorem walkRegions_at (k : Kind) (post : List Kind) {y : Int} (hy0 : 0 ≤ y)
    (hy : y < (b.regions k).pickCount) :
    ∀ pre : List Kind, (∀ k ∈ pre, 0 ≤ (b.regions k).pickCount) →
      walkRegions b mouse miss (pre ++ k :: post) ((pre.map fun k => (b.regions k).pickCount).sum + y) =
        walkInstances b k mouse miss (b.regions k).picks 0 y (b.regions k).offset
  | [], _ => by
    simp only [List.nil_append, List.map_nil, List.sum_nil, zero_add, walkRegions]
    rw [if_neg (by omega)]
  | k' :: pre, hcounts => by
    have hrest : 0 ≤ (pre.map fun k => (b.regions k).pickCount).sum :=
      List.sum_nonneg (by simpa using fun k hk => hcounts k (List.mem_cons_of_mem _ hk))
    simp only [List.cons_append, List.map_cons, List.sum_cons, walkRegions]
    rw [if_pos (by omega), sub64_of_nonneg (hcounts k' List.mem_cons_self), add_assoc, add_sub_cancel_left]
    exact walkRegions_at k post hy0 hy pre (fun k hk => hcounts k (List.mem_cons_of_mem _ hk))

end Walk

/-! ## Drawing -/

/-- Each region drawn from `ks` gets the pick ids after those of the regions drawn before it. -/
theorem kindDraws_pickBase {b : PackedBuffer} (style : Style) (label : String) (hl : Highlight)
    (base : Int) :
    ∀ (ks : List Kind) (cursor : Int), (∀ k ∈ ks, (b.regions k).ids = [] → (b.regions k).pickCount = 0) →
      ∀ call, GpuEvent.draw call ∈ kindDraws style label b hl base ks cursor →
        ∃ pre post, ks = pre ++ call.kind :: post ∧
          call.pickBase = base + cursor + (pre.map fun k => (b.regions k).pickCount).sum
  | [], _, _, call, h => by simp [kindDraws] at h
  | k :: ks, cursor, hempty, call, h => by
    have hrest : ∀ k ∈ ks, (b.regions k).ids = [] → (b.regions k).pickCount = 0 :=
      fun k hk => hempty k (List.mem_cons_of_mem _ hk)
    unfold kindDraws at h
    by_cases hk : (b.regions k).ids.isEmpty
    · -- an empty region is skipped, and takes no pick ids
      rw [if_pos hk] at h
      obtain ⟨pre, post, hks, hbase⟩ := kindDraws_pickBase style label hl base ks cursor hrest call h
      have hzero := hempty k List.mem_cons_self (List.isEmpty_iff.mp hk)
      refine ⟨k :: pre, post, by rw [hks]; rfl, ?_⟩
      rw [hbase, List.map_cons, List.sum_cons, hzero, zero_add]
    · rw [if_neg hk] at h
      rcases List.mem_cons.mp h with hcall | hlater
      · obtain rfl := GpuEvent.draw.inj hcall
        exact ⟨[], ks, rfl, by simp⟩
      · obtain ⟨pre, post, hks, hbase⟩ :=
          kindDraws_pickBase style label hl base ks (cursor + (b.regions k).pickCount) hrest call hlater
        refine ⟨k :: pre, post, by rw [hks]; rfl, ?_⟩
        rw [hbase, List.map_cons, List.sum_cons]
        ring

/-! ## Well laid-out buffers -/

theorem Kind.sum_map_all {M : Type} [AddCommMonoid M] (f : Kind → M) (k : Kind) :
    (Kind.all.map f).sum =
      ((Kind.all.take k.index).map f).sum + f k + ((Kind.all.drop (k.index + 1)).map f).sum := by
  conv_lhs => rw [Kind.all_eq_take_append k]
  simp [List.sum_append, add_assoc]

namespace PackedBuffer

variable {b : PackedBuffer}

/-- The first pick id of a kind's region, counted from the first id of the buffer: the pick
counts of the regions before it. -/
def pickBase (b : PackedBuffer) (k : Kind) : Int :=
  ((Kind.all.take k.index).map fun k => (b.regions k).pickCount).sum

/-- Pick id `o` is part `p` of instance `i` of kind `k`: the instance has that part, and `o`
is the region's base, plus the instance's first pick id within the region, plus `p`. -/
def PickAt (b : PackedBuffer) (o : Int) (k : Kind) (i p : Nat) : Prop :=
  ∃ n, (b.regions k).picks[i]? = some n ∧ p < n ∧
    ∃ po, b.pickOffset? k i = some po ∧ b.pickBase k + po + p = o

theorem pickOffset?_of_le {k : Kind} {i : Nat} (hi : i ≤ (b.regions k).picks.length) :
    b.pickOffset? k i = some ((b.regions k).picks.take i).sum := by
  simp [pickOffset?, hi, List.sum_eq_foldr]

theorem instanceOffset?_of_le {k : Kind} {i : Nat} (hi : i ≤ (b.regions k).sizes.length) :
    b.instanceOffset? k i = some ((b.regions k).offset + ((b.regions k).sizes.take i).sum) := by
  simp [instanceOffset?, hi, List.sum_eq_foldr]

theorem pickAt_iff {o : Int} {k : Kind} {i p : Nat} :
    b.PickAt o k i p ↔ ∃ hi : i < (b.regions k).picks.length, p < (b.regions k).picks[i] ∧
      b.pickBase k + ((b.regions k).picks.take i).sum + p = o := by
  constructor
  · rintro ⟨n, hn, hp, po, hpo, rfl⟩
    obtain ⟨hi, rfl⟩ := List.getElem?_eq_some_iff.mp hn
    rw [pickOffset?_of_le hi.le, Option.some.injEq] at hpo
    exact ⟨hi, hp, by rw [hpo]⟩
  · rintro ⟨hi, hp, rfl⟩
    exact ⟨_, List.getElem?_eq_getElem hi, hp, _, pickOffset?_of_le hi.le, rfl⟩

namespace WellLaidOut

variable (hb : b.WellLaidOut)
include hb

theorem pickCount_nonneg (k : Kind) : 0 ≤ (b.regions k).pickCount := by
  rw [(hb.region k).pickCount_eq]
  positivity

/-- The bases of the regions, in whole numbers of pick ids. -/
theorem pickBase_eq (k : Kind) :
    b.pickBase k = (((Kind.all.take k.index).map fun k => (b.regions k).picks.sum).sum : Nat) := by
  rw [pickBase, Nat.cast_list_sum, List.map_map]
  exact congrArg List.sum (List.map_congr_left fun k _ => (hb.region k).pickCount_eq)

theorem totalPicks_eq : b.totalPicks = (Kind.all.map fun k => (b.regions k).pickCount).sum := by
  rw [hb.totalPicks, Nat.cast_list_sum, List.map_map]
  exact congrArg List.sum (List.map_congr_left fun k _ => ((hb.region k).pickCount_eq).symm)

theorem instancesFit (k : Kind) : b.InstancesFit k := by
  intro i hi
  have hinside := take_sum_le_sum (l := (b.regions k).sizes) (i + 1)
  have hcover : b.regionStart k + b.regionBytes k ≤ b.data.size := by
    rw [hb.covers, Kind.sum_map_all _ k]
    unfold regionStart
    omega
  have hoff := hb.offset k
  unfold regionBytes at hcover
  refine ⟨by omega, by omega, fun hfixed => ((hb.region k).sizes_whole _ (List.getElem_mem hi)).1 hfixed⟩

/-- Part `p` of instance `i` of kind `k` resolves from its pick id, to that instance and part. -/
theorem resolvePick_pickId {k : Kind} {i p : Nat} (hi : i < (b.regions k).picks.length)
    (hp : p < (b.regions k).picks[i]) (mouse : Vec3) :
    ∃ id pos, (b.regions k).ids[i]? = some id ∧
      b.resolvePick (b.pickBase k + ((b.regions k).picks.take i).sum + p) mouse =
        .ok ⟨id, k, i, p, (b.regions k).offset + ((b.regions k).sizes.take i).sum, pos⟩ := by
  have hwf := hb.region k
  have hbase : 0 ≤ b.pickBase k := List.sum_nonneg fun x hx => by
    obtain ⟨k', -, rfl⟩ := List.mem_map.mp hx
    exact hb.pickCount_nonneg k'
  -- the offset within the region lies below the region's pick count
  have hy : ((((b.regions k).picks.take i).sum + p : Nat) : Int) < (b.regions k).pickCount := by
    have hend := take_sum_add_le (l := (b.regions k).picks) hi (Nat.lt_add_one i)
    have hall := take_sum_le_sum (l := (b.regions k).picks) (i + 1)
    rw [hwf.pickCount_eq]
    omega
  set o := b.pickBase k + ((b.regions k).picks.take i).sum + p
  set miss := PickFailure.outOfRange o b.totalPicks
  have hwalk : ∃ id pos, (b.regions k).ids[0 + i]? = some id ∧
      walkInstances b k mouse miss ((b.regions k).picks.drop 0) 0
        ((((b.regions k).picks.drop 0).take i).sum + p : Nat)
        ((b.regions k).offset + ((b.regions k).sizes.take 0).sum) =
      .ok ⟨id, k, 0 + i, p, (b.regions k).offset + ((b.regions k).sizes.take (0 + i)).sum, pos⟩ :=
    walkInstances_at (hwf.sizes_length.trans hwf.picks_length.symm) hwf.picks_length.symm
      (hb.instancesFit k) i 0 p (by omega) (by simpa using hp)
  simp only [List.drop_zero, zero_add, List.take_zero, List.sum_nil, Nat.cast_zero, add_zero] at hwalk
  obtain ⟨id, pos, hid, hinst⟩ := hwalk
  -- the regions before `k` are skipped whole
  have hregions : walkRegions b mouse miss (Kind.all.take k.index ++ k :: Kind.all.drop (k.index + 1))
      (((Kind.all.take k.index).map fun k => (b.regions k).pickCount).sum +
        (((b.regions k).picks.take i).sum + p : Nat)) =
      walkInstances b k mouse miss (b.regions k).picks 0 (((b.regions k).picks.take i).sum + p : Nat)
        (b.regions k).offset :=
    walkRegions_at k _ (by positivity) hy _ (fun k _ => hb.pickCount_nonneg k)
  have ho : ((Kind.all.take k.index).map fun k => (b.regions k).pickCount).sum +
      ((((b.regions k).picks.take i).sum + p : Nat) : Int) = o := by
    simp only [o, pickBase, Nat.cast_add]
    ring
  rw [← Kind.all_eq_take_append k, ho] at hregions
  refine ⟨id, pos, hid, ?_⟩
  unfold resolvePick
  rw [if_neg (by omega), hregions, hinst]

/-- Every offset below the total is the pick id of a part of an instance. -/
theorem exists_pickAt {o : Int} (h0 : 0 ≤ o) (ht : o < b.totalPicks) :
    ∃ k i p, b.PickAt o k i p := by
  have htotal := hb.totalPicks
  obtain ⟨j, hj, y, hy, hoj⟩ := exists_take_sum_add
    (l := Kind.all.map fun k => (b.regions k).picks.sum) (o := o.toNat) (by omega)
  have hj6 : j < Kind.all.length := by simpa using hj
  have hindex := Kind.index_getElem_all j hj6
  rw [List.getElem_map] at hy
  obtain ⟨i, hi, p, hp, hyi⟩ := exists_take_sum_add hy
  refine ⟨Kind.all[j], i, p, pickAt_iff.mpr ⟨hi, hp, ?_⟩⟩
  rw [hb.pickBase_eq, hindex]
  rw [← List.map_take] at hoj
  omega

/-- An offset is the pick id of at most one part of one instance. -/
theorem pickAt_unique {o : Int} {k k' : Kind} {i i' p p' : Nat} (h : b.PickAt o k i p)
    (h' : b.PickAt o k' i' p') : k = k' ∧ i = i' ∧ p = p' := by
  obtain ⟨hi, hp, rfl⟩ := pickAt_iff.mp h
  obtain ⟨hi', hp', ho⟩ := pickAt_iff.mp h'
  rw [hb.pickBase_eq, hb.pickBase_eq] at ho
  have hk : k.index < (Kind.all.map fun k => (b.regions k).picks.sum).length := by
    simp only [List.length_map]
    exact Kind.index_lt k
  have hk' : k'.index < (Kind.all.map fun k => (b.regions k).picks.sum).length := by
    simp only [List.length_map]
    exact Kind.index_lt k'
  -- within a region, an offset lies below the region's count
  have hx : ((b.regions k).picks.take i).sum + p < (Kind.all.map fun k => (b.regions k).picks.sum)[k.index] := by
    have := take_sum_add_le (l := (b.regions k).picks) hi (Nat.lt_add_one i)
    have := take_sum_le_sum (l := (b.regions k).picks) (i + 1)
    rw [List.getElem_map, show Kind.all[k.index] = k by cases k <;> rfl]
    omega
  have hx' : ((b.regions k').picks.take i').sum + p' <
      (Kind.all.map fun k => (b.regions k).picks.sum)[k'.index] := by
    have := take_sum_add_le (l := (b.regions k').picks) hi' (Nat.lt_add_one i')
    have := take_sum_le_sum (l := (b.regions k').picks) (i' + 1)
    rw [List.getElem_map, show Kind.all[k'.index] = k' by cases k' <;> rfl]
    omega
  have hsum : ((Kind.all.take k.index).map fun k => (b.regions k).picks.sum).sum +
      (((b.regions k).picks.take i).sum + p) =
      ((Kind.all.take k'.index).map fun k => (b.regions k).picks.sum).sum +
      (((b.regions k').picks.take i').sum + p') := by
    omega
  rw [List.map_take, List.map_take] at hsum
  -- first the region, then the instance
  obtain ⟨hkk, hxx⟩ := take_sum_add_inj hk hk' hx hx' hsum
  have hkk' : k = k' := by cases k <;> cases k' <;> first | rfl | cases hkk
  subst hkk'
  obtain ⟨hii, hpp⟩ := take_sum_add_inj hi hi' hp hp' hxx
  exact ⟨rfl, hii, hpp⟩

theorem pickAt_range {o : Int} {k : Kind} {i p : Nat} (h : b.PickAt o k i p) :
    0 ≤ o ∧ o < b.totalPicks := by
  obtain ⟨hi, hp, rfl⟩ := pickAt_iff.mp h
  have hend := take_sum_add_le (l := (b.regions k).picks) hi (Nat.lt_add_one i)
  have hall := take_sum_le_sum (l := (b.regions k).picks) (i + 1)
  have hsplit := Kind.sum_map_all (fun k => (b.regions k).picks.sum) k
  rw [hb.totalPicks, hb.pickBase_eq]
  constructor
  · positivity
  · omega

/-- An offset below zero or past the last pick id is out of range. -/
theorem resolvePick_out_of_range {o : Int} (h : o < 0 ∨ b.totalPicks ≤ o) (mouse : Vec3) :
    b.resolvePick o mouse = .error (.outOfRange o b.totalPicks) := by
  unfold resolvePick
  by_cases hneg : o < 0
  · rw [if_pos hneg]
  · rw [if_neg hneg]
    exact walkRegions_of_le _ _ (fun k _ => hb.pickCount_nonneg k)
      (by rw [← hb.totalPicks_eq]; omega)

/-- Every drawn region gets its base as its first pick id, after the ids the layer reserved
before the buffer. -/
theorem drawBuffer_pickBase (style : Style) (label : String) (hl : Highlight) (nextPick : Int)
    {call : DrawCall} (h : GpuEvent.draw call ∈ (drawBuffer style label b hl nextPick).2) :
    call.pickBase = nextPick + b.pickBase call.kind := by
  -- an empty region takes no pick ids, so skipping it moves no cursor
  have hempty : ∀ k ∈ Kind.all, (b.regions k).ids = [] → (b.regions k).pickCount = 0 := by
    intro k _ hids
    have hpicks : (b.regions k).picks = [] :=
      List.eq_nil_of_length_eq_zero (by rw [(hb.region k).picks_length, hids]; rfl)
    rw [(hb.region k).pickCount_eq, hpicks]
    rfl
  unfold drawBuffer at h
  split at h
  · simp at h
  · simp only [List.cons_append, List.nil_append, List.mem_cons, reduceCtorEq, false_or] at h
    obtain ⟨pre, post, hsplit, hbase⟩ := kindDraws_pickBase style label hl nextPick Kind.all 0 hempty call h
    rw [hbase, Kind.take_index_of_all_eq hsplit, add_zero]
    rfl

theorem resolvePick_of_pickAt {o : Int} {k : Kind} {i p : Nat} (h : b.PickAt o k i p) (mouse : Vec3) :
    ∃ id pos, (b.regions k).ids[i]? = some id ∧
      b.resolvePick o mouse = .ok ⟨id, k, i, p, (b.regions k).offset + ((b.regions k).sizes.take i).sum, pos⟩ := by
  obtain ⟨hi, hp, rfl⟩ := pickAt_iff.mp h
  exact hb.resolvePick_pickId hi hp mouse

end WellLaidOut

/-- Resolving picks inverts the pick ids that drawing gives: each drawn region starts at its
base; each offset is the pick id of at most one part of one instance; an offset resolves
exactly when it lies below the total, and then to the instance and part whose pick id it is
(never to an instance without pick ids), with that instance's id and byte offset, so never to
a negative part; every other offset is out of range. -/
structure ResolvesPickIds (b : PackedBuffer) : Prop where
  drawn_base : ∀ style label hl nextPick call,
    GpuEvent.draw call ∈ (drawBuffer style label b hl nextPick).2 →
      call.pickBase = nextPick + b.pickBase call.kind
  unique : ∀ o k i p k' i' p', b.PickAt o k i p → b.PickAt o k' i' p' → k = k' ∧ i = i' ∧ p = p'
  resolves_iff : ∀ o mouse, (∃ pk, b.resolvePick o mouse = .ok pk) ↔ 0 ≤ o ∧ o < b.totalPicks
  resolves_to : ∀ o mouse id k i (p : Nat) off,
    (∃ pos, b.resolvePick o mouse = .ok ⟨id, k, i, p, off, pos⟩) ↔
      b.PickAt o k i p ∧ (b.regions k).ids[i]? = some id ∧ b.instanceOffset? k i = some off
  part_nonneg : ∀ o mouse pk, b.resolvePick o mouse = .ok pk → 0 ≤ pk.part
  out_of_range : ∀ o mouse e, b.resolvePick o mouse = .error e → e = .outOfRange o b.totalPicks

theorem resolvesPickIds_of_validate (hvalid : b.validate = .ok ()) : b.ResolvesPickIds := by
  have hb := (validate_eq_ok_iff b).mp hvalid
  -- an offset outside the pick ids resolves to nothing
  have hnone : ∀ o mouse, ¬(0 ≤ o ∧ o < b.totalPicks) →
      b.resolvePick o mouse = .error (.outOfRange o b.totalPicks) := fun o mouse h =>
    hb.resolvePick_out_of_range (by omega) mouse
  have hrange : ∀ o mouse pk, b.resolvePick o mouse = .ok pk → 0 ≤ o ∧ o < b.totalPicks := by
    intro o mouse pk h
    by_contra hout
    rw [hnone o mouse hout] at h
    cases h
  refine ⟨fun style label hl nextPick _ h => hb.drawBuffer_pickBase style label hl nextPick h,
    fun o k i p k' i' p' h h' => hb.pickAt_unique h h', fun o mouse => ⟨?_, ?_⟩, ?_, ?_, ?_⟩
  · rintro ⟨pk, h⟩
    exact hrange o mouse pk h
  · rintro ⟨h0, ht⟩
    obtain ⟨k, i, p, hat⟩ := hb.exists_pickAt h0 ht
    obtain ⟨id, pos, -, h⟩ := hb.resolvePick_of_pickAt hat mouse
    exact ⟨_, h⟩
  · intro o mouse id k i p off
    constructor
    · -- the result is the one pick id the offset is, so its fields are that instance's
      rintro ⟨pos, h⟩
      obtain ⟨h0, ht⟩ := hrange o mouse _ h
      obtain ⟨k', i', p', hat⟩ := hb.exists_pickAt h0 ht
      obtain ⟨id', pos', hid', h'⟩ := hb.resolvePick_of_pickAt hat mouse
      rw [h] at h'
      obtain ⟨rfl, rfl, rfl, hp, rfl, -⟩ := Pick.mk.inj (Except.ok.inj h')
      obtain rfl : p = p' := Int.ofNat_inj.mp hp
      have hi : i ≤ (b.regions k).sizes.length := by
        obtain ⟨hi, -⟩ := pickAt_iff.mp hat
        rw [(hb.region k).sizes_length, ← (hb.region k).picks_length]
        exact hi.le
      exact ⟨hat, hid', instanceOffset?_of_le hi⟩
    · rintro ⟨hat, hid, hoff⟩
      obtain ⟨id', pos, hid', h⟩ := hb.resolvePick_of_pickAt hat mouse
      have hi : i ≤ (b.regions k).sizes.length := by
        obtain ⟨hi, -⟩ := pickAt_iff.mp hat
        rw [(hb.region k).sizes_length, ← (hb.region k).picks_length]
        exact hi.le
      rw [instanceOffset?_of_le hi, Option.some.injEq] at hoff
      rw [hid, Option.some.injEq] at hid'
      subst hid' hoff
      exact ⟨pos, h⟩
  · -- a resolved pick is the one its pick id names, whose part is a natural
    intro o mouse pk h
    obtain ⟨h0, ht⟩ := hrange o mouse pk h
    obtain ⟨k, i, p, hat⟩ := hb.exists_pickAt h0 ht
    obtain ⟨id, pos, -, h'⟩ := hb.resolvePick_of_pickAt hat mouse
    rw [h] at h'
    rw [Except.ok.inj h']
    exact Int.natCast_nonneg p
  · intro o mouse e h
    by_cases hin : 0 ≤ o ∧ o < b.totalPicks
    · obtain ⟨k, i, p, hat⟩ := hb.exists_pickAt hin.1 hin.2
      obtain ⟨id, pos, -, h'⟩ := hb.resolvePick_of_pickAt hat mouse
      rw [h] at h'
      cases h'
    · rw [hnone o mouse hin] at h
      exact (Except.error.inj h).symm

/-- A point and a triangle: one pick id for the point, then six for the triangle's vertices
and edges. -/
theorem resolvesPickIds_point_triangle :
    let b : PackedBuffer :=
      { data := ⟨(List.replicate 48 0).toArray⟩,
        regions := fun k => match k with
          | .point => { ids := ["p"], sizes := [12], picks := [1], pickCount := 1 }
          | .polygon => { ids := ["t"], offset := 12, sizes := [36], picks := [6], pickCount := 6 }
          | .lineString => { offset := 48 }
          | _ => { offset := 12 },
        totalPicks := 7 }
    b.validate = .ok () ∧ b.ResolvesPickIds :=
  ⟨by decide, resolvesPickIds_of_validate (by decide)⟩

end PackedBuffer

end AnnotationStore
