import Mathlib
import AnnotationStore.Proofs.Buffer.Pick
/-!
# Resolving picks on metadata from elsewhere

`resolvePick` walks metadata that nothing has checked against the bytes. Before reading an
instance it checks that the instance ends within the bytes, but not that it starts within
them, nor that it holds the bytes its kind's snap reads, and the end it checks is a 64-bit
integer, which wraps below zero past the largest one. So a walk ends in one of three ways
(`resolvePick_in_bounds_or_fault`): the offset is out of range; or a pick whose instance lies
within the bytes and holds what the snap reads; or a fault, and then the metadata places
some instance so that it ends within the bytes but starts before them or is shorter than its
kind's snap reads, or so that it ends past the bytes and past the largest 64-bit integer.
Such metadata does make the walk fault (`resolvePick_faults_before_bytes`,
`resolvePick_faults_past_largest_integer`).

Skipping a region subtracts its pick count as 64-bit integers do (`sub64_eq_bmod`), so an
offset carried past the largest integer by a negative count goes on negative.
-/

namespace AnnotationStore

/-! ## What a snap reads -/

/-- The bytes a kind's snap reads from the start of an instance: a fixed kind reads its whole
stride, a polyline only whole vertices within the instance. -/
def Kind.snapBytes (k : Kind) : Nat := if k.fixedSize then k.stride else 0

theorem Vec3.read?_isSome_iff {b : ByteArray} {off : Nat} : (Vec3.read? b off).isSome ↔ off + 12 ≤ b.size := by
  refine ⟨fun h => ?_, Vec3.read?_isSome⟩
  -- the last of the three words lies within the bytes
  obtain ⟨v, hv⟩ := Option.isSome_iff_exists.mp h
  simp only [Vec3.read?, Option.bind_eq_bind, Option.bind_eq_some_iff, Option.pure_def,
    Option.some.injEq] at hv
  obtain ⟨-, -, -, -, z, hz, -⟩ := hv
  simp only [LittleEndian.read?, LittleEndian.slice?, Option.map_eq_some_iff] at hz
  obtain ⟨_, hslice, -⟩ := hz
  split at hslice
  · omega
  · cases hslice

/-- Every part snaps exactly when the instance holds what its kind's snap reads. -/
theorem Kind.snap?_isSome_iff (k : Kind) {b : ByteArray} {part : Int} (mouse : Vec3) :
    (k.snap? b part mouse).isSome ↔ k.snapBytes ≤ b.size := by
  cases k with
  | point => simp [snap?, snapBytes, fixedSize, stride, Vec3.read?_isSome_iff]
  | line | box | ellipsoid =>
    have h0 := @Vec3.read?_isSome_iff b 0
    have h12 := @Vec3.read?_isSome_iff b 12
    simp only [snap?, snapBytes, fixedSize, stride, if_true]
    constructor
    · intro h
      obtain ⟨_, hp⟩ := Option.isSome_iff_exists.mp h
      simp only [Option.bind_eq_bind, Option.bind_eq_some_iff, Option.pure_def] at hp
      obtain ⟨_, -, c, hc, -⟩ := hp
      have := h12.mp (by simp [hc])
      omega
    · intro h
      obtain ⟨a, ha⟩ := Option.isSome_iff_exists.mp (h0.mpr (by omega))
      obtain ⟨c, hc⟩ := Option.isSome_iff_exists.mp (h12.mpr h)
      simp [ha, hc]
  | polygon => simp [snapBytes, fixedSize, snapPolyline_isSome true mouse, snap?]
  | lineString => simp [snapBytes, fixedSize, snapPolyline_isSome false mouse, snap?]

/-! ## 64-bit differences -/

/-- On 64-bit operands `sub64` is the difference taken modulo `2 ^ 64` into the 64-bit range. -/
theorem sub64_eq_bmod {x y : Int} (hx : x ≤ maxInt64) (hy : -2 ^ 63 ≤ y) (hxy : y ≤ x) :
    sub64 x y = (x - y).bmod (2 ^ 64) := by
  have hmax : maxInt64 = 9223372036854775807 := by norm_num [maxInt64]
  norm_num at hy
  have h0 : 0 ≤ x - y := by omega
  have h1 : x - y < ((2 ^ 64 : Nat) : Int) := by norm_num; omega
  rw [Int.bmod_def, Int.emod_eq_of_lt h0 h1]
  unfold sub64
  -- the difference passes the largest integer exactly when it reaches half the modulus
  by_cases hwrap : maxInt64 < x - y
  · rw [if_pos ⟨hx, hwrap⟩, if_neg (by norm_num; omega)]
    norm_num
  · rw [if_neg (fun h => hwrap h.2), if_pos (by norm_num; omega)]

/-! ## How a walk ends -/

section Walk
variable (b : PackedBuffer) (miss : PickFailure)

/-- The ways a walk over a buffer's metadata may end: with `miss`; with a pick of an instance
whose bytes lie within the buffer and hold what its kind's snap reads; or with a fault, when
some instance ends within the bytes but starts before them or is shorter than that, or ends
past the bytes and past the largest 64-bit integer. -/
def Resolved (r : Except PickFailure Pick) : Prop :=
  r = .error miss ∨
  (∃ p size, r = .ok p ∧ (b.regions p.kind).sizes[p.index]? = some size ∧
    (b.regions p.kind).ids[p.index]? = some p.id ∧ b.instanceOffset? p.kind p.index = some p.byteOffset ∧
    0 ≤ p.byteOffset ∧ p.byteOffset + size ≤ b.data.size ∧ p.kind.snapBytes ≤ size) ∨
  (r = .error .fault ∧ ∃ (k : Kind) (i size : Nat) (off : Int), (b.regions k).sizes[i]? = some size ∧
    b.instanceOffset? k i = some off ∧
    ((off + size ≤ b.data.size ∧ (off < 0 ∨ size < k.snapBytes)) ∨
      (b.data.size < off + size ∧ maxInt64 < off + size)))

variable {b miss}

theorem instanceOffset?_of_getElem? {k : Kind} {i size : Nat} (h : (b.regions k).sizes[i]? = some size) :
    b.instanceOffset? k i = some ((b.regions k).offset + ((b.regions k).sizes.take i).sum) := by
  have hi : i < (b.regions k).sizes.length := (List.getElem?_eq_some_iff.mp h).1
  simp [PackedBuffer.instanceOffset?, hi.le, List.sum_eq_foldr]

/-- The instance the offset falls on: past the bytes' end out of range, or a fault when that
end is past the largest 64-bit integer; a fault before their start or when too short for the
snap; and otherwise a pick within the bytes. -/
theorem Resolved.hit (k : Kind) (mouse : Vec3) {i size : Nat} {id : String} {off byteOff : Int}
    (hsize : (b.regions k).sizes[i]? = some size) (hid : (b.regions k).ids[i]? = some id)
    (hbyte : byteOff = (b.regions k).offset + ((b.regions k).sizes.take i).sum) :
    Resolved b miss (if byteOff + size > b.data.size then
        (if byteOff + size > maxInt64 then .error .fault else .error miss)
      else if byteOff < 0 then .error .fault
      else match k.snap? (b.data.extract byteOff.toNat (byteOff.toNat + size)) off mouse with
        | some pos => .ok ⟨id, k, i, off, byteOff, pos⟩
        | none => .error .fault) := by
  have hplace := instanceOffset?_of_getElem? hsize
  rw [← hbyte] at hplace
  by_cases hend : byteOff + size > b.data.size
  · rw [if_pos hend]
    by_cases hwrap : byteOff + size > maxInt64
    · -- the end wraps below zero and the read faults
      rw [if_pos hwrap]
      exact Or.inr (Or.inr ⟨rfl, k, i, size, byteOff, hsize, hplace, Or.inr ⟨hend, hwrap⟩⟩)
    · exact Or.inl (if_neg hwrap)
  rw [if_neg hend]
  by_cases hstart : byteOff < 0
  · -- the instance starts before the bytes
    rw [if_pos hstart]
    exact Or.inr (Or.inr ⟨rfl, k, i, size, byteOff, hsize, hplace, Or.inl ⟨by omega, Or.inl hstart⟩⟩)
  rw [if_neg hstart]
  have hlen : (b.data.extract byteOff.toNat (byteOff.toNat + size)).size = size := by
    rw [ByteArray.size_extract]
    omega
  have hsnap := @Kind.snap?_isSome_iff k (b.data.extract byteOff.toNat (byteOff.toNat + size)) off mouse
  rw [hlen] at hsnap
  cases hpos : k.snap? (b.data.extract byteOff.toNat (byteOff.toNat + size)) off mouse with
  | none =>
    -- the instance is too short for what the snap reads
    have hshort : size < k.snapBytes := by
      by_contra hle
      have hsome := hsnap.mpr (by omega)
      rw [hpos] at hsome
      cases hsome
    exact Or.inr (Or.inr ⟨rfl, k, i, size, byteOff, hsize, hplace, Or.inl ⟨by omega, Or.inr hshort⟩⟩)
  | some pos =>
    exact Or.inr (Or.inl ⟨_, size, rfl, hsize, hid, hplace, (by omega : 0 ≤ byteOff),
      (by omega : byteOff + size ≤ b.data.size), hsnap.mp (by simp [hpos])⟩)

/-- A walk over the instances of a region, started at an instance's place, ends in one of the
three ways. -/
theorem walkInstances_resolved (k : Kind) (mouse : Vec3) :
    ∀ (ps : List Nat) (i : Nat) (off byteOff : Int),
      byteOff = (b.regions k).offset + ((b.regions k).sizes.take i).sum →
      Resolved b miss (walkInstances b k mouse miss ps i off byteOff)
  | [], _, _, _, _ => Or.inl rfl
  | p :: ps, i, off, byteOff, hbyte => by
    cases hsize : (b.regions k).sizes[i]? with
    | none =>
      simp only [walkInstances, hsize]
      exact Or.inl rfl
    | some size =>
      cases hid : (b.regions k).ids[i]? with
      | none =>
        simp only [walkInstances, hsize, hid]
        exact Or.inl rfl
      | some id =>
        by_cases hskip : off ≥ p
        · -- the instance's pick ids all lie before the offset: on to the next
          rw [walkInstances_skip hsize hid hskip]
          refine walkInstances_resolved k mouse ps (i + 1) _ _ ?_
          have hi : i < (b.regions k).sizes.length := (List.getElem?_eq_some_iff.mp hsize).1
          rw [List.sum_take_succ _ _ hi, (List.getElem?_eq_some_iff.mp hsize).2, hbyte]
          push_cast
          ring
        · simp only [walkInstances, hsize, hid]
          rw [if_neg hskip]
          exact Resolved.hit k mouse hsize hid hbyte

/-- A walk over the regions ends in one of the three ways, whatever the offset. -/
theorem walkRegions_resolved (mouse : Vec3) :
    ∀ (ks : List Kind) (off : Int), Resolved b miss (walkRegions b mouse miss ks off)
  | [], _ => Or.inl rfl
  | k :: ks, off => by
    unfold walkRegions
    dsimp only
    split
    · exact walkRegions_resolved mouse ks _
    · exact walkInstances_resolved k mouse _ 0 off _ (by simp)

end Walk

theorem resolvePick_resolved (b : PackedBuffer) (o : Int) (mouse : Vec3) :
    Resolved b (.outOfRange o b.totalPicks) (b.resolvePick o mouse) := by
  unfold PackedBuffer.resolvePick
  dsimp only
  split
  · exact Or.inl rfl
  · exact walkRegions_resolved mouse Kind.all o

/-- Resolving a pick on any metadata ends in one of three ways: the offset is out of range; or
the pick's instance lies within the bytes, where the metadata places it, and holds what its
kind's snap reads; or the walk faults, and then the metadata places some instance so that it
ends within the bytes but starts before them or is shorter than its kind's snap reads, or so
that it ends past the bytes and past the largest 64-bit integer. -/
theorem resolvePick_in_bounds_or_fault (b : PackedBuffer) (o : Int) (mouse : Vec3) :
    b.resolvePick o mouse = .error (.outOfRange o b.totalPicks) ∨
      (∃ p size, b.resolvePick o mouse = .ok p ∧ (b.regions p.kind).sizes[p.index]? = some size ∧
        (b.regions p.kind).ids[p.index]? = some p.id ∧
        b.instanceOffset? p.kind p.index = some p.byteOffset ∧
        0 ≤ p.byteOffset ∧ p.byteOffset + size ≤ b.data.size ∧ p.kind.snapBytes ≤ size) ∨
      (b.resolvePick o mouse = .error .fault ∧
        ∃ (k : Kind) (i size : Nat) (off : Int), (b.regions k).sizes[i]? = some size ∧
          b.instanceOffset? k i = some off ∧
          ((off + size ≤ b.data.size ∧ (off < 0 ∨ size < k.snapBytes)) ∨
            (b.data.size < off + size ∧ maxInt64 < off + size))) :=
  resolvePick_resolved b o mouse

/-- Such metadata does make the walk fault: one point placed twelve bytes before an empty byte
string ends within the bytes. -/
theorem resolvePick_faults_before_bytes :
    ({ regions := fun k => if k = .point then
        { ids := ["a"], offset := -12, sizes := [12], picks := [1], pickCount := 1 } else {}
       totalPicks := 1 } : PackedBuffer).resolvePick 0 ⟨0, 0, 0⟩ = .error .fault :=
  rfl

/-- So does one point placed six bytes before the largest 64-bit integer: its end wraps below
zero and passes the check against the bytes' end. -/
theorem resolvePick_faults_past_largest_integer :
    ({ regions := fun k => if k = .point then
        { ids := ["a"], offset := 9223372036854775802, sizes := [12], picks := [1], pickCount := 1 }
        else {}
       totalPicks := 1 } : PackedBuffer).resolvePick 0 ⟨0, 0, 0⟩ = .error .fault :=
  rfl

end AnnotationStore
