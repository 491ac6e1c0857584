import Mathlib
import AnnotationStore.Proofs.Buffer.Pick
import AnnotationStore.Proofs.Buffer.Lookup
/-!
# What a valid buffer promises its readers

A packed buffer that comes from elsewhere is read by lookups and by drawing, which index its
per-instance lists, its bytes and its pick ids. `validate` is the only check in front of
them, and it is enough (`readsSafely_of_validate`): the regions lie back to back from the
first byte to the last in kind order, every instance lies inside the bytes and every
instance's pick ids inside its region's, the binary search of a region agrees with a scan of
it, and drawing issues one call per region with instances, taking every pick id once and
reading only labels, instances and pick counts that exist.
-/

namespace AnnotationStore

/-- The draw a command issues, if it is a draw. -/
def GpuEvent.call? : GpuEvent → Option DrawCall
  | .draw c => some c
  | _ => none

def drawCalls (style : Style) (label : String) (b : PackedBuffer) (hl : Highlight) (nextPick : Int) :
    List DrawCall :=
  (drawBuffer style label b hl nextPick).2.filterMap GpuEvent.call?

namespace PackedBuffer

theorem size_eq_zero_iff (b : PackedBuffer) : b.size = 0 ↔ ∀ k, (b.regions k).ids = [] := by
  simp only [size, count, Kind.all, List.map_cons, List.map_nil, List.foldr_cons, List.foldr_nil]
  constructor
  · intro h k
    cases k <;> simp only [← List.length_eq_zero_iff] <;> omega
  · intro h
    simp [h]

end PackedBuffer

/-! ## The draws of the regions -/

section Draws
variable {style : Style} {label : String} {b : PackedBuffer} {hl : Highlight} {base : Int}

/-- A region is drawn only when it has instances, with its count, its pick count, the pick id
of its hovered part and its colours. -/
theorem mem_kindDraws {call : DrawCall} :
    ∀ {ks : List Kind} {cursor : Int}, GpuEvent.draw call ∈ kindDraws style label b hl base ks cursor →
      call.kind ∈ ks ∧ (b.regions call.kind).ids ≠ [] ∧ call.count = (b.regions call.kind).ids.length ∧
        call.pickCount = (b.regions call.kind).pickCount ∧ call.selected = hoverIndex b call.kind hl ∧
        call.colors = regionColors style b call.kind hl.selected
  | [], _, h => by simp [kindDraws] at h
  | k :: ks, cursor, h => by
    unfold kindDraws at h
    by_cases hk : (b.regions k).ids.isEmpty
    · rw [if_pos hk] at h
      obtain ⟨hmem, hrest⟩ := mem_kindDraws h
      exact ⟨List.mem_cons_of_mem _ hmem, hrest⟩
    · rw [if_neg hk] at h
      rcases List.mem_cons.mp h with hcall | hlater
      · obtain rfl := GpuEvent.draw.inj hcall
        exact ⟨List.mem_cons_self, by simpa using hk, rfl, rfl, rfl, rfl⟩
      · obtain ⟨hmem, hrest⟩ := mem_kindDraws hlater
        exact ⟨List.mem_cons_of_mem _ hmem, hrest⟩

/-- One draw per region with instances, in kind order. -/
theorem kindDraws_kinds : ∀ (ks : List Kind) (cursor : Int),
    ((kindDraws style label b hl base ks cursor).filterMap GpuEvent.call?).map (·.kind) =
      ks.filter fun k => !(b.regions k).ids.isEmpty
  | [], _ => rfl
  | k :: ks, cursor => by
    unfold kindDraws
    by_cases hk : (b.regions k).ids.isEmpty
    · rw [if_pos hk, kindDraws_kinds ks cursor, List.filter_cons_of_neg (by simp [hk])]
    · rw [if_neg hk, List.filterMap_cons, List.filter_cons_of_pos (by simpa using hk)]
      simp only [GpuEvent.call?, List.map_cons, kindDraws_kinds ks]

theorem kindDraws_eq_nil (cursor : Int) (hempty : ∀ k, (b.regions k).ids = []) :
    ∀ ks : List Kind, kindDraws style label b hl base ks cursor = []
  | [] => rfl
  | k :: ks => by
    unfold kindDraws
    rw [if_pos (by simp [hempty k])]
    exact kindDraws_eq_nil cursor hempty ks

/-- Drawing a buffer draws its regions with instances, from the first pick id it reserved. -/
theorem drawCalls_eq (nextPick : Int) :
    drawCalls style label b hl nextPick =
      (kindDraws style label b hl nextPick Kind.all 0).filterMap GpuEvent.call? := by
  unfold drawCalls drawBuffer
  split
  · rename_i hsize
    rw [kindDraws_eq_nil 0 ((PackedBuffer.size_eq_zero_iff b).mp hsize)]
  · rfl

theorem drawCalls_kinds (nextPick : Int) :
    (drawCalls style label b hl nextPick).map (·.kind) = Kind.all.filter fun k => !(b.regions k).ids.isEmpty := by
  rw [drawCalls_eq, kindDraws_kinds]

theorem mem_drawCalls {nextPick : Int} {call : DrawCall} (h : call ∈ drawCalls style label b hl nextPick) :
    (b.regions call.kind).ids ≠ [] ∧ call.count = (b.regions call.kind).ids.length ∧
      call.pickCount = (b.regions call.kind).pickCount ∧ call.selected = hoverIndex b call.kind hl ∧
      call.colors = regionColors style b call.kind hl.selected := by
  rw [drawCalls_eq, List.mem_filterMap] at h
  obtain ⟨e, he, hcall⟩ := h
  cases e <;> simp only [GpuEvent.call?, reduceCtorEq, Option.some.injEq] at hcall
  subst hcall
  exact (mem_kindDraws he).2

theorem drawCalls_pickCounts (nextPick : Int) :
    (drawCalls style label b hl nextPick).map (·.pickCount) =
      (Kind.all.filter fun k => !(b.regions k).ids.isEmpty).map fun k => (b.regions k).pickCount := by
  rw [← drawCalls_kinds nextPick, List.map_map]
  exact List.map_congr_left fun call h => (mem_drawCalls h).2.2.1

end Draws

theorem exists_drawCall (style : Style) (label : String) (hl : Highlight) {b : PackedBuffer} {k : Kind}
    (hk : (b.regions k).ids ≠ []) (nextPick : Int) :
    ∃ call ∈ drawCalls style label b hl nextPick, call.kind = k := by
  have hmem : k ∈ (drawCalls style label b hl nextPick).map (·.kind) := by
    rw [drawCalls_kinds]
    simpa [Kind.mem_all] using hk
  exact List.mem_map.mp hmem

theorem length_regionColors (style : Style) (b : PackedBuffer) (k : Kind) (selected : String) :
    (regionColors style b k selected).length = (b.regions k).ids.length := by
  unfold regionColors
  split
  split <;> simp

/-! ## Valid buffers -/

namespace PackedBuffer

/-- What every reader of a buffer relies on. The regions tile the bytes: each starts where
the kinds before it end, from byte 0, none has a negative size, together they cover the
bytes, and each holds exactly its instances. Every instance lies inside the bytes, and its
pick ids inside its region's. The binary search of a region finds an id exactly at its
position, and `find?` the first region in kind order that holds it. Drawing issues one call
per region with instances, in kind order, their pick counts adding up to the buffer's; each
call has a colour per instance, and every label, hovered or selected instance and pick count
that drawing reads is there. -/
structure ReadsSafely (b : PackedBuffer) : Prop where
  offset : ∀ k, (b.regions k).offset = ((Kind.all.take k.index).map b.regionSize).sum
  regionSize_nonneg : ∀ k, 0 ≤ b.regionSize k
  covers : (Kind.all.map b.regionSize).sum = b.data.size
  regionSize_eq : ∀ k, b.regionSize k = (b.regions k).sizes.sum
  instance_inside : ∀ k i, i < b.count k → ∃ off size,
    b.instanceOffset? k i = some off ∧ (b.regions k).sizes[i]? = some size ∧ 0 ≤ off ∧
      off + size ≤ b.data.size ∧ b.instance? k i = some (b.data.extract off.toNat (off.toNat + size))
  pick_inside : ∀ k i, i < b.count k → ∃ po n,
    b.pickOffset? k i = some po ∧ (b.regions k).picks[i]? = some n ∧ ((po + n : Nat) : Int) ≤ (b.regions k).pickCount
  indexOf_iff : ∀ k id i, b.indexOf k id = (i, true) ↔ (b.regions k).ids[i]? = some id
  found_iff : ∀ k id, (b.indexOf k id).2 = true ↔ id ∈ (b.regions k).ids
  find?_iff : ∀ id k i, b.find? id = some (k, i) ↔
    (b.regions k).ids[i]? = some id ∧ ∀ k' ∈ Kind.all.take k.index, id ∉ (b.regions k').ids
  find?_none_iff : ∀ id, b.find? id = none ↔ ∀ k, id ∉ (b.regions k).ids
  draw_kinds : ∀ style label hl nextPick,
    (drawCalls style label b hl nextPick).map (·.kind) = Kind.all.filter fun k => !(b.regions k).ids.isEmpty
  draw_pickCounts : ∀ style label hl nextPick,
    ((drawCalls style label b hl nextPick).map (·.pickCount)).sum = b.totalPicks
  draw_reads : ∀ style label hl nextPick, ∀ call ∈ drawCalls style label b hl nextPick,
    call.count = (b.regions call.kind).ids.length ∧ call.colors.length = call.count ∧
      (∀ ls ∈ (b.regions call.kind).labels, ls.length = call.count) ∧
      ∀ id, (b.indexOf call.kind id).2 = true →
        (b.indexOf call.kind id).1 < call.count ∧ (b.indexOf call.kind id).1 < (b.regions call.kind).picks.length

namespace WellLaidOut

variable {b : PackedBuffer} (hb : b.WellLaidOut)
include hb

theorem regionSize_eq (k : Kind) : b.regionSize k = (b.regions k).sizes.sum := by
  -- a region ends where the next one starts, and the last one where the bytes end
  cases k
  case lineString =>
    have hcov := hb.covers
    simp [regionSize, Kind.next?, hb.offset, regionStart, Kind.all, Kind.index, regionBytes,
      -Nat.cast_list_sum] at hcov ⊢
    omega
  all_goals simp [regionSize, Kind.next?, hb.offset, regionStart, Kind.all, Kind.index, regionBytes]

theorem map_regionSize (ks : List Kind) : ks.map b.regionSize = ks.map fun k => ((b.regionBytes k : Nat) : Int) :=
  List.map_congr_left fun k _ => hb.regionSize_eq k

theorem instance_inside {k : Kind} {i : Nat} (hi : i < b.count k) : ∃ off size,
    b.instanceOffset? k i = some off ∧ (b.regions k).sizes[i]? = some size ∧ 0 ≤ off ∧
      off + size ≤ b.data.size ∧ b.instance? k i = some (b.data.extract off.toNat (off.toNat + size)) := by
  have hsizes : i < (b.regions k).sizes.length := by rw [(hb.region k).sizes_length]; exact hi
  obtain ⟨hstart, hend, -⟩ := hb.instancesFit k i hsizes
  rw [List.sum_take_succ _ _ hsizes] at hend
  have hoff := instanceOffset?_of_le (b := b) hsizes.le
  have hsize := List.getElem?_eq_getElem hsizes
  refine ⟨_, _, hoff, hsize, hstart, by push_cast at hend ⊢; omega, ?_⟩
  simp only [instance?, hoff, hsize, Option.bind_eq_bind, Option.bind_some]
  rw [if_pos ⟨hstart, by push_cast at hend ⊢; omega⟩]

theorem pick_inside {k : Kind} {i : Nat} (hi : i < b.count k) : ∃ po n,
    b.pickOffset? k i = some po ∧ (b.regions k).picks[i]? = some n ∧ ((po + n : Nat) : Int) ≤ (b.regions k).pickCount := by
  have hpicks : i < (b.regions k).picks.length := by rw [(hb.region k).picks_length]; exact hi
  have hend := take_sum_add_le (l := (b.regions k).picks) hpicks (Nat.lt_add_one i)
  have hall := take_sum_le_sum (l := (b.regions k).picks) (i + 1)
  refine ⟨_, _, pickOffset?_of_le hpicks.le, List.getElem?_eq_getElem hpicks, ?_⟩
  rw [(hb.region k).pickCount_eq]
  exact_mod_cast hend.trans hall

end WellLaidOut

/-- A buffer that passes the check can be read and drawn without a lookup missing: see
`ReadsSafely`. The check itself is total and never faults. -/
theorem readsSafely_of_validate {b : PackedBuffer} (hvalid : b.validate = .ok ()) : b.ReadsSafely := by
  have hb := (validate_eq_ok_iff b).mp hvalid
  have hasc : ∀ k, (b.regions k).ids.IsChain (· < ·) := fun k => (hb.region k).ascending
  -- an empty region takes no pick ids
  have hempty : ∀ k, (b.regions k).ids.isEmpty = true → (b.regions k).pickCount = 0 := by
    intro k hk
    have hpicks : (b.regions k).picks = [] := List.eq_nil_of_length_eq_zero
      (by rw [(hb.region k).picks_length]; simpa using hk)
    rw [(hb.region k).pickCount_eq, hpicks]
    rfl
  refine ⟨fun k => ?_, fun k => ?_, ?_, hb.regionSize_eq, fun k i hi => hb.instance_inside hi,
    fun k i hi => hb.pick_inside hi, fun k id i => indexOf_eq_found_iff (hasc k),
    fun k id => indexOf_snd_iff (hasc k), fun id k i => find?_eq_some_iff hasc,
    fun id => find?_eq_none_iff hasc, fun style label hl nextPick => drawCalls_kinds nextPick,
    fun style label hl nextPick => ?_, fun style label hl nextPick call hcall => ?_⟩
  · rw [hb.offset k, regionStart, hb.map_regionSize, Nat.cast_list_sum, List.map_map]
    rfl
  · rw [hb.regionSize_eq k]
    positivity
  · rw [hb.map_regionSize, hb.covers, Nat.cast_list_sum, List.map_map]
    rfl
  · -- the regions left out of the draws have no pick ids
    have hdrawn : ∀ l : List Kind, ((l.filter fun k => !(b.regions k).ids.isEmpty).map
        fun k => (b.regions k).pickCount).sum = (l.map fun k => (b.regions k).pickCount).sum := by
      intro l
      induction l with
      | nil => rfl
      | cons k l ih =>
        by_cases hk : (b.regions k).ids.isEmpty
        · rw [List.filter_cons_of_neg (by simp [hk]), ih, List.map_cons, List.sum_cons, hempty k hk, zero_add]
        · rw [List.filter_cons_of_pos (by simpa using hk), List.map_cons, List.map_cons, List.sum_cons,
            List.sum_cons, ih]
    rw [drawCalls_pickCounts, hb.totalPicks_eq, hdrawn]
  · obtain ⟨-, hcount, -, -, hcolors⟩ := mem_drawCalls hcall
    have hwf := hb.region call.kind
    refine ⟨hcount, by rw [hcolors, length_regionColors, hcount], fun ls hls => by
      rw [hwf.labels_length ls hls, hcount], fun id hfound => ?_⟩
    obtain ⟨hlt, -⟩ := List.getElem?_eq_some_iff.mp
      ((indexOf_eq_found_iff (hasc call.kind)).mp (Prod.ext rfl hfound))
    exact ⟨hcount ▸ hlt, hwf.picks_length ▸ hlt⟩

/-- The point and triangle of `resolvesPickIds_point_triangle`, read safely. -/
theorem readsSafely_point_triangle :
    let b : PackedBuffer :=
      { data := ⟨(List.replicate 48 0).toArray⟩,
        regions := fun k => match k with
          | .point => { ids := ["p"], sizes := [12], picks := [1], pickCount := 1 }
          | .polygon => { ids := ["t"], offset := 12, sizes := [36], picks := [6], pickCount := 6 }
          | .lineString => { offset := 48 }
          | _ => { offset := 12 },
        totalPicks := 7 }
    b.validate = .ok () ∧ b.ReadsSafely :=
  ⟨by decide, readsSafely_of_validate (by decide)⟩

end PackedBuffer

end AnnotationStore
