import Mathlib
import AnnotationStore.Proofs.Segment.Partition
/-!
# The walk to a canonical id

Every pointer of a visible set goes from an id to a smaller one, so the walk that `canonical`
makes from `x` stops after at most `x` steps, at an id without a pointer, whatever fuel the
definition is given. A query's compression then points exactly the ids that walk passed
straight at the canonical id; they all lie in the class of `x`, and no canonical id moves.

Main statement (`VisibleSet.canonical_walk_descends`): on every set that a run of calls reaches
from a new one, pointers go down, visible ids carry no pointer, and both loops of a query
behave as above.
-/

namespace AnnotationStore

namespace VisibleSet

variable {v : VisibleSet} {x p : SegmentId} {d : Nat}

theorem root_succ_of_lookup_some {k : Nat} (h : v.parent.lookup x = some p) :
    v.root (k + 1) x = v.root k p := by
  simp [root, h]

theorem root_of_lookup_none (h : v.parent.lookup x = none) : ∀ k, v.root k x = x
  | 0 => rfl
  | _ + 1 => by simp [root, h]

/-- The walk from `x` takes `d` steps: each of the first `d` ids it meets has a pointer, it
ends where `find` does, and those `d` ids are the way a query compresses. -/
structure Walk (v : VisibleSet) (x : SegmentId) (d : Nat) : Prop where
  le_id : d ≤ x.toNat
  le_depth : d ≤ v.depth x
  linked : ∀ k < d, v.parent.lookup (v.root k x) ≠ none
  ends : v.root d x = v.find x
  path_eq : ∀ fuel, d ≤ fuel → v.path fuel x = (List.range d).map (v.root · x)

theorem Walk.of_lookup_none (h : v.parent.lookup x = none) : v.Walk x 0 where
  le_id := Nat.zero_le _
  le_depth := Nat.zero_le _
  linked k hk := absurd hk (Nat.not_lt_zero k)
  ends := (find_of_lookup_none h).symm
  path_eq fuel _ := by cases fuel <;> simp [path, h]

/-- A step down a pointer adds one step to the walk of its target. -/
theorem Walk.cons (hw : v.WellFormed) (h : v.parent.lookup x = some p) (hp : v.Walk p d) :
    v.Walk x (d + 1) where
  le_id := by
    have hlt := UInt64.lt_iff_toNat_lt.mp (hw.lt_of_lookup h)
    have := hp.le_id
    omega
  le_depth := by
    have hlt := depth_lt hw h
    have := hp.le_depth
    omega
  linked k hk := by
    cases k with
    | zero => simp [root, h]
    | succ k =>
      rw [root_succ_of_lookup_some h]
      exact hp.linked k (by omega)
  ends := by rw [root_succ_of_lookup_some h, hp.ends, find_of_lookup_some hw h]
  path_eq fuel hfuel := by
    obtain ⟨fuel, rfl⟩ : ∃ f, fuel = f + 1 := ⟨fuel - 1, by omega⟩
    -- the walk meets `x` first and then walks on from `p`
    have hrest : (List.range d).map (fun k => v.root (k + 1) x) = (List.range d).map (v.root · p) :=
      List.map_congr_left fun k _ => root_succ_of_lookup_some h
    simp only [path, h, List.range_succ_eq_map, List.map_cons, List.map_map, Function.comp_def,
      hp.path_eq fuel (by omega), hrest]
    rfl

theorem exists_walk (hw : v.WellFormed) (x : SegmentId) : ∃ d, v.Walk x d := by
  fun_induction v.find x with
  | case1 x p hl hp ih =>
    obtain ⟨d, hd⟩ := ih
    exact ⟨d + 1, hd.cons hw hl⟩
  | case2 x p hl hp => exact absurd (hw.lt_of_lookup hl) hp
  | case3 x hl => exact ⟨0, Walk.of_lookup_none hl⟩

/-- Every id the walk meets lies in the class of `x`. -/
theorem find_root (hw : v.WellFormed) : ∀ k x, v.find (v.root k x) = v.find x
  | 0, _ => rfl
  | k + 1, x => by
    cases hl : v.parent.lookup x with
    | none => rw [root_of_lookup_none hl]
    | some p => rw [root_succ_of_lookup_some hl, find_root hw k p, find_of_lookup_some hw hl]

/-- A query points the ids its walk passed straight at the canonical id and leaves every other
pointer as it was. -/
theorem Walk.lookup_compress (hd : v.Walk x d) (y : SegmentId) :
    (v.compress x).parent.lookup y =
      if y ∈ (List.range d).map (v.root · x) then some (v.canonical x) else v.parent.lookup y := by
  rw [VisibleSet.lookup_compress, hd.path_eq _ (hd.le_depth.trans (depth_le x))]
  by_cases hy : y ∈ (List.range d).map (v.root · x)
  · -- a passed id had a pointer, which now goes to the canonical id
    obtain ⟨k, hk, rfl⟩ := List.mem_map.mp hy
    obtain ⟨q, hq⟩ := Option.ne_none_iff_exists'.mp (hd.linked k (List.mem_range.mp hk))
    simp [hq, hy]
  · simp [hy]

/-- On every set a run of calls reaches from a new one: each pointer goes to a smaller id and
no visible id has one. The walk of `canonical` from any `x` follows pointers for `d ≤ x` steps
and stops at the canonical id, which has none. The compression of a query redirects exactly
the `d` ids the walk passed, each in the class of `x`, to the canonical id, keeps every other
pointer, and moves no canonical id. -/
theorem canonical_walk_descends (ops : List Op) :
    let v := replay ops
    (∀ c p, v.parent.lookup c = some p → p < c) ∧
    (∀ y ∈ v.visible, v.parent.lookup y = none) ∧
    ∀ x, ∃ d ≤ x.toNat,
      (∀ k < d, v.parent.lookup (v.root k x) ≠ none) ∧
      v.root d x = v.canonical x ∧ v.parent.lookup (v.canonical x) = none ∧
      (∀ y, (v.compress x).parent.lookup y =
        if y ∈ (List.range d).map (v.root · x) then some (v.canonical x) else v.parent.lookup y) ∧
      (∀ k, v.canonical (v.root k x) = v.canonical x) ∧
      ∀ y, (v.compress x).canonical y = v.canonical y := by
  intro v
  have hw : v.WellFormed := (refines_replay ops).wf
  refine ⟨fun c p h => hw.lt_of_lookup h, hw.roots, fun x => ?_⟩
  obtain ⟨d, hd⟩ := exists_walk hw x
  refine ⟨d, hd.le_id, hd.linked, ?_, ?_, hd.lookup_compress, fun k => ?_, fun y => ?_⟩
  · rw [canonical_eq_find hw, hd.ends]
  · rw [canonical_eq_find hw]
    exact lookup_find hw x
  · rw [canonical_eq_find hw, canonical_eq_find hw, find_root hw]
  · rw [canonical_eq_find (hw.compress x), canonical_eq_find hw, find_compress hw]

end VisibleSet

end AnnotationStore
