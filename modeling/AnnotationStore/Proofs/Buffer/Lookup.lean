import Mathlib
import AnnotationStore.Proofs.Buffer.Layout
/-!
# Looking ids up in a packed buffer

`indexOf` finds an id in a region by binary search. On a region whose ids strictly ascend,
as in every buffer that passes `validate`, it agrees with a scan of the list: it finds an id
exactly when the region holds it, and then at the id's position (`indexOf_eq_found_iff`).
`find?` then gives the first kind, in kind order, whose region holds the id.
-/

namespace AnnotationStore

theorem Kind.mem_all (k : Kind) : k ∈ Kind.all := by
  cases k <;> simp [Kind.all]

namespace PackedBuffer

/-! ## The binary search -/

section Search
variable {ids : Array String} {target : String}

/-- What the search keeps between `lo` and `hi`: every id before `lo` is below the target,
and no id from `hi` on is. -/
def Brackets (ids : Array String) (target : String) (lo hi : Nat) : Prop :=
  lo ≤ hi ∧ hi ≤ ids.size ∧ (∀ j (hj : j < ids.size), j < lo → ids[j] < target) ∧
    ∀ j (hj : j < ids.size), hi ≤ j → ¬ids[j] < target

theorem brackets_start : Brackets ids target 0 ids.size :=
  ⟨Nat.zero_le _, le_rfl, fun _ _ h => absurd h (Nat.not_lt_zero _), fun _ hj h => absurd hj (by omega)⟩

/-- In ascending ids, an id below the target has only ids below the target before it. -/
theorem lt_of_le_of_lt_target (hasc : ids.toList.IsChain (· < ·)) {i j : Nat} (hij : i ≤ j)
    (hj : j < ids.size) (h : ids[j] < target) : ids[i] < target := by
  rcases Nat.lt_or_eq_of_le hij with hlt | rfl
  · have hpair := List.pairwise_iff_getElem.mp (List.isChain_iff_pairwise.mp hasc) i j
      (by simpa using hlt.trans hj) (by simpa using hj) hlt
    simp only [Array.getElem_toList] at hpair
    exact hpair.trans h
  · exact h

theorem Brackets.step (hasc : ids.toList.IsChain (· < ·)) {lo hi : Nat} (h : Brackets ids target lo hi)
    (hlt : lo < hi) :
    if ids.getD ((lo + hi) / 2) "" < target then Brackets ids target ((lo + hi) / 2 + 1) hi
    else Brackets ids target lo ((lo + hi) / 2) := by
  obtain ⟨-, hhi, hbelow, habove⟩ := h
  have hmid : (lo + hi) / 2 < ids.size := by omega
  rw [Array.getD_eq_getD_getElem?, Array.getElem?_eq_getElem hmid, Option.getD_some]
  split
  · rename_i hm
    exact ⟨by omega, hhi, fun j hj hjm => lt_of_le_of_lt_target hasc (by omega) hmid hm, habove⟩
  · rename_i hm
    exact ⟨by omega, by omega, hbelow,
      fun j hj hmj hj' => hm (lt_of_le_of_lt_target hasc hmj hj hj')⟩

/-- The search ends where the brackets meet: at the first id not below the target. -/
theorem brackets_lowerBound (hasc : ids.toList.IsChain (· < ·)) {lo hi : Nat}
    (h : Brackets ids target lo hi) :
    Brackets ids target (lowerBound ids target lo hi) (lowerBound ids target lo hi) := by
  fun_induction lowerBound ids target lo hi with
  | case1 lo hi hlt mid hm ih =>
    have hstep := h.step hasc hlt
    rw [if_pos hm] at hstep
    exact ih hstep
  | case2 lo hi hlt mid hm ih =>
    have hstep := h.step hasc hlt
    rw [if_neg hm] at hstep
    exact ih hstep
  | case3 lo hi hge =>
    obtain ⟨hle, hhi, hbelow, habove⟩ := h
    exact ⟨le_rfl, by omega, hbelow, fun j hj hlj => habove j hj (by omega)⟩

end Search

/-! ## One region -/

section Region
variable {b : PackedBuffer} {k : Kind} {id : String} {i : Nat}

/-- On ascending ids, the search gives the number of ids below the target. -/
theorem indexOf_fst_spec (id : String) (hasc : (b.regions k).ids.IsChain (· < ·)) :
    (b.indexOf k id).1 ≤ (b.regions k).ids.length ∧
      (∀ j (hj : j < (b.regions k).ids.length), j < (b.indexOf k id).1 → (b.regions k).ids[j] < id) ∧
      ∀ j (hj : j < (b.regions k).ids.length), (b.indexOf k id).1 ≤ j → ¬(b.regions k).ids[j] < id := by
  have hasc' : (b.regions k).ids.toArray.toList.IsChain (· < ·) := by simpa using hasc
  obtain ⟨-, hsize, hbelow, habove⟩ := brackets_lowerBound hasc' (brackets_start : Brackets _ id 0 _)
  simp only [List.size_toArray, List.getElem_toArray] at hsize hbelow habove
  exact ⟨hsize, hbelow, habove⟩

/-- The search reports an id found when the id stands where the search stopped. -/
theorem indexOf_snd_eq_true :
    (b.indexOf k id).2 = true ↔ (b.regions k).ids[(b.indexOf k id).1]? = some id := by
  unfold indexOf
  dsimp only
  generalize lowerBound _ _ _ _ = r
  by_cases hr : r < (b.regions k).ids.length
  · simp [hr, Array.getD_eq_getD_getElem?]
  · simp [hr]

/-- On ascending ids, the search finds an id at `i` exactly when `i` is the id's position. -/
theorem indexOf_eq_found_iff (hasc : (b.regions k).ids.IsChain (· < ·)) :
    b.indexOf k id = (i, true) ↔ (b.regions k).ids[i]? = some id := by
  constructor
  · intro h
    have hfound := indexOf_snd_eq_true.mp (by rw [h])
    rwa [h] at hfound
  · intro h
    obtain ⟨hsize, hbelow, habove⟩ := indexOf_fst_spec (b := b) id hasc
    obtain ⟨hi, rfl⟩ := List.getElem?_eq_some_iff.mp h
    -- the ids before `i` are below it and the one at `i` is not, so the search stops at `i`
    have hpos : (b.indexOf k (b.regions k).ids[i]).1 = i := by
      by_contra hne
      rcases Nat.lt_or_gt_of_ne hne with hlt | hgt
      · exact habove _ (by omega) le_rfl
          (List.pairwise_iff_getElem.mp (List.isChain_iff_pairwise.mp hasc) _ i (by omega) hi hlt)
      · exact lt_irrefl _ (hbelow i hi hgt)
    have hsnd := indexOf_snd_eq_true.mpr (by rw [hpos]; exact h)
    exact Prod.ext hpos hsnd

/-- On ascending ids, the search finds an id exactly when the region holds it. -/
theorem indexOf_snd_iff (hasc : (b.regions k).ids.IsChain (· < ·)) :
    (b.indexOf k id).2 = true ↔ id ∈ (b.regions k).ids := by
  constructor
  · intro h
    have hpair : b.indexOf k id = ((b.indexOf k id).1, true) := Prod.ext rfl h
    exact List.mem_of_getElem? ((indexOf_eq_found_iff hasc).mp hpair)
  · intro h
    obtain ⟨i, hi, rfl⟩ := List.getElem_of_mem h
    rw [(indexOf_eq_found_iff hasc).mpr (List.getElem?_eq_getElem hi)]

end Region

/-! ## The first kind holding an id -/

section Find
variable {b : PackedBuffer} {k a : Kind} {id : String} {i : Nat}

/-- What `find?` asks of one kind: the kind and the position when its region holds the id. -/
theorem found_eq_some_iff (hasc : (b.regions a).ids.IsChain (· < ·)) :
    (if (b.indexOf a id).2 = true then some (a, (b.indexOf a id).1) else none) = some (k, i) ↔
      a = k ∧ (b.regions k).ids[i]? = some id := by
  by_cases hf : (b.indexOf a id).2 = true
  · rw [if_pos hf, Option.some.injEq, Prod.mk.injEq]
    constructor
    · rintro ⟨rfl, rfl⟩
      exact ⟨rfl, (indexOf_eq_found_iff hasc).mp (Prod.ext rfl hf)⟩
    · rintro ⟨rfl, hid⟩
      exact ⟨rfl, congrArg Prod.fst ((indexOf_eq_found_iff hasc).mpr hid)⟩
  · rw [if_neg hf]
    simp only [reduceCtorEq, false_iff, not_and]
    rintro rfl hid
    exact hf (congrArg Prod.snd ((indexOf_eq_found_iff hasc).mpr hid))

theorem found_eq_none_iff (hasc : (b.regions a).ids.IsChain (· < ·)) :
    (if (b.indexOf a id).2 = true then some (a, (b.indexOf a id).1) else none) = none ↔
      id ∉ (b.regions a).ids := by
  rw [← indexOf_snd_iff hasc]
  by_cases hf : (b.indexOf a id).2 = true <;> simp [hf]

/-- On ascending regions, `find?` gives the first kind in kind order whose region holds the id,
with the id's position there. -/
theorem find?_eq_some_iff (hasc : ∀ k, (b.regions k).ids.IsChain (· < ·)) :
    b.find? id = some (k, i) ↔
      (b.regions k).ids[i]? = some id ∧ ∀ k' ∈ Kind.all.take k.index, id ∉ (b.regions k').ids := by
  unfold find?
  rw [List.findSome?_eq_some_iff]
  simp only [found_eq_some_iff (hasc _), found_eq_none_iff (hasc _)]
  constructor
  · rintro ⟨pre, a, post, hsplit, ⟨rfl, hid⟩, hbefore⟩
    exact ⟨hid, Kind.take_index_of_all_eq hsplit ▸ hbefore⟩
  · rintro ⟨hid, hbefore⟩
    exact ⟨_, k, _, Kind.all_eq_take_append k, ⟨rfl, hid⟩, hbefore⟩

/-- On ascending regions, `find?` finds nothing exactly when no region holds the id. -/
theorem find?_eq_none_iff (hasc : ∀ k, (b.regions k).ids.IsChain (· < ·)) :
    b.find? id = none ↔ ∀ k, id ∉ (b.regions k).ids := by
  unfold find?
  rw [List.findSome?_eq_none_iff]
  simp only [found_eq_none_iff (hasc _)]
  exact ⟨fun h k => h k (Kind.mem_all k), fun h k _ => h k⟩

end Find

end PackedBuffer

end AnnotationStore
