import Mathlib
import AnnotationStore.Buffer.Validate
/-!
# Well laid-out packed buffers

`validate` accepts a packed buffer exactly when its metadata describes its bytes
(`validate_eq_ok_iff`): every region is well formed for its kind (per-instance lists as
long as the ids, labels too when recorded, ids strictly ascending, sizes whole for the kind,
the pick count the sum of the instances'), the regions lie back to back from byte 0 in kind
order and cover the bytes, and the total pick count is the sum of the regions'.

Later lemmas about packing and picking start from `WellLaidOut` and never unfold the check.
-/

namespace AnnotationStore

/-! ## Guards in `Except` -/

section Guards
variable {ε α β : Type} {c : Prop} [Decidable c] {e : ε} {x : Except ε α} {a : α}

@[simp] theorem ite_error_eq_ok : (if c then Except.error e else x) = .ok a ↔ ¬c ∧ x = .ok a := by
  by_cases hc : c <;> simp [hc]

@[simp] theorem ite_eq_ok_of_error : (if c then x else Except.error e) = .ok a ↔ c ∧ x = .ok a := by
  by_cases hc : c <;> simp [hc]

@[simp] theorem bind_eq_ok_iff {f : α → Except ε β} {b : β} :
    x >>= f = .ok b ↔ ∃ a, x = .ok a ∧ f a = .ok b := by
  cases x <;> simp [bind, Except.bind]

@[simp] theorem error_bind {f : α → Except ε β} : (Except.error e >>= f) = .error e := rfl

end Guards

/-! ## One region -/

/-- Consecutive ids pass the order check and differ exactly when they strictly ascend. -/
theorem sortedIds_repeatedId?_iff :
    ∀ ids : List String, (sortedIds ids = true ∧ repeatedId? ids = none) ↔ ids.IsChain (· < ·)
  | [] => by simp [sortedIds, repeatedId?]
  | [a] => by simp [sortedIds, repeatedId?]
  | a :: b :: rest => by
    have ih := sortedIds_repeatedId?_iff (b :: rest)
    rw [List.isChain_cons_cons, ← ih]
    by_cases hab : a = b
    · subst hab
      simp [sortedIds, repeatedId?]
    · -- between distinct ids, not descending is ascending
      have hlt : a < b ↔ ¬b < a :=
        ⟨fun h => not_lt.mpr h.le, fun h => lt_of_le_of_ne (not_lt.mp h) hab⟩
      simp only [sortedIds, repeatedId?, if_neg hab, Bool.and_eq_true, Bool.not_eq_true',
        decide_eq_false_iff_not, hlt]
      tauto

theorem checkSizes_eq_ok_iff (k : Kind) :
    ∀ (i : Nat) (sizes : List Nat), checkSizes k i sizes = .ok () ↔
      ∀ s ∈ sizes, (k.fixedSize → s = k.stride) ∧ s % k.stride = 0
  | _, [] => by simp [checkSizes]
  | i, s :: rest => by
    have ih := checkSizes_eq_ok_iff k (i + 1) rest
    unfold checkSizes
    by_cases hfix : k.fixedSize ∧ s ≠ k.stride
    · rw [if_pos hfix]
      simp only [reduceCtorEq, false_iff, List.mem_cons, forall_eq_or_imp]
      exact fun h => hfix.2 (h.1.1 hfix.1)
    · rw [if_neg hfix]
      by_cases hwhole : s % k.stride ≠ 0
      · rw [if_pos hwhole]
        simp only [reduceCtorEq, false_iff, List.mem_cons, forall_eq_or_imp]
        exact fun h => hwhole h.1.2
      · rw [if_neg hwhole, ih]
        simp only [List.mem_cons, forall_eq_or_imp]
        grind

namespace Region

/-- A region that describes instances of a kind, wherever it starts. -/
@[mk_iff] structure WellFormed (k : Kind) (r : Region) : Prop where
  sizes_length : r.sizes.length = r.ids.length
  picks_length : r.picks.length = r.ids.length
  labels_length : ∀ ls ∈ r.labels, ls.length = r.ids.length
  ascending : r.ids.IsChain (· < ·)
  sizes_whole : ∀ s ∈ r.sizes, (k.fixedSize → s = k.stride) ∧ s % k.stride = 0
  pickCount_eq : r.pickCount = r.picks.sum

theorem check_eq_ok_iff {r : Region} {k : Kind} {off : Int} {res : Int × Nat} :
    r.check k off = .ok res ↔
      r.WellFormed k ∧ r.offset = off ∧ res = (off + r.sizes.sum, r.picks.sum) := by
  rw [wellFormed_iff, ← sortedIds_repeatedId?_iff, ← checkSizes_eq_ok_iff k 0]
  simp only [Region.check, bind, Except.bind, pure, Except.pure, throw, throwThe,
    MonadExceptOf.throw, ite_error_eq_ok, ← List.sum_eq_foldr]
  -- the guards that are matches: the labels, the first repeated id, the size check
  cases hl : r.labels <;> cases hrep : repeatedId? r.ids <;> cases hcs : checkSizes k 0 r.sizes <;>
    simp [ite_error_eq_ok, ite_eq_ok_of_error, eq_comm (a := res)]
  all_goals tauto

end Region

/-! ## The kinds in order -/

namespace Kind

theorem all_eq_take_append (k : Kind) : all = all.take k.index ++ k :: all.drop (k.index + 1) := by
  cases k <;> rfl

theorem index_getElem_all (i : Nat) (h : i < all.length) : (all[i]).index = i := by
  have h6 : i < 6 := h
  interval_cases i <;> rfl

/-- The kinds before a kind are those of lower number. -/
theorem take_index_of_all_eq {pre post : List Kind} {k : Kind} (h : all = pre ++ k :: post) :
    pre = all.take k.index := by
  have hlt : pre.length < all.length := by simp [h]
  have hk : all[pre.length] = k := by simp [h]
  have hindex : k.index = pre.length := hk ▸ index_getElem_all pre.length hlt
  rw [hindex, h, List.take_left' rfl]

end Kind

theorem forall_split_cons {γ : Type} {P : List γ → γ → Prop} {x : γ} {xs : List γ} :
    (∀ pre y post, x :: xs = pre ++ y :: post → P pre y) ↔
      P [] x ∧ ∀ pre y post, xs = pre ++ y :: post → P (x :: pre) y := by
  constructor
  · intro h
    exact ⟨h [] x xs rfl, fun pre y post hs => h (x :: pre) y post (by rw [hs]; rfl)⟩
  · rintro ⟨h0, hs⟩ pre y post heq
    rcases List.cons_eq_append_iff.mp heq with ⟨rfl, hyx⟩ | ⟨pre', rfl, hxs⟩
    · obtain ⟨rfl, rfl⟩ := List.cons.inj hyx
      exact h0
    · exact hs pre' y post hxs

theorem forall_split_all {P : List Kind → Kind → Prop} :
    (∀ pre k post, Kind.all = pre ++ k :: post → P pre k) ↔ ∀ k, P (Kind.all.take k.index) k := by
  constructor
  · exact fun h k => h _ k _ (Kind.all_eq_take_append k)
  · intro h pre k post hsplit
    rw [Kind.take_index_of_all_eq hsplit]
    exact h k

/-! ## The whole buffer -/

namespace PackedBuffer

variable (b : PackedBuffer)

def regionBytes (k : Kind) : Nat := (b.regions k).sizes.sum

/-- Where a kind's region starts when the regions lie back to back from byte 0. -/
def regionStart (k : Kind) : Nat := ((Kind.all.take k.index).map b.regionBytes).sum

/-- A buffer whose metadata describes its bytes. -/
structure WellLaidOut : Prop where
  region : ∀ k, (b.regions k).WellFormed k
  offset : ∀ k, (b.regions k).offset = b.regionStart k
  covers : b.data.size = (Kind.all.map b.regionBytes).sum
  totalPicks : b.totalPicks = (Kind.all.map fun k => (b.regions k).picks.sum).sum

theorem checkRegions_eq_ok_iff :
    ∀ (ks : List Kind) (off : Int) (total : Nat) (res : Int × Nat),
      checkRegions b ks off total = .ok res ↔
        (∀ pre k post, ks = pre ++ k :: post →
          (b.regions k).WellFormed k ∧ (b.regions k).offset = off + (pre.map b.regionBytes).sum) ∧
        res = (off + (ks.map b.regionBytes).sum, total + (ks.map fun k => (b.regions k).picks.sum).sum)
  | [], off, total, res => by
    simp only [checkRegions, Except.ok.injEq, List.map_nil, List.sum_nil, Nat.cast_zero,
      add_zero, eq_comm (a := res), iff_and_self]
    intro _ pre k post h
    simp at h
  | k :: ks, off, total, res => by
    have ih := checkRegions_eq_ok_iff ks
    simp only [checkRegions, bind_eq_ok_iff, Region.check_eq_ok_iff, ih, forall_split_cons,
      List.map_cons, List.sum_cons, List.map_nil, List.sum_nil, Nat.cast_zero, add_zero, Nat.cast_add]
    constructor
    · rintro ⟨_, ⟨hwf, hoff, rfl⟩, hrest, rfl⟩
      refine ⟨⟨⟨hwf, hoff⟩, fun pre y post hs => ?_⟩, ?_⟩
      · obtain ⟨hy, hy'⟩ := hrest pre y post hs
        exact ⟨hy, by rw [hy']; unfold regionBytes; ring⟩
      · simp only [regionBytes]
        ext <;> simp <;> ring
    · rintro ⟨⟨⟨hwf, hoff⟩, hrest⟩, rfl⟩
      refine ⟨_, ⟨hwf, hoff, rfl⟩, fun pre y post hs => ?_, ?_⟩
      · obtain ⟨hy, hy'⟩ := hrest pre y post hs
        exact ⟨hy, by rw [hy']; unfold regionBytes; ring⟩
      · simp only [regionBytes]
        ext <;> simp <;> ring

/-- The check accepts a buffer exactly when it is well laid out. -/
theorem validate_eq_ok_iff : b.validate = .ok () ↔ b.WellLaidOut := by
  simp only [validate, bind_eq_ok_iff, checkRegions_eq_ok_iff, forall_split_all, throw, throwThe,
    MonadExceptOf.throw, error_bind, pure, Except.pure, ite_error_eq_ok, zero_add]
  constructor
  · rintro ⟨_, ⟨hregions, rfl⟩, hcovers, htotal, -⟩
    refine ⟨fun k => (hregions k).1, fun k => (hregions k).2, ?_, ?_⟩
    · have hsize : (b.data.size : Int) = ((Kind.all.map b.regionBytes).sum : Nat) :=
        (not_not.mp hcovers).symm
      exact_mod_cast hsize
    · exact not_not.mp htotal
  · intro h
    refine ⟨_, ⟨fun k => ⟨h.region k, h.offset k⟩, rfl⟩, ?_, ?_, trivial⟩
    · simp [h.covers]
    · simp [h.totalPicks]

end PackedBuffer

end AnnotationStore
