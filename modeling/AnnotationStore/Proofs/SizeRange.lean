import AnnotationStore.Store.SizeRange
import AnnotationStore.Proofs.FloatOrder
/-!
# The size range is the least and greatest size

`lesser` and `greater` take the lower and the higher of two numbers by `FloatOrder.key`, which
orders the values with negative zero below positive zero. So a range built by widening is
determined by the set of sizes it has seen: `IsRangeOf r S` says that `r` is empty when `S`
is, and otherwise has two members of `S` as bounds with every member between them. A full
scan gives the range of all finite sizes, and the range of a set is unique.

Replacing an annotation rescans unless the replaced size equals neither bound; then that size
lies strictly inside, so the range of the other sizes is the same and widening it by the new
size gives what a rescan would.
-/

namespace AnnotationStore.SizeRange

open FloatOrder

/-! ## Lesser and greater -/

theorem negZero_iff {x : Float} : negZero x = true ↔ x.toModel.unpack = .zero .negative := by
  unfold negZero
  rw [Bool.and_eq_true, beq_zero_iff_isZero, bne_iff_ne, ne_eq]
  constructor
  · rintro ⟨hz, hne⟩
    obtain ⟨s, hs⟩ := isZero_iff.mp hz
    cases s with
    | negative => exact hs
    | positive => exact absurd ((toBits_eq_zero_iff hs).mpr rfl) hne
  · intro hs
    refine ⟨isZero_iff.mpr ⟨_, hs⟩, fun h => ?_⟩
    cases (toBits_eq_zero_iff hs).mp h

theorem key_zero_le_iff {x y : Float} {s t : Float.Model.UnpackedFloat.Sign}
    (hs : x.toModel.unpack = .zero s) (ht : y.toModel.unpack = .zero t) :
    key x ≤ key y ↔ s = .negative ∨ t = .positive := by
  rw [key, key, hs, ht]
  cases s <;> cases t <;> simp [rank, Prod.Lex.toLex_le_toLex]

variable {x y : Float}

/-- Away from NaN, `lesser` keeps the number with the lower key. -/
theorem lesser_eq (hx : x.isNaN = false) (hy : y.isNaN = false) :
    lesser x y = if key x ≤ key y then x else y := by
  unfold lesser
  by_cases hxy : x < y
  · rw [if_pos hxy, if_pos ((lt_iff_key_lt hx hy).mp hxy).1.le]
  · by_cases hyx : y < x
    · rw [if_neg hxy, if_pos hyx, if_neg (not_le.mpr ((lt_iff_key_lt hy hx).mp hyx).1)]
    · rw [if_neg hxy, if_neg hyx]
      rcases eq_or_isZero_of_not_lt hx hy hxy hyx with rfl | ⟨hzx, hzy⟩
      · simp
      · -- two zeros: the negative one is the lesser
        obtain ⟨s, hs⟩ := isZero_iff.mp hzx
        obtain ⟨t, ht⟩ := isZero_iff.mp hzy
        have hkey := key_zero_le_iff hs ht
        cases t with
        | negative =>
          rw [if_pos (negZero_iff.mpr ht)]
          cases s with
          | negative =>
            rw [if_pos (hkey.mpr (.inl rfl))]
            exact key_injective (by rw [key, key, hs, ht])
          | positive => rw [if_neg (by simp [hkey])]
        | positive =>
          rw [if_neg (by rw [negZero_iff, ht]; simp), if_pos (hkey.mpr (.inr rfl))]

theorem greater_eq (hx : x.isNaN = false) (hy : y.isNaN = false) :
    greater x y = if key x ≤ key y then y else x := by
  unfold greater
  by_cases hxy : x < y
  · rw [if_pos hxy, if_pos ((lt_iff_key_lt hx hy).mp hxy).1.le]
  · by_cases hyx : y < x
    · rw [if_neg hxy, if_pos hyx, if_neg (not_le.mpr ((lt_iff_key_lt hy hx).mp hyx).1)]
    · rw [if_neg hxy, if_neg hyx]
      rcases eq_or_isZero_of_not_lt hx hy hxy hyx with rfl | ⟨hzx, hzy⟩
      · simp
      · -- two zeros: the positive one is the greater
        obtain ⟨s, hs⟩ := isZero_iff.mp hzx
        obtain ⟨t, ht⟩ := isZero_iff.mp hzy
        have hkey := key_zero_le_iff hs ht
        cases s with
        | negative => rw [if_pos (negZero_iff.mpr hs), if_pos (hkey.mpr (.inl rfl))]
        | positive =>
          rw [if_neg (by rw [negZero_iff, hs]; simp)]
          cases t with
          | negative => rw [if_neg (by simp [hkey])]
          | positive =>
            rw [if_pos (hkey.mpr (.inr rfl))]
            exact key_injective (by rw [key, key, ht, hs])

/-! ## Ranges of sets of sizes -/

def Sizes (as : List Annotation) (x : Float) : Prop := ∃ a ∈ as, finiteSize a = some x

theorem finiteSize_eq_some {a : Annotation} {x : Float} :
    finiteSize a = some x ↔ a.info.size = some x ∧ x.isNaN = false ∧ x.isInf = false := by
  unfold finiteSize
  split
  · rename_i y hy
    rw [hy]
    by_cases h : (y.isNaN || y.isInf) = true
    · rw [if_pos h]
      simp only [Bool.or_eq_true] at h
      constructor
      · intro h'
        cases h'
      · rintro ⟨hxy, hn, hi⟩
        cases hxy
        rcases h with h | h <;> simp_all
    · rw [if_neg h]
      simp only [Bool.or_eq_true, not_or, Bool.not_eq_true] at h
      constructor
      · rintro ⟨⟩
        exact ⟨rfl, h⟩
      · rintro ⟨hxy, -⟩
        cases hxy
        rfl
  · rename_i hnone
    rw [hnone]
    simp

theorem not_isNaN_of_finiteSize {a : Annotation} {x : Float} (h : finiteSize a = some x) :
    x.isNaN = false :=
  (finiteSize_eq_some.mp h).2.1

/-- `r` is the range of the sizes `S`: empty when `S` is, and otherwise bounded by two members
of `S`, the least and the greatest by key. -/
structure IsRangeOf (r : SizeRange) (S : Float → Prop) : Prop where
  empty : r.hasSize = false → r = {} ∧ ∀ x, ¬S x
  lower : r.hasSize = true → S r.bounds.1 ∧ ∀ x, S x → key r.bounds.1 ≤ key x
  upper : r.hasSize = true → S r.bounds.2 ∧ ∀ x, S x → key x ≤ key r.bounds.2

namespace IsRangeOf

variable {r r' : SizeRange} {S T : Float → Prop}

theorem congr (h : IsRangeOf r S) (hST : ∀ x, S x ↔ T x) : IsRangeOf r T where
  empty hr := ⟨(h.empty hr).1, fun x hx => (h.empty hr).2 x ((hST x).mpr hx)⟩
  lower hr := ⟨(hST _).mp (h.lower hr).1, fun x hx => (h.lower hr).2 x ((hST x).mpr hx)⟩
  upper hr := ⟨(hST _).mp (h.upper hr).1, fun x hx => (h.upper hr).2 x ((hST x).mpr hx)⟩

theorem empty_range : IsRangeOf {} fun _ => False where
  empty _ := ⟨rfl, fun _ h => h⟩
  lower h := by cases h
  upper h := by cases h

/-- Of a least size of `S` and `y`, `lesser` is a least size of `S` with `y`. -/
theorem lesser_least {lo y : Float} (hlo : S lo) (hlow : ∀ x, S x → key lo ≤ key x)
    (hlon : lo.isNaN = false) (hy : y.isNaN = false) :
    (S (lesser lo y) ∨ lesser lo y = y) ∧ ∀ x, S x ∨ x = y → key (lesser lo y) ≤ key x := by
  rw [lesser_eq hlon hy]
  split
  · rename_i hle
    refine ⟨.inl hlo, ?_⟩
    rintro x (hx | rfl)
    · exact hlow x hx
    · exact hle
  · rename_i hlt
    refine ⟨.inr rfl, ?_⟩
    rintro x (hx | rfl)
    · exact (le_of_lt (not_le.mp hlt)).trans (hlow x hx)
    · exact le_rfl

theorem greater_greatest {hi y : Float} (hhi : S hi) (hhigh : ∀ x, S x → key x ≤ key hi)
    (hhin : hi.isNaN = false) (hy : y.isNaN = false) :
    (S (greater hi y) ∨ greater hi y = y) ∧ ∀ x, S x ∨ x = y → key x ≤ key (greater hi y) := by
  rw [greater_eq hhin hy]
  split
  · rename_i hle
    refine ⟨.inr rfl, ?_⟩
    rintro x (hx | rfl)
    · exact (hhigh x hx).trans hle
    · exact le_rfl
  · rename_i hlt
    refine ⟨.inl hhi, ?_⟩
    rintro x (hx | rfl)
    · exact hhigh x hx
    · exact le_of_lt (not_le.mp hlt)

theorem extend (h : IsRangeOf r S) (hS : ∀ x, S x → x.isNaN = false) (a : Annotation) :
    IsRangeOf (r.extend a) fun x => S x ∨ finiteSize a = some x := by
  unfold SizeRange.extend
  cases hfa : finiteSize a with
  | none => exact h.congr fun x => by simp
  | some y =>
    have hy := not_isNaN_of_finiteSize hfa
    refine IsRangeOf.congr (S := fun x => S x ∨ x = y) ?_ fun x => by
      rw [Option.some_inj, eq_comm]
    dsimp only
    split
    · rename_i hr
      obtain ⟨hlo, hlow⟩ := h.lower hr
      obtain ⟨hhi, hhigh⟩ := h.upper hr
      exact ⟨(fun h => by cases h), fun _ => lesser_least hlo hlow (hS _ hlo) hy,
        fun _ => greater_greatest hhi hhigh (hS _ hhi) hy⟩
    · -- the first size: both bounds are it
      rename_i hr
      obtain ⟨-, hempty⟩ := h.empty (by simpa using hr)
      refine ⟨(fun h => by cases h), fun _ => ⟨.inr rfl, ?_⟩, fun _ => ⟨.inr rfl, ?_⟩⟩ <;>
      · rintro x (hx | rfl)
        · exact absurd hx (hempty x)
        · exact le_rfl

/-- One set has one range: the bounds are the least and greatest members, and the key tells
floats apart. -/
theorem unique (h : IsRangeOf r S) (h' : IsRangeOf r' S) : r = r' := by
  cases hr : r.hasSize <;> cases hr' : r'.hasSize
  · rw [(h.empty hr).1, (h'.empty hr').1]
  · exact absurd (h'.lower hr').1 ((h.empty hr).2 _)
  · exact absurd (h.lower hr).1 ((h'.empty hr').2 _)
  · have hlo : r.bounds.1 = r'.bounds.1 := key_injective (le_antisymm
      ((h.lower hr).2 _ (h'.lower hr').1) ((h'.lower hr').2 _ (h.lower hr).1))
    have hhi : r.bounds.2 = r'.bounds.2 := key_injective (le_antisymm
      ((h'.upper hr').2 _ (h.upper hr).1) ((h.upper hr).2 _ (h'.upper hr').1))
    obtain ⟨⟨lo, hi⟩, hs⟩ := r
    obtain ⟨⟨lo', hi'⟩, hs'⟩ := r'
    simp_all

/-- A size equal to neither bound can be dropped: the others have the same range. -/
theorem erase {x : Float} (h : IsRangeOf r fun y => S y ∨ y = x) (hx : x.isNaN = false)
    (hne : (x == r.bounds.1 || x == r.bounds.2) = false) : IsRangeOf r S := by
  simp only [Bool.or_eq_false_iff] at hne
  -- a bound is a member of `S`, since `x` is equal to itself
  have hmem : ∀ b, (x == b) = false → S b ∨ b = x → S b := by
    rintro b hb (hb' | rfl)
    · exact hb'
    · rw [beq_self_of_not_isNaN hx] at hb
      cases hb
  refine ⟨fun hr => ?_, fun hr => ?_, fun hr => ?_⟩
  · exact absurd (.inr rfl) ((h.empty hr).2 x)
  · exact ⟨hmem _ hne.1 (h.lower hr).1, fun y hy => (h.lower hr).2 y (.inl hy)⟩
  · exact ⟨hmem _ hne.2 (h.upper hr).1, fun y hy => (h.upper hr).2 y (.inl hy)⟩

end IsRangeOf

theorem isRangeOf_foldl (as : List Annotation) {r : SizeRange} {S : Float → Prop}
    (h : IsRangeOf r S) (hS : ∀ x, S x → x.isNaN = false) :
    IsRangeOf (as.foldl extend r) fun x => S x ∨ Sizes as x := by
  induction as generalizing r S with
  | nil => exact h.congr fun x => by simp [Sizes]
  | cons a as ih =>
    rw [List.foldl_cons]
    refine (ih (h.extend hS a) ?_).congr fun x => ?_
    · rintro x (hx | hx)
      · exact hS x hx
      · exact not_isNaN_of_finiteSize hx
    · simp only [Sizes, List.mem_cons, exists_eq_or_imp]
      tauto

theorem isRangeOf_recompute (as : List Annotation) : IsRangeOf (recompute as) (Sizes as) :=
  (isRangeOf_foldl as IsRangeOf.empty_range fun _ h => h.elim).congr fun x => by simp

/-- Replacing the one annotation with `a`'s id by `a` keeps the range a full scan gives. -/
theorem replace_recompute {as : List Annotation} {old a : Annotation} (hold : old ∈ as)
    (hid : old.id = a.id) (hunique : ∀ b ∈ as, b.id = a.id → b = old) :
    (recompute as).replace old a (as.map fun b => if b.id == a.id then a else b) =
      recompute (as.map fun b => if b.id == a.id then a else b) := by
  -- the sizes of the annotations with other ids
  let T : Float → Prop := fun y => ∃ b ∈ as, b.id ≠ a.id ∧ finiteSize b = some y
  have hT : ∀ y, T y → y.isNaN = false := fun y ⟨b, _, _, hb⟩ => not_isNaN_of_finiteSize hb
  have hsizes : ∀ y, Sizes as y ↔ T y ∨ finiteSize old = some y := by
    intro y
    constructor
    · rintro ⟨b, hb, hby⟩
      by_cases hba : b.id = a.id
      · rw [hunique b hb hba] at hby
        exact .inr hby
      · exact .inl ⟨b, hb, hba, hby⟩
    · rintro (⟨b, hb, -, hby⟩ | hy)
      · exact ⟨b, hb, hby⟩
      · exact ⟨old, hold, hy⟩
  have hsizes' : ∀ y, T y ∨ finiteSize a = some y ↔
      Sizes (as.map fun b => if b.id == a.id then a else b) y := by
    intro y
    simp only [Sizes, List.mem_map, T]
    constructor
    · rintro (⟨b, hb, hba, hby⟩ | hy)
      · exact ⟨b, ⟨b, hb, by simp [hba]⟩, hby⟩
      · exact ⟨a, ⟨old, hold, by simp [hid]⟩, hy⟩
    · rintro ⟨c, ⟨b, hb, rfl⟩, hcy⟩
      by_cases hba : b.id = a.id
      · rw [if_pos (by simpa using hba)] at hcy
        exact .inr hcy
      · rw [if_neg (by simpa using hba)] at hcy
        exact .inl ⟨b, hb, hba, hcy⟩
  -- widening the range of the other sizes by `a` is the range after the replacement
  have hwiden : IsRangeOf (recompute as) T →
      (recompute as).extend a = recompute (as.map fun b => if b.id == a.id then a else b) :=
    fun hrest => ((hrest.extend hT a).congr hsizes').unique (isRangeOf_recompute _)
  -- without a finite size the replaced annotation added nothing to the range
  have hnone : finiteSize old = none → IsRangeOf (recompute as) T := fun hfin =>
    (isRangeOf_recompute as).congr fun y => by rw [hsizes, hfin]; simp
  unfold replace
  cases hsize : old.info.size with
  | none => exact hwiden (hnone (by simp [finiteSize, hsize]))
  | some x =>
    dsimp only
    split
    · rfl
    · rename_i hne
      refine hwiden ?_
      cases hfin : finiteSize old with
      | none => exact hnone hfin
      | some y =>
        -- the replaced size lies strictly inside the range
        obtain ⟨hy, hnan, -⟩ := finiteSize_eq_some.mp hfin
        rw [hsize] at hy
        cases hy
        exact ((isRangeOf_recompute as).congr fun z => by rw [hsizes, hfin]; simp [eq_comm]).erase
          hnan (by simpa using hne)

end AnnotationStore.SizeRange
