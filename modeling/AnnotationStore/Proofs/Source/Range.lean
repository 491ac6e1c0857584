import AnnotationStore.Proofs.SizeRange
import AnnotationStore.Proofs.Source.Representation
/-!
# The kept size range is a full scan

The source keeps its size range up to date as it goes: an add widens it, a delete, a clear and
a restore scan again, and an update scans again only when the replaced size was a bound. In
every reachable source the range is still what a full scan of the stored annotations gives,
so its bounds are the least and the greatest finite size, or the two infinities when there is
none. The update's shortcut relies on the ids being unique, which `WellFormed` keeps.
-/

namespace AnnotationStore.Source

open SizeRange

/-- A restore scans the annotations it keeps afresh. -/
theorem range_restoreEntries (s : Source) (entries : List (Nat × Plain)) :
    (s.restoreEntries entries).source.range =
      recompute (s.restoreEntries entries).source.annotations := by
  obtain ⟨cells, heq⟩ := restoreEntries_source_eq s entries
  rw [heq]

/-- Every operation keeps the size range equal to a full scan of the annotations. -/
theorem range_apply {s : Source} (hw : WellFormed s) (hr : s.range = recompute s.annotations)
    (op : Op) : (s.apply op).range = recompute (s.apply op).annotations := by
  cases op with
  | add a commit =>
    rcases add_source_cases s a commit with ⟨n, heq⟩ | ⟨b, n, cells, shared, -, heq⟩
    · rw [Source.apply, heq]
      exact hr
    · rw [Source.apply, heq]
      show s.range.extend b = recompute (s.annotations ++ [b])
      rw [hr, recompute, recompute, List.foldl_append]
      rfl
  | commit c =>
    rcases commit_source_cases s c with heq | ⟨r, -, -, heq⟩ <;>
    · rw [Source.apply, heq]
      exact hr
  | update c a =>
    rcases update_source_cases s c a with heq | ⟨r, b, old, -, -, -, hold, heq⟩
    · rw [Source.apply, heq]
      exact hr
    · rw [Source.apply, heq]
      obtain ⟨hmem, hid⟩ := mem_of_get?_eq_some hold
      show s.range.replace old (b.withId r.id) _ = recompute _
      rw [hr]
      exact replace_recompute hmem hid fun c hc hcid => hw.unique hmem hc (hcid.trans hid.symm)
  | delete c nullify =>
    rcases delete_source_cases s c nullify with heq | ⟨r, -, -, -, heq⟩ | ⟨r, old, -, -, -, heq⟩
    · rw [Source.apply, heq]
      exact hr
    · rw [Source.apply, heq]
      exact hr
    · rw [Source.apply, heq]
      cases nullify <;> rfl
  | reference id =>
    obtain ⟨cells, shared, heq⟩ := reference_snd_eq s id
    rw [Source.apply, heq]
    exact hr
  | retain c => exact hr
  | dispose c =>
    obtain ⟨cells, shared, heq⟩ := dispose_eq s c
    rw [Source.apply, heq]
    exact hr
  | clear =>
    obtain ⟨cells, heq⟩ := clear_source_eq s
    rw [Source.apply, heq]
  | restore entries => exact range_restoreEntries s _
  | restoreWith codec payload =>
    rcases restoreWith_source_cases s codec payload with heq | ⟨entries, heq⟩
    · rw [Source.apply, heq]
      exact hr
    · rw [Source.apply, heq]
      exact range_restoreEntries s entries

theorem Reachable.range_eq_recompute {s : Source} (hs : Reachable s) :
    s.range = recompute s.annotations := by
  induction hs with
  | new codec => rfl
  | step op hs _ ih => exact range_apply hs.wellFormed ih op

/-- In every reachable source the size range is what a full scan of the stored annotations
gives. With no finite size among them it is the two infinities; otherwise its bounds are
finite sizes of stored annotations, with no finite size below the lower or above the upper. -/
theorem Reachable.sizeRange_eq_rescan {s : Source} (hs : Reachable s) :
    s.range = recompute s.annotations ∧
    (s.range.hasSize = false →
      s.sizeRange = (-(1 / 0), 1 / 0) ∧ ∀ a ∈ s.annotations, finiteSize a = none) ∧
    (s.range.hasSize = true →
      (∃ a ∈ s.annotations, finiteSize a = some s.sizeRange.1) ∧
      (∃ a ∈ s.annotations, finiteSize a = some s.sizeRange.2) ∧
      ∀ a ∈ s.annotations, ∀ x, finiteSize a = some x →
        ¬x < s.sizeRange.1 ∧ ¬s.sizeRange.2 < x) := by
  have heq := hs.range_eq_recompute
  have hrange : IsRangeOf s.range (Sizes s.annotations) := heq ▸ isRangeOf_recompute s.annotations
  refine ⟨heq, fun hr => ?_, fun hr => ?_⟩
  · obtain ⟨hempty, hnone⟩ := hrange.empty hr
    refine ⟨by rw [sizeRange, hempty], fun a ha => ?_⟩
    cases hfa : finiteSize a with
    | none => rfl
    | some x => exact absurd ⟨a, ha, hfa⟩ (hnone x)
  · obtain ⟨⟨lo, hlo, hflo⟩, hlow⟩ := hrange.lower hr
    obtain ⟨⟨hi, hhi, hfhi⟩, hhigh⟩ := hrange.upper hr
    refine ⟨⟨lo, hlo, hflo⟩, ⟨hi, hhi, hfhi⟩, fun a ha x hfa => ⟨fun hlt => ?_, fun hlt => ?_⟩⟩
    · -- a size below the lower bound would have a lower key
      have hx := not_isNaN_of_finiteSize hfa
      exact absurd (hlow x ⟨a, ha, hfa⟩)
        (not_le.mpr ((FloatOrder.lt_iff_key_lt hx (not_isNaN_of_finiteSize hflo)).mp hlt).1)
    · have hx := not_isNaN_of_finiteSize hfa
      exact absurd (hhigh x ⟨a, ha, hfa⟩)
        (not_le.mpr ((FloatOrder.lt_iff_key_lt (not_isNaN_of_finiteSize hfhi) hx).mp hlt).1)

/-- The size range after a new source took an annotation of size 2 and one of infinite size,
which the range leaves out. -/
theorem sizeRange_eq_rescan_after_add :
    let s := (({ codec := .default } : Source).apply
      (.add (some ⟨{ id := "a", size := some 2 }, .point default⟩) true)).apply
      (.add (some ⟨{ id := "b", size := some (1 / 0) }, .point default⟩) false)
    Reachable s ∧
    (s.range = recompute s.annotations ∧
    (s.range.hasSize = false →
      s.sizeRange = (-(1 / 0), 1 / 0) ∧ ∀ a ∈ s.annotations, finiteSize a = none) ∧
    (s.range.hasSize = true →
      (∃ a ∈ s.annotations, finiteSize a = some s.sizeRange.1) ∧
      (∃ a ∈ s.annotations, finiteSize a = some s.sizeRange.2) ∧
      ∀ a ∈ s.annotations, ∀ x, finiteSize a = some x →
        ¬x < s.sizeRange.1 ∧ ¬s.sizeRange.2 < x)) := by
  intro s
  have hs : Reachable s := .step _ (.step _ (.new _) trivial) trivial
  exact ⟨hs, Reachable.sizeRange_eq_rescan hs⟩

end AnnotationStore.Source
