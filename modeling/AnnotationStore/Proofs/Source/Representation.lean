import Mathlib
import AnnotationStore.Proofs.SegmentIndex
import AnnotationStore.Proofs.Source.Run
/-!
# The representation invariant of a source

In every reachable source the annotations form a map keyed by id (no two share an id, and an
id finds the annotation that has it), every pending id is stored, and the segment index is
exact: a segment is present just while some stored annotation lists it, and holds the ids of
exactly those annotations. So the ids the source gives for a segment are the sorted ids of
the annotations that list it.

The invariant holds of a new source and every operation keeps it, whatever it is given: the
store steps `insert`, `replace` and `remove` each keep it under the guard the operation
checks first, and operations on reference cells do not touch what it speaks of.
-/

namespace AnnotationStore.Source

open SegmentIndex

structure WellFormed (s : Source) : Prop where
  ids_nodup : (s.annotations.map (·.id)).Nodup
  pending_nodup : s.pending.Nodup
  pending_stored : ∀ id ∈ s.pending, ∃ a ∈ s.annotations, a.id = id
  exact : s.segments.Exact s.annotations

section Steps
variable {s : Source}

theorem WellFormed.new (codec : Codec) : WellFormed { codec } where
  ids_nodup := List.nodup_nil
  pending_nodup := List.nodup_nil
  pending_stored := by simp
  exact := exact_nil

/-- The invariant speaks only of the annotations, the pending ids and the segment index. -/
theorem WellFormed.congr {t : Source} (h : WellFormed s) (ha : t.annotations = s.annotations)
    (hp : t.pending = s.pending) (hg : t.segments = s.segments) : WellFormed t := by
  obtain ⟨h₁, h₂, h₃, h₄⟩ := h
  exact ⟨ha ▸ h₁, hp ▸ h₂, ha ▸ hp ▸ h₃, ha ▸ hg ▸ h₄⟩

/-- In a well-formed source the stored annotation with an id is the only one with it. -/
theorem WellFormed.unique (h : WellFormed s) {a b : Annotation} (ha : a ∈ s.annotations)
    (hb : b ∈ s.annotations) (hid : b.id = a.id) : b = a :=
  List.inj_on_of_nodup_map h.ids_nodup hb ha hid

theorem WellFormed.insert (h : WellFormed s) {a : Annotation} (hnew : s.get? a.id = none)
    (commit : Bool) : WellFormed (s.insert a commit) := by
  have hfresh := get?_eq_none_iff.mp hnew
  have hnotin : a.id ∉ s.annotations.map (·.id) := by
    simp only [List.mem_map, not_exists, not_and]
    exact fun b hb hid => hfresh b hb hid
  have hstored : ∀ id ∈ s.pending, ∃ b ∈ s.annotations ++ [a], b.id = id := by
    intro id hid
    obtain ⟨b, hb, rfl⟩ := h.pending_stored id hid
    exact ⟨b, List.mem_append_left _ hb, rfl⟩
  refine ⟨?_, ?_, ?_, h.exact.index a⟩
  · show ((s.annotations ++ [a]).map (·.id)).Nodup
    rw [List.map_append, List.nodup_append]
    exact ⟨h.ids_nodup, by simp, fun x hx y hy => by
      simp only [List.map_cons, List.map_nil, List.mem_singleton] at hy
      exact fun hxy => hnotin (by rw [← hy, ← hxy]; exact hx)⟩
  · show (if commit then s.pending else s.pending ++ [a.id]).Nodup
    cases commit
    · have hpend : a.id ∉ s.pending := fun hp => by
        obtain ⟨b, hb, hbid⟩ := h.pending_stored _ hp
        exact hfresh b hb hbid
      exact List.nodup_append.mpr ⟨h.pending_nodup, by simp,
        fun x hx y hy hxy => hpend (by simp_all)⟩
    · exact h.pending_nodup
  · show ∀ id ∈ (if commit then s.pending else s.pending ++ [a.id]), ∃ b ∈ s.annotations ++ [a], b.id = id
    cases commit
    · intro id hid
      rcases List.mem_append.mp hid with hid | hid
      · exact hstored id hid
      · exact ⟨a, by simp, (List.mem_singleton.mp hid).symm⟩
    · exact hstored

theorem mem_map_replace {as : List Annotation} {old a : Annotation} (hold : old ∈ as)
    (hid : old.id = a.id) (x : Annotation) :
    x ∈ as.map (fun b => if b.id == a.id then a else b) ↔
      x ∈ as.filter (·.id != a.id) ++ [a] := by
  simp only [List.mem_map, List.mem_append, List.mem_filter, List.mem_singleton, bne_iff_ne, ne_eq]
  constructor
  · rintro ⟨b, hb, rfl⟩
    by_cases hba : b.id = a.id
    · exact .inr (by simp [hba])
    · exact .inl ⟨by simpa [hba] using hb, by simp [hba]⟩
  · rintro (⟨hx, hxid⟩ | rfl)
    · exact ⟨x, hx, by simp [hxid]⟩
    · exact ⟨old, hold, by simp [hid]⟩

theorem WellFormed.replace (h : WellFormed s) {old a : Annotation} (hold : old ∈ s.annotations)
    (hid : old.id = a.id) : WellFormed (s.replace old a) := by
  have hids : (s.annotations.map fun b => if b.id == a.id then a else b).map (·.id) =
      s.annotations.map (·.id) := by
    rw [List.map_map]
    refine List.map_congr_left fun b _ => ?_
    by_cases hb : b.id = a.id <;> simp [hb]
  have huniq : ∀ b ∈ s.annotations, b.id = old.id → b = old := fun b hb hbid => h.unique hold hb hbid
  refine ⟨?_, h.pending_nodup, fun id hp => ?_, ?_⟩
  · show ((s.annotations.map fun b => if b.id == a.id then a else b).map (·.id)).Nodup
    rw [hids]
    exact h.ids_nodup
  · obtain ⟨b, hb, rfl⟩ := h.pending_stored id hp
    refine ⟨if b.id == a.id then a else b, List.mem_map.mpr ⟨b, hb, rfl⟩, ?_⟩
    by_cases hba : b.id = a.id <;> simp [hba]
  · have hrest := (h.exact.unindex huniq).index a
    rw [hid] at hrest
    exact hrest.congr fun x => (mem_map_replace hold hid x).symm

theorem WellFormed.remove (h : WellFormed s) {old : Annotation} (hold : old ∈ s.annotations) :
    WellFormed (s.remove old) := by
  have huniq : ∀ b ∈ s.annotations, b.id = old.id → b = old := fun b hb hbid => h.unique hold hb hbid
  refine ⟨?_, h.pending_nodup.erase _, fun id hp => ?_, h.exact.unindex huniq⟩
  · exact h.ids_nodup.sublist ((List.filter_sublist).map _)
  · obtain ⟨hne, hp⟩ := (h.pending_nodup.mem_erase_iff).mp hp
    obtain ⟨b, hb, rfl⟩ := h.pending_stored id hp
    exact ⟨b, List.mem_filter.mpr ⟨hb, by simpa using hne⟩, rfl⟩

theorem WellFormed.commit (h : WellFormed s) (id : String) :
    WellFormed { s with pending := s.pending.erase id, generation := s.generation + 1 } where
  ids_nodup := h.ids_nodup
  pending_nodup := h.pending_nodup.erase _
  pending_stored := fun x hx => h.pending_stored x (List.mem_of_mem_erase hx)
  exact := h.exact

theorem WellFormed.restoreEntries (entries : List (Nat × Plain)) :
    WellFormed (s.restoreEntries entries).source := by
  obtain ⟨cells, heq⟩ := restoreEntries_source_eq s entries
  rw [heq]
  exact ⟨buildEntries_nodup _ _ _ _ List.nodup_nil, List.nodup_nil, by simp, exact_build _⟩

/-- Every operation keeps the invariant, whatever it is given. -/
theorem WellFormed.apply (h : WellFormed s) (op : Op) : WellFormed (s.apply op) := by
  cases op with
  | add a commit =>
    rcases add_source_cases s a commit with ⟨n, heq⟩ | ⟨b, n, cells, shared, hnew, heq⟩
    · rw [Source.apply, heq]; exact h.congr rfl rfl rfl
    · rw [Source.apply, heq]
      exact (WellFormed.insert (s := { s with issued := n }) (h.congr rfl rfl rfl) hnew commit).congr
        rfl rfl rfl
  | commit c =>
    rcases commit_source_cases s c with heq | ⟨r, -, -, heq⟩
    · rw [Source.apply, heq]; exact h.congr rfl rfl rfl
    · rw [Source.apply, heq]; exact h.commit r.id
  | update c a =>
    rcases update_source_cases s c a with heq | ⟨r, b, old, -, -, -, hold, heq⟩
    · rw [Source.apply, heq]; exact h.congr rfl rfl rfl
    · rw [Source.apply, heq]
      obtain ⟨hmem, hid⟩ := mem_of_get?_eq_some hold
      have hid' : old.id = (b.withId r.id).id := hid
      exact (h.replace hmem hid').congr rfl rfl rfl
  | delete c nullify =>
    rcases delete_source_cases s c nullify with heq | ⟨r, -, -, -, heq⟩ | ⟨r, old, -, -, hold, heq⟩
    · rw [Source.apply, heq]; exact h.congr rfl rfl rfl
    · rw [Source.apply, heq]; exact h.congr rfl rfl rfl
    · rw [Source.apply, heq]
      have hrem := h.remove (mem_of_get?_eq_some hold).1
      cases nullify
      · exact hrem
      · exact hrem.congr rfl rfl rfl
  | reference id =>
    obtain ⟨cells, shared, heq⟩ := reference_snd_eq s id
    rw [Source.apply, heq]; exact h.congr rfl rfl rfl
  | retain c => exact h.congr rfl rfl rfl
  | dispose c =>
    obtain ⟨cells, shared, heq⟩ := dispose_eq s c
    rw [Source.apply, heq]; exact h.congr rfl rfl rfl
  | clear =>
    obtain ⟨cells, heq⟩ := clear_source_eq s
    rw [Source.apply, heq]
    exact ⟨List.nodup_nil, List.nodup_nil, by simp, exact_nil⟩
  | restore entries => exact WellFormed.restoreEntries _
  | restoreWith codec payload =>
    rcases restoreWith_source_cases s codec payload with heq | ⟨entries, heq⟩
    · rw [Source.apply, heq]; exact h.congr rfl rfl rfl
    · rw [Source.apply, heq]; exact WellFormed.restoreEntries _

theorem Reachable.wellFormed (h : Reachable s) : WellFormed s := by
  induction h with
  | new codec => exact WellFormed.new codec
  | step op _ _ ih => exact ih.apply op

end Steps

/-! ## The index read back -/

/-- With an exact index, the ids the source gives for a segment are the sorted ids of the
annotations that list it. -/
theorem WellFormed.forSegment_eq {s : Source} (h : WellFormed s) (g : SegmentId) :
    s.forSegment g = ((s.annotations.filter (·.hasSegment g)).map (·.id)).mergeSort (· ≤ ·) := by
  have trans : ∀ a b c : String, decide (a ≤ b) = true → decide (b ≤ c) = true → decide (a ≤ c) = true := by
    intro a b c hab hbc
    simpa using le_trans (by simpa using hab) (by simpa using hbc)
  have total : ∀ a b : String, (decide (a ≤ b) || decide (b ≤ a)) = true := by
    simpa using le_total
  have antisymm : ∀ a b : String, decide (a ≤ b) = true → decide (b ≤ a) = true → a = b :=
    fun a b hab hba => le_antisymm (by simpa using hab) (by simpa using hba)
  exact List.Perm.eq_of_pairwise (fun a b _ _ => antisymm a b)
    (List.pairwise_mergeSort trans total _) (List.pairwise_mergeSort trans total _)
    ((List.mergeSort_perm _ _).trans
      ((h.exact.idsOf_perm h.ids_nodup g).trans (List.mergeSort_perm _ _).symm))

/-- The representation invariant of every reachable source: the annotations form a map keyed
by id, the pending ids are stored, and the segment index is exact, so that the ids given for
a segment are the sorted ids of exactly the annotations that list it. -/
theorem Reachable.representation_invariant {s : Source} (hs : Reachable s) :
    (s.annotations.map (·.id)).Nodup ∧
    (∀ id a, s.get? id = some a ↔ a ∈ s.annotations ∧ a.id = id) ∧
    (∀ id ∈ s.pending, (s.get? id).isSome) ∧
    ∀ g, ((s.segments.lookup g).isSome ↔ ∃ a ∈ s.annotations, a.hasSegment g = true) ∧
      (∀ ids, s.segments.lookup g = some ids →
        ids.Nodup ∧ ∀ id, id ∈ ids ↔ ∃ a ∈ s.annotations, a.id = id ∧ a.hasSegment g = true) ∧
      s.forSegment g = ((s.annotations.filter (·.hasSegment g)).map (·.id)).mergeSort (· ≤ ·) := by
  have h := hs.wellFormed
  refine ⟨h.ids_nodup, fun id a => get?_eq_some_iff h.ids_nodup, fun id hid => ?_, fun g => ?_⟩
  · obtain ⟨a, ha, rfl⟩ := h.pending_stored id hid
    simp [(get?_eq_some_iff h.ids_nodup).mpr ⟨ha, rfl⟩]
  · exact ⟨h.exact.isSome_iff g, fun ids hl => h.exact.of_lookup_eq_some hl, h.forSegment_eq g⟩

/-- The invariant after a new source took an annotation listing segment 7 twice and then
the id of a reference it does not store. -/
theorem representation_invariant_after_add :
    let s := (({ codec := .default } : Source).apply
      (.add (some ⟨{ id := "a", segments := [7, 7] }, .point default⟩) true)).apply (.reference "b")
    Reachable s ∧
    ((s.annotations.map (·.id)).Nodup ∧
    (∀ id a, s.get? id = some a ↔ a ∈ s.annotations ∧ a.id = id) ∧
    (∀ id ∈ s.pending, (s.get? id).isSome) ∧
    ∀ g, ((s.segments.lookup g).isSome ↔ ∃ a ∈ s.annotations, a.hasSegment g = true) ∧
      (∀ ids, s.segments.lookup g = some ids →
        ids.Nodup ∧ ∀ id, id ∈ ids ↔ ∃ a ∈ s.annotations, a.id = id ∧ a.hasSegment g = true) ∧
      s.forSegment g = ((s.annotations.filter (·.hasSegment g)).map (·.id)).mergeSort (· ≤ ·)) := by
  intro s
  have hs : Reachable s := .step _ (.step _ (.new _) trivial) trivial
  exact ⟨hs, Reachable.representation_invariant hs⟩

end AnnotationStore.Source
