import Mathlib
import AnnotationStore.Proofs.Source.References
import AnnotationStore.Proofs.Annotation.Plain
/-!
# Restoring plain forms

A restore from the plain forms of storable annotations with distinct ids keeps each of them,
in order, skips none and mints no id (`buildEntries_toPlain`); a payload the codec reads as
those plain forms is restored the same way (`restoreWith_toPlain`). A restore refreshes the
shared references against what it restored, so a shared reference whose id was not restored
ends up marked deleted (`Coherent.tombstoned_of_restoreEntries`).
-/

namespace AnnotationStore.Source

theorem readEntries_zipIdx (c : Codec) : ∀ (items : List Json) (ps : List Plain) (n : Nat),
    items.map (PlainJson.read? c) = ps.map some →
      readEntries c (items.zipIdx n) = ((ps.zipIdx n).map Prod.swap, [])
  | [], [], _, _ => rfl
  | [], _ :: _, _, h => by simp at h
  | _ :: _, [], _, h => by simp at h
  | j :: items, p :: ps, n, h => by
    simp only [List.map_cons, List.cons.injEq] at h
    simp [readEntries, List.zipIdx_cons, h.1, readEntries_zipIdx c items ps (n + 1) h.2]

/-- Plain forms of storable annotations whose ids are new to the kept ones are all kept. -/
theorem buildEntries_toPlain (minted : Nat) :
    ∀ (as kept : List Annotation) (skips : List Skip) (n : Nat), (∀ a ∈ as, a.Storable) →
      ((kept ++ as).map (·.id)).Nodup →
      buildEntries minted (((as.map Annotation.toPlain).zipIdx n).map Prod.swap) kept skips =
        (kept ++ as, skips, minted)
  | [], kept, skips, _, _, _ => by simp [buildEntries]
  | a :: as, kept, skips, n, hs, hnodup => by
    have ha := hs a List.mem_cons_self
    have hid : a.toPlain.id.isEmpty = false := by
      simpa [String.isEmpty_iff, a.toPlain_info.1, Annotation.id] using ha.id_ne_empty
    -- the annotation's id is none of the kept ones
    have hnew : kept.any (·.id == a.id) = false := by
      rw [List.map_append, List.map_cons, List.nodup_append] at hnodup
      simp only [List.any_eq_false, beq_iff_eq]
      intro b hb hba
      exact hnodup.2.2 b.id (List.mem_map_of_mem hb) a.id List.mem_cons_self hba
    have hrest := buildEntries_toPlain minted as (kept ++ [a]) skips (n + 1)
      (fun b hb => hs b (List.mem_cons_of_mem a hb)) (by simpa using hnodup)
    rw [List.map_cons, List.zipIdx_cons, List.map_cons]
    simp only [Prod.swap, buildEntries, hid, Bool.false_eq_true, if_false,
      Annotation.toAnnotation_toPlain ha, hnew, hrest, List.append_assoc, List.singleton_append]

theorem restoreEntries_result (s : Source) (entries : List (Nat × Plain)) :
    (s.restoreEntries entries).result =
      ⟨(buildEntries s.minted entries [] []).1.length, (buildEntries s.minted entries [] []).2.1⟩ := by
  unfold restoreEntries
  rcases buildEntries s.minted entries [] [] with ⟨kept, skips, minted⟩
  rfl

/-- A payload the codec reads as the plain forms of storable annotations with distinct ids
restores all of them and skips nothing. -/
theorem restoreWith_toPlain (s : Source) (c : Codec) {payload : String} {items : List Json}
    {as : List Annotation} (hparse : c.parse? payload = some (.arr items))
    (hread : items.map (PlainJson.read? c) = (as.map Annotation.toPlain).map some)
    (hs : ∀ a ∈ as, a.Storable) (hnodup : (as.map (·.id)).Nodup) :
    (s.restoreWith c payload).result = .ok { restored := as.length, skipped := [] } ∧
      (s.restoreWith c payload).source =
        (s.restoreEntries (((as.map Annotation.toPlain).zipIdx).map Prod.swap)).source := by
  have hentries := readEntries_zipIdx c items _ 0 hread
  have hbuild := buildEntries_toPlain s.minted as [] [] 0 hs (by simpa using hnodup)
  simp only [List.nil_append] at hbuild
  unfold restoreWith
  rw [hparse]
  refine ⟨?_, ?_⟩
  · simp only [hentries, restoreEntries_result, hbuild, List.append_nil]
  · simp only [hentries]

/-- A restore keeps the shared entries and gives the kept annotations, none of them pending. -/
theorem restoreEntries_source (s : Source) (entries : List (Nat × Plain)) :
    (s.restoreEntries entries).source.annotations = (buildEntries s.minted entries [] []).1 ∧
      (s.restoreEntries entries).source.pending = [] ∧
      (s.restoreEntries entries).source.shared = s.shared := by
  obtain ⟨cells, h⟩ := restoreEntries_source_eq s entries
  rw [h]
  exact ⟨rfl, rfl, rfl⟩

/-- After a restore of a coherent source, a shared reference whose id was not restored is
marked deleted. -/
theorem Coherent.tombstoned_of_restoreEntries {s : Source} (h : Coherent s) (entries : List (Nat × Plain))
    {k : String} {c : Nat} (hkc : (k, c) ∈ (s.restoreEntries entries).source.shared)
    (hk : (s.restoreEntries entries).source.get? k = none) :
    ∃ r, (s.restoreEntries entries).source.cell? c = some r ∧ r.state = .tombstoned := by
  obtain ⟨u, hcells, hshared, heq⟩ := restoreEntries_source_eq_tombstoneAll s entries
  obtain ⟨cells, hfold⟩ := tombstoneAll_fst_eq u u.get?
  rw [heq, hfold] at hkc hk ⊢
  have hkc' : (k, c) ∈ s.shared := hshared ▸ hkc
  have hget : u.get? k = none := hk
  obtain ⟨r, hr, hid, -⟩ := h.entry k c hkc'
  have hcell := h.cell?_tombstoneAll u hcells hshared c
  rw [hfold, hr, Option.map_some, hid, if_pos hkc', hget] at hcell
  refine ⟨_, hcell, ?_⟩
  -- a deleted cell stays deleted, any other is marked deleted
  by_cases ht : r.state = .tombstoned <;> simp [RefCell.refresh, ht]

end AnnotationStore.Source
