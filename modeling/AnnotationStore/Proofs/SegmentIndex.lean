import AnnotationStore.Store.SegmentIndex
/-!
# The segment index is exact

Lookups in the index after linking and unlinking, and the invariant the source keeps: the
index is *exact* for the stored annotations when each segment is present just while some
annotation lists it, with the ids of exactly those annotations under it, each once.
Exactness survives linking an annotation that joins the list, unlinking one that leaves it,
and building the index from nothing.
-/

namespace AnnotationStore.SegmentIndex

/-! ## Lookups -/

def addId (ids : List String) (id : String) : List String := if id ∈ ids then ids else ids ++ [id]

def dropId (o : Option (List String)) (id : String) : Option (List String) :=
  o.bind fun ids => if (ids.filter (· != id)).isEmpty then none else some (ids.filter (· != id))

theorem addId_addId (ids : List String) (id : String) : addId (addId ids id) id = addId ids id := by
  unfold addId
  by_cases h : id ∈ ids <;> simp [h]

theorem dropId_dropId (o : Option (List String)) (id : String) :
    dropId (dropId o id) id = dropId o id := by
  cases o with
  | none => rfl
  | some ids =>
    have hfilter : (ids.filter (· != id)).filter (· != id) = ids.filter (· != id) := by
      simp only [List.filter_filter, Bool.and_self]
    by_cases h : (ids.filter (· != id)).isEmpty
    · simp only [dropId, Option.bind_some]
      rw [if_pos h]
      rfl
    · simp only [dropId, Option.bind_some]
      rw [if_neg h, Option.bind_some, hfilter, if_neg h]

section Entries
variable {idx : SegmentIndex} {g g' : SegmentId} {v : List String}

theorem lookup_map_of_ne (h : g' ≠ g) :
    (idx.map fun e => if e.1 == g then (g, v) else e).lookup g' = idx.lookup g' := by
  induction idx with
  | nil => rfl
  | cons e idx ih =>
    obtain ⟨k, w⟩ := e
    rw [List.map_cons]
    by_cases hk : k = g
    · subst hk
      have hne : (g' == k) = false := by simpa using h
      rw [if_pos (by simp), List.lookup_cons, List.lookup_cons, hne, ih]
    · rw [if_neg (by simpa using hk), List.lookup_cons, List.lookup_cons, ih]

theorem lookup_map_self (h : (idx.lookup g).isSome) :
    (idx.map fun e => if e.1 == g then (g, v) else e).lookup g = some v := by
  induction idx with
  | nil => simp at h
  | cons e idx ih =>
    obtain ⟨k, w⟩ := e
    rw [List.map_cons]
    by_cases hk : k = g
    · subst hk
      rw [if_pos (by simp), List.lookup_cons_self]
    · have hne : (g == k) = false := by simpa using Ne.symm hk
      rw [List.lookup_cons, hne] at h
      rw [if_neg (by simpa using hk), List.lookup_cons, hne, ih h]

theorem lookup_filter_of_ne (h : g' ≠ g) : (idx.filter (·.1 != g)).lookup g' = idx.lookup g' := by
  induction idx with
  | nil => rfl
  | cons e idx ih =>
    obtain ⟨k, w⟩ := e
    by_cases hk : k = g
    · subst hk
      have hne : (g' == k) = false := by simpa using h
      rw [List.filter_cons_of_neg (by simp), ih, List.lookup_cons, hne]
    · rw [List.filter_cons_of_pos (by simpa using hk), List.lookup_cons, List.lookup_cons, ih]

theorem lookup_filter_self : (idx.filter (·.1 != g)).lookup g = none := by
  rw [List.lookup_eq_none_iff]
  intro p hp
  have := (List.mem_filter.mp hp).2
  simp only [bne_iff_ne, ne_eq] at this ⊢
  exact fun h => this h.symm

end Entries

section Link
variable (idx : SegmentIndex) (g g' : SegmentId) (id : String)

theorem lookup_link :
    (idx.link g id).lookup g' = if g' = g then some (addId (idx.idsOf g) id) else idx.lookup g' := by
  unfold link
  cases hg : idx.lookup g with
  | some ids =>
    by_cases hid : id ∈ ids
    · have : ids.contains id = true := by simpa using hid
      simp only [this, if_true]
      split
      · subst g'; simp [hg, idsOf, addId, hid]
      · rfl
    · have : ids.contains id = false := by simpa using hid
      simp only [this, Bool.false_eq_true, if_false]
      split
      · subst g'; rw [lookup_map_self (by simp [hg])]; simp [idsOf, hg, addId, hid]
      · rw [lookup_map_of_ne ‹_›]
  | none =>
    dsimp only
    rw [List.lookup_append]
    by_cases h : g' = g
    · subst g'; simp [hg, idsOf, addId]
    · have hne : (g' == g) = false := by simpa using h
      simp [List.lookup_cons, hne, h]

theorem lookup_unlink :
    (idx.unlink g id).lookup g' = if g' = g then dropId (idx.lookup g) id else idx.lookup g' := by
  unfold unlink
  cases hg : idx.lookup g with
  | some ids =>
    dsimp only
    split
    · rename_i hempty
      split
      · subst g'
        simp only [lookup_filter_self, dropId, Option.bind_some, if_pos hempty]
      · rw [lookup_filter_of_ne ‹_›]
    · rename_i hempty
      split
      · subst g'
        rw [lookup_map_self (by simp [hg])]
        simp only [dropId, Option.bind_some, if_neg hempty]
      · rw [lookup_map_of_ne ‹_›]
  | none =>
    dsimp only
    split
    · subst g'; simp [hg, dropId]
    · rfl

end Link

theorem lookup_foldl_link (segs : List SegmentId) (idx : SegmentIndex) (id : String) (g : SegmentId) :
    (segs.foldl (fun idx g => idx.link g id) idx).lookup g =
      if g ∈ segs then some (addId (idx.idsOf g) id) else idx.lookup g := by
  induction segs generalizing idx with
  | nil => simp
  | cons g₀ segs ih =>
    rw [List.foldl_cons, ih]
    by_cases hg : g = g₀
    · subst hg
      have hids : (idx.link g id).idsOf g = addId (idx.idsOf g) id := by
        simp [idsOf, lookup_link]
      simp [hids, addId_addId, lookup_link]
    · have hids : (idx.link g₀ id).idsOf g = idx.idsOf g := by simp [idsOf, lookup_link, hg]
      simp [hids, lookup_link, hg]

theorem lookup_foldl_unlink (segs : List SegmentId) (idx : SegmentIndex) (id : String) (g : SegmentId) :
    (segs.foldl (fun idx g => idx.unlink g id) idx).lookup g =
      if g ∈ segs then dropId (idx.lookup g) id else idx.lookup g := by
  induction segs generalizing idx with
  | nil => simp
  | cons g₀ segs ih =>
    rw [List.foldl_cons, ih]
    by_cases hg : g = g₀
    · subst hg
      simp [lookup_unlink, dropId_dropId]
    · simp [lookup_unlink, hg]

theorem lookup_index (idx : SegmentIndex) (a : Annotation) (g : SegmentId) :
    (idx.index a).lookup g =
      if a.hasSegment g then some (addId (idx.idsOf g) a.id) else idx.lookup g := by
  simp [index, lookup_foldl_link, Annotation.hasSegment]

theorem lookup_unindex (idx : SegmentIndex) (a : Annotation) (g : SegmentId) :
    (idx.unindex a).lookup g = if a.hasSegment g then dropId (idx.lookup g) a.id else idx.lookup g := by
  simp [unindex, lookup_foldl_unlink, Annotation.hasSegment]

/-! ## Exactness -/

/-- An entry of the index agrees with a predicate on ids: absent when no id satisfies it,
else the ids that do, each once. -/
def Agrees : Option (List String) → (String → Prop) → Prop
  | none, p => ∀ id, ¬p id
  | some ids, p => ids ≠ [] ∧ ids.Nodup ∧ ∀ id, id ∈ ids ↔ p id

/-- An annotation of a list has an id and lists a segment. -/
def Linked (as : List Annotation) (id : String) (g : SegmentId) : Prop :=
  ∃ a ∈ as, a.id = id ∧ a.hasSegment g = true

/-- The index is exact for a list of annotations: a segment is present just while some
annotation lists it, and holds the ids of those annotations, each once. -/
def Exact (idx : SegmentIndex) (as : List Annotation) : Prop :=
  ∀ g, Agrees (idx.lookup g) (Linked as · g)

section Agrees
variable {o : Option (List String)} {p q : String → Prop}

theorem Agrees.congr (h : Agrees o p) (hpq : ∀ id, p id ↔ q id) : Agrees o q := by
  cases o with
  | none => exact fun id hq => h id ((hpq id).mpr hq)
  | some ids => exact ⟨h.1, h.2.1, fun id => (h.2.2 id).trans (hpq id)⟩

theorem Agrees.addId (h : Agrees o p) (id : String) :
    Agrees (some (addId (o.getD []) id)) (fun x => p x ∨ x = id) := by
  cases o with
  | none =>
    refine ⟨by simp [SegmentIndex.addId], by simp [SegmentIndex.addId], fun x => ?_⟩
    simp only [Option.getD_none, SegmentIndex.addId, List.not_mem_nil, if_false, List.nil_append,
      List.mem_singleton]
    exact ⟨Or.inr, fun hx => hx.resolve_left (h x)⟩
  | some ids =>
    obtain ⟨hne, hnodup, hmem⟩ := h
    simp only [Option.getD_some, SegmentIndex.addId]
    by_cases hid : id ∈ ids
    · rw [if_pos hid]
      refine ⟨hne, hnodup, fun x => ⟨fun hx => .inl ((hmem x).mp hx), ?_⟩⟩
      rintro (hx | rfl)
      · exact (hmem x).mpr hx
      · exact hid
    · rw [if_neg hid]
      refine ⟨by simp, List.nodup_append.mpr ⟨hnodup, by simp, fun x hx y hy => ?_⟩, fun x => ?_⟩
      · rintro rfl
        exact hid (List.mem_singleton.mp hy ▸ hx)
      simp [hmem]

theorem Agrees.dropId (h : Agrees o p) (id : String) :
    Agrees (SegmentIndex.dropId o id) (fun x => p x ∧ x ≠ id) := by
  cases o with
  | none => exact fun x hx => h x hx.1
  | some ids =>
    obtain ⟨-, hnodup, hmem⟩ := h
    have hrest : ∀ x, x ∈ ids.filter (· != id) ↔ p x ∧ x ≠ id := by
      intro x
      simp [hmem]
    by_cases hempty : (ids.filter (· != id)).isEmpty
    · simp only [SegmentIndex.dropId, Option.bind_some, if_pos hempty]
      intro x hx
      have : ids.filter (· != id) = [] := List.isEmpty_iff.mp hempty
      simpa [this] using (hrest x).mpr hx
    · simp only [SegmentIndex.dropId, Option.bind_some, if_neg hempty]
      exact ⟨by simpa using hempty, hnodup.filter _, hrest⟩

end Agrees

section Exact
variable {idx : SegmentIndex} {as bs : List Annotation}

theorem Exact.congr (h : idx.Exact as) (hmem : ∀ a, a ∈ as ↔ a ∈ bs) : idx.Exact bs :=
  fun g => (h g).congr fun id => by simp [Linked, hmem]

theorem exact_nil : Exact [] [] := fun g id h => by simp [Linked] at h

theorem Exact.index (h : idx.Exact as) (a : Annotation) : (idx.index a).Exact (as ++ [a]) := by
  intro g
  rw [lookup_index]
  by_cases hg : a.hasSegment g = true
  · rw [if_pos hg]
    refine ((h g).addId a.id).congr fun id => ?_
    simp only [Linked, List.mem_append, List.mem_singleton]
    constructor
    · rintro (⟨b, hb, rfl, hbg⟩ | rfl)
      · exact ⟨b, .inl hb, rfl, hbg⟩
      · exact ⟨a, .inr rfl, rfl, hg⟩
    · rintro ⟨b, hb | rfl, rfl, hbg⟩
      · exact .inl ⟨b, hb, rfl, hbg⟩
      · exact .inr rfl
  · rw [if_neg hg]
    refine (h g).congr fun id => ?_
    simp only [Linked, List.mem_append, List.mem_singleton]
    constructor
    · rintro ⟨b, hb, rfl, hbg⟩
      exact ⟨b, .inl hb, rfl, hbg⟩
    · rintro ⟨b, hb | rfl, rfl, hbg⟩
      · exact ⟨b, hb, rfl, hbg⟩
      · exact absurd hbg hg

/-- Unlinking the only annotation of the list with its id keeps the index exact for the
rest. -/
theorem Exact.unindex (h : idx.Exact as) {a : Annotation} (huniq : ∀ b ∈ as, b.id = a.id → b = a) :
    (idx.unindex a).Exact (as.filter (·.id != a.id)) := by
  intro g
  rw [lookup_unindex]
  by_cases hg : a.hasSegment g = true
  · rw [if_pos hg]
    refine ((h g).dropId a.id).congr fun id => ?_
    simp only [Linked, List.mem_filter, bne_iff_ne, ne_eq]
    constructor
    · rintro ⟨⟨b, hb, rfl, hbg⟩, hne⟩
      exact ⟨b, ⟨hb, hne⟩, rfl, hbg⟩
    · rintro ⟨b, ⟨hb, hne⟩, rfl, hbg⟩
      exact ⟨⟨b, hb, rfl, hbg⟩, hne⟩
  · rw [if_neg hg]
    refine (h g).congr fun id => ?_
    simp only [Linked, List.mem_filter, bne_iff_ne, ne_eq]
    constructor
    · rintro ⟨b, hb, rfl, hbg⟩
      refine ⟨b, ⟨hb, fun hid => ?_⟩, rfl, hbg⟩
      exact hg (huniq b hb hid ▸ hbg)
    · rintro ⟨b, ⟨hb, -⟩, rfl, hbg⟩
      exact ⟨b, hb, rfl, hbg⟩

theorem exact_build (as : List Annotation) : (build as).Exact as := by
  have key : ∀ (idx : SegmentIndex) (bs : List Annotation), idx.Exact bs →
      (as.foldl index idx).Exact (bs ++ as) := by
    induction as with
    | nil => simp
    | cons a as ih =>
      intro idx bs h
      simpa using ih (idx.index a) (bs ++ [a]) (h.index a)
  simpa [build] using key [] [] exact_nil

theorem Exact.isSome_iff (h : idx.Exact as) (g : SegmentId) :
    (idx.lookup g).isSome ↔ ∃ a ∈ as, a.hasSegment g = true := by
  have hg := h g
  cases hl : idx.lookup g with
  | none =>
    rw [hl] at hg
    simp only [Option.isSome_none, Bool.false_eq_true, false_iff, not_exists, not_and]
    exact fun a ha hag => hg a.id ⟨a, ha, rfl, hag⟩
  | some ids =>
    rw [hl] at hg
    obtain ⟨hne, -, hmem⟩ := hg
    obtain ⟨x, hx⟩ := List.exists_mem_of_ne_nil ids hne
    obtain ⟨a, ha, -, hag⟩ := (hmem x).mp hx
    simpa using ⟨a, ha, hag⟩

/-- A present segment holds, each once, the ids of the annotations that list it. -/
theorem Exact.of_lookup_eq_some (h : idx.Exact as) {g : SegmentId} {ids : List String}
    (hl : idx.lookup g = some ids) : ids.Nodup ∧ ∀ id, id ∈ ids ↔ Linked as id g := by
  have hg := h g
  rw [hl] at hg
  exact ⟨hg.2.1, hg.2.2⟩

/-- With distinct ids, the ids under a segment are those of the annotations listing it, in
some order. -/
theorem Exact.idsOf_perm (h : idx.Exact as) (hnodup : (as.map (·.id)).Nodup) (g : SegmentId) :
    (idx.idsOf g).Perm ((as.filter (·.hasSegment g)).map (·.id)) := by
  have hlinked : ∀ id, id ∈ (as.filter (·.hasSegment g)).map (·.id) ↔ Linked as id g := by
    intro id
    simp only [List.mem_map, List.mem_filter, Linked]
    constructor
    · rintro ⟨a, ⟨ha, hag⟩, rfl⟩
      exact ⟨a, ha, rfl, hag⟩
    · rintro ⟨a, ha, rfl, hag⟩
      exact ⟨a, ⟨ha, hag⟩, rfl⟩
  have hright : ((as.filter (·.hasSegment g)).map (·.id)).Nodup :=
    hnodup.sublist ((List.filter_sublist).map _)
  have hg := h g
  unfold idsOf
  cases hl : idx.lookup g with
  | none =>
    rw [hl] at hg
    have : (as.filter (·.hasSegment g)).map (·.id) = [] :=
      List.eq_nil_iff_forall_not_mem.mpr fun id hid => hg id ((hlinked id).mp hid)
    simp [this]
  | some ids =>
    rw [hl] at hg
    exact (List.perm_ext_iff_of_nodup hg.2.1 hright).mpr fun id => (hg.2.2 id).trans (hlinked id).symm

end Exact

end AnnotationStore.SegmentIndex
