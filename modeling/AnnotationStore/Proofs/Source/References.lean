import AnnotationStore.Proofs.Source.Representation
/-!
# Shared references stay coherent with the store

A source shares one reference cell per id. In every reachable source each shared entry points
at a cell with that id which is resolved and tracks the store: while the id is stored the cell
is present with the stored value, and a deleted cell's id is not stored. A cell is shared just
while it has a holder, so every request for an id hands out the same cell as long as a hold on
it remains, each request or retain adds one hold, each dispose takes one away, and the cell
leaves the source at the dispose that takes its last hold. A dispose of an older cell that has
left the source never takes out the cell that replaced it.

The invariant `Coherent` is kept by every allowed operation. The operations that change the
contents and a cell together (`add`, `update`, `delete`, `clear`, the restores) go through one
transfer lemma, `Coherent.of_cells`: when the shared entries stay, every cell keeps its id and
holders, and every shared cell tracks the new contents, the invariant holds again.
-/

namespace AnnotationStore

/-- A cell shows what a lookup by id gives: it is resolved, present with the value while the
id is found, and deleted only when it is not. -/
def RefCell.Tracks (r : RefCell) (look : String → Option Annotation) : Prop :=
  r.state ≠ .unresolved ∧ (∀ a, look r.id = some a → r.state = .present ∧ r.value = some a) ∧
    (r.state = .tombstoned → look r.id = none)

/-- A live cell after a restore or a clear: pointed at its new value, or marked deleted unless
it already is. -/
def RefCell.refresh (o : Option Annotation) (r : RefCell) : RefCell :=
  match o with
  | some a => { r with value := some a, state := .present }
  | none => if r.state = .tombstoned then r else { r with value := none, state := .tombstoned }

namespace RefCell

/-- What a holder sees of a cell whatever its contents: its id and its number of holders. -/
def handle (r : RefCell) : String × Int := (r.id, r.holders)

variable {r : RefCell} {look look' : String → Option Annotation}

@[simp] theorem refresh_id (o : Option Annotation) (r : RefCell) : (r.refresh o).id = r.id := by
  unfold refresh
  split
  · rfl
  · split <;> rfl

@[simp] theorem refresh_handle (o : Option Annotation) (r : RefCell) :
    (r.refresh o).handle = r.handle := by
  unfold refresh
  split
  · rfl
  · split <;> rfl

theorem Tracks.congr (h : r.Tracks look) (heq : look' r.id = look r.id) : r.Tracks look' := by
  obtain ⟨hres, hfound, hdel⟩ := h
  exact ⟨hres, fun a ha => hfound a (heq ▸ ha), fun ht => heq ▸ hdel ht⟩

theorem tracks_of_not_found (hres : r.state ≠ .unresolved) (hnone : look r.id = none) :
    r.Tracks look :=
  ⟨hres, fun a ha => by simp [hnone] at ha, fun _ => hnone⟩

theorem tracks_of_found {a : Annotation} (hpresent : r.state = .present) (hvalue : r.value = some a)
    (ha : look r.id = some a) : r.Tracks look :=
  ⟨by simp [hpresent], fun b hb => by simp_all, by simp [hpresent]⟩

theorem tracks_present {a : Annotation} (ha : look r.id = some a) :
    ({ r with value := some a, state := .present } : RefCell).Tracks look :=
  tracks_of_found rfl rfl ha

theorem tracks_refresh (r : RefCell) (look : String → Option Annotation) :
    (r.refresh (look r.id)).Tracks look := by
  unfold refresh
  split
  · rename_i a ha
    exact tracks_present ha
  · rename_i hnone
    split
    · exact tracks_of_not_found (by simp_all) hnone
    · exact tracks_of_not_found (by simp) hnone

end RefCell

namespace Source

/-! ## Cells -/

theorem cell?_modifyCell (s : Source) (c : Nat) (f : RefCell → RefCell) (c' : Nat) :
    (s.modifyCell c f).cell? c' = if c = c' then (s.cell? c').map f else s.cell? c' :=
  Array.getElem?_modify

theorem cell?_modifyCell_of {s : Source} {c : Nat} {r : RefCell} (hr : s.cell? c = some r)
    (f : RefCell → RefCell) (c' : Nat) :
    (s.modifyCell c f).cell? c' = if c = c' then some (f r) else s.cell? c' := by
  rw [cell?_modifyCell]
  split
  · subst c'
    rw [hr]
    rfl
  · rfl

theorem cell?_setCell (s : Source) (c : Nat) (a : Annotation) (c' : Nat) :
    (s.setCell c a).cell? c' =
      if c = c' then (s.cell? c').map fun r => { r with value := some a, state := .present }
      else s.cell? c' :=
  cell?_modifyCell s c _ c'

theorem cell?_tombstoneCell (s : Source) (c : Nat) (c' : Nat) :
    (s.tombstoneCell c).cell? c' =
      if c = c' then (s.cell? c').map fun r => { r with value := none, state := .tombstoned }
      else s.cell? c' :=
  cell?_modifyCell s c _ c'

theorem lt_size_of_cell? {s : Source} {c : Nat} {r : RefCell} (h : s.cell? c = some r) :
    c < s.cells.size :=
  (Array.getElem?_eq_some_iff.mp h).1

/-- One step of `tombstoneAll` refreshes the cell of its entry and no other. -/
theorem cell?_refreshStep (keep : String → Option Annotation) (s : Source) (ns : List Notice)
    (k : String) (c c' : Nat) :
    (refreshStep keep (s, ns) (k, c)).1.cell? c' =
      if c = c' then (s.cell? c').map (RefCell.refresh (keep k)) else s.cell? c' := by
  unfold refreshStep
  dsimp only
  cases hk : keep k with
  | some a => exact cell?_modifyCell s c _ c'
  | none =>
    dsimp only
    cases hc : s.cell? c with
    | some r =>
      dsimp only
      split
      · rename_i hdel
        split
        · subst c'; simp [hc, RefCell.refresh, hdel]
        · rfl
      · exact (cell?_modifyCell s c _ c').trans (by split <;> simp_all [RefCell.refresh])
    | none =>
      dsimp only
      by_cases hcc : c = c'
      · subst c'; simp [hc]
      · simp [hcc]

/-- The fold of `tombstoneAll` refreshes exactly the cells of its entries, once each. -/
theorem cell?_foldl_refreshStep (keep : String → Option Annotation) (es : List (String × Nat))
    (s : Source) (ns : List Notice) (hnodup : (es.map (·.2)).Nodup)
    (hids : ∀ k c r, (k, c) ∈ es → s.cell? c = some r → r.id = k) (c : Nat) :
    (es.foldl (refreshStep keep) (s, ns)).1.cell? c =
      (s.cell? c).map fun r => if (r.id, c) ∈ es then r.refresh (keep r.id) else r := by
  induction es generalizing s ns with
  | nil => simp
  | cons e es ih =>
    obtain ⟨k, c₀⟩ := e
    obtain ⟨hc₀, hnodup⟩ := List.nodup_cons.mp hnodup
    rw [List.foldl_cons]
    -- the step touches only the cell `c₀`, with the same ids, so the rest of the entries
    -- still name cells with their own ids
    have hstep := cell?_refreshStep keep s ns k c₀
    have hids' : ∀ k' c' r, (k', c') ∈ es → (refreshStep keep (s, ns) (k, c₀)).1.cell? c' = some r →
        r.id = k' := by
      intro k' c' r hmem hr
      rw [hstep] at hr
      split at hr
      · obtain ⟨r₀, hr₀, rfl⟩ := Option.map_eq_some_iff.mp hr
        simpa using hids k' c' r₀ (List.mem_cons_of_mem _ hmem) hr₀
      · exact hids k' c' r (List.mem_cons_of_mem _ hmem) hr
    obtain ⟨ns', hns⟩ : ∃ ns', (refreshStep keep (s, ns) (k, c₀)) = ((refreshStep keep (s, ns) (k, c₀)).1, ns') :=
      ⟨_, rfl⟩
    rw [hns, ih _ _ hnodup hids', hstep]
    by_cases hc : c₀ = c
    · subst c
      have hnot : ∀ id, (id, c₀) ∉ es := fun id hmem => hc₀ (List.mem_map.mpr ⟨_, hmem, rfl⟩)
      cases hr : s.cell? c₀ with
      | none => simp
      | some r =>
        have hk := hids k c₀ r List.mem_cons_self hr
        simp [hnot, hk]
    · cases s.cell? c with
      | none => simp [hc]
      | some r => simp [hc, Ne.symm hc]

/-! ## Lookups after a store step -/

theorem get?_insert {s : Source} {a : Annotation} (hnew : s.get? a.id = none) (commit : Bool)
    (k : String) : (s.insert a commit).get? k = if a.id = k then some a else s.get? k := by
  show (s.annotations ++ [a]).find? (·.id == k) = _
  rw [List.find?_append]
  by_cases hk : a.id = k
  · subst k
    rw [show s.annotations.find? (·.id == a.id) = none from hnew]
    simp
  · simp [hk]
    rfl

theorem get?_replace {s : Source} {old a : Annotation} (hold : s.get? a.id = some old) (k : String) :
    (s.replace old a).get? k = if a.id = k then some a else s.get? k := by
  show (s.annotations.map fun b => if b.id == a.id then a else b).find? (·.id == k) = _
  rw [List.find?_map]
  have hpred : ((·.id == k) ∘ fun (b : Annotation) => if b.id == a.id then a else b) = (·.id == k) := by
    funext b
    by_cases hb : b.id = a.id <;> simp [hb]
  rw [hpred]
  by_cases hk : a.id = k
  · subst k
    rw [if_pos rfl, show s.annotations.find? (·.id == a.id) = some old from hold]
    simp [(mem_of_get?_eq_some hold).2]
  · rw [if_neg hk]
    cases hfind : s.annotations.find? (·.id == k) with
    | none => exact hfind.symm
    | some b =>
      have hbk : b.id = k := by simpa using List.find?_some hfind
      have hba : b.id ≠ a.id := fun h => hk (h ▸ hbk)
      simp [hba, get?, hfind]

theorem get?_remove (s : Source) (old : Annotation) (k : String) :
    (s.remove old).get? k = if old.id = k then none else s.get? k := by
  show (s.annotations.filter (·.id != old.id)).find? (·.id == k) = _
  rw [List.find?_filter]
  by_cases hk : old.id = k
  · subst k
    rw [if_pos rfl, List.find?_eq_none]
    intro b _
    by_cases hb : b.id = old.id <;> simp [hb]
  · rw [if_neg hk]
    show _ = s.annotations.find? (·.id == k)
    congr 1
    funext b
    by_cases hb : b.id = k
    · simp [hb, Ne.symm hk]
    · simp [hb]

/-- A clear refreshes the shared cells against its own, empty, contents. -/
theorem clear_source_eq_tombstoneAll (s : Source) :
    ∃ u : Source, u.cells = s.cells ∧ u.shared = s.shared ∧ s.clear.source = (u.tombstoneAll u.get?).1 :=
  ⟨{ s with
      annotations := []
      pending := []
      segments := []
      range := SizeRange.recompute []
      generation := s.generation + 1 }, rfl, rfl, rfl⟩

/-- A restore refreshes the shared cells against the restored contents. -/
theorem restoreEntries_source_eq_tombstoneAll (s : Source) (entries : List (Nat × Plain)) :
    ∃ u : Source, u.cells = s.cells ∧ u.shared = s.shared ∧
      (s.restoreEntries entries).source = (u.tombstoneAll u.get?).1 := by
  unfold restoreEntries
  rcases buildEntries s.minted entries [] [] with ⟨kept, skips, minted⟩
  exact ⟨{ s with
      annotations := kept
      pending := []
      segments := SegmentIndex.build kept
      range := SizeRange.recompute kept
      generation := s.generation + 1
      minted := minted }, rfl, rfl, rfl⟩

/-! ## Shared entries -/

theorem mem_of_lookup_eq_some {l : List (String × Nat)} {k : String} {c : Nat}
    (h : l.lookup k = some c) : (k, c) ∈ l := by
  induction l with
  | nil => simp at h
  | cons e l ih =>
    obtain ⟨k', c'⟩ := e
    by_cases hk : k = k'
    · subst hk
      rw [List.lookup_cons_self] at h
      cases h
      exact List.mem_cons_self
    · rw [List.lookup_cons, show (k == k') = false by simpa using hk] at h
      exact List.mem_cons_of_mem _ (ih h)

theorem lookup_eq_some_of_mem {l : List (String × Nat)} (hkeys : (l.map (·.1)).Nodup) {k : String}
    {c : Nat} (h : (k, c) ∈ l) : l.lookup k = some c := by
  induction l with
  | nil => simp at h
  | cons e l ih =>
    obtain ⟨k', c'⟩ := e
    obtain ⟨hk', hkeys⟩ := List.nodup_cons.mp hkeys
    rcases List.mem_cons.mp h with h | h
    · obtain ⟨rfl, rfl⟩ := Prod.mk.inj h
      exact List.lookup_cons_self
    · have hne : k ≠ k' := fun heq => hk' (List.mem_map.mpr ⟨(k, c), h, heq⟩)
      rw [List.lookup_cons, show (k == k') = false by simpa using hne]
      exact ih hkeys h

theorem Shares.mem_shared {s : Source} {c : Nat} {r : RefCell} (h : s.Shares c)
    (hr : s.cell? c = some r) : (r.id, c) ∈ s.shared := by
  obtain ⟨r', hr', hlookup⟩ := h
  rw [hr] at hr'
  cases hr'
  exact mem_of_lookup_eq_some hlookup

/-- The references of a source agree with it: an id is shared through one cell, which has
that id and tracks the store, and a cell is shared just while it has a holder. -/
structure Coherent (s : Source) : Prop where
  keys_nodup : (s.shared.map (·.1)).Nodup
  entry : ∀ k c, (k, c) ∈ s.shared → ∃ r, s.cell? c = some r ∧ r.id = k ∧ r.Tracks s.get?
  shared_iff : ∀ c r, s.cell? c = some r → ((r.id, c) ∈ s.shared ↔ 0 < r.holders)
  holders_nonneg : ∀ c r, s.cell? c = some r → 0 ≤ r.holders

namespace Coherent

variable {s t : Source}

theorem new (codec : Codec) : Coherent { codec } where
  keys_nodup := List.nodup_nil
  entry := by simp
  shared_iff := by simp [cell?]
  holders_nonneg := by simp [cell?]

theorem lookup_eq_some_iff (h : Coherent s) {k : String} {c : Nat} :
    s.shared.lookup k = some c ↔ (k, c) ∈ s.shared :=
  ⟨mem_of_lookup_eq_some, lookup_eq_some_of_mem h.keys_nodup⟩

theorem cell_eq (h : Coherent s) {k : String} {c c' : Nat} (hc : (k, c) ∈ s.shared)
    (hc' : (k, c') ∈ s.shared) : c = c' :=
  Option.some.inj ((h.lookup_eq_some_iff.mpr hc).symm.trans (h.lookup_eq_some_iff.mpr hc'))

theorem key_eq (h : Coherent s) {k k' : String} {c : Nat} (hk : (k, c) ∈ s.shared)
    (hk' : (k', c) ∈ s.shared) : k = k' := by
  obtain ⟨r, hr, hid, -⟩ := h.entry k c hk
  obtain ⟨r', hr', hid', -⟩ := h.entry k' c hk'
  rw [hr] at hr'
  cases hr'
  exact hid.symm.trans hid'

theorem cells_nodup (h : Coherent s) : (s.shared.map (·.2)).Nodup := by
  refine List.Nodup.map_on ?_ (List.Nodup.of_map _ h.keys_nodup)
  rintro ⟨k, c⟩ hk ⟨k', c'⟩ hk' (hc : c = c')
  subst hc
  rw [h.key_eq hk hk']

/-- The transfer lemma: coherence survives a change that keeps the shared entries and what a
holder sees of every cell, once each shared cell tracks the new contents. -/
theorem of_cells (h : Coherent s) (hshared : t.shared = s.shared)
    (hcells : ∀ c, (t.cell? c).map RefCell.handle = (s.cell? c).map RefCell.handle)
    (htracks : ∀ k c r, (k, c) ∈ s.shared → t.cell? c = some r → r.Tracks t.get?) :
    Coherent t := by
  -- each cell of `t` stands where a cell of `s` with its id and holders stood
  have hback : ∀ c r, t.cell? c = some r →
      ∃ r₀, s.cell? c = some r₀ ∧ r₀.id = r.id ∧ r₀.holders = r.holders := by
    intro c r hr
    have hc := hcells c
    rw [hr, Option.map_some] at hc
    obtain ⟨r₀, hr₀, heq⟩ := Option.map_eq_some_iff.mp hc.symm
    simp only [RefCell.handle, Prod.mk.injEq] at heq
    exact ⟨r₀, hr₀, heq⟩
  refine ⟨hshared ▸ h.keys_nodup, fun k c hkc => ?_, fun c r hr => ?_, fun c r hr => ?_⟩
  · rw [hshared] at hkc
    obtain ⟨r₀, hr₀, hid, -⟩ := h.entry k c hkc
    have hc := hcells c
    rw [hr₀, Option.map_some] at hc
    obtain ⟨r, hr, heq⟩ := Option.map_eq_some_iff.mp hc
    simp only [RefCell.handle, Prod.mk.injEq] at heq
    exact ⟨r, hr, heq.1.trans hid, htracks k c r hkc hr⟩
  · obtain ⟨r₀, hr₀, hid, hholders⟩ := hback c r hr
    rw [hshared, ← hid, ← hholders]
    exact h.shared_iff c r₀ hr₀
  · obtain ⟨r₀, hr₀, -, hholders⟩ := hback c r hr
    exact hholders ▸ h.holders_nonneg c r₀ hr₀

/-- A change of the contents that leaves the references alone keeps coherence when the
contents at every shared id stay. -/
theorem of_contents (h : Coherent s) (hshared : t.shared = s.shared) (hcells : t.cells = s.cells)
    (hget : ∀ k c, (k, c) ∈ s.shared → t.get? k = s.get? k) : Coherent t := by
  have hcell : ∀ c, t.cell? c = s.cell? c := fun c => by
    show t.cells[c]? = s.cells[c]?
    rw [hcells]
  refine h.of_cells hshared (fun c => by rw [hcell]) fun k c r hkc hr => ?_
  obtain ⟨r₀, hr₀, hid, htr⟩ := h.entry k c hkc
  rw [hcell, hr₀] at hr
  cases hr
  exact htr.congr (by rw [hid]; exact hget k c hkc)

/-- A change of the contents at one shared id, and of its cell by `f`, keeps coherence when
the changed cell tracks the new contents. -/
theorem touch (h : Coherent s) {k₀ : String} {c₀ : Nat} (hsh : (k₀, c₀) ∈ s.shared)
    (hshared : t.shared = s.shared) {f : RefCell → RefCell}
    (hcell : ∀ c, t.cell? c = if c₀ = c then (s.cell? c).map f else s.cell? c)
    (hf : ∀ r, (f r).handle = r.handle)
    (hget : ∀ k, k ≠ k₀ → t.get? k = s.get? k)
    (htouched : ∀ r, s.cell? c₀ = some r → (f r).Tracks t.get?) : Coherent t := by
  refine h.of_cells hshared (fun c => ?_) fun k c r hkc hr => ?_
  · rw [hcell]
    split
    · cases s.cell? c <;> simp [hf]
    · rfl
  · rw [hcell] at hr
    split at hr
    · subst c
      obtain ⟨r₀, hr₀, rfl⟩ := Option.map_eq_some_iff.mp hr
      exact htouched r₀ hr₀
    · rename_i hc
      -- another shared cell is shared for another id, whose contents stay
      have hk : k ≠ k₀ := fun hk => hc (h.cell_eq hsh (hk ▸ hkc))
      obtain ⟨r₀, hr₀, hid, htr⟩ := h.entry k c hkc
      rw [hr₀] at hr
      cases hr
      exact htr.congr (by rw [hid]; exact hget k hk)

/-! ## Holds -/

theorem modifyHolders (h : Coherent s) {c : Nat} {r : RefCell} (hr : s.cell? c = some r)
    (hsh : (r.id, c) ∈ s.shared) (f : Int → Int) (hf : 0 < f r.holders) :
    Coherent (s.modifyCell c fun r => { r with holders := f r.holders }) := by
  have hcell := cell?_modifyCell_of hr fun r => { r with holders := f r.holders }
  refine ⟨h.keys_nodup, fun k c' hkc' => ?_, fun c' r' hr' => ?_, fun c' r' hr' => ?_⟩
  · rw [hcell]
    split
    · subst c'
      obtain ⟨r₀, hr₀, hid, htr⟩ := h.entry k c hkc'
      rw [hr] at hr₀
      cases hr₀
      exact ⟨_, rfl, hid, htr⟩
    · exact h.entry k c' hkc'
  · rw [hcell] at hr'
    split at hr'
    · rename_i hc
      subst hc
      cases hr'
      exact ⟨fun _ => hf, fun _ => hsh⟩
    · exact h.shared_iff c' r' hr'
  · rw [hcell] at hr'
    split at hr'
    · cases hr'
      exact le_of_lt hf
    · exact h.holders_nonneg c' r' hr'

theorem push (h : Coherent s) {r : RefCell} (hnone : s.shared.lookup r.id = none)
    (hone : r.holders = 1) (htr : r.Tracks s.get?) :
    Coherent { s with cells := s.cells.push r, shared := (r.id, s.cells.size) :: s.shared } := by
  have hcell : ∀ c, ({ s with cells := s.cells.push r, shared := (r.id, s.cells.size) :: s.shared } :
      Source).cell? c = if c = s.cells.size then some r else s.cell? c := fun c => Array.getElem?_push
  have hfresh : ∀ k c, (k, c) ∈ s.shared → c ≠ s.cells.size := fun k c hkc => by
    obtain ⟨r₀, hr₀, -⟩ := h.entry k c hkc
    exact Nat.ne_of_lt (lt_size_of_cell? hr₀)
  have hkey : ∀ k c, (k, c) ∈ s.shared → k ≠ r.id := fun k c hkc hk => by
    have hlookup := lookup_eq_some_of_mem h.keys_nodup hkc
    rw [hk, hnone] at hlookup
    cases hlookup
  refine ⟨?_, fun k c hkc => ?_, fun c r' hr' => ?_, fun c r' hr' => ?_⟩
  · rw [List.map_cons, List.nodup_cons]
    refine ⟨fun hmem => ?_, h.keys_nodup⟩
    obtain ⟨⟨k, c⟩, hkc, hk⟩ := List.mem_map.mp hmem
    exact hkey k c hkc hk
  · rw [hcell]
    rcases List.mem_cons.mp hkc with heq | hkc
    · obtain ⟨rfl, rfl⟩ := Prod.mk.inj heq
      exact ⟨r, if_pos rfl, rfl, htr⟩
    · rw [if_neg (hfresh k c hkc)]
      exact h.entry k c hkc
  · rw [hcell] at hr'
    split at hr'
    · subst c
      cases hr'
      simp [hone]
    · rename_i hc
      rw [List.mem_cons, ← h.shared_iff c r' hr']
      simp [hc]
  · rw [hcell] at hr'
    split at hr'
    · cases hr'
      rw [hone]
      exact zero_le_one
    · exact h.holders_nonneg c r' hr'

theorem reference (h : Coherent s) (id : String) : Coherent (s.reference id).2 := by
  unfold Source.reference
  split
  · rename_i c hc
    have hsh := mem_of_lookup_eq_some hc
    obtain ⟨r, hr, hid, -⟩ := h.entry id c hsh
    subst hid
    have hnonneg := h.holders_nonneg c r hr
    exact h.modifyHolders hr hsh (· + 1) (by omega)
  · rename_i hnone
    dsimp only
    cases hget : s.get? id with
    | some a => exact h.push hnone rfl (RefCell.tracks_of_found rfl rfl hget)
    | none => exact h.push hnone rfl (RefCell.tracks_of_not_found (by simp) hget)

theorem retain (h : Coherent s) {c : Nat} (hc : s.Shares c) : Coherent (s.retain c) := by
  obtain ⟨r, hr, hlookup⟩ := hc
  have hnonneg := h.holders_nonneg c r hr
  exact h.modifyHolders hr (mem_of_lookup_eq_some hlookup) (· + 1) (by omega)

theorem release (h : Coherent s) {c : Nat} {r : RefCell} (hr : s.cell? c = some r)
    (hsh : (r.id, c) ∈ s.shared) (hone : r.holders = 1) :
    Coherent { s.modifyCell c (fun r => { r with holders := r.holders - 1 }) with
      shared := s.shared.filter (·.1 != r.id) } := by
  have hcell := cell?_modifyCell_of hr fun r => { r with holders := r.holders - 1 }
  -- the id of the released cell is shared through it alone
  have hother : ∀ k c', (k, c') ∈ s.shared → (k = r.id ↔ c = c') := fun k c' hkc' =>
    ⟨fun hk => h.cell_eq hsh (hk ▸ hkc'), fun hc => h.key_eq (hc ▸ hkc') hsh⟩
  refine ⟨(List.filter_sublist.map _).nodup h.keys_nodup, fun k c' hkc' => ?_,
    fun c' r' hr' => ?_, fun c' r' hr' => ?_⟩
  · obtain ⟨hkc', hk⟩ := List.mem_filter.mp hkc'
    have hc : c ≠ c' := fun hc => by simp [(hother k c' hkc').mpr hc] at hk
    show ∃ r', (s.modifyCell c _).cell? c' = some r' ∧ _
    rw [hcell, if_neg hc]
    exact h.entry k c' hkc'
  · show (r'.id, c') ∈ s.shared.filter _ ↔ _
    change (s.modifyCell c _).cell? c' = some r' at hr'
    rw [hcell] at hr'
    split at hr'
    · cases hr'
      simp [hone]
    · rename_i hc
      rw [List.mem_filter, ← h.shared_iff c' r' hr']
      constructor
      · exact fun hmem => hmem.1
      · intro hmem
        exact ⟨hmem, by simpa using fun hk => hc ((hother _ _ hmem).mp hk)⟩
  · change (s.modifyCell c _).cell? c' = some r' at hr'
    rw [hcell] at hr'
    split at hr'
    · cases hr'
      show 0 ≤ r.holders - 1
      omega
    · exact h.holders_nonneg c' r' hr'

theorem dispose (h : Coherent s) (c : Nat) : Coherent (s.dispose c) := by
  unfold Source.dispose
  split
  · rename_i r hr
    split
    · exact h
    · rename_i hpos
      have hsh : (r.id, c) ∈ s.shared := (h.shared_iff c r hr).mpr (by omega)
      dsimp only
      split
      · rename_i hlast
        exact h.release hr hsh hlast.1
      · rename_i hnot
        -- the cell is shared, so a dispose that does not release it leaves a holder
        have hmany : 1 < r.holders := by
          by_contra hle
          exact hnot ⟨by omega, lookup_eq_some_of_mem h.keys_nodup hsh⟩
        exact h.modifyHolders hr hsh (· - 1) (by omega)
  · exact h

/-! ## Changes of the contents -/

theorem insertReattach (h : Coherent s) {a : Annotation} (hnew : s.get? a.id = none)
    (commit : Bool) : Coherent ((s.insert a commit).reattach a).1 := by
  unfold Source.reattach
  split
  · rename_i c hc
    have hsh := mem_of_lookup_eq_some hc
    refine h.touch hsh rfl (cell?_setCell (s.insert a commit) c a) (fun _ => rfl)
      (fun k hk => ?_) (fun r hr => ?_)
    · show (s.insert a commit).get? k = s.get? k
      rw [get?_insert hnew, if_neg (Ne.symm hk)]
    · obtain ⟨r₀, hr₀, hid, -⟩ := h.entry a.id c hsh
      obtain rfl : r₀ = r := Option.some.inj (hr₀.symm.trans hr)
      refine RefCell.tracks_present ?_
      show (s.insert a commit).get? r₀.id = some a
      rw [hid, get?_insert hnew, if_pos rfl]
  · rename_i hnone
    have hnone : s.shared.lookup a.id = none := hnone
    refine h.of_contents rfl rfl fun k c hkc => ?_
    have hk : a.id ≠ k := by
      rintro rfl
      rw [lookup_eq_some_of_mem h.keys_nodup hkc] at hnone
      cases hnone
    show (s.insert a commit).get? k = s.get? k
    rw [get?_insert hnew, if_neg hk]

theorem add (h : Coherent s) (a : Option Annotation) (commit : Bool) :
    Coherent (s.add a commit).source := by
  cases a with
  | none => exact h
  | some a =>
    obtain ⟨n, hs⟩ := assignId_snd_eq s a
    have h₁ : Coherent (s.assignId a).2 := by
      rw [hs]
      exact h.of_contents rfl rfl fun _ _ _ => rfl
    show Coherent ((s.assignId a).2.addNamed (s.assignId a).1 commit).source
    rw [addNamed_source]
    split
    · exact h₁
    · rename_i hnew
      exact (h₁.insertReattach (by simpa using hnew) commit).reference _

theorem update (h : Coherent s) {c : Nat} (hc : s.Shares c) (a : Option Annotation) :
    Coherent (s.update c a).source := by
  rcases update_source_cases s c a with heq | ⟨r, b, old, hr, -, -, hold, heq⟩
  · rw [heq]
    exact h
  · rw [heq]
    refine h.touch (hc.mem_shared hr) rfl
      (cell?_setCell (s.replace old (b.withId r.id)) c (b.withId r.id)) (fun _ => rfl)
      (fun k hk => ?_) (fun r₀ hr₀ => ?_)
    · show (s.replace old (b.withId r.id)).get? k = s.get? k
      rw [get?_replace hold, if_neg (show (b.withId r.id).id ≠ k from Ne.symm hk)]
    · rw [hr] at hr₀
      cases hr₀
      refine RefCell.tracks_present ?_
      show (s.replace old (b.withId r.id)).get? r.id = some (b.withId r.id)
      rw [get?_replace hold, if_pos (show (b.withId r.id).id = r.id from rfl)]

theorem delete (h : Coherent s) {c : Nat} (hc : s.Shares c) (nullify : Bool) :
    Coherent (s.delete c nullify).source := by
  rcases delete_source_cases s c nullify with heq | ⟨r, hr, -, hnone, heq⟩ |
    ⟨r, old, hr, -, hold, heq⟩
  · rw [heq]
    exact h
  · rw [heq]
    refine h.touch (hc.mem_shared hr) rfl (cell?_tombstoneCell s c) (fun _ => rfl)
      (fun _ _ => rfl) (fun r₀ hr₀ => ?_)
    rw [hr] at hr₀
    cases hr₀
    exact RefCell.tracks_of_not_found (by simp) hnone
  · have hid : old.id = r.id := (mem_of_get?_eq_some hold).2
    have hget : ∀ k, k ≠ r.id → (s.remove old).get? k = s.get? k := fun k hk => by
      rw [get?_remove, if_neg (hid ▸ Ne.symm hk)]
    have hgone : (s.remove old).get? r.id = none := by
      rw [get?_remove, if_pos hid]
    obtain ⟨hres, -, -⟩ : r.Tracks s.get? := by
      obtain ⟨r₀, hr₀, -, htr⟩ := h.entry r.id c (hc.mem_shared hr)
      rw [hr] at hr₀
      cases hr₀
      exact htr
    cases nullify
    · -- a detached cell keeps its last value
      rw [heq, if_neg Bool.false_ne_true]
      refine h.touch (hc.mem_shared hr) rfl (f := id) (fun c' => ?_) (fun _ => rfl) hget
        (fun r₀ hr₀ => ?_)
      · show s.cell? c' = _
        split
        · subst c'
          simp
        · rfl
      · rw [hr] at hr₀
        cases hr₀
        exact RefCell.tracks_of_not_found hres hgone
    · rw [heq, if_pos rfl]
      refine h.touch (hc.mem_shared hr) rfl (cell?_tombstoneCell (s.remove old) c) (fun _ => rfl)
        hget (fun r₀ hr₀ => ?_)
      rw [hr] at hr₀
      cases hr₀
      exact RefCell.tracks_of_not_found (by simp) hgone

/-- Refreshing the shared cells of a source with the cells and shared entries of a coherent
one refreshes every shared cell once, against the contents, and leaves every other cell alone. -/
theorem cell?_tombstoneAll (h : Coherent s) (u : Source) (hcells : u.cells = s.cells)
    (hshared : u.shared = s.shared) (c : Nat) :
    (u.tombstoneAll u.get?).1.cell? c = (s.cell? c).map fun r =>
      if (r.id, c) ∈ s.shared then r.refresh (u.get? r.id) else r := by
  have hucell : ∀ c, u.cell? c = s.cell? c := fun c => by
    show u.cells[c]? = s.cells[c]?
    rw [hcells]
  have hperm : u.sharedById.Perm s.shared := hshared ▸ List.mergeSort_perm _ _
  have hids : ∀ k c r, (k, c) ∈ u.sharedById → u.cell? c = some r → r.id = k := by
    intro k c r hkc hr
    obtain ⟨r₀, hr₀, hid, -⟩ := h.entry k c (hperm.mem_iff.mp hkc)
    rw [hucell, hr₀] at hr
    cases hr
    exact hid
  rw [Source.tombstoneAll, cell?_foldl_refreshStep _ _ _ _ ((hperm.map _).nodup_iff.mpr h.cells_nodup)
    hids, hucell]
  simp only [hperm.mem_iff]

/-- Refreshing every shared cell against a source's contents makes each track them. -/
theorem tombstoneAll (h : Coherent s) (u : Source) (hcells : u.cells = s.cells)
    (hshared : u.shared = s.shared) : Coherent (u.tombstoneAll u.get?).1 := by
  obtain ⟨cells, heq⟩ := tombstoneAll_fst_eq u u.get?
  have hcell := h.cell?_tombstoneAll u hcells hshared
  refine h.of_cells (by rw [heq]; exact hshared) (fun c => ?_) fun k c r hkc hr => ?_
  · rw [hcell]
    cases s.cell? c with
    | none => rfl
    | some r =>
      simp only [Option.map_some]
      split <;> simp
  · rw [hcell] at hr
    obtain ⟨r₀, hr₀, rfl⟩ := Option.map_eq_some_iff.mp hr
    obtain ⟨r₁, hr₁, hid, -⟩ := h.entry k c hkc
    rw [hr₀] at hr₁
    cases hr₁
    rw [if_pos (hid ▸ hkc)]
    have hget : (u.tombstoneAll u.get?).1.get? = u.get? := by
      rw [heq]
      rfl
    rw [hget]
    exact RefCell.tracks_refresh r₀ u.get?

theorem restoreEntries (h : Coherent s) (entries : List (Nat × Plain)) :
    Coherent (s.restoreEntries entries).source := by
  obtain ⟨u, hcells, hshared, heq⟩ := restoreEntries_source_eq_tombstoneAll s entries
  rw [heq]
  exact h.tombstoneAll u hcells hshared

theorem apply (h : Coherent s) {op : Op} (hop : op.Allowed s) : Coherent (s.apply op) := by
  cases op with
  | add a commit => exact h.add a commit
  | commit c =>
    rcases commit_source_cases s c with heq | ⟨r, -, -, heq⟩
    · rw [Source.apply, heq]
      exact h
    · rw [Source.apply, heq]
      exact h.of_contents rfl rfl fun _ _ _ => rfl
  | update c a => exact h.update hop a
  | delete c nullify => exact h.delete hop nullify
  | reference id => exact h.reference id
  | retain c => exact h.retain hop
  | dispose c => exact h.dispose c
  | clear =>
    obtain ⟨u, hcells, hshared, heq⟩ := clear_source_eq_tombstoneAll s
    rw [Source.apply, heq]
    exact h.tombstoneAll u hcells hshared
  | restore entries => exact h.restoreEntries _
  | restoreWith codec payload =>
    rcases restoreWith_source_cases s codec payload with heq | ⟨entries, heq⟩
    · rw [Source.apply, heq]
      exact h
    · rw [Source.apply, heq]
      exact h.restoreEntries entries

end Coherent

theorem Reachable.coherent {s : Source} (hs : Reachable s) : Coherent s := by
  induction hs with
  | new codec => exact Coherent.new codec
  | step op _ hop ih => exact ih.apply hop

/-! ## What holders see -/

/-- A request for an id with a live cell is a retain of that cell. -/
theorem reference_of_lookup {s : Source} {id : String} {c : Nat} (h : s.shared.lookup id = some c) :
    s.reference id = (c, s.retain c) := by
  unfold Source.reference retain
  rw [h]

theorem cell?_retain {s : Source} {c : Nat} {r : RefCell} (hr : s.cell? c = some r) :
    (s.retain c).cell? c = some { r with holders := r.holders + 1 } := by
  rw [retain, cell?_modifyCell_of hr, if_pos rfl]

/-- An add hands out the cell shared for the id it stores, when there is one. -/
theorem add_ok_eq_of_lookup {s : Source} {a : Annotation} {commit : Bool} {c c' : Nat}
    (hlookup : s.shared.lookup (s.assignId a).1.id = some c)
    (hok : (s.add (some a) commit).result = .ok c') : c' = c := by
  change ((s.assignId a).2.addNamed (s.assignId a).1 commit).result = .ok c' at hok
  rw [addNamed_result] at hok
  split at hok
  · cases hok
  · rw [← Except.ok.inj hok]
    -- neither the id, the store step nor the reattach touches the shared entries
    obtain ⟨n, hs⟩ := assignId_snd_eq s a
    obtain ⟨cells, hre⟩ :=
      reattach_fst_eq ((s.assignId a).2.insert (s.assignId a).1 commit) (s.assignId a).1
    rw [hre, reference_of_lookup]
    show (s.assignId a).2.shared.lookup _ = some c
    rw [hs]
    exact hlookup

namespace Coherent

variable {s : Source}

/-- A dispose of a held cell takes one holder, and takes the entry out with the last. -/
theorem dispose_of_held (h : Coherent s) {c : Nat} {r : RefCell} (hr : s.cell? c = some r)
    (hpos : 0 < r.holders) :
    (s.dispose c).cell? c = some { r with holders := r.holders - 1 } ∧
      ((s.dispose c).shared.lookup r.id = some c ↔ 1 < r.holders) := by
  have hlookup := h.lookup_eq_some_iff.mpr ((h.shared_iff c r hr).mpr hpos)
  have hcell : (s.modifyCell c fun r => { r with holders := r.holders - 1 }).cell? c =
      some { r with holders := r.holders - 1 } := by
    rw [cell?_modifyCell_of hr, if_pos rfl]
  unfold Source.dispose
  rw [hr]
  dsimp only
  rw [if_neg (by omega)]
  split
  · rename_i hlast
    refine ⟨hcell, fun hl => ?_, fun hmany => by omega⟩
    have hkept := (List.mem_filter.mp (mem_of_lookup_eq_some hl)).2
    simp at hkept
  · rename_i hnot
    have hmany : 1 < r.holders := by
      by_contra hle
      exact hnot ⟨by omega, hlookup⟩
    exact ⟨hcell, iff_of_true hlookup hmany⟩

theorem dispose_of_unshared (h : Coherent s) {c : Nat} {r : RefCell} (hr : s.cell? c = some r)
    (hne : s.shared.lookup r.id ≠ some c) : s.dispose c = s := by
  have hzero : r.holders ≤ 0 := by
    by_contra hpos
    exact hne (h.lookup_eq_some_iff.mpr ((h.shared_iff c r hr).mpr (by omega)))
  unfold Source.dispose
  rw [hr]
  dsimp only
  rw [if_pos hzero]

end Coherent

/-- In every reachable source the shared references are coherent with the store. Each entry
of an id is a cell with that id, held at least once, that tracks the store; a cell is
shared just while it is held. While a hold on a cell remains, every request for its id, the
one inside an add included, gives that cell, and each request or retain adds one hold. Each
dispose of a held cell takes one hold, and the entry leaves with the last one; a dispose of a
cell that has left the source changes nothing, so it never takes out the cell that replaced
it. -/
theorem Reachable.references_coherent {s : Source} (hs : Reachable s) :
    (∀ k c, s.shared.lookup k = some c →
      ∃ r, s.cell? c = some r ∧ r.id = k ∧ 1 ≤ r.holders ∧ r.Tracks s.get?) ∧
    (∀ c r, s.cell? c = some r → (s.shared.lookup r.id = some c ↔ 0 < r.holders)) ∧
    (∀ c r, s.cell? c = some r → 0 < r.holders →
      (s.reference r.id).1 = c ∧
      (s.reference r.id).2.cell? c = some { r with holders := r.holders + 1 } ∧
      (s.retain c).cell? c = some { r with holders := r.holders + 1 } ∧
      ∀ a commit c', (s.assignId a).1.id = r.id → (s.add (some a) commit).result = .ok c' →
        c' = c) ∧
    (∀ c r, s.cell? c = some r → 0 < r.holders →
      (s.dispose c).cell? c = some { r with holders := r.holders - 1 } ∧
      ((s.dispose c).shared.lookup r.id = some c ↔ 1 < r.holders)) ∧
    (∀ c r, s.cell? c = some r → s.shared.lookup r.id ≠ some c → s.dispose c = s) := by
  have h := hs.coherent
  refine ⟨fun k c hkc => ?_, fun c r hr => ?_, fun c r hr hpos => ?_,
    fun c r hr hpos => h.dispose_of_held hr hpos, fun c r hr hne => h.dispose_of_unshared hr hne⟩
  · have hmem := mem_of_lookup_eq_some hkc
    obtain ⟨r, hr, hid, htr⟩ := h.entry k c hmem
    have hpos := (h.shared_iff c r hr).mp (hid ▸ hmem)
    exact ⟨r, hr, hid, by omega, htr⟩
  · rw [h.lookup_eq_some_iff]
    exact h.shared_iff c r hr
  · have hlookup := h.lookup_eq_some_iff.mpr ((h.shared_iff c r hr).mpr hpos)
    rw [reference_of_lookup hlookup]
    exact ⟨rfl, cell?_retain hr, cell?_retain hr,
      fun a commit c' hid hok => add_ok_eq_of_lookup (hid ▸ hlookup) hok⟩

/-- The coherence of references after a new source took an annotation, shared it a second
time, and let go of one hold. -/
theorem references_coherent_after_dispose :
    let s := ((({ codec := .default } : Source).apply
      (.add (some ⟨{ id := "a" }, .point default⟩) true)).apply (.reference "a")).apply (.dispose 0)
    Reachable s ∧
    ((∀ k c, s.shared.lookup k = some c →
      ∃ r, s.cell? c = some r ∧ r.id = k ∧ 1 ≤ r.holders ∧ r.Tracks s.get?) ∧
    (∀ c r, s.cell? c = some r → (s.shared.lookup r.id = some c ↔ 0 < r.holders)) ∧
    (∀ c r, s.cell? c = some r → 0 < r.holders →
      (s.reference r.id).1 = c ∧
      (s.reference r.id).2.cell? c = some { r with holders := r.holders + 1 } ∧
      (s.retain c).cell? c = some { r with holders := r.holders + 1 } ∧
      ∀ a commit c', (s.assignId a).1.id = r.id → (s.add (some a) commit).result = .ok c' →
        c' = c) ∧
    (∀ c r, s.cell? c = some r → 0 < r.holders →
      (s.dispose c).cell? c = some { r with holders := r.holders - 1 } ∧
      ((s.dispose c).shared.lookup r.id = some c ↔ 1 < r.holders)) ∧
    (∀ c r, s.cell? c = some r → s.shared.lookup r.id ≠ some c → s.dispose c = s)) := by
  intro s
  have hs : Reachable s := .step _ (.step _ (.step _ (.new _) trivial) trivial) trivial
  exact ⟨hs, Reachable.references_coherent hs⟩

end Source

end AnnotationStore
