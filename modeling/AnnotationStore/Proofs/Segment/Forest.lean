import Mathlib
import AnnotationStore.Segment.Visibility
/-!
# Parent pointers of a visible set

The equivalences of a visible set are parent pointers, each from an id to a smaller one and
at most one from each id. Following them from an id ends at the smallest id of its class.
This module gives that walk a definition by well-founded recursion, `find`, and shows the
bounded walk `canonical` equal to it on every well-formed set (`canonical_eq_find`).

It then says what each call does to the pointers and to the visible ids: a query compresses
its way without moving any canonical id (`find_compress`), a merge points the larger
canonical id at the smaller (`find_link`), and the visibility calls leave the pointers alone
while adding or removing the canonical ids of their arguments. Each call keeps the set
well formed.

Last, a call made with its queries (`perform`) is the queries of the ids it looks up followed
by the call made without them (`perform_eq_apply_queryAll`): a query leaves the visible ids
alone and moves no canonical id, and the calls read the set through nothing else.
-/

namespace AnnotationStore

section Lookup

variable {α β : Type} [BEq α] [LawfulBEq α] {l : List (α × β)} {k : α} {b : β}

theorem mem_of_lookup_eq_some (h : l.lookup k = some b) : (k, b) ∈ l := by
  obtain ⟨l₁, l₂, rfl, -⟩ := List.lookup_eq_some_iff.mp h
  simp

theorem lookup_eq_some_of_mem (hkeys : (l.map (·.1)).Nodup) (h : (k, b) ∈ l) :
    l.lookup k = some b := by
  induction l with
  | nil => simp at h
  | cons e l ih =>
    obtain ⟨c, d⟩ := e
    simp only [List.map_cons, List.nodup_cons, List.mem_map] at hkeys
    rcases List.mem_cons.mp h with heq | hmem
    · cases heq
      simp
    · have hne : (k == c) = false := beq_false_of_ne fun hkc => hkeys.1 ⟨(k, b), hmem, hkc⟩
      rw [List.lookup_cons, hne]
      exact ih hkeys.2 hmem

theorem lookup_eq_none_iff_not_mem : l.lookup k = none ↔ k ∉ l.map (·.1) := by
  simp only [List.lookup_eq_none_iff, bne_iff_ne, ne_eq, List.mem_map, not_exists, not_and]
  exact ⟨fun h e he hk => h e he hk.symm, fun h e he hk => h e he hk.symm⟩

end Lookup

namespace VisibleSet

variable {v w : VisibleSet} {x y p : SegmentId}

/-- The sets the calls keep: at most one pointer from each id, every pointer to a smaller
id, and the visible ids ascending and all canonical. -/
structure WellFormed (v : VisibleSet) : Prop where
  keys_nodup : (v.parent.map (·.1)).Nodup
  down : ∀ c p, (c, p) ∈ v.parent → p < c
  sorted : v.visible.Pairwise (· < ·)
  roots : ∀ x ∈ v.visible, v.parent.lookup x = none

theorem wellFormed_empty : ({} : VisibleSet).WellFormed where
  keys_nodup := List.nodup_nil
  down := by simp
  sorted := List.Pairwise.nil
  roots := by simp

theorem WellFormed.lt_of_lookup (hw : v.WellFormed) (h : v.parent.lookup x = some p) : p < x :=
  hw.down x p (mem_of_lookup_eq_some h)

/-! ## The walk to the canonical id -/

/-- Follows the pointers from `x` while they go down. On a well-formed set every pointer
goes down, so this is the walk `canonical` makes. -/
def find (v : VisibleSet) (x : SegmentId) : SegmentId :=
  match v.parent.lookup x with
  | some p => if _ : p < x then v.find p else x
  | none => x
termination_by x.toNat
decreasing_by exact UInt64.lt_iff_toNat_lt.mp ‹p < x›

theorem find_of_lookup_none (h : v.parent.lookup x = none) : v.find x = x := by
  rw [find, h]

theorem find_of_lookup_lt (h : v.parent.lookup x = some p) (hp : p < x) : v.find x = v.find p := by
  rw [find, h]
  simp [hp]

theorem find_of_lookup_not_lt (h : v.parent.lookup x = some p) (hp : ¬p < x) : v.find x = x := by
  rw [find, h]
  simp [hp]

theorem find_of_lookup_some (hw : v.WellFormed) (h : v.parent.lookup x = some p) :
    v.find x = v.find p :=
  find_of_lookup_lt h (hw.lt_of_lookup h)

theorem find_congr (h : v.parent = w.parent) (x : SegmentId) : v.find x = w.find x := by
  fun_induction v.find x with
  | case1 x p hl hp ih => rw [ih, find_of_lookup_lt (h ▸ hl) hp]
  | case2 x p hl hp => rw [find_of_lookup_not_lt (h ▸ hl) hp]
  | case3 x hl => rw [find_of_lookup_none (h ▸ hl)]

theorem find_le (x : SegmentId) : v.find x ≤ x := by
  fun_induction v.find x with
  | case1 x p hl hp ih => grind
  | case2 => grind
  | case3 => grind

theorem lookup_find (hw : v.WellFormed) (x : SegmentId) : v.parent.lookup (v.find x) = none := by
  fun_induction v.find x with
  | case1 x p hl hp ih => exact ih
  | case2 x p hl hp => exact absurd (hw.lt_of_lookup hl) hp
  | case3 x hl => exact hl

theorem find_find (hw : v.WellFormed) (x : SegmentId) : v.find (v.find x) = v.find x :=
  find_of_lookup_none (lookup_find hw x)

/-- The canonical ids are the ids without a pointer. -/
theorem find_eq_self_iff (hw : v.WellFormed) : v.find x = x ↔ v.parent.lookup x = none := by
  constructor
  · intro h
    rw [← h]
    exact lookup_find hw x
  · exact find_of_lookup_none

/-- The pointers from ids up to `x`; a walk from `x` takes at most that many steps. -/
def depth (v : VisibleSet) (x : SegmentId) : Nat := (v.parent.filter fun e => decide (e.1 ≤ x)).length

/-- A step of the walk passes a pointer it never meets again. -/
theorem depth_lt (hw : v.WellFormed) (h : v.parent.lookup x = some p) : v.depth p < v.depth x := by
  have hp := hw.lt_of_lookup h
  have hsub : (v.parent.filter fun e => decide (e.1 ≤ p)).Sublist
      (v.parent.filter fun e => decide (e.1 ≤ x)) :=
    List.monotone_filter_right _ fun e he => by simp only [decide_eq_true_eq] at he ⊢; grind
  have hin : (x, p) ∈ v.parent.filter fun e => decide (e.1 ≤ x) := by
    simp only [List.mem_filter, decide_eq_true_eq]
    exact ⟨mem_of_lookup_eq_some h, by grind⟩
  have hout : (x, p) ∉ v.parent.filter fun e => decide (e.1 ≤ p) := by
    simp only [List.mem_filter, decide_eq_true_eq, not_and]
    grind
  apply lt_of_le_of_ne hsub.length_le
  intro heq
  exact hout (hsub.eq_of_length heq ▸ hin)

theorem depth_le (x : SegmentId) : v.depth x ≤ v.parent.length := List.length_filter_le _ _

theorem root_eq_find (hw : v.WellFormed) : ∀ fuel x, v.depth x ≤ fuel → v.root fuel x = v.find x
  | 0, x, h => by
    have hl : v.parent.lookup x = none := by
      cases hl : v.parent.lookup x with
      | none => rfl
      | some p => have := depth_lt hw hl; omega
    simp [root, find_of_lookup_none hl]
  | fuel + 1, x, h => by
    cases hl : v.parent.lookup x with
    | none => simp [root, hl, find_of_lookup_none hl]
    | some p =>
      have := depth_lt hw hl
      simp [root, hl, find_of_lookup_some hw hl, root_eq_find hw fuel p (by omega)]

/-- On a well-formed set the bounded walk is the walk: no chain is longer than the number
of pointers. -/
theorem canonical_eq_find (hw : v.WellFormed) (x : SegmentId) : v.canonical x = v.find x :=
  root_eq_find hw _ x (depth_le x)

/-! ## Queries -/

/-- Every id on the way from `x` has a pointer and walks to where `x` does. -/
theorem find_of_mem_path (hw : v.WellFormed) :
    ∀ fuel x k, k ∈ v.path fuel x → v.find k = v.find x ∧ v.parent.lookup k ≠ none
  | 0, x, k, h => by simp [path] at h
  | fuel + 1, x, k, h => by
    cases hl : v.parent.lookup x with
    | none => simp [path, hl] at h
    | some p =>
      simp only [path, hl, List.mem_cons] at h
      rcases h with rfl | h
      · exact ⟨rfl, by simp [hl]⟩
      · obtain ⟨hk, hn⟩ := find_of_mem_path hw fuel p k h
        exact ⟨hk.trans (find_of_lookup_some hw hl).symm, hn⟩

/-- A compressed pointer goes straight to the canonical id; the others stay. -/
theorem lookup_compress (v : VisibleSet) (id x : SegmentId) :
    (v.compress id).parent.lookup x = (v.parent.lookup x).map fun p =>
      if x ∈ v.path v.parent.length id then v.canonical id else p := by
  simp only [compress]
  generalize v.path v.parent.length id = met
  generalize v.canonical id = r
  generalize v.parent = l
  induction l with
  | nil => rfl
  | cons e l ih =>
    obtain ⟨c, p⟩ := e
    simp only [List.contains_iff_mem] at ih
    by_cases hc : x = c
    · subst hc
      by_cases hm : x ∈ met <;> simp [hm]
    · by_cases hm : c ∈ met <;> simp [hm, List.lookup_cons, beq_false_of_ne hc, ih]

theorem keys_compress (v : VisibleSet) (id : SegmentId) :
    (v.compress id).parent.map (·.1) = v.parent.map (·.1) := by
  simp only [compress, List.map_map]
  apply List.map_congr_left
  intro ⟨c, p⟩ _
  simp only [Function.comp_apply]
  split <;> rfl

theorem WellFormed.compress (hw : v.WellFormed) (id : SegmentId) : (v.compress id).WellFormed where
  keys_nodup := by rw [keys_compress]; exact hw.keys_nodup
  down c q hmem := by
    have hl := lookup_eq_some_of_mem (by rw [keys_compress]; exact hw.keys_nodup) hmem
    rw [lookup_compress] at hl
    obtain ⟨p, hp, rfl⟩ := Option.map_eq_some_iff.mp hl
    split
    · rename_i hc
      obtain ⟨hfind, -⟩ := find_of_mem_path hw _ id c hc
      have : v.find c ≤ p := (find_of_lookup_some hw hp).symm ▸ find_le p
      have := hw.lt_of_lookup hp
      rw [canonical_eq_find hw, ← hfind]
      grind
    · exact hw.lt_of_lookup hp
  sorted := hw.sorted
  roots x hx := by simp [lookup_compress, hw.roots x hx]

/-- A query moves no canonical id. -/
theorem find_compress (hw : v.WellFormed) (id x : SegmentId) : (v.compress id).find x = v.find x := by
  have hw' := hw.compress id
  fun_induction v.find x with
  | case1 x p hl hp ih =>
    by_cases hm : x ∈ v.path v.parent.length id
    · have hl' : (v.compress id).parent.lookup x = some (v.canonical id) := by
        simp [lookup_compress, hl, hm]
      have hroot : (v.compress id).parent.lookup (v.canonical id) = none := by
        simp [lookup_compress, canonical_eq_find hw, lookup_find hw]
      obtain ⟨hfind, -⟩ := find_of_mem_path hw _ id x hm
      rw [find_of_lookup_some hw' hl', find_of_lookup_none hroot, canonical_eq_find hw, ← hfind,
        find_of_lookup_some hw hl]
    · have hl' : (v.compress id).parent.lookup x = some p := by simp [lookup_compress, hl, hm]
      rw [find_of_lookup_some hw' hl', ih]
  | case2 x p hl hp => exact absurd (hw.lt_of_lookup hl) hp
  | case3 x hl => exact find_of_lookup_none (by simp [lookup_compress, hl])

/-! ## Sorted insertion -/

@[simp] theorem mem_insertSorted {l : List SegmentId} : y ∈ insertSorted x l ↔ y = x ∨ y ∈ l := by
  induction l with
  | nil => simp [insertSorted]
  | cons z l ih =>
    simp only [insertSorted]
    split
    · simp
    · split
      · rename_i hxz
        subst hxz
        simp
      · simp only [List.mem_cons, ih]
        tauto

theorem pairwise_insertSorted {l : List SegmentId} (h : l.Pairwise (· < ·)) :
    (insertSorted x l).Pairwise (· < ·) := by
  induction l with
  | nil => simp [insertSorted]
  | cons z l ih =>
    rw [List.pairwise_cons] at h
    simp only [insertSorted]
    split
    · rename_i hxz
      refine List.Pairwise.cons (fun y hy => ?_) (List.Pairwise.cons h.1 h.2)
      rcases List.mem_cons.mp hy with rfl | hy
      · exact hxz
      · have := h.1 y hy
        grind
    · split
      · exact List.Pairwise.cons h.1 h.2
      · refine List.Pairwise.cons (fun y hy => ?_) (ih h.2)
        rcases mem_insertSorted.mp hy with rfl | hy
        · grind
        · exact h.1 y hy

/-! ## Merges -/

section Link

variable {child root : SegmentId}

/-- After `child` is pointed at `root`, every id that walked to `child` walks on to `root`. -/
theorem find_link (hw : v.WellFormed) (hc : v.parent.lookup child = none)
    (hr : v.parent.lookup root = none) (hlt : root < child) (hwp : w.parent = (child, root) :: v.parent)
    (x : SegmentId) : w.find x = if v.find x = child then root else v.find x := by
  have hne : root ≠ child := by grind
  have hroot : w.find root = root := by
    apply find_of_lookup_none
    rw [hwp, List.lookup_cons, beq_false_of_ne hne]
    exact hr
  fun_induction v.find x with
  | case1 x p hl hp ih =>
    have hx : x ≠ child := by rintro rfl; simp [hc] at hl
    rw [find_of_lookup_lt (p := p) (by rw [hwp, List.lookup_cons, beq_false_of_ne hx]; exact hl) hp, ih]
  | case2 x p hl hp => exact absurd (hw.lt_of_lookup hl) hp
  | case3 x hl =>
    by_cases hx : x = child
    · subst hx
      rw [find_of_lookup_lt (p := root) (by simp [hwp]) hlt, hroot]
      simp
    · rw [find_of_lookup_none (by rw [hwp, List.lookup_cons, beq_false_of_ne hx]; exact hl)]
      simp [hx]

/-- Pointing a canonical id at a smaller canonical id, and moving its visibility there, keeps
a set well formed. -/
theorem WellFormed.link (hw : v.WellFormed) (hc : v.parent.lookup child = none)
    (hr : v.parent.lookup root = none) (hlt : root < child) :
    ({ visible := if child ∈ v.visible then insertSorted root (v.visible.erase child) else v.visible
       parent := (child, root) :: v.parent } : VisibleSet).WellFormed where
  keys_nodup := by
    refine List.nodup_cons.mpr ⟨?_, hw.keys_nodup⟩
    exact lookup_eq_none_iff_not_mem.mp hc
  down c p hmem := by
    rcases List.mem_cons.mp hmem with heq | hmem
    · cases heq
      exact hlt
    · exact hw.down c p hmem
  sorted := by
    split
    · exact pairwise_insertSorted (hw.sorted.erase child)
    · exact hw.sorted
  roots x hx := by
    have hnodup := hw.sorted.nodup
    have hxc : x ≠ child := by
      split at hx
      · rcases mem_insertSorted.mp hx with rfl | hx
        · grind
        · exact ((List.Nodup.mem_erase_iff hnodup).mp hx).1
      · rintro rfl
        contradiction
    rw [List.lookup_cons, beq_false_of_ne hxc]
    split at hx
    · rcases mem_insertSorted.mp hx with rfl | hx
      · exact hr
      · exact hw.roots x ((List.Nodup.mem_erase_iff hnodup).mp hx).2
    · exact hw.roots x hx

end Link

theorem merge_of_find_eq (hw : v.WellFormed) {a b : SegmentId} (h : v.find a = v.find b) :
    v.merge a b = (v, false) := by
  simp [merge, join, canonical_eq_find hw, h]

theorem merge_of_find_ne (hw : v.WellFormed) {a b : SegmentId} (h : v.find a ≠ v.find b) :
    v.merge a b =
      ({ visible := if max (v.find a) (v.find b) ∈ v.visible then
            insertSorted (min (v.find a) (v.find b)) (v.visible.erase (max (v.find a) (v.find b)))
          else v.visible
         parent := (max (v.find a) (v.find b), min (v.find a) (v.find b)) :: v.parent }, true) := by
  simp only [merge, join, canonical_eq_find hw, h, if_false]
  split <;> simp_all

/-! ## Visibility calls -/

/-- Any ascending list of canonical ids may be the visible one. -/
theorem WellFormed.withVisible (hw : v.WellFormed) {l : List SegmentId} (hs : l.Pairwise (· < ·))
    (hr : ∀ x ∈ l, v.parent.lookup x = none) : ({ v with visible := l } : VisibleSet).WellFormed :=
  ⟨hw.keys_nodup, hw.down, hs, hr⟩

def revealStep (acc : VisibleSet × Bool) (id : SegmentId) : VisibleSet × Bool :=
  if acc.1.visible.contains (acc.1.canonical id) then acc
  else ({ acc.1 with visible := insertSorted (acc.1.canonical id) acc.1.visible }, true)

theorem reveal_eq_foldl (v : VisibleSet) (ids : List SegmentId) :
    v.reveal ids = ids.foldl revealStep (v, false) := rfl

/-- Revealing over a list adds the canonical ids of its members, and reports whether one of
them was hidden. -/
theorem foldl_revealStep (ids : List SegmentId) : ∀ (w : VisibleSet) (ch : Bool), w.WellFormed →
    (ids.foldl revealStep (w, ch)).1.parent = w.parent ∧
    (ids.foldl revealStep (w, ch)).1.WellFormed ∧
    (∀ x, x ∈ (ids.foldl revealStep (w, ch)).1.visible ↔ x ∈ w.visible ∨ ∃ i ∈ ids, x = w.find i) ∧
    ((ids.foldl revealStep (w, ch)).2 = true ↔ ch = true ∨ ∃ i ∈ ids, w.find i ∉ w.visible) := by
  induction ids with
  | nil => intro w ch hw; simp [hw]
  | cons i ids ih =>
    intro w ch hw
    rw [List.foldl_cons]
    by_cases hi : w.find i ∈ w.visible
    · -- the class is visible already: the step changes nothing
      have hstep : revealStep (w, ch) i = (w, ch) := by
        simp [revealStep, canonical_eq_find hw, hi]
      obtain ⟨hp, hw', hmem, hch⟩ := ih w ch hw
      rw [hstep]
      refine ⟨hp, hw', fun x => ?_, ?_⟩
      · rw [hmem]
        simp only [List.mem_cons, exists_eq_or_imp]
        grind
      · rw [hch]
        simp [hi]
    · -- the class becomes visible, and the call reports a change
      set w' : VisibleSet := { w with visible := insertSorted (w.find i) w.visible }
      have hstep : revealStep (w, ch) i = (w', true) := by
        simp [revealStep, canonical_eq_find hw, hi, w']
      have hw' : w'.WellFormed := hw.withVisible (pairwise_insertSorted hw.sorted) fun x hx => by
        rcases mem_insertSorted.mp hx with rfl | hx
        · exact lookup_find hw i
        · exact hw.roots x hx
      have hfind : w'.find = w.find := funext (find_congr rfl)
      obtain ⟨hp, hwr, hmem, hch⟩ := ih w' true hw'
      rw [hstep]
      refine ⟨hp, hwr, fun x => ?_, ?_⟩
      · rw [hmem, hfind]
        simp only [w', mem_insertSorted, List.mem_cons, exists_eq_or_imp]
        grind
      · simp only [true_or, iff_true] at hch
        simp [hch, hi]

theorem reveal_spec (hw : v.WellFormed) (ids : List SegmentId) :
    (v.reveal ids).1.parent = v.parent ∧ (v.reveal ids).1.WellFormed ∧
    (∀ x, x ∈ (v.reveal ids).1.visible ↔ x ∈ v.visible ∨ ∃ i ∈ ids, x = v.find i) ∧
    ((v.reveal ids).2 = true ↔ ∃ i ∈ ids, v.find i ∉ v.visible) := by
  simpa [reveal_eq_foldl] using foldl_revealStep ids v false hw

def hideStep (acc : VisibleSet × Bool) (id : SegmentId) : VisibleSet × Bool :=
  if acc.1.visible.contains (acc.1.canonical id) then
    ({ acc.1 with visible := acc.1.visible.erase (acc.1.canonical id) }, true)
  else acc

theorem hide_eq_foldl (v : VisibleSet) (ids : List SegmentId) :
    v.hide ids = ids.foldl hideStep (v, false) := rfl

/-- Hiding over a list removes the canonical ids of its members, and reports whether one of
them was visible. -/
theorem foldl_hideStep (ids : List SegmentId) : ∀ (w : VisibleSet) (ch : Bool), w.WellFormed →
    (ids.foldl hideStep (w, ch)).1.parent = w.parent ∧
    (ids.foldl hideStep (w, ch)).1.WellFormed ∧
    (∀ x, x ∈ (ids.foldl hideStep (w, ch)).1.visible ↔ x ∈ w.visible ∧ ∀ i ∈ ids, x ≠ w.find i) ∧
    ((ids.foldl hideStep (w, ch)).2 = true ↔ ch = true ∨ ∃ i ∈ ids, w.find i ∈ w.visible) := by
  induction ids with
  | nil => intro w ch hw; simp [hw]
  | cons i ids ih =>
    intro w ch hw
    rw [List.foldl_cons]
    by_cases hi : w.find i ∈ w.visible
    · -- the class was visible: it is hidden, and the call reports a change
      set w' : VisibleSet := { w with visible := w.visible.erase (w.find i) }
      have hstep : hideStep (w, ch) i = (w', true) := by
        simp [hideStep, canonical_eq_find hw, hi, w']
      have hnodup := hw.sorted.nodup
      have hw' : w'.WellFormed := hw.withVisible (hw.sorted.erase _) fun x hx =>
        hw.roots x ((List.Nodup.mem_erase_iff hnodup).mp hx).2
      have hfind : w'.find = w.find := funext (find_congr rfl)
      obtain ⟨hp, hwr, hmem, hch⟩ := ih w' true hw'
      rw [hstep]
      refine ⟨hp, hwr, fun x => ?_, ?_⟩
      · rw [hmem, hfind]
        simp only [w', List.Nodup.mem_erase_iff hnodup, List.forall_mem_cons]
        grind
      · simp only [true_or, iff_true] at hch
        simp [hch, hi]
    · -- the class was hidden already: the step changes nothing
      have hstep : hideStep (w, ch) i = (w, ch) := by
        simp [hideStep, canonical_eq_find hw, hi]
      obtain ⟨hp, hw', hmem, hch⟩ := ih w ch hw
      rw [hstep]
      refine ⟨hp, hw', fun x => ?_, ?_⟩
      · rw [hmem, List.forall_mem_cons]
        grind
      · rw [hch]
        simp [hi]

theorem hide_spec (hw : v.WellFormed) (ids : List SegmentId) :
    (v.hide ids).1.parent = v.parent ∧ (v.hide ids).1.WellFormed ∧
    (∀ x, x ∈ (v.hide ids).1.visible ↔ x ∈ v.visible ∧ ∀ i ∈ ids, x ≠ v.find i) ∧
    ((v.hide ids).2 = true ↔ ∃ i ∈ ids, v.find i ∈ v.visible) := by
  simpa [hide_eq_foldl] using foldl_hideStep ids v false hw

/-- Inserting the images of a list keeps an ascending list ascending and adds exactly those
images. -/
theorem foldl_insertSorted (f : SegmentId → SegmentId) (ids : List SegmentId) :
    ∀ acc : List SegmentId, acc.Pairwise (· < ·) →
      (ids.foldl (fun acc id => insertSorted (f id) acc) acc).Pairwise (· < ·) ∧
      ∀ x, x ∈ ids.foldl (fun acc id => insertSorted (f id) acc) acc ↔ x ∈ acc ∨ ∃ i ∈ ids, x = f i := by
  induction ids with
  | nil => intro acc h; simp [h]
  | cons i ids ih =>
    intro acc h
    obtain ⟨hs, hmem⟩ := ih (insertSorted (f i) acc) (pairwise_insertSorted h)
    refine ⟨hs, fun x => ?_⟩
    rw [List.foldl_cons, hmem, mem_insertSorted]
    simp only [List.mem_cons, exists_eq_or_imp]
    tauto

/-- Setting the visible classes makes the visible ids the canonical ids of the list; the
call reports whether they differ from before. -/
theorem setVisible_spec (ids : List SegmentId) :
    (v.setVisible ids).1 = { v with visible := ids.foldl (fun acc id => insertSorted (v.canonical id) acc) [] } ∧
    ((v.setVisible ids).2 = true ↔
      ids.foldl (fun acc id => insertSorted (v.canonical id) acc) [] ≠ v.visible) := by
  simp only [setVisible]
  split
  · rename_i h
    rw [h]
    simp
  · simp_all

theorem resetEquivalences_spec (v : VisibleSet) :
    v.resetEquivalences.1 = { v with parent := [] } ∧ (v.resetEquivalences.2 = true ↔ v.parent ≠ []) := by
  simp only [resetEquivalences]
  split
  · rename_i h
    simp only [List.isEmpty_iff] at h
    simp [← h]
  · simp_all

theorem clear_spec (v : VisibleSet) :
    v.clear.1 = { v with visible := [] } ∧ (v.clear.2 = true ↔ v.visible ≠ []) := by
  simp only [clear]
  split
  · rename_i h
    simp only [List.isEmpty_iff] at h
    simp [← h]
  · simp_all

/-! ## Calls made with their queries -/

@[simp] theorem visible_compress (v : VisibleSet) (id : SegmentId) : (v.compress id).visible = v.visible :=
  rfl

section WithVisible

variable (v : VisibleSet) (l : List SegmentId)

theorem root_withVisible : ∀ k x, ({ v with visible := l } : VisibleSet).root k x = v.root k x
  | 0, _ => rfl
  | k + 1, x => by simp only [root, root_withVisible k]

theorem path_withVisible : ∀ k x, ({ v with visible := l } : VisibleSet).path k x = v.path k x
  | 0, _ => rfl
  | k + 1, x => by simp only [path, path_withVisible k]

/-- A query reads and writes the pointers only. -/
theorem compress_withVisible (id : SegmentId) :
    ({ v with visible := l } : VisibleSet).compress id = { v.compress id with visible := l } := by
  simp only [compress, canonical, root_withVisible, path_withVisible]

end WithVisible

theorem canonical_compress (hw : v.WellFormed) (id x : SegmentId) :
    (v.compress id).canonical x = v.canonical x := by
  rw [canonical_eq_find (hw.compress id), canonical_eq_find hw, find_compress hw]

@[simp] theorem queryAll_nil (v : VisibleSet) : v.queryAll [] = v := rfl

theorem queryAll_cons (v : VisibleSet) (i : SegmentId) (ids : List SegmentId) :
    v.queryAll (i :: ids) = (v.compress i).queryAll ids := rfl

@[simp] theorem visible_queryAll (ids : List SegmentId) (v : VisibleSet) : (v.queryAll ids).visible = v.visible := by
  induction ids generalizing v with
  | nil => rfl
  | cons i ids ih => rw [queryAll_cons, ih, visible_compress]

theorem queryAll_withVisible (l : List SegmentId) (ids : List SegmentId) (v : VisibleSet) :
    ({ v with visible := l } : VisibleSet).queryAll ids = { v.queryAll ids with visible := l } := by
  induction ids generalizing v with
  | nil => rfl
  | cons i ids ih => rw [queryAll_cons, compress_withVisible, ih, queryAll_cons]

theorem WellFormed.queryAll (ids : List SegmentId) {v : VisibleSet} (hw : v.WellFormed) :
    (v.queryAll ids).WellFormed ∧ ∀ x, (v.queryAll ids).canonical x = v.canonical x := by
  induction ids generalizing v with
  | nil => exact ⟨hw, fun _ => rfl⟩
  | cons i ids ih =>
    obtain ⟨hwf, hcan⟩ := ih (hw.compress i)
    refine ⟨hwf, fun x => ?_⟩
    rw [queryAll_cons, hcan, canonical_compress hw]

/-- A fold whose steps each query their id first ends where the queries of all the ids,
followed by the fold without them, end: provided a step without its query keeps the set well
formed and acts on a queried set as it acts on the set, the queries left untouched. -/
theorem foldl_queried {β : Type} {g s : VisibleSet × β → SegmentId → VisibleSet × β}
    (hg : ∀ u b i, u.WellFormed → g (u, b) i = s (u.compress i, b) i)
    (hs : ∀ u b i ids, u.WellFormed →
      s (u.queryAll ids, b) i = ((s (u, b) i).1.queryAll ids, (s (u, b) i).2))
    (hwf : ∀ u b i, u.WellFormed → (s (u, b) i).1.WellFormed) (ids : List SegmentId)
    {w : VisibleSet} (hw : w.WellFormed) (b : β) : ids.foldl g (w, b) = ids.foldl s (w.queryAll ids, b) := by
  induction ids generalizing w b with
  | nil => rfl
  | cons i ids ih =>
    have hwi := hw.compress i
    rw [List.foldl_cons, List.foldl_cons, hg w b i hw, queryAll_cons, hs _ b i ids hwi]
    exact ih (hwf _ b i hwi) _

/-- A step that reads a set only through its visible ids and the canonical id of its argument,
and changes only the visible ids, acts on a queried set as it acts on the set. -/
theorem step_queryAll_of_visible {β : Type} {s : VisibleSet × β → SegmentId → VisibleSet × β}
    (V : List SegmentId → SegmentId → β → List SegmentId × β)
    (hV : ∀ u b i, s (u, b) i =
      ({ u with visible := (V u.visible (u.canonical i) b).1 }, (V u.visible (u.canonical i) b).2))
    {u : VisibleSet} (hu : u.WellFormed) (ids : List SegmentId) (b : β) (i : SegmentId) :
    s (u.queryAll ids, b) i = ((s (u, b) i).1.queryAll ids, (s (u, b) i).2) := by
  rw [hV, hV, visible_queryAll, (hu.queryAll ids).2]
  exact Prod.ext (queryAll_withVisible _ ids u).symm rfl

/-- Collecting canonical ids with a query for each ends in the queried set and the canonical
ids of the set before the queries. -/
theorem foldl_queryInsert {g : VisibleSet × List SegmentId → SegmentId → VisibleSet × List SegmentId}
    (hg : ∀ u acc i, g (u, acc) i = (u.compress i, insertSorted (u.canonical i) acc))
    (ids : List SegmentId) {w : VisibleSet} (hw : w.WellFormed) (acc : List SegmentId) :
    ids.foldl g (w, acc) = (w.queryAll ids, ids.foldl (fun acc id => insertSorted (w.canonical id) acc) acc) := by
  induction ids generalizing w acc with
  | nil => rfl
  | cons i ids ih =>
    rw [List.foldl_cons, hg, ih (hw.compress i), List.foldl_cons, queryAll_cons]
    simp only [canonical_compress hw]

/-- A call made with its queries is the queries of the ids it looks up, in order, followed by
the call made without them. -/
theorem perform_eq_apply_queryAll (hw : v.WellFormed) : ∀ op : Op, v.perform op = (v.queryAll op.queried).apply op
  | .reveal ids => by
    simp only [perform, Op.queried, apply, reveal_eq_foldl]
    refine foldl_queried (s := revealStep) (fun u b i hu => ?_)
      (fun u b i ids hu => step_queryAll_of_visible
        (fun vis c b => if vis.contains c then (vis, b) else (insertSorted c vis, true))
        (fun u b i => by by_cases h : u.canonical i ∈ u.visible <;> simp [revealStep, h]) hu ids b i)
      (fun u b i hu => (foldl_revealStep [i] u b hu).2.1) ids hw false
    simp only [query, revealStep, visible_compress, canonical_compress hu]
    rfl
  | .hide ids => by
    simp only [perform, Op.queried, apply, hide_eq_foldl]
    refine foldl_queried (s := hideStep) (fun u b i hu => ?_)
      (fun u b i ids hu => step_queryAll_of_visible
        (fun vis c b => if vis.contains c then (vis.erase c, true) else (vis, b))
        (fun u b i => by by_cases h : u.canonical i ∈ u.visible <;> simp [hideStep, h]) hu ids b i)
      (fun u b i hu => (foldl_hideStep [i] u b hu).2.1) ids hw false
    simp only [query, hideStep, visible_compress, canonical_compress hu]
    rfl
  | .setVisible ids => by
    simp only [perform, Op.queried, apply, setVisible]
    rw [foldl_queryInsert (fun u acc i => rfl) ids hw []]
    simp only [(hw.queryAll ids).2]
  | .merge a b => by
    simp only [perform, Op.queried, apply, query, merge, queryAll_cons, queryAll_nil,
      canonical_compress hw, canonical_compress (hw.compress a)]
  | .resetEquivalences => rfl
  | .clear => rfl
  | .query id => rfl

/-- Asking with a query whether a class is visible is the query followed by `isVisible`. -/
theorem queryVisible_eq (hw : v.WellFormed) (id : SegmentId) :
    v.queryVisible id = (v.compress id, (v.compress id).isVisible id) := by
  simp only [queryVisible, query, isVisible, visible_compress, canonical_compress hw]

end VisibleSet

end AnnotationStore
