import Mathlib
import AnnotationStore.Proofs.Segment.Forest
/-!
# Visible sets refine a partition

What a visible set stands for is a partition of the segment ids together with a set of its
classes. The partition is the one the merges since equivalences were last forgotten
generate, and a class is visible or hidden as a whole. `Classes` keeps the merges and the
ids of the visible classes, and `Classes.step` says what each call does to them.

Main statement (`VisibleSet.replay_refines_classes`): after any sequence of calls on a new
set, queries included, `canonical` gives the smallest member of a class, `isVisible` tells
whether the class is visible, `forEachVisible` hands out the smallest members of the
visible classes in ascending order, `len` counts them, and the next call tells listeners
exactly when it changes the partition or the visible classes.

A query compresses the way it took and moves no canonical id, so a call made with its
queries ends where the queries of its ids, followed by the same call without them, end. The
runs here allow queries anywhere and so take in those states too; a run of calls made with
their queries ends with the same answers as the run without them (`performed_run_answers`).

The induction carries `Refines`: the set is well formed, two ids share a class just when
they walk to one id, and an id lies in a visible class just when its canonical id is
visible. The change reports are compared through `Agrees`, which says two sets give the
same answers to every query.
-/

namespace AnnotationStore

/-- A partition of segment ids, given by the merges that generate it, with some of its
classes visible, given by the ids in them. -/
structure Classes where
  merges : List (SegmentId × SegmentId) := []
  shown : Set SegmentId := ∅

namespace Classes

/-- Two ids share a class: the equivalence the merges generate. -/
def Same (c : Classes) : SegmentId → SegmentId → Prop :=
  Relation.EqvGen fun a b => (a, b) ∈ c.merges

theorem same_of_merges_nil {c : Classes} (h : c.merges = []) {x y : SegmentId} :
    c.Same x y ↔ x = y := by
  constructor
  · intro hxy
    induction hxy with
    | rel a b hab => simp [h] at hab
    | refl => rfl
    | symm _ _ _ ih => exact ih.symm
    | trans _ _ _ _ _ ih₁ ih₂ => exact ih₁.trans ih₂
  · rintro rfl
    exact .refl x

/-- The ids in the classes of the members of a list. -/
def classesOf (c : Classes) (ids : List SegmentId) : Set SegmentId := {x | ∃ i ∈ ids, c.Same i x}

/-- The smallest members of the visible classes. -/
def minima (c : Classes) : Set SegmentId := {x | x ∈ c.shown ∧ ∀ y, c.Same x y → x ≤ y}

/-- What a call does: revealing adds the classes of its ids to the visible ones, hiding
removes them, setting makes them the only ones; a merge unites two classes, visible if
either was; forgetting the equivalences makes every id its own class and keeps visible the
smallest members of the visible classes; clearing hides everything. Queries change
nothing. -/
def step (c : Classes) : VisibleSet.Op → Classes
  | .reveal ids => { c with shown := c.shown ∪ c.classesOf ids }
  | .hide ids => { c with shown := c.shown \ c.classesOf ids }
  | .setVisible ids => { c with shown := c.classesOf ids }
  | .merge a b =>
    { merges := (a, b) :: c.merges
      shown := c.shown ∪ {x | (a ∈ c.shown ∨ b ∈ c.shown) ∧ (c.Same a x ∨ c.Same b x)} }
  | .resetEquivalences => { merges := [], shown := c.minima }
  | .clear => { c with shown := ∅ }
  | .query _ => c

/-- The state after a sequence of calls, from the partition into single ids with nothing
visible. -/
def replay (ops : List VisibleSet.Op) : Classes := ops.foldl step {}

/-- A call changes the partition or the set of visible classes. -/
def Changes (c : Classes) (op : VisibleSet.Op) : Prop :=
  (c.step op).Same ≠ c.Same ∨ (c.step op).shown ≠ c.shown

end Classes

/-- The equivalence a relation generates is the kernel of `g` when `g` gives related ids one
value and any two ids of one value are joined by a chain. -/
theorem eqvGen_iff_of_kernel {r : SegmentId → SegmentId → Prop} {g : SegmentId → SegmentId}
    (hr : ∀ a b, r a b → g a = g b) (hg : ∀ x y, g x = g y → Relation.EqvGen r x y)
    (x y : SegmentId) : Relation.EqvGen r x y ↔ g x = g y := by
  refine ⟨fun h => ?_, hg x y⟩
  induction h with
  | rel a b hab => exact hr a b hab
  | refl => rfl
  | symm _ _ _ ih => exact ih.symm
  | trans _ _ _ _ _ ih₁ ih₂ => exact ih₁.trans ih₂

namespace VisibleSet

variable {v w : VisibleSet} {c : Classes}

/-- A set stands for a state of the partition model. -/
structure Refines (v : VisibleSet) (c : Classes) : Prop where
  wf : v.WellFormed
  same_iff : ∀ x y, c.Same x y ↔ v.find x = v.find y
  shown_iff : ∀ x, x ∈ c.shown ↔ v.find x ∈ v.visible

/-- Two sets give the same answers: the same classes, and the same visible ones. -/
def Agrees (v w : VisibleSet) : Prop :=
  (∀ x y, v.find x = v.find y ↔ w.find x = w.find y) ∧ ∀ x, v.find x ∈ v.visible ↔ w.find x ∈ w.visible

theorem agrees_refl (v : VisibleSet) : Agrees v v := ⟨fun _ _ => .rfl, fun _ => .rfl⟩

/-- Between two refined states, the model changes just when the answers do. -/
theorem changes_iff_not_agrees {op : Op} (h : Refines v c) (h' : Refines w (c.step op)) :
    c.Changes op ↔ ¬Agrees w v := by
  have hsame : (c.step op).Same = c.Same ↔ ∀ x y, w.find x = w.find y ↔ v.find x = v.find y := by
    constructor
    · intro heq x y
      rw [← h'.same_iff, ← h.same_iff, heq]
    · intro hall
      funext x y
      exact propext ((h'.same_iff x y).trans ((hall x y).trans (h.same_iff x y).symm))
  have hshown : (c.step op).shown = c.shown ↔ ∀ x, w.find x ∈ w.visible ↔ v.find x ∈ v.visible := by
    rw [Set.ext_iff]
    exact forall_congr' fun x => by rw [h'.shown_iff, h.shown_iff]
  simp only [Classes.Changes, Agrees, ne_eq, ← hsame, ← hshown, not_and_or]

theorem refines_empty : Refines {} {} where
  wf := wellFormed_empty
  same_iff x y := by
    rw [Classes.same_of_merges_nil rfl, find_of_lookup_none (v := {}) (x := x) rfl,
      find_of_lookup_none (v := {}) (x := y) rfl]
  shown_iff x := by simp

/-! ## One call -/

/-- The visible ids of a refined set are its canonical ids in visible classes. -/
theorem Refines.mem_visible_iff (h : Refines v c) (x : SegmentId) :
    x ∈ v.visible ↔ v.find x ∈ v.visible ∧ ∀ y, v.find x = v.find y → x ≤ y := by
  constructor
  · intro hx
    have hroot : v.find x = x := find_of_lookup_none (h.wf.roots x hx)
    refine ⟨by rw [hroot]; exact hx, fun y hy => ?_⟩
    rw [← hroot, hy]
    exact find_le y
  · rintro ⟨hx, hmin⟩
    have hle : x ≤ v.find x := hmin _ (find_find h.wf x).symm
    have heq : v.find x = x := by have := find_le (v := v) x; grind
    exact heq ▸ hx

theorem Refines.reveal (h : Refines v c) (ids : List SegmentId) :
    Refines (v.reveal ids).1 (c.step (.reveal ids)) ∧ ((v.reveal ids).2 = true ↔ ¬Agrees (v.reveal ids).1 v) := by
  obtain ⟨hp, hw, hmem, hch⟩ := reveal_spec h.wf ids
  have hfind : (v.reveal ids).1.find = v.find := funext (find_congr hp)
  refine ⟨⟨hw, fun x y => by rw [hfind]; exact h.same_iff x y, fun x => ?_⟩, ?_⟩
  · simp only [Classes.step, Classes.classesOf, Set.mem_union, Set.mem_ofPred_eq, h.shown_iff,
      h.same_iff, hfind, hmem]
    grind
  · simp only [hch, Agrees, hfind, hmem]
    grind

theorem Refines.hide (h : Refines v c) (ids : List SegmentId) :
    Refines (v.hide ids).1 (c.step (.hide ids)) ∧ ((v.hide ids).2 = true ↔ ¬Agrees (v.hide ids).1 v) := by
  obtain ⟨hp, hw, hmem, hch⟩ := hide_spec h.wf ids
  have hfind : (v.hide ids).1.find = v.find := funext (find_congr hp)
  refine ⟨⟨hw, fun x y => by rw [hfind]; exact h.same_iff x y, fun x => ?_⟩, ?_⟩
  · simp only [Classes.step, Classes.classesOf, Set.mem_sdiff, Set.mem_ofPred_eq, h.shown_iff,
      h.same_iff, hfind, hmem]
    grind
  · simp only [hch, Agrees, hfind, hmem]
    grind

theorem Refines.setVisible (h : Refines v c) (ids : List SegmentId) :
    Refines (v.setVisible ids).1 (c.step (.setVisible ids)) ∧
      ((v.setVisible ids).2 = true ↔ ¬Agrees (v.setVisible ids).1 v) := by
  obtain ⟨hfst, hsnd⟩ := setVisible_spec (v := v) ids
  obtain ⟨hsorted, hmem⟩ := foldl_insertSorted v.canonical ids [] List.Pairwise.nil
  generalize ids.foldl (fun acc id => insertSorted (v.canonical id) acc) [] = next
    at hfst hsnd hsorted hmem
  have hnext : ∀ x, x ∈ next ↔ ∃ i ∈ ids, x = v.find i := by
    intro x
    simpa [canonical_eq_find h.wf] using hmem x
  have hroots : ∀ x ∈ next, v.find x = x := by
    intro x hx
    obtain ⟨i, -, rfl⟩ := (hnext x).mp hx
    exact find_find h.wf i
  have hfind : ({ v with visible := next } : VisibleSet).find = v.find := funext (find_congr rfl)
  have hw : ({ v with visible := next } : VisibleSet).WellFormed :=
    h.wf.withVisible hsorted fun x hx => (find_eq_self_iff h.wf).mp (hroots x hx)
  rw [hsnd, hfst]
  refine ⟨⟨hw, fun x y => by rw [hfind]; exact h.same_iff x y, fun x => ?_⟩, ?_⟩
  · rw [hfind]
    simp only [Classes.step, Classes.classesOf, Set.mem_ofPred_eq, h.same_iff, hnext]
    grind
  · constructor
    · -- two ascending lists that differ differ in a member, and every member is canonical
      intro hne hagree
      apply hne
      refine List.Pairwise.eq_of_mem_iff hsorted h.wf.sorted fun z => ?_
      have hz := hagree.2 z
      rw [hfind] at hz
      constructor
      · intro hzn
        rw [hroots z hzn] at hz
        exact hz.mp hzn
      · intro hzv
        rw [find_of_lookup_none (h.wf.roots z hzv)] at hz
        exact hz.mpr hzv
    · intro hnagree heq
      apply hnagree
      rw [heq]
      exact agrees_refl v

/-- The merges of a model only gain by a merge. -/
theorem same_merge_of_same {a b x y : SegmentId} (hxy : c.Same x y) :
    (c.step (.merge a b)).Same x y :=
  Relation.EqvGen.mono (fun _ _ hpq => List.mem_cons_of_mem _ hpq) x y hxy

theorem Refines.merge (h : Refines v c) (a b : SegmentId) :
    Refines (v.merge a b).1 (c.step (.merge a b)) ∧
      ((v.merge a b).2 = true ↔ ¬Agrees (v.merge a b).1 v) := by
  have hab' : (c.step (.merge a b)).Same a b := .rel a b List.mem_cons_self
  by_cases hab : v.find a = v.find b
  · -- one class already: the set stays, and so do the classes the model stands for
    rw [merge_of_find_eq h.wf hab]
    refine ⟨⟨h.wf, fun x y => ?_, fun x => ?_⟩, by simp [agrees_refl]⟩
    · refine eqvGen_iff_of_kernel (fun p q hpq => ?_)
        (fun x y hxy => same_merge_of_same ((h.same_iff x y).mpr hxy)) x y
      rcases List.mem_cons.mp hpq with heq | hmem
      · cases heq
        exact hab
      · exact (h.same_iff p q).mp (.rel p q hmem)
    · simp only [Classes.step, Set.mem_union, Set.mem_ofPred_eq, h.shown_iff, h.same_iff]
      grind
  · -- two classes: the larger canonical id points at the smaller, which takes its visibility
    set ra := v.find a
    set rb := v.find b
    have hends : (min ra rb = ra ∧ max ra rb = rb) ∨ (min ra rb = rb ∧ max ra rb = ra) := by
      simp only [UInt64.min_def, UInt64.max_def]
      split <;> grind
    have hlt : min ra rb < max ra rb := by
      simp only [UInt64.min_def, UInt64.max_def]
      split <;> grind
    have hcanon : ∀ r, r = ra ∨ r = rb → v.parent.lookup r = none := by
      rintro r (rfl | rfl) <;> exact lookup_find h.wf _
    have hchild := hcanon (max ra rb) (by grind)
    have hroot := hcanon (min ra rb) (by grind)
    have hw := h.wf.link hchild hroot hlt
    have hfind : ∀ (vis : List SegmentId) (x : SegmentId),
        ({ visible := vis, parent := (max ra rb, min ra rb) :: v.parent } : VisibleSet).find x =
          if v.find x = max ra rb then min ra rb else v.find x :=
      fun _ => find_link h.wf hchild hroot hlt rfl
    have hnodup := h.wf.sorted.nodup
    rw [merge_of_find_ne h.wf hab]
    refine ⟨⟨hw, fun x y => ?_, fun x => ?_⟩, ?_⟩
    · refine eqvGen_iff_of_kernel (fun p q hpq => ?_) (fun x y hxy => ?_) x y
      · rcases List.mem_cons.mp hpq with heq | hmem
        · cases heq
          rw [hfind, hfind]
          grind
        · have := (h.same_iff p q).mp (.rel p q hmem)
          rw [hfind, hfind, this]
      · rw [hfind, hfind] at hxy
        by_cases hxy' : v.find x = v.find y
        · exact same_merge_of_same ((h.same_iff x y).mpr hxy')
        · -- one of them walks to `a`'s canonical id and the other to `b`'s
          have : (v.find x = ra ∧ v.find y = rb) ∨ (v.find x = rb ∧ v.find y = ra) := by
            split_ifs at hxy <;> grind
          rcases this with ⟨hxa, hyb⟩ | ⟨hxb, hya⟩
          · exact .trans _ _ _ (same_merge_of_same ((h.same_iff x a).mpr hxa))
              (.trans _ _ _ hab' (same_merge_of_same ((h.same_iff b y).mpr hyb.symm)))
          · exact .trans _ _ _ (same_merge_of_same ((h.same_iff x b).mpr hxb))
              (.trans _ _ _ (.symm _ _ hab') (same_merge_of_same ((h.same_iff a y).mpr hya.symm)))
    · rw [hfind]
      simp only [Classes.step, Set.mem_union, Set.mem_ofPred_eq, h.shown_iff, h.same_iff]
      split_ifs <;> grind [mem_insertSorted, List.Nodup.mem_erase_iff hnodup]
    · simp only [Agrees, true_iff]
      rintro ⟨hsame, -⟩
      exact hab ((hsame a b).mp (by rw [hfind, hfind]; grind))

theorem Refines.resetEquivalences (h : Refines v c) :
    Refines v.resetEquivalences.1 (c.step .resetEquivalences) ∧
      (v.resetEquivalences.2 = true ↔ ¬Agrees v.resetEquivalences.1 v) := by
  obtain ⟨hfst, hsnd⟩ := resetEquivalences_spec v
  have hfind : ∀ x, ({ v with parent := [] } : VisibleSet).find x = x :=
    fun _ => find_of_lookup_none rfl
  have hw : ({ v with parent := [] } : VisibleSet).WellFormed :=
    ⟨List.nodup_nil, by simp, h.wf.sorted, fun _ _ => rfl⟩
  rw [hsnd, hfst]
  refine ⟨⟨hw, fun x y => ?_, fun x => ?_⟩, ⟨fun hne hagree => ?_, fun hnagree => ?_⟩⟩
  · rw [Classes.same_of_merges_nil rfl, hfind, hfind]
  · simp only [Classes.step, Classes.minima, Set.mem_ofPred_eq, h.shown_iff, h.same_iff, hfind]
    exact (h.mem_visible_iff x).symm
  · -- a pointer joins two ids that no longer share a class
    obtain ⟨⟨x, p⟩, hmem⟩ := List.exists_mem_of_ne_nil _ hne
    have hl := lookup_eq_some_of_mem h.wf.keys_nodup hmem
    have hjoin := (hagree.1 x p).mpr (find_of_lookup_some h.wf hl)
    rw [hfind, hfind] at hjoin
    have := h.wf.lt_of_lookup hl
    grind
  · intro hnil
    apply hnagree
    rw [← hnil]
    exact agrees_refl v

theorem Refines.clear (h : Refines v c) :
    Refines v.clear.1 (c.step .clear) ∧ (v.clear.2 = true ↔ ¬Agrees v.clear.1 v) := by
  obtain ⟨hfst, hsnd⟩ := clear_spec v
  have hfind : ({ v with visible := [] } : VisibleSet).find = v.find := funext (find_congr rfl)
  rw [hsnd, hfst]
  refine ⟨⟨h.wf.withVisible List.Pairwise.nil (by simp), fun x y => ?_, fun x => ?_⟩,
    ⟨fun hne hagree => ?_, fun hnagree => ?_⟩⟩
  · rw [hfind]
    exact h.same_iff x y
  · simp [Classes.step]
  · -- a visible id is its own canonical id, which the cleared set no longer shows
    obtain ⟨x, hx⟩ := List.exists_mem_of_ne_nil _ hne
    have := hagree.2 x
    rw [hfind, find_of_lookup_none (h.wf.roots x hx)] at this
    simp_all
  · intro hnil
    apply hnagree
    rw [← hnil]
    exact agrees_refl v

theorem Refines.compress (h : Refines v c) (id : SegmentId) : Refines (v.compress id) c where
  wf := h.wf.compress id
  same_iff x y := by rw [find_compress h.wf, find_compress h.wf]; exact h.same_iff x y
  shown_iff x := by rw [find_compress h.wf]; exact h.shown_iff x

/-- Every call keeps the refinement, and tells listeners just when the model changes. -/
theorem Refines.apply (h : Refines v c) (op : Op) :
    Refines (v.apply op).1 (c.step op) ∧ ((v.apply op).2 = true ↔ c.Changes op) := by
  have key : Refines (v.apply op).1 (c.step op) ∧ ((v.apply op).2 = true ↔ ¬Agrees (v.apply op).1 v) := by
    cases op with
    | reveal ids => exact h.reveal ids
    | hide ids => exact h.hide ids
    | setVisible ids => exact h.setVisible ids
    | merge a b => exact h.merge a b
    | resetEquivalences => exact h.resetEquivalences
    | clear => exact h.clear
    | query id =>
      refine ⟨h.compress id, ?_⟩
      simp only [VisibleSet.apply, Bool.false_eq_true, false_iff, not_not]
      exact ⟨fun x y => by rw [find_compress h.wf, find_compress h.wf],
        fun x => by rw [find_compress h.wf]; rfl⟩
  exact ⟨key.1, key.2.trans (changes_iff_not_agrees h key.1).symm⟩

/-! ## Runs -/

theorem refines_foldl {f : VisibleSet → Op → VisibleSet}
    (hf : ∀ {v c} op, Refines v c → Refines (f v op) (c.step op)) (ops : List Op) {v : VisibleSet}
    {c : Classes} (h : Refines v c) : Refines (ops.foldl f v) (ops.foldl Classes.step c) := by
  induction ops generalizing v c with
  | nil => exact h
  | cons op ops ih => exact ih (hf op h)

theorem refines_replay (ops : List Op) : Refines (replay ops) (Classes.replay ops) :=
  refines_foldl (fun op h => (h.apply op).1) ops refines_empty

/-! ## Queries -/

theorem Refines.canonical_isLeast (h : Refines v c) (x : SegmentId) :
    IsLeast {y | c.Same x y} (v.canonical x) := by
  rw [canonical_eq_find h.wf]
  refine ⟨(h.same_iff x _).mpr (find_find h.wf x).symm, fun y hy => ?_⟩
  rw [Set.mem_ofPred_eq, h.same_iff] at hy
  rw [hy]
  exact find_le y

theorem Refines.isVisible_iff (h : Refines v c) (x : SegmentId) : v.isVisible x = true ↔ x ∈ c.shown := by
  simp [isVisible, canonical_eq_find h.wf, h.shown_iff]

theorem Refines.mem_minima_iff (h : Refines v c) (x : SegmentId) : x ∈ c.minima ↔ x ∈ v.visible := by
  simp only [Classes.minima, Set.mem_ofPred_eq, h.shown_iff, h.same_iff]
  exact (h.mem_visible_iff x).symm

theorem Refines.len_eq_ncard (h : Refines v c) : v.len = c.minima.ncard := by
  have hset : c.minima = (v.visible.toFinset : Set SegmentId) := by
    ext x
    simp [h.mem_minima_iff]
  rw [hset, Set.ncard_coe_finset, List.toFinset_card_of_nodup h.wf.sorted.nodup, len]

/-- After any sequence of calls on a new visible set, queries included: the canonical id of
an id is the smallest member of its class; an id is visible just when its class is; the
visible ids handed out are the smallest members of the visible classes in ascending order,
until the callback refuses one; their number is the number of visible classes; and the next
call tells listeners exactly when it changes the partition or the visible classes. -/
theorem replay_refines_classes (ops : List Op) :
    (∀ x, IsLeast {y | (Classes.replay ops).Same x y} ((replay ops).canonical x)) ∧
    (∀ x, (replay ops).isVisible x = true ↔ x ∈ (Classes.replay ops).shown) ∧
    (∃ L : List SegmentId, L.Pairwise (· < ·) ∧ (∀ x, x ∈ L ↔ x ∈ (Classes.replay ops).minima) ∧
      ∀ fn, (replay ops).forEachVisible fn = handedUntil fn L) ∧
    (replay ops).len = (Classes.replay ops).minima.ncard ∧
    ∀ op, ((replay ops).apply op).2 = true ↔ (Classes.replay ops).Changes op := by
  have h := refines_replay ops
  refine ⟨h.canonical_isLeast, h.isVisible_iff, ?_, h.len_eq_ncard, fun op => (h.apply op).2⟩
  exact ⟨(replay ops).visible, h.wf.sorted, fun x => (h.mem_minima_iff x).symm, fun _ => rfl⟩

/-! ## Calls made with their queries -/

theorem Refines.queryAll (h : Refines v c) (ids : List SegmentId) : Refines (v.queryAll ids) c := by
  induction ids generalizing v with
  | nil => exact h
  | cons i ids ih => exact ih (h.compress i)

/-- A call made with its queries keeps the refinement and tells listeners exactly when the
model changes. -/
theorem Refines.perform (h : Refines v c) (op : Op) :
    Refines (v.perform op).1 (c.step op) ∧ ((v.perform op).2 = true ↔ c.Changes op) := by
  rw [perform_eq_apply_queryAll h.wf]
  exact (h.queryAll op.queried).apply op

/-- Two sets that stand for one state of the partition model have the same visible ids and the
same canonical ids; only their pointers may differ. -/
theorem Refines.answers_eq (h : Refines v c) (h' : Refines w c) :
    v.visible = w.visible ∧ ∀ x, v.canonical x = w.canonical x := by
  refine ⟨h.wf.sorted.eq_of_mem_iff h'.wf.sorted fun x => ?_, fun x => ?_⟩
  · rw [← h.mem_minima_iff, h'.mem_minima_iff]
  · obtain ⟨hv, hvle⟩ := h.canonical_isLeast x
    obtain ⟨hw, hwle⟩ := h'.canonical_isLeast x
    exact UInt64.le_antisymm (hvle hw) (hwle hv)

/-- Calls made with their queries, on a new set, end with the same visible ids and canonical
ids as the same calls made without them, and every further call tells listeners the same. -/
theorem performed_run_answers (ops : List Op) :
    let u := ops.foldl (fun (v : VisibleSet) op => (v.perform op).1) {}
    u.visible = (replay ops).visible ∧ (∀ x, u.canonical x = (replay ops).canonical x) ∧
      ∀ op, (u.perform op).2 = ((replay ops).apply op).2 := by
  intro u
  have hu : Refines u (Classes.replay ops) := refines_foldl (fun op h => (h.perform op).1) ops refines_empty
  have hr := refines_replay ops
  obtain ⟨hvis, hcan⟩ := hu.answers_eq hr
  exact ⟨hvis, hcan, fun op => Bool.eq_iff_iff.mpr ((hu.perform op).2.trans (hr.apply op).2.symm)⟩

end VisibleSet

end AnnotationStore
