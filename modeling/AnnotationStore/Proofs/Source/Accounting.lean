import Mathlib
import AnnotationStore.Proofs.Source.Restore
import AnnotationStore.Proofs.Annotation.Validation
/-!
# A restore accounts for every entry

A restore from a payload array reads each entry with the codec, builds an annotation from each
plain form it reads, and keeps a built annotation unless it already kept one with that id.
Entry `i` of a payload is *restored* when it builds and no entry before it builds an annotation
with its id (`restored`); `rejection` says why an entry the codec reads is left out.

The main statement, `restoreWith_accounts`, says that a restore of an array of `N` entries
restores or skips each entry exactly once; that it lists the skips as the entries the codec
cannot read, then the rejected ones, each part in payload order; and that it leaves under each
id the annotation of the first entry that builds one with that id, with nothing pending.

The proof follows the restore entry by entry. Reading is a filter over the positions
(`readEntries_zipIdx_eq`), building a left fold over the read entries (`buildEntries_append`),
and after the first `n` entries the fold has kept `keptUpTo n` and skipped `rejectionsUpTo n`
(`buildEntries_builtUpTo`).
-/

namespace AnnotationStore

/-- The payload position of the entry a skip stands for. -/
def Skip.index : Skip → Int
  | .undecodable i => i
  | .malformed m => m.index
  | .duplicate i _ => i

namespace Plain

/-! Whether a plain form builds, and the fault it fails with, do not depend on the id minted
for it. -/

theorem toAnnotation_error_of_error {p : Plain} {fresh : String} {m : Malformed}
    (h : p.toAnnotation fresh = .error m) (fresh' : String) : p.toAnnotation fresh' = .error m :=
  ((toAnnotation_firstFault p fresh').error_iff m).mpr
    (((toAnnotation_firstFault p fresh).error_iff m).mp h)

theorem toAnnotation_ok_of_ok {p : Plain} {fresh : String} {a : Annotation}
    (h : p.toAnnotation fresh = .ok a) (fresh' : String) : ∃ a', p.toAnnotation fresh' = .ok a' :=
  (toAnnotation_firstFault p fresh').ok_iff.mpr ((toAnnotation_firstFault p fresh).ok_iff.mp ⟨a, h⟩)

end Plain

namespace Source

/-! ## Reading and building, entry after entry -/

theorem readEntries_append (c : Codec) (l₁ l₂ : List (Json × Nat)) :
    readEntries c (l₁ ++ l₂) =
      ((readEntries c l₁).1 ++ (readEntries c l₂).1, (readEntries c l₁).2 ++ (readEntries c l₂).2) := by
  induction l₁ with
  | nil => rfl
  | cons e l₁ ih =>
    obtain ⟨j, i⟩ := e
    rcases hl : readEntries c l₁ with ⟨ok, bad⟩
    rw [hl] at ih
    cases hj : PlainJson.read? c j <;> simp [readEntries, hl, hj, ih]

/-- Building the read entries is a left fold: the second part starts from what the first kept,
skipped and minted. -/
theorem buildEntries_append (minted : Nat) (es₁ es₂ : List (Nat × Plain)) (kept : List Annotation)
    (skips : List Skip) :
    buildEntries minted (es₁ ++ es₂) kept skips =
      buildEntries (buildEntries minted es₁ kept skips).2.2 es₂ (buildEntries minted es₁ kept skips).1
        (buildEntries minted es₁ kept skips).2.1 := by
  induction es₁ generalizing minted kept skips with
  | nil => rfl
  | cons e es₁ ih =>
    obtain ⟨i, p⟩ := e
    simp only [List.cons_append, buildEntries]
    -- both sides take the same branches on the entry
    split
    · exact ih ..
    · split
      · exact ih ..
      · exact ih ..

section Payload

variable (c : Codec) (items : List Json)

/-- The plain form the codec reads from entry `i` of a payload, when it reads one. -/
def entryPlain (i : Nat) : Option Plain := items[i]?.bind (PlainJson.read? c)

/-- The entries among the first `n` that the codec reads, with their positions. -/
def entriesUpTo (n : Nat) : List (Nat × Plain) :=
  (List.range n).filterMap fun i => (entryPlain c items i).map (i, ·)

/-- Whether entry `i` builds an annotation. The empty id stands for any minted one
(`Plain.toAnnotation_ok_of_ok`). -/
def builds (i : Nat) : Bool := (entryPlain c items i).any fun p => p.toAnnotation "" |>.toBool

variable (ann : Nat → Annotation)

/-- Entry `i` is restored: it builds, and no entry before it builds an annotation with its id,
where `ann j` is the annotation entry `j` builds. -/
def restored (i : Nat) : Bool :=
  builds c items i && (List.range i).all fun j => !(builds c items j && (ann j).id == (ann i).id)

/-- Why an entry the codec reads is left out: its plain form does not build, or an entry before
it builds an annotation with its id. -/
def rejection (i : Nat) : Option Skip :=
  match entryPlain c items i with
  | none => none
  | some p =>
    match p.toAnnotation "" with
    | .error m => some (.malformed (m.atIndex i))
    | .ok _ => if restored c items ann i then none else some (.duplicate i (ann i).id)

/-- The annotations restored from the first `n` entries, in payload order. -/
def keptUpTo (n : Nat) : List Annotation :=
  (List.range n).filterMap fun i => if restored c items ann i then some (ann i) else none

def rejectionsUpTo (n : Nat) : List Skip := (List.range n).filterMap (rejection c items ann)

/-- What a restore of the payload entries `items` owes, where `ann i` is the annotation entry
`i` builds when it builds. Every entry is restored or skipped, and skipped once; the skips are
the entries the codec cannot read, then the rejected ones, each part in payload order; the
store holds under each id the annotation of the first entry that builds one with that id, and
nothing is pending. -/
structure Accounts (res : RestoreResult) (t : Source) : Prop where
  built : ∀ i, builds c items i = true →
    ∃ p fresh, entryPlain c items i = some p ∧ p.toAnnotation fresh = .ok (ann i)
  total : res.restored + res.skipped.length = items.length
  once : ∀ i < items.length,
    (restored c items ann i = true ∧ (res.skipped.map Skip.index).count (i : Int) = 0) ∨
      (restored c items ann i = false ∧ (res.skipped.map Skip.index).count (i : Int) = 1)
  skipped : res.skipped =
    ((List.range items.length).filter fun i => (entryPlain c items i).isNone).map Skip.undecodable ++
      (List.range items.length).filterMap (rejection c items ann)
  stored : ∀ k, t.get? k =
    ((List.range items.length).find? fun i => builds c items i && (ann i).id == k).map ann
  pending : t.pending = []
  restored_eq_len : res.restored = t.len

/-- After the first `n` entries a restore has kept `keptUpTo n` and skipped `rejectionsUpTo n`,
where `ann i` is what entry `i` builds. -/
structure BuiltUpTo (n : Nat) (kept : List Annotation) (skips : List Skip) : Prop where
  built : ∀ i < n, builds c items i = true →
    ∃ p fresh, entryPlain c items i = some p ∧ p.toAnnotation fresh = .ok (ann i)
  kept_eq : kept = keptUpTo c items ann n
  skips_eq : skips = rejectionsUpTo c items ann n

variable {c items ann}

/-! ## One entry -/

theorem builds_of_none {i : Nat} (h : entryPlain c items i = none) : builds c items i = false := by
  simp [builds, h]

theorem builds_of_error {i : Nat} {p : Plain} {fresh : String} {m : Malformed}
    (hp : entryPlain c items i = some p) (h : p.toAnnotation fresh = .error m) :
    builds c items i = false := by
  simp [builds, hp, Plain.toAnnotation_error_of_error h "", Except.toBool]

theorem builds_of_ok {i : Nat} {p : Plain} {fresh : String} {a : Annotation}
    (hp : entryPlain c items i = some p) (h : p.toAnnotation fresh = .ok a) :
    builds c items i = true := by
  obtain ⟨a', ha'⟩ := Plain.toAnnotation_ok_of_ok h ""
  simp [builds, hp, ha', Except.toBool]

theorem restored_iff {i : Nat} :
    restored c items ann i = true ↔
      builds c items i = true ∧ ∀ j < i, builds c items j = true → (ann j).id ≠ (ann i).id := by
  simp [restored, or_iff_not_imp_left]

theorem builds_of_restored {i : Nat} (h : restored c items ann i = true) : builds c items i = true :=
  (restored_iff.mp h).1

/-- Of the entries that build annotations with one id, the first is restored. -/
theorem exists_restored_of_builds {j : Nat} (h : builds c items j = true) :
    ∃ j' ≤ j, restored c items ann j' = true ∧ (ann j').id = (ann j).id := by
  induction j using Nat.strong_induction_on with
  | _ j ih =>
    by_cases hr : restored c items ann j = true
    · exact ⟨j, le_rfl, hr, rfl⟩
    -- an earlier entry builds an annotation with the same id; its first is restored
    obtain ⟨j', hj', hb, hid⟩ : ∃ j' < j, builds c items j' = true ∧ (ann j').id = (ann j).id := by
      by_contra hnone
      simp only [not_exists, not_and] at hnone
      exact hr (restored_iff.mpr ⟨h, hnone⟩)
    obtain ⟨j'', hle, hr', hid'⟩ := ih j' hj' hb
    exact ⟨j'', by omega, hr', hid'.trans hid⟩

/-- Whether an entry is restored, and why it is rejected, depend only on what it and the
entries before it build. -/
theorem restored_congr {ann' : Nat → Annotation} {i : Nat} (h : ∀ j ≤ i, ann' j = ann j) :
    restored c items ann' i = restored c items ann i := by
  rw [Bool.eq_iff_iff, restored_iff, restored_iff, h i le_rfl]
  exact and_congr_right fun _ => forall₂_congr fun j hj => by rw [h j hj.le]

theorem rejection_congr {ann' : Nat → Annotation} {i : Nat} (h : ∀ j ≤ i, ann' j = ann j) :
    rejection c items ann' i = rejection c items ann i := by
  simp only [rejection, restored_congr h, h i le_rfl]

/-- Each entry is restored, or unread, or rejected, and only one of these. -/
theorem restored_or_unread_or_rejected (i : Nat) :
    (restored c items ann i = true ∧ (entryPlain c items i).isNone = false ∧
        rejection c items ann i = none) ∨
      (restored c items ann i = false ∧ (entryPlain c items i).isNone = true ∧
        rejection c items ann i = none) ∨
      (restored c items ann i = false ∧ (entryPlain c items i).isNone = false ∧
        (rejection c items ann i).isSome = true) := by
  cases hp : entryPlain c items i with
  | none =>
    have hr : restored c items ann i = false := by simp [restored, builds_of_none hp]
    simp [rejection, hp, hr]
  | some p =>
    cases ha : p.toAnnotation "" with
    | error m =>
      have hr : restored c items ann i = false := by simp [restored, builds_of_error hp ha]
      simp [rejection, hp, ha, hr]
    | ok a =>
      cases hr : restored c items ann i <;> simp [rejection, hp, ha, hr]

/-! ## The first `n` entries -/

theorem entriesUpTo_succ (n : Nat) :
    entriesUpTo c items (n + 1) =
      entriesUpTo c items n ++ ((entryPlain c items n).map (n, ·)).toList := by
  rw [entriesUpTo, entriesUpTo, List.range_succ, List.filterMap_append]
  cases h : entryPlain c items n <;> simp [h]

theorem keptUpTo_succ (n : Nat) :
    keptUpTo c items ann (n + 1) =
      keptUpTo c items ann n ++ if restored c items ann n then [ann n] else [] := by
  rw [keptUpTo, keptUpTo, List.range_succ, List.filterMap_append]
  cases h : restored c items ann n <;> simp [h]

theorem rejectionsUpTo_succ (n : Nat) :
    rejectionsUpTo c items ann (n + 1) =
      rejectionsUpTo c items ann n ++ (rejection c items ann n).toList := by
  rw [rejectionsUpTo, rejectionsUpTo, List.range_succ, List.filterMap_append]
  cases h : rejection c items ann n <;> simp [h]

theorem mem_keptUpTo {n : Nat} {b : Annotation} :
    b ∈ keptUpTo c items ann n ↔ ∃ j < n, restored c items ann j = true ∧ ann j = b := by
  simp [keptUpTo]

/-- An annotation kept from the first `n` entries has id `k` exactly when one of those entries
builds an annotation with id `k`. -/
theorem any_keptUpTo_iff {n : Nat} {k : String} :
    (keptUpTo c items ann n).any (·.id == k) = true ↔
      ∃ j < n, builds c items j = true ∧ (ann j).id = k := by
  simp only [List.any_eq_true, mem_keptUpTo, beq_iff_eq]
  constructor
  · rintro ⟨_, ⟨j, hj, hr, rfl⟩, hk⟩
    exact ⟨j, hj, builds_of_restored hr, hk⟩
  · rintro ⟨j, hj, hb, rfl⟩
    obtain ⟨j', hle, hr, hid⟩ := @exists_restored_of_builds c items ann j hb
    exact ⟨ann j', ⟨j', by omega, hr, rfl⟩, hid⟩

theorem keptUpTo_congr {ann' : Nat → Annotation} {n : Nat} (h : ∀ j < n, ann' j = ann j) :
    keptUpTo c items ann' n = keptUpTo c items ann n := by
  refine List.filterMap_congr fun i hi => ?_
  have hi : i < n := List.mem_range.mp hi
  have hle : ∀ j ≤ i, ann' j = ann j := fun j hj => h j (by omega)
  simp only [restored_congr hle, h i hi]

theorem rejectionsUpTo_congr {ann' : Nat → Annotation} {n : Nat} (h : ∀ j < n, ann' j = ann j) :
    rejectionsUpTo c items ann' n = rejectionsUpTo c items ann n := by
  refine List.filterMap_congr fun i hi => ?_
  have hi : i < n := List.mem_range.mp hi
  exact rejection_congr fun j hj => h j (by omega)

/-! ## Building entry after entry -/

theorem built_succ {n : Nat} {ann' : Nat → Annotation} (hagree : ∀ j < n, ann' j = ann j)
    (hbuilt : ∀ i < n, builds c items i = true →
      ∃ p fresh, entryPlain c items i = some p ∧ p.toAnnotation fresh = .ok (ann i))
    (hn : builds c items n = true →
      ∃ p fresh, entryPlain c items n = some p ∧ p.toAnnotation fresh = .ok (ann' n)) :
    ∀ i < n + 1, builds c items i = true →
      ∃ p fresh, entryPlain c items i = some p ∧ p.toAnnotation fresh = .ok (ann' i) := by
  intro i hi hb
  rcases Nat.lt_succ_iff_lt_or_eq.mp hi with hi | rfl
  · rw [hagree i hi]
    exact hbuilt i hi hb
  · exact hn hb

namespace BuiltUpTo

variable {n : Nat} {kept : List Annotation} {skips : List Skip} {p : Plain} {fresh : String}

theorem unread (h : BuiltUpTo c items ann n kept skips)
    (hp : entryPlain c items n = none) : BuiltUpTo c items ann (n + 1) kept skips := by
  have hr : restored c items ann n = false := by simp [restored, builds_of_none hp]
  refine ⟨built_succ (fun _ _ => rfl) h.built fun hb => ?_, ?_, ?_⟩
  · simp [builds_of_none hp] at hb
  · simp [keptUpTo_succ, hr, h.kept_eq]
  · simp [rejectionsUpTo_succ, rejection, hp, h.skips_eq]

/-- An entry that does not build is skipped with its fault, placed at the entry. -/
theorem malformed (h : BuiltUpTo c items ann n kept skips)
    (hp : entryPlain c items n = some p) {m : Malformed} (ha : p.toAnnotation fresh = .error m) :
    BuiltUpTo c items ann (n + 1) kept (skips ++ [.malformed (m.atIndex n)]) := by
  have hr : restored c items ann n = false := by simp [restored, builds_of_error hp ha]
  refine ⟨built_succ (fun _ _ => rfl) h.built fun hb => ?_, ?_, ?_⟩
  · simp [builds_of_error hp ha] at hb
  · simp [keptUpTo_succ, hr, h.kept_eq]
  · simp [rejectionsUpTo_succ, rejection, hp, Plain.toAnnotation_error_of_error ha "", h.skips_eq]

/-- An entry that builds is restored exactly when no annotation with its id is kept yet. -/
theorem restored_eq {ann' : Nat → Annotation} (h : BuiltUpTo c items ann n kept skips)
    (hagree : ∀ j < n, ann' j = ann j) (hb : builds c items n = true) :
    restored c items ann' n = !kept.any (·.id == (ann' n).id) := by
  rw [Bool.eq_iff_iff, restored_iff, Bool.not_eq_true', Bool.eq_false_iff, ne_eq, h.kept_eq,
    any_keptUpTo_iff]
  simp only [hb, true_and, not_exists, not_and]
  exact forall₂_congr fun j hj => by rw [hagree j hj]

/-- An entry that builds is kept when no annotation with its id is kept yet, and is skipped as
a duplicate otherwise. -/
theorem ok (h : BuiltUpTo c items ann n kept skips) (hp : entryPlain c items n = some p)
    {a : Annotation} (ha : p.toAnnotation fresh = .ok a) :
    BuiltUpTo c items (Function.update ann n a) (n + 1)
      (kept ++ if kept.any (·.id == a.id) then [] else [a])
      (skips ++ if kept.any (·.id == a.id) then [.duplicate n a.id] else []) := by
  have hagree : ∀ j < n, Function.update ann n a j = ann j :=
    fun j hj => Function.update_of_ne (by omega) a ann
  have hr := h.restored_eq hagree (builds_of_ok hp ha)
  rw [Function.update_self] at hr
  obtain ⟨a', ha'⟩ := Plain.toAnnotation_ok_of_ok ha ""
  refine ⟨built_succ hagree h.built fun _ => ⟨p, fresh, hp, by rw [Function.update_self, ha]⟩, ?_, ?_⟩
  · rw [keptUpTo_succ, keptUpTo_congr hagree, ← h.kept_eq, hr, Function.update_self]
    cases kept.any (·.id == a.id) <;> rfl
  · rw [rejectionsUpTo_succ, rejectionsUpTo_congr hagree, ← h.skips_eq]
    cases hdup : kept.any (·.id == a.id) <;> simp [rejection, hp, ha', hr, hdup]

/-- One more entry keeps the account, whichever way the restore takes it. -/
theorem step (h : BuiltUpTo c items ann n kept skips) (minted : Nat) :
    ∃ ann', BuiltUpTo c items ann' (n + 1)
      (buildEntries minted ((entryPlain c items n).map (n, ·)).toList kept skips).1
      (buildEntries minted ((entryPlain c items n).map (n, ·)).toList kept skips).2.1 := by
  cases hp : entryPlain c items n with
  | none => exact ⟨ann, h.unread hp⟩
  | some p =>
    obtain ⟨fresh, minted', hfm⟩ : ∃ fresh minted', (if p.id.isEmpty then
        (MintedId.ofCounter minted, minted + 1) else ("", minted)) = (fresh, minted') := ⟨_, _, rfl⟩
    simp only [Option.map_some, Option.toList_some, buildEntries, hfm]
    cases ha : p.toAnnotation fresh with
    | error m => exact ⟨ann, h.malformed hp ha⟩
    | ok a =>
      have hok := h.ok hp ha
      dsimp only
      cases hdup : kept.any (·.id == a.id) <;>
        simp only [hdup, Bool.false_eq_true, ↓reduceIte, List.append_nil] at hok ⊢ <;>
        exact ⟨_, hok⟩

end BuiltUpTo

/-- After any number of entries, a restore has kept and skipped what the account says. -/
theorem buildEntries_builtUpTo (minted n : Nat) :
    ∃ ann, BuiltUpTo c items ann n (buildEntries minted (entriesUpTo c items n) [] []).1
      (buildEntries minted (entriesUpTo c items n) [] []).2.1 := by
  induction n with
  | zero => exact ⟨fun _ => default, fun i hi => absurd hi (Nat.not_lt_zero i), rfl, rfl⟩
  | succ n ih =>
    obtain ⟨ann, h⟩ := ih
    rw [entriesUpTo_succ, buildEntries_append]
    exact h.step _

/-! ## Reading a payload -/

theorem entryPlain_append_of_lt {x : Json} {i : Nat} (h : i < items.length) :
    entryPlain c (items ++ [x]) i = entryPlain c items i := by
  simp [entryPlain, List.getElem?_append_left h]

theorem entryPlain_append_length (x : Json) :
    entryPlain c (items ++ [x]) items.length = PlainJson.read? c x := by
  simp [entryPlain]

theorem entryPlain_of_le {i : Nat} (h : items.length ≤ i) : entryPlain c items i = none := by
  simp [entryPlain, h]

/-- Reading a payload's entries keeps, in order, those the codec reads, with their positions,
and lists the positions of the others in order. -/
theorem readEntries_zipIdx_eq (c : Codec) (items : List Json) :
    readEntries c items.zipIdx = (entriesUpTo c items items.length,
      ((List.range items.length).filter fun i => (entryPlain c items i).isNone).map
        Skip.undecodable) := by
  induction items using List.reverseRecOn with
  | nil => rfl
  | append_singleton items x ih =>
    -- the entries before the new one read as they did
    have hearlier : ∀ i ∈ List.range items.length,
        entryPlain c (items ++ [x]) i = entryPlain c items i :=
      fun i hi => entryPlain_append_of_lt (List.mem_range.mp hi)
    have hentries : entriesUpTo c (items ++ [x]) items.length = entriesUpTo c items items.length :=
      List.filterMap_congr fun i hi => by rw [hearlier i hi]
    have hunread : (List.range items.length).filter (fun i => (entryPlain c (items ++ [x]) i).isNone) =
        (List.range items.length).filter fun i => (entryPlain c items i).isNone :=
      List.filter_congr fun i hi => by rw [hearlier i hi]
    rw [List.zipIdx_append, readEntries_append, ih, List.length_append, List.length_singleton,
      entriesUpTo_succ, hentries, List.range_succ, List.filter_append, hunread,
      entryPlain_append_length]
    cases hx : PlainJson.read? c x <;> simp [readEntries, hx, entryPlain_append_length]

/-! ## Counting -/

/-- Of the first `n` entries, each is restored, or unread, or rejected. -/
theorem length_keptUpTo_add (n : Nat) :
    (keptUpTo c items ann n).length +
        (((List.range n).filter fun i => (entryPlain c items i).isNone).length +
          (rejectionsUpTo c items ann n).length) = n := by
  induction n with
  | zero => rfl
  | succ n ih =>
    rw [keptUpTo_succ, rejectionsUpTo_succ, List.range_succ, List.filter_append]
    rcases @restored_or_unread_or_rejected c items ann n with
      ⟨hr, hu, hj⟩ | ⟨hr, hu, hj⟩ | ⟨hr, hu, hj⟩
    · simp [hr, hu, hj]
      omega
    · simp [hr, hu, hj]
      omega
    · obtain ⟨k, hk⟩ := Option.isSome_iff_exists.mp hj
      simp [hr, hu, hk]
      omega

theorem index_of_rejection {i : Nat} {k : Skip} (h : rejection c items ann i = some k) :
    k.index = i := by
  unfold rejection at h
  split at h
  · cases h
  · split at h
    · cases h
      rfl
    · split at h
      · cases h
      · cases h
        rfl

/-- Every rejection stands for its own entry. -/
theorem map_index_rejectionsUpTo (n : Nat) :
    (rejectionsUpTo c items ann n).map Skip.index =
      ((List.range n).filter fun i => (rejection c items ann i).isSome).map Nat.cast := by
  induction n with
  | zero => rfl
  | succ n ih =>
    rw [rejectionsUpTo_succ, List.range_succ, List.filter_append, List.map_append,
      List.map_append, ih]
    cases h : rejection c items ann n with
    | none => simp [h]
    | some k => simp [h, index_of_rejection h]

theorem count_cast_filter_range (P : Nat → Bool) {n i : Nat} (hi : i < n) :
    (((List.range n).filter P).map (Nat.cast : Nat → Int)).count (i : Int) = if P i then 1 else 0 := by
  rw [List.count_map_of_injective _ _ Nat.cast_injective, (List.nodup_range.filter P).count]
  simp [hi]

/-- The first kept annotation with id `k` is the one the first entry building an annotation
with id `k` builds. -/
theorem find?_keptUpTo (n : Nat) (k : String) :
    (keptUpTo c items ann n).find? (·.id == k) =
      ((List.range n).find? fun i => builds c items i && (ann i).id == k).map ann := by
  induction n with
  | zero => rfl
  | succ n ih =>
    rw [keptUpTo_succ, List.range_succ, List.find?_append, List.find?_append, ih]
    cases hfirst : (List.range n).find? (fun i => builds c items i && (ann i).id == k) with
    | some j => simp
    | none =>
      -- no earlier entry builds an annotation with id `k`: entry `n` is restored if it does
      have hnone := List.find?_eq_none.mp hfirst
      by_cases hr : restored c items ann n = true
      · simp [hr, builds_of_restored hr]
      · have hnot : ¬(builds c items n = true ∧ (ann n).id = k) := by
          rintro ⟨hb, rfl⟩
          refine hr (restored_iff.mpr ⟨hb, fun j hj hbj hid => ?_⟩)
          have := hnone j (List.mem_range.mpr hj)
          simp [hbj, hid] at this
        simp [hr, hnot]

theorem map_index_undecodable (l : List Nat) :
    (l.map Skip.undecodable).map Skip.index = l.map Nat.cast := by
  rw [List.map_map]
  rfl

/-- The skips of the first `n` entries stand for entry `i` once if the codec cannot read it and
once if it is rejected. -/
theorem count_index_skips {n i : Nat} (hi : i < n) :
    ((((List.range n).filter fun i => (entryPlain c items i).isNone).map Skip.undecodable ++
        rejectionsUpTo c items ann n).map Skip.index).count (i : Int) =
      (if (entryPlain c items i).isNone then 1 else 0) +
        if (rejection c items ann i).isSome then 1 else 0 := by
  rw [List.map_append, List.count_append, map_index_undecodable, map_index_rejectionsUpTo,
    count_cast_filter_range _ hi, count_cast_filter_range _ hi]

/-- Each of the first `n` entries is restored, or stands once among the skips. -/
theorem restored_or_skipped_once {n i : Nat} (hi : i < n) :
    (restored c items ann i = true ∧
        ((((List.range n).filter fun i => (entryPlain c items i).isNone).map Skip.undecodable ++
          rejectionsUpTo c items ann n).map Skip.index).count (i : Int) = 0) ∨
      (restored c items ann i = false ∧
        ((((List.range n).filter fun i => (entryPlain c items i).isNone).map Skip.undecodable ++
          rejectionsUpTo c items ann n).map Skip.index).count (i : Int) = 1) := by
  rw [count_index_skips hi]
  rcases @restored_or_unread_or_rejected c items ann i with
    ⟨hr, hu, hj⟩ | ⟨hr, hu, hj⟩ | ⟨hr, hu, hj⟩
  · exact Or.inl ⟨hr, by simp [hu, hj]⟩
  · exact Or.inr ⟨hr, by simp [hu, hj]⟩
  · exact Or.inr ⟨hr, by simp [hu, hj]⟩

end Payload

/-! ## A restore from a payload -/

/-- A restore from a payload that the codec reads as an array accounts for every entry: each
entry is restored or skipped once, the skips are the unread entries and then the rejected ones,
each in payload order, and the store holds, under each id, the annotation of the first entry
that builds one with that id, with nothing pending. -/
theorem restoreWith_accounts (s : Source) (c : Codec) {payload : String} {items : List Json}
    (hparse : c.parse? payload = some (.arr items)) :
    ∃ res ann, (s.restoreWith c payload).result = .ok res ∧
      Accounts c items ann res (s.restoreWith c payload).source := by
  obtain ⟨ann, hb⟩ := @buildEntries_builtUpTo c items s.minted items.length
  have hread := readEntries_zipIdx_eq c items
  obtain ⟨hannotations, hpending, -⟩ := restoreEntries_source s (entriesUpTo c items items.length)
  have hsource : (s.restoreWith c payload).source =
      (s.restoreEntries (entriesUpTo c items items.length)).source := by
    simp only [restoreWith, hparse, hread]
  have hkept : (s.restoreWith c payload).source.annotations = keptUpTo c items ann items.length := by
    rw [hsource, hannotations, hb.kept_eq]
  refine ⟨⟨(keptUpTo c items ann items.length).length,
    ((List.range items.length).filter fun i => (entryPlain c items i).isNone).map Skip.undecodable ++
      rejectionsUpTo c items ann items.length⟩, ann, ?_, ?_⟩
  · simp only [restoreWith, hparse, hread, restoreEntries_result, hb.kept_eq, hb.skips_eq]
  refine ⟨fun i hi => ?_, ?_, fun i hi => restored_or_skipped_once hi, rfl, fun k => ?_, ?_, ?_⟩
  · -- an entry past the end is not read, so it builds nothing
    by_cases hlt : i < items.length
    · exact hb.built i hlt hi
    · rw [builds_of_none (entryPlain_of_le (by omega))] at hi
      cases hi
  · rw [List.length_append, List.length_map]
    exact length_keptUpTo_add _
  · rw [Source.get?, hkept, find?_keptUpTo]
  · rw [hsource]
    exact hpending
  · rw [Source.len, hkept]

/-- A payload of a blank entry and an unreadable one. -/
theorem restoreWith_accounts_blank_then_unread :
    Codec.default.parse? "[null,true]" = some (.arr [.null, .bool true]) ∧
      ∃ res ann, (({ codec := .default } : Source).restoreWith .default "[null,true]").result =
          .ok res ∧
        Accounts .default [.null, .bool true] ann res
          (({ codec := .default } : Source).restoreWith .default "[null,true]").source :=
  have hparse : Codec.default.parse? "[null,true]" = some (.arr [.null, .bool true]) := by cbv
  ⟨hparse, restoreWith_accounts { codec := .default } .default hparse⟩

end Source

end AnnotationStore
