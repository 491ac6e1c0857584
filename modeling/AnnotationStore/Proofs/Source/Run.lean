import Mathlib
import AnnotationStore.Store.Source
/-!
# Runs of a source

The operations a caller makes on a source, as data, the source each one leaves behind, and
the sources reachable from a new one. An operation that goes through a reference is given
one the source still shares; `dispose` may also be given an older reference that has left
the source, which is how a holder that kept a stale handle behaves.

Below them, what each operation does, stated once so that the invariants of the later
modules cite these lemmas rather than unfold the operations. Operations on reference cells
change only `cells` and `shared`; each mutation of the contents is one of the named store
steps of the source (`insert`, `replace`, `remove`) or replaces the contents whole.
-/

namespace AnnotationStore.Source

inductive Op where
  | add (a : Option Annotation) (commit : Bool)
  | commit (c : Nat)
  | update (c : Nat) (a : Option Annotation)
  | delete (c : Nat) (nullify : Bool)
  | reference (id : String)
  | retain (c : Nat)
  | dispose (c : Nat)
  | clear
  | restore (entries : List Plain)
  | restoreWith (codec : Codec) (payload : String)

def apply (s : Source) : Op → Source
  | .add a commit => (s.add a commit).source
  | .commit c => (s.commit c).source
  | .update c a => (s.update c a).source
  | .delete c nullify => (s.delete c nullify).source
  | .reference id => (s.reference id).2
  | .retain c => s.retain c
  | .dispose c => s.dispose c
  | .clear => s.clear.source
  | .restore entries => (s.restore entries).source
  | .restoreWith codec payload => (s.restoreWith codec payload).source

/-- A cell is the reference the source shares for its id. -/
def Shares (s : Source) (c : Nat) : Prop := ∃ r, s.cell? c = some r ∧ s.shared.lookup r.id = some c

/-- What a caller may give an operation: a reference the source shares, except to `dispose`,
which takes any. -/
def Op.Allowed (s : Source) : Op → Prop
  | .commit c | .update c _ | .delete c _ | .retain c => s.Shares c
  | _ => True

inductive Reachable : Source → Prop
  | new (codec : Codec) : Reachable { codec }
  | step {s : Source} (op : Op) : Reachable s → op.Allowed s → Reachable (s.apply op)

/-! ## Lookups by id -/

theorem get?_eq_none_iff {s : Source} {id : String} :
    s.get? id = none ↔ ∀ a ∈ s.annotations, a.id ≠ id := by
  simp [get?, List.find?_eq_none]

theorem mem_of_get?_eq_some {s : Source} {id : String} {a : Annotation} (h : s.get? id = some a) :
    a ∈ s.annotations ∧ a.id = id := by
  have hmem := List.mem_of_find?_eq_some h
  have hid := List.find?_some h
  exact ⟨hmem, by simpa using hid⟩

/-- With distinct ids, an id finds the one annotation that has it. -/
theorem get?_eq_some_iff {s : Source} (hnodup : (s.annotations.map (·.id)).Nodup)
    {id : String} {a : Annotation} : s.get? id = some a ↔ a ∈ s.annotations ∧ a.id = id := by
  refine ⟨mem_of_get?_eq_some, fun ⟨hmem, hid⟩ => ?_⟩
  cases hget : s.get? id with
  | none => exact absurd hid (get?_eq_none_iff.mp hget a hmem)
  | some b =>
    obtain ⟨hb, hbid⟩ := mem_of_get?_eq_some hget
    have := List.inj_on_of_nodup_map hnodup hb hmem (hbid.trans hid.symm)
    rw [this]

/-! ## Operations on cells leave the contents alone -/

theorem reference_snd_eq (s : Source) (id : String) :
    ∃ cells shared, (s.reference id).2 = { s with cells, shared } := by
  unfold reference
  split
  · exact ⟨_, _, rfl⟩
  · exact ⟨_, _, rfl⟩

theorem dispose_eq (s : Source) (c : Nat) : ∃ cells shared, s.dispose c = { s with cells, shared } := by
  unfold dispose
  split
  · split
    · exact ⟨s.cells, s.shared, rfl⟩
    · dsimp only
      split
      · exact ⟨_, _, rfl⟩
      · exact ⟨_, s.shared, rfl⟩
  · exact ⟨s.cells, s.shared, rfl⟩

theorem reattach_fst_eq (s : Source) (a : Annotation) : ∃ cells, (s.reattach a).1 = { s with cells } := by
  unfold reattach
  split
  · exact ⟨_, rfl⟩
  · exact ⟨s.cells, rfl⟩

theorem refreshStep_fst_eq (keep : String → Option Annotation) (s : Source) (ns : List Notice)
    (e : String × Nat) : ∃ cells, (refreshStep keep (s, ns) e).1 = { s with cells } := by
  obtain ⟨id, c⟩ := e
  unfold refreshStep
  dsimp only
  cases keep id with
  | some a => exact ⟨_, rfl⟩
  | none =>
    dsimp only
    cases s.cell? c with
    | some r =>
      dsimp only
      split
      · exact ⟨s.cells, rfl⟩
      · exact ⟨_, rfl⟩
    | none => exact ⟨s.cells, rfl⟩

theorem foldl_refreshStep_eq (keep : String → Option Annotation) (es : List (String × Nat))
    (s : Source) (ns : List Notice) :
    ∃ cells, (es.foldl (refreshStep keep) (s, ns)).1 = { s with cells } := by
  induction es generalizing s ns with
  | nil => exact ⟨s.cells, rfl⟩
  | cons e es ih =>
    rw [List.foldl_cons]
    obtain ⟨cells₁, h₁⟩ := refreshStep_fst_eq keep s ns e
    obtain ⟨cells₂, h₂⟩ := ih (refreshStep keep (s, ns) e).1 (refreshStep keep (s, ns) e).2
    refine ⟨cells₂, ?_⟩
    rw [h₂, h₁]

theorem tombstoneAll_fst_eq (s : Source) (keep : String → Option Annotation) :
    ∃ cells, (s.tombstoneAll keep).1 = { s with cells } :=
  foldl_refreshStep_eq keep s.sharedById s []

/-! ## What each operation does to the contents -/

theorem assignId_snd_eq (s : Source) (a : Annotation) : ∃ n, (s.assignId a).2 = { s with issued := n } := by
  unfold assignId
  split
  · exact ⟨_, rfl⟩
  · exact ⟨s.issued, rfl⟩

theorem addNamed_source (s : Source) (a : Annotation) (commit : Bool) :
    (s.addNamed a commit).source =
      if (s.get? a.id).isSome then s else (((s.insert a commit).reattach a).1.reference a.id).2 := by
  unfold addNamed
  split <;> rfl

theorem addNamed_result (s : Source) (a : Annotation) (commit : Bool) :
    (s.addNamed a commit).result =
      if (s.get? a.id).isSome then .error (.duplicateId a.id)
      else .ok (((s.insert a commit).reattach a).1.reference a.id).1 := by
  unfold addNamed
  split <;> rfl

/-- An add either changes nothing but the id counter, or stores an annotation whose id was not
stored before, followed by work on cells only. -/
theorem add_source_cases (s : Source) (a : Option Annotation) (commit : Bool) :
    (∃ n, (s.add a commit).source = { s with issued := n }) ∨
    ∃ b n cells shared, s.get? b.id = none ∧
      (s.add a commit).source = { ({ s with issued := n } : Source).insert b commit with cells, shared } := by
  cases a with
  | none => exact .inl ⟨s.issued, rfl⟩
  | some a =>
    obtain ⟨n, hs⟩ := assignId_snd_eq s a
    have hadd : (s.add (some a) commit) = ((s.assignId a).2.addNamed (s.assignId a).1 commit) := rfl
    rw [hadd, addNamed_source, hs]
    split
    · exact .inl ⟨n, rfl⟩
    · rename_i hnone
      refine .inr ⟨(s.assignId a).1, n, ?_⟩
      obtain ⟨cells₁, h₁⟩ := reattach_fst_eq (({ s with issued := n } : Source).insert (s.assignId a).1 commit)
        (s.assignId a).1
      obtain ⟨cells₂, shared₂, h₂⟩ := reference_snd_eq
        (((({ s with issued := n } : Source).insert (s.assignId a).1 commit).reattach (s.assignId a).1).1)
        (s.assignId a).1.id
      refine ⟨cells₂, shared₂, ?_, ?_⟩
      · simpa [get?] using hnone
      · rw [h₂, h₁]

theorem commit_source_cases (s : Source) (c : Nat) :
    (s.commit c).source = s ∨ ∃ r, s.cell? c = some r ∧ s.isPending r.id = true ∧
      (s.commit c).source = { s with pending := s.pending.erase r.id, generation := s.generation + 1 } := by
  unfold commit
  split
  · rename_i r hr
    split
    · exact .inr ⟨r, hr, ‹_›, rfl⟩
    · exact .inl rfl
  · exact .inl rfl

/-- An update either changes nothing, or puts a copy of the new value under the cell's id in
place of the stored annotation, then points the cell at it. -/
theorem update_source_cases (s : Source) (c : Nat) (a : Option Annotation) :
    (s.update c a).source = s ∨
    ∃ r b old, s.cell? c = some r ∧ a = some b ∧ r.state ≠ .tombstoned ∧ s.get? r.id = some old ∧
      (s.update c a).source = (s.replace old (b.withId r.id)).setCell c (b.withId r.id) := by
  unfold update
  split
  · exact .inl rfl
  · exact .inl rfl
  · rename_i r b hr
    split
    · exact .inl rfl
    · split
      · exact .inl rfl
      · rename_i old hold
        exact .inr ⟨r, b, old, hr, rfl, ‹_›, hold, rfl⟩

/-- A delete either changes nothing, or only marks a cell whose id is not stored, or removes
the stored annotation of the cell's id and marks the cell when asked to. -/
theorem delete_source_cases (s : Source) (c : Nat) (nullify : Bool) :
    (s.delete c nullify).source = s ∨
    (∃ r, s.cell? c = some r ∧ r.state ≠ .tombstoned ∧ s.get? r.id = none ∧
      (s.delete c nullify).source = s.tombstoneCell c) ∨
    ∃ r old, s.cell? c = some r ∧ r.state ≠ .tombstoned ∧ s.get? r.id = some old ∧
      (s.delete c nullify).source = if nullify then (s.remove old).tombstoneCell c else s.remove old := by
  unfold delete
  split
  · exact .inl rfl
  · rename_i r hr
    split
    · exact .inl rfl
    · split
      · rename_i hnone
        cases nullify
        · exact .inl rfl
        · exact .inr (.inl ⟨r, hr, ‹_›, hnone, rfl⟩)
      · rename_i old hold
        refine .inr (.inr ⟨r, old, hr, ‹_›, hold, ?_⟩)
        cases nullify <;> rfl

theorem clear_source_eq (s : Source) : ∃ cells, s.clear.source =
    { s with
      annotations := []
      pending := []
      segments := []
      range := SizeRange.recompute []
      generation := s.generation + 1
      cells } := by
  unfold clear
  dsimp only
  exact tombstoneAll_fst_eq _ _

/-- A restore replaces the contents with the annotations `buildEntries` keeps. -/
theorem restoreEntries_source_eq (s : Source) (entries : List (Nat × Plain)) :
    ∃ cells, (s.restoreEntries entries).source =
      { s with
        annotations := (buildEntries s.minted entries [] []).1
        pending := []
        segments := SegmentIndex.build (buildEntries s.minted entries [] []).1
        range := SizeRange.recompute (buildEntries s.minted entries [] []).1
        generation := s.generation + 1
        minted := (buildEntries s.minted entries [] []).2.2
        cells } := by
  unfold restoreEntries
  rcases buildEntries s.minted entries [] [] with ⟨kept, skips, minted⟩
  dsimp only
  exact tombstoneAll_fst_eq _ _

/-- A restore from a payload either fails and changes nothing, or restores some entries. -/
theorem restoreWith_source_cases (s : Source) (codec : Codec) (payload : String) :
    (s.restoreWith codec payload).source = s ∨
    ∃ entries, (s.restoreWith codec payload).source = (s.restoreEntries entries).source := by
  unfold restoreWith
  split
  · exact .inl rfl
  · exact .inr ⟨_, rfl⟩
  · exact .inl rfl

/-- Every kept annotation of a restore has an id no other kept one has. -/
theorem buildEntries_nodup (minted : Nat) (entries : List (Nat × Plain)) (kept : List Annotation)
    (skips : List Skip) (h : (kept.map (·.id)).Nodup) :
    ((buildEntries minted entries kept skips).1.map (·.id)).Nodup := by
  induction entries generalizing minted kept skips with
  | nil => simpa [buildEntries] using h
  | cons e entries ih =>
    obtain ⟨i, p⟩ := e
    unfold buildEntries
    dsimp only
    split
    · exact ih _ _ _ h
    · rename_i a _
      split
      · exact ih _ _ _ h
      · rename_i hany
        refine ih _ _ _ ?_
        rw [List.map_append, List.nodup_append]
        refine ⟨h, by simp, fun x hx y hy => ?_⟩
        simp only [List.map_cons, List.map_nil, List.mem_singleton] at hy
        subst hy
        rintro rfl
        obtain ⟨b, hb, hbid⟩ := List.mem_map.mp hx
        exact hany (List.any_eq_true.mpr ⟨b, hb, by simp [hbid]⟩)

end AnnotationStore.Source
