import Mathlib
import AnnotationStore.Proofs.Source.Run
import AnnotationStore.Store.Memo
/-!
# Memoized packing agrees with packing afresh

A memo packs again only when it was invalidated or the source's generation moved on. That is
sound because no source operation lowers the generation and every operation that keeps it
keeps the annotations (`generation_lt_or_annotations_eq`). So a valid memo whose buffer was
packed at the current generation holds the buffer that packing now would give (`Sound`), each
event keeps this so (`Sound.step`), and along any interleaving of source operations, filter
switches, invalidations and updates every update gives the buffer packed afresh from the
source's annotations under the filter, numbered by the source's generation
(`Packing.Reachable.update_buffer?`). The visible set the filter reads changes only with a
filter switch or an invalidation.
-/

namespace AnnotationStore

namespace Source

theorem generation_restoreEntries (s : Source) (entries : List (Nat × Plain)) :
    (s.restoreEntries entries).source.generation = s.generation + 1 := by
  obtain ⟨cells, h⟩ := restoreEntries_source_eq s entries
  rw [h]

/-- No operation lowers the generation, and one that keeps it keeps the annotations. -/
theorem generation_lt_or_annotations_eq (s : Source) (op : Op) :
    s.generation < (s.apply op).generation ∨
      ((s.apply op).generation = s.generation ∧ (s.apply op).annotations = s.annotations) := by
  cases op with
  | add a commit =>
    rcases add_source_cases s a commit with ⟨n, h⟩ | ⟨b, n, cells, shared, -, h⟩
    · exact .inr (by simp [apply, h])
    · exact .inl (by simp [apply, h, insert])
  | commit c =>
    rcases commit_source_cases s c with h | ⟨r, -, -, h⟩
    · exact .inr (by simp [apply, h])
    · exact .inl (by simp [apply, h])
  | update c a =>
    rcases update_source_cases s c a with h | ⟨r, b, old, -, -, -, -, h⟩
    · exact .inr (by simp [apply, h])
    · exact .inl (by simp [apply, h, replace, setCell, modifyCell])
  | delete c nullify =>
    rcases delete_source_cases s c nullify with h | ⟨r, -, -, -, h⟩ | ⟨r, old, -, -, -, h⟩
    · exact .inr (by simp [apply, h])
    · exact .inr (by simp [apply, h, tombstoneCell, modifyCell])
    · -- removing the stored annotation raises the generation, marking the cell does not touch it
      left
      cases nullify <;> simp [apply, h, remove, tombstoneCell, modifyCell]
  | reference id =>
    obtain ⟨cells, shared, h⟩ := reference_snd_eq s id
    exact .inr (by simp [apply, h])
  | retain c => exact .inr (by simp [apply, retain, modifyCell])
  | dispose c =>
    obtain ⟨cells, shared, h⟩ := dispose_eq s c
    exact .inr (by simp [apply, h])
  | clear =>
    obtain ⟨cells, h⟩ := clear_source_eq s
    exact .inl (by simp [apply, h])
  | restore entries => exact .inl (by simp [apply, restore, generation_restoreEntries])
  | restoreWith codec payload =>
    rcases restoreWith_source_cases s codec payload with h | ⟨entries, h⟩
    · exact .inr (by simp [apply, h])
    · exact .inl (by simp [apply, h, generation_restoreEntries])

end Source

/-! ## Packing and updating -/

namespace Memo

variable (m : Memo) (s : Source) (vis : VisibleSet)

theorem pack_fst : (m.pack s vis).1 =
    { m with
      current := some (m.builds + 1,
        PackedBuffer.build (fun k => (s.byKind k).filter (m.keeps vis)) s.generation.toUInt64)
      builtAt := s.generation
      valid := true
      builds := m.builds + 1 } :=
  rfl

/-- An update keeps the memo when it is valid at the source's generation, and packs otherwise. -/
theorem update_fst :
    (m.update s vis).1 =
      if m.current.isSome ∧ m.valid ∧ s.generation = m.builtAt then m else (m.pack s vis).1 := by
  unfold update
  cases m.current with
  | none => simp
  | some nb => by_cases h : m.valid ∧ s.generation = m.builtAt <;> simp [h]

end Memo

/-! ## Runs of a memo over a source -/

structure Packing where
  source : Source
  memo : Memo := {}
  vis : VisibleSet := {}

/-- What can happen to a packing: the visible set changes only with a filter switch or an
invalidation. -/
inductive Packing.Event where
  | source (op : Source.Op)
  | setFilter (on : Bool) (vis : VisibleSet)
  | invalidate (vis : VisibleSet)
  | update

namespace Packing

def step (p : Packing) : Event → Packing
  | .source op => { p with source := p.source.apply op }
  | .setFilter on vis => { p with memo := p.memo.setFilter on, vis }
  | .invalidate vis => { p with memo := p.memo.invalidate, vis }
  | .update => { p with memo := (p.memo.update p.source p.vis).1 }

/-- The buffer packing the source afresh under the memo's filter gives. -/
def fresh (p : Packing) : PackedBuffer :=
  PackedBuffer.build (fun k => (p.source.byKind k).filter (p.memo.keeps p.vis)) p.source.generation.toUInt64

/-- A valid memo was packed at no later generation than the source's, and at the source's
generation its buffer is the fresh one. -/
def Sound (p : Packing) : Prop :=
  p.memo.valid = true → ∀ n b, p.memo.current = some (n, b) →
    p.memo.builtAt ≤ p.source.generation ∧ (p.memo.builtAt = p.source.generation → b = p.fresh)

/-- The packings a new memo over any source reaches by any events. -/
inductive Reachable : Packing → Prop
  | new (s : Source) (vis : VisibleSet) : Reachable { source := s, vis }
  | step {p : Packing} (e : Event) : Reachable p → Reachable (p.step e)

theorem fresh_congr {p q : Packing} (hann : q.source.annotations = p.source.annotations)
    (hgen : q.source.generation = p.source.generation) (hmemo : q.memo.segmentFilter = p.memo.segmentFilter)
    (hvis : q.vis = p.vis) : q.fresh = p.fresh := by
  have hkeeps : q.memo.keeps q.vis = p.memo.keeps p.vis := by
    funext a
    simp only [Memo.keeps, hmemo, hvis]
  simp only [fresh, Source.byKind, hann, hgen, hkeeps]

/-- Packing afresh is what a packing leaves as the memo's buffer. -/
theorem pack_sound (p : Packing) : { p with memo := (p.memo.pack p.source p.vis).1 }.Sound := by
  intro _ n b hcur
  simp only [Memo.pack_fst, Option.some.injEq, Prod.mk.injEq] at hcur
  obtain ⟨-, rfl⟩ := hcur
  exact ⟨le_rfl, fun _ => rfl⟩

theorem Sound.step {p : Packing} (h : p.Sound) : ∀ e, (p.step e).Sound
  | .source op => by
    intro hvalid n b hcur
    obtain ⟨hle, hfresh⟩ := h hvalid n b hcur
    rcases p.source.generation_lt_or_annotations_eq op with hlt | ⟨hgen, hann⟩
    · -- the generation moved past the one the buffer was packed at
      exact ⟨by simp only [Packing.step]; omega, fun heq => by simp only [Packing.step] at heq; omega⟩
    · -- the annotations are the same, so the fresh buffer is too
      have hsame : (p.step (.source op)).fresh = p.fresh := fresh_congr hann hgen rfl rfl
      refine ⟨by simpa [Packing.step, hgen] using hle, fun heq => ?_⟩
      rw [hsame]
      exact hfresh (by simpa [Packing.step, hgen] using heq)
  | .setFilter on vis => by
    intro hvalid
    simp [Packing.step, Memo.setFilter] at hvalid
  | .invalidate vis => by
    intro hvalid
    simp [Packing.step, Memo.invalidate] at hvalid
  | .update => by
    simp only [Packing.step, Memo.update_fst]
    split
    · exact h
    · exact pack_sound p

theorem sound_new (s : Source) (vis : VisibleSet) : ({ source := s, vis } : Packing).Sound := by
  intro hvalid
  simp at hvalid

theorem Reachable.sound {p : Packing} (hp : p.Reachable) : p.Sound := by
  induction hp with
  | new s vis => exact sound_new s vis
  | step e _ ih => exact ih.step e

/-- A sound memo's update gives the fresh buffer. -/
theorem Sound.update_buffer?_fresh {p : Packing} (h : p.Sound) :
    (p.memo.update p.source p.vis).1.buffer? = some p.fresh := by
  rw [Memo.update_fst]
  split
  · rename_i hkeep
    obtain ⟨hsome, hvalid, hgen⟩ := hkeep
    obtain ⟨⟨n, b⟩, hcur⟩ := Option.isSome_iff_exists.mp hsome
    have hb : b = p.fresh := (h hvalid n b hcur).2 hgen.symm
    simp [Memo.buffer?, hcur, hb]
  · simp [Memo.pack_fst, Memo.buffer?, fresh]

/-- Along any interleaving of source operations, filter switches, invalidations and updates,
an update gives the buffer packing the source's annotations afresh, under the filter in force,
would give, numbered by the source's generation. -/
theorem Reachable.update_buffer? {p : Packing} (hp : p.Reachable) :
    (p.memo.update p.source p.vis).1.buffer? =
      some (PackedBuffer.build (fun k => (p.source.byKind k).filter (p.memo.keeps p.vis))
        p.source.generation.toUInt64) :=
  hp.sound.update_buffer?_fresh

theorem update_buffer?_after_add_filter_update :
    let p : Packing := ((({ source := {} } : Packing).step
      (.source (.add (some ⟨{ id := "a" }, .point default⟩) true))).step (.setFilter true {})).step .update
    p.Reachable ∧ (p.memo.update p.source p.vis).1.buffer? =
      some (PackedBuffer.build (fun k => (p.source.byKind k).filter (p.memo.keeps p.vis))
        p.source.generation.toUInt64) := by
  intro p
  have hp : p.Reachable := .step _ (.step _ (.step _ (.new {} {})))
  exact ⟨hp, Reachable.update_buffer? hp⟩

end Packing

end AnnotationStore
