import Mathlib
import AnnotationStore.Proofs.Render.Commands
import AnnotationStore.Proofs.Chunk.Manager
import AnnotationStore.Proofs.Cache.Recency
import AnnotationStore.Proofs.Segment.Forest
import AnnotationStore.Render.Chunked
/-!
# Chunk buffers stay coherent with the chunks

A chunked layer uploads a key's chunk only when its buffer is new or was marked stale, so its
buffers are right only if every chunk the manager caches anew is announced: an arrival as
ready, after which the layer marks the buffer stale, and a chunk pushed out as evicted, after
which the layer destroys the buffer. A flush caches a chunk only through a write that reports
it cached, and announces every such key still cached at its end (`Manager.flush_announces`),
so an entry the cache holds after a flush is one it held before or one announced as ready.

Together with the layer over a source (`LayerView.run_accepts`) this gives the main statement
`gpu_buffers_coherent`: for both kinds of layer, along any interleaving of what can happen to
them, every command goes to a live buffer or makes one where none lives, and every bind finds
as last upload the bytes the draw shows, the packing of the memo for a layer and the cached
chunk of each drawn key for a chunked layer; a disposed layer gives no command.
-/

namespace AnnotationStore

/-! ## What a cache holds after a write or a lookup -/

namespace Lru

variable {κ ν : Type} [BEq κ]

/-- A write leaves entries the cache had, and the entry written only when it reports it
cached. -/
theorem mem_set_of_ok {c : Lru κ ν} {k : κ} {v : ν} {e : LruEntry κ ν} (h : e ∈ (c.set k v).2.1.entries) :
    e ∈ c.entries ∨ ((c.set k v).1 = true ∧ e = ⟨k, v, c.cost v⟩) := by
  by_cases hcap : c.capacity < c.cost v
  · simp only [Lru.set, hcap, if_true] at h
    exact .inl h
  cases hf : c.find? k with
  | some f =>
    simp only [Lru.set, hcap, if_false, hf] at h ⊢
    generalize (if f.cost < c.cost v then tryAcquireMemory? c.controller (c.cost v - f.cost)
      else (true, c.controller)) = g at h ⊢
    obtain ⟨ok, rc⟩ := g
    cases ok
    · exact .inl h
    · rcases List.mem_cons.mp (mem_trim _ _ h) with rfl | hmem
      · exact .inr ⟨rfl, rfl⟩
      · exact .inl (List.mem_of_mem_filter hmem)
  | none =>
    simp only [Lru.set, hcap, if_false, hf] at h ⊢
    generalize tryAcquireMemory? _ (c.cost v) = g at h ⊢
    obtain ⟨ok, rc⟩ := g
    cases ok
    · exact .inl (mem_trim _ _ h)
    · rcases List.mem_cons.mp h with rfl | hmem
      · exact .inr ⟨rfl, rfl⟩
      · exact .inl (mem_trim _ _ hmem)

theorem get_fst (c : Lru κ ν) (k : κ) : (c.get k).1 = (c.find? k).map (·.value) := by
  cases hf : c.find? k <;> simp [Lru.get, hf]

variable [LawfulBEq κ]

/-- A lookup moves the entry it finds to the front; every key still finds its entry. -/
theorem find?_get {c : Lru κ ν} (k j : κ) : (c.get k).2.find? j = c.find? j := by
  unfold Lru.get
  split
  · rename_i e he
    have hkey : e.key = k := (mem_of_find?_eq_some he).2
    subst hkey
    simp only [Lru.find?, without, List.find?_cons, List.find?_filter]
    by_cases hj : e.key = j
    · subst hj
      simp only [beq_self_eq_true]
      exact he.symm
    · have hne : (e.key == j) = false := by simpa using hj
      simp only [hne]
      congr 1
      funext f
      -- an entry of key `j` is not the one moved to the front
      by_cases hf : f.key = j
      · simp [hf, Ne.symm hj]
      · simp [hf]
  · rfl

end Lru

/-! ## A flush announces what it caches anew -/

namespace Chunk.Manager

variable {m : Manager} {a : Arrival}

/-- What applying one arrival does to the cache and what it reports as cached: nothing for a
stale or refused arrival, and for an accepted one a write whose report is passed on. -/
theorem receive_cache_cases (m : Manager) (a : Arrival) :
    ((m.receive a).1.cache = m.cache ∧ (m.receive a).2.1 = none) ∨
      ∃ b, (m.receive a).1.cache = (m.cache.set a.key b).2.1 ∧
        (m.receive a).2.1 = if (m.cache.set a.key b).1 then some a.key else none := by
  unfold receive
  split
  · exact .inl ⟨rfl, rfl⟩
  · split
    · exact .inl ⟨rfl, rfl⟩
    · rename_i b _
      exact .inr ⟨b, rfl, rfl⟩

theorem receive_sound (h : m.cache.Sound) (a : Arrival) : (m.receive a).1.cache.Sound := by
  rcases receive_cache_cases m a with ⟨hc, -⟩ | ⟨b, hc, -⟩ <;> rw [hc]
  · exact h
  · exact (h.set a.key b).2.2

/-- An entry cached after an arrival was cached before, or the arrival reports its key as
cached. -/
theorem receive_announces (h : m.cache.Sound) (a : Arrival) {k : String} {e : LruEntry String PackedBuffer}
    (hk : (m.receive a).1.cache.find? k = some e) : m.cache.find? k = some e ∨ (m.receive a).2.1 = some k := by
  rcases receive_cache_cases m a with ⟨hc, -⟩ | ⟨b, hc, hgot⟩
  · rw [hc] at hk
    exact .inl hk
  · rw [hc] at hk
    have hnd' := (h.set a.key b).2.2.accounts.nodup
    obtain ⟨hmem, hkey⟩ := (Lru.find?_eq_some_iff hnd').mp hk
    rcases Lru.mem_set_of_ok hmem with hold | ⟨hok, rfl⟩
    · exact .inl ((Lru.find?_eq_some_iff h.accounts.nodup).mpr ⟨hold, hkey⟩)
    · right
      rw [hgot, if_pos hok]
      exact congrArg some hkey

theorem flushStep_ready (acc : Manager × List String × List String) (a : Arrival) :
    (flushStep acc a).2.1 = acc.2.1 ++ (acc.1.receive a).2.1.toList := by
  obtain ⟨m, ready, evicted⟩ := acc
  rfl

theorem mem_ready_foldl (l : List Arrival) (acc : Manager × List String × List String) {k : String}
    (hk : k ∈ acc.2.1) : k ∈ (l.foldl flushStep acc).2.1 := by
  induction l generalizing acc with
  | nil => exact hk
  | cons a l ih =>
    apply ih
    rw [flushStep_ready]
    exact List.mem_append_left _ hk

/-- Along the arrivals of a flush the cache stays sound, and every entry it holds was held at
the start or has its key among the keys reported cached. -/
theorem flushSteps_announces (l : List Arrival) (acc : Manager × List String × List String)
    (h : acc.1.cache.Sound) :
    (l.foldl flushStep acc).1.cache.Sound ∧
      ∀ k e, (l.foldl flushStep acc).1.cache.find? k = some e →
        acc.1.cache.find? k = some e ∨ k ∈ (l.foldl flushStep acc).2.1 := by
  induction l generalizing acc with
  | nil => exact ⟨h, fun k e hk => .inl hk⟩
  | cons a l ih =>
    have hstep : (flushStep acc a).1.cache.Sound := by
      rw [flushStep_fst]
      exact receive_sound h a
    obtain ⟨hsound, hann⟩ := ih (flushStep acc a) hstep
    refine ⟨hsound, fun k e hk => ?_⟩
    rcases hann k e hk with hbefore | hready
    · rw [flushStep_fst] at hbefore
      rcases receive_announces h a hbefore with hold | hgot
      · exact .inl hold
      · -- this arrival reported the key
        refine .inr (mem_ready_foldl l (flushStep acc a) ?_)
        rw [flushStep_ready, hgot]
        exact List.mem_append_right _ (List.mem_singleton_self k)
    · exact .inr hready

/-- What a flush announces: the keys pushed out as evicted, then the keys reported cached and
still cached as ready. -/
theorem flush_events (m : Manager) :
    m.flush.2.2 = (m.queue.foldl flushStep ({ m with queue := [] }, [], [])).2.2.map Event.evicted ++
      ((m.queue.foldl flushStep ({ m with queue := [] }, [], [])).2.1.filter
        (m.queue.foldl flushStep ({ m with queue := [] }, [], [])).1.cache.contains).map Event.ready := by
  unfold flush
  split
  rename_i m' ready evicted hfold
  have hsteps : m.queue.foldl flushStep ({ m with queue := [] }, [], []) = (m', ready, evicted) := hfold
  rw [hsteps]

/-- A flush keeps the cache sound, and every entry the cache holds after it was held before or
is announced as ready. -/
theorem flush_announces (h : m.cache.Sound) :
    m.flush.1.cache.Sound ∧
      ∀ k e, m.flush.1.cache.find? k = some e → m.cache.find? k = some e ∨ Event.ready k ∈ m.flush.2.2 := by
  obtain ⟨hsound, hann⟩ := flushSteps_announces m.queue ({ m with queue := [] }, [], []) h
  have hcache : m.flush.1.cache = (m.queue.foldl flushStep ({ m with queue := [] }, [], [])).1.cache := by
    rw [flush_fst]
  refine ⟨hcache ▸ hsound, fun k e hk => ?_⟩
  rw [hcache] at hk
  rcases hann k e hk with hold | hready
  · exact .inl hold
  · -- a key reported cached and still cached is announced
    right
    rw [flush_events]
    refine List.mem_append_right _ (List.mem_map.mpr ⟨k, List.mem_filter.mpr ⟨hready, ?_⟩, rfl⟩)
    simp [Lru.contains, hk]

@[simp] theorem request_cache (m : Manager) (keys : List String) : (m.request keys).1.cache = m.cache := by
  unfold request
  split
  rfl

@[simp] theorem deliver_cache (m : Manager) (a : Arrival) : (m.deliver a).cache = m.cache := rfl

theorem chunk_fst (m : Manager) (key : String) : (m.chunk key).1 = (m.cache.find? key).map (·.value) :=
  Lru.get_fst m.cache key

theorem chunk_cache (m : Manager) (key : String) : (m.chunk key).2.cache = (m.cache.get key).2 := rfl

/-- A new manager's cache is sound: it is empty, its budget is positive, costs are never
negative, and a controller it was given has handed out nothing. -/
theorem make_sound (capacity : Int) (limits : Option ResourceLimits) :
    (make capacity (limits.map Controller.make)).cache.Sound := by
  have hmirrors : Lru.Mirrors (limits.map Controller.make) 0 := by
    cases limits with
    | none =>
      intro ctl h
      cases h
    | some l => exact Lru.mirrors_make l
  refine ⟨⟨List.nodup_nil, (fun _ h => nomatch h), rfl, hmirrors⟩, fun b => ?_, ?_⟩
  · simp only [make, Lru.empty, cost]
    omega
  · simp only [make, Lru.empty]
    split
    · omega
    · simp [defaultCapacity]

end Chunk.Manager

/-! ## A chunked layer's buffers -/

namespace ChunkedLayer

variable {l : ChunkedLayer} {c : Lru String PackedBuffer} {d : Device}

theorem bufferLabel_inj (l : ChunkedLayer) {k k' : String} (h : l.bufferLabel k = l.bufferLabel k') : k = k' := by
  simpa [bufferLabel] using h

theorem bufferLabel_congr {l l' : ChunkedLayer} (h : l'.label = l.label) : l'.bufferLabel = l.bufferLabel := by
  funext k
  simp [bufferLabel, h]

/-- What the device's side of a layer reads: its label, its buffers, and whether it is
disposed. Hovering, selecting and switching the filter keep all three. -/
structure SameBuffers (l l' : ChunkedLayer) : Prop where
  label : l'.label = l.label
  buffers : l'.buffers = l.buffers
  disposed : l'.disposed = l.disposed

theorem SameBuffers.refl (l : ChunkedLayer) : SameBuffers l l := ⟨rfl, rfl, rfl⟩

theorem sameBuffers_setHover (l : ChunkedLayer) (id : String) (part : Int) : SameBuffers l (l.setHover id part) :=
  ⟨rfl, rfl, rfl⟩

theorem sameBuffers_setSelected (l : ChunkedLayer) (id : String) : SameBuffers l (l.setSelected id).1 := by
  unfold setSelected
  split
  · exact ⟨rfl, rfl, rfl⟩
  · exact ⟨rfl, rfl, rfl⟩

theorem sameBuffers_setFilter {l : ChunkedLayer} {on : Bool} {r : ChunkedLayer × Bool}
    (h : l.setFilter on = .ok r) : SameBuffers l r.1 := by
  unfold setFilter at h
  split at h
  · cases h
  · split at h
    · cases h
      exact ⟨rfl, rfl, rfl⟩
    · cases h
      exact ⟨rfl, rfl, rfl⟩

theorem hear_of_disposed {l : ChunkedLayer} (h : l.disposed = true) (e : Chunk.Event) : l.hear e = (l, []) := by
  cases e <;> simp [ChunkedLayer.hear, h]

/-- The layer's buffers as the device holds them, against the chunks a cache holds: the keys
with a buffer are distinct and have a live one under their label, and no other key does; a
buffer marked current holds the key's cached chunk, unless a ready announcement of the key is
still to be heard (`pending`); and a disposed layer has no buffers. -/
structure Tracks (l : ChunkedLayer) (c : Lru String PackedBuffer) (d : Device) (pending : List Chunk.Event) :
    Prop where
  nodup : (l.buffers.map (·.1)).Nodup
  live : ∀ k, d.live (l.bufferLabel k) = true ↔ k ∈ l.buffers.map (·.1)
  current : ∀ k, (k, true) ∈ l.buffers → ∀ e, c.find? k = some e →
    d.contents (l.bufferLabel k) = some e.value.data ∨ Chunk.Event.ready k ∈ pending
  disposed : l.disposed = true → l.buffers = []

theorem Tracks.of_same {l' : ChunkedLayer} {pending : List Chunk.Event} (h : l.Tracks c d pending)
    (hs : SameBuffers l l') : l'.Tracks c d pending where
  nodup := hs.buffers ▸ h.nodup
  live k := by
    rw [bufferLabel_congr hs.label, hs.buffers]
    exact h.live k
  current k hk e he := by
    rw [bufferLabel_congr hs.label]
    exact h.current k (hs.buffers ▸ hk) e he
  disposed hd := hs.buffers ▸ h.disposed (hs.disposed ▸ hd)

theorem Tracks.cache_congr {c' : Lru String PackedBuffer} {pending : List Chunk.Event} (h : l.Tracks c d pending)
    (hc : ∀ k, c'.find? k = c.find? k) : l.Tracks c' d pending where
  nodup := h.nodup
  live := h.live
  current k hk e he := h.current k hk e (hc k ▸ he)
  disposed := h.disposed

/-- Right after a flush: every entry cached anew is announced as ready. -/
theorem Tracks.of_announced {c' : Lru String PackedBuffer} {es : List Chunk.Event} (h : l.Tracks c d [])
    (hann : ∀ k e, c'.find? k = some e → c.find? k = some e ∨ Chunk.Event.ready k ∈ es) : l.Tracks c' d es where
  nodup := h.nodup
  live := h.live
  current k hk e he := by
    rcases hann k e he with hold | hready
    · rcases h.current k hk e hold with hdata | hnone
      · exact .inl hdata
      · simp at hnone
    · exact .inr hready
  disposed := h.disposed

def hearAll (l : ChunkedLayer) : List Chunk.Event → ChunkedLayer × List GpuEvent
  | [] => (l, [])
  | e :: es => (((l.hear e).1.hearAll es).1, (l.hear e).2 ++ ((l.hear e).1.hearAll es).2)

theorem hearAll_of_disposed {l : ChunkedLayer} (h : l.disposed = true) : ∀ es, l.hearAll es = (l, [])
  | [] => rfl
  | e :: es => by
    simp only [ChunkedLayer.hearAll, hear_of_disposed h e, hearAll_of_disposed h es, List.append_nil]

/-- A current buffer whose key the heard announcement does not name keeps its claim. -/
theorem Tracks.current_of_ne {e : Chunk.Event} {es : List Chunk.Event} (h : l.Tracks c d (e :: es)) {k : String}
    (hk : (k, true) ∈ l.buffers) (hne : Chunk.Event.ready k ≠ e) {b : LruEntry String PackedBuffer}
    (hb : c.find? k = some b) : d.contents (l.bufferLabel k) = some b.value.data ∨ Chunk.Event.ready k ∈ es := by
  rcases h.current k hk b hb with hdata | hin
  · exact .inl hdata
  · rcases List.mem_cons.mp hin with heq | hin
    · exact absurd heq hne
    · exact .inr hin

theorem Tracks.hear_evicted {k' : String} {v' : Bool} {es : List Chunk.Event} (h : l.Tracks c d (.evicted k' :: es))
    (hdisp : ¬l.disposed = true) (hk' : l.buffers.lookup k' = some v') (fits : String → ByteArray → Prop) :
    d.Accepts fits (l.hear (.evicted k')).2 ∧ (l.hear (.evicted k')).1.Tracks c (d.run (l.hear (.evicted k')).2) es := by
  have hfst : (l.hear (.evicted k')).1 = { l with buffers := l.buffers.filter (·.1 != k') } := by
    simp [ChunkedLayer.hear, hdisp, chunkEvicted, hk']
  have hsnd : (l.hear (.evicted k')).2 = [.destroy (l.bufferLabel k')] := by
    simp [ChunkedLayer.hear, hdisp, chunkEvicted, hk']
  have hmem : k' ∈ l.buffers.map (·.1) := List.mem_map.mpr ⟨(k', v'), mem_of_lookup_eq_some hk', rfl⟩
  rw [hfst, hsnd]
  refine ⟨⟨(h.live k').mpr hmem, trivial⟩, ⟨?_, ?_, ?_, fun hd => absurd hd hdisp⟩⟩
  · exact h.nodup.sublist (List.filter_sublist.map _)
  · intro k
    have hlive := h.live k
    simp only [bufferLabel] at hlive ⊢
    simp only [Device.run_cons, Device.run_nil, Device.live_destroy, List.mem_map, List.mem_filter]
    by_cases hkk : k = k'
    · subst hkk
      simp
    · have hlab : ¬(l.label ++ "/" ++ k = l.label ++ "/" ++ k') := by simpa using hkk
      rw [if_neg hlab, hlive, List.mem_map]
      constructor
      · rintro ⟨x, hx, rfl⟩
        exact ⟨x, ⟨hx, by simpa using hkk⟩, rfl⟩
      · rintro ⟨x, ⟨hx, -⟩, rfl⟩
        exact ⟨x, hx, rfl⟩
  · intro k hk b hb
    obtain ⟨hk, -⟩ := List.mem_filter.mp hk
    simpa [bufferLabel] using h.current_of_ne hk (by simp) hb

theorem Tracks.hear_ready {k' : String} {es : List Chunk.Event} (h : l.Tracks c d (.ready k' :: es))
    (hdisp : ¬l.disposed = true) (fits : String → ByteArray → Prop) :
    d.Accepts fits (l.hear (.ready k')).2 ∧ (l.hear (.ready k')).1.Tracks c (d.run (l.hear (.ready k')).2) es := by
  have hfst : (l.hear (.ready k')).1 = l.chunkArrived k' := by simp [ChunkedLayer.hear, hdisp]
  have hsnd : (l.hear (.ready k')).2 = [] := by simp [ChunkedLayer.hear, hdisp]
  have hkeys : (l.chunkArrived k').buffers.map (·.1) = l.buffers.map (·.1) := by
    simp [chunkArrived, Function.comp_def]
  rw [hfst, hsnd]
  refine ⟨trivial, ⟨hkeys ▸ h.nodup, fun k => hkeys ▸ h.live k, ?_, fun hd => absurd hd hdisp⟩⟩
  -- a buffer still marked current is not the one marked stale
  intro k hk b hb
  simp only [chunkArrived, List.mem_map, Prod.mk.injEq] at hk
  obtain ⟨⟨k₀, v⟩, hmem, rfl, hv⟩ := hk
  have hne : k₀ ≠ k' := by
    rintro rfl
    simp at hv
  have hv' : v = true := by simpa [hne] using hv
  subst hv'
  exact h.current_of_ne hmem (by simpa using hne) hb

/-- Hearing an announcement: an eviction destroys the key's live buffer, an arrival marks it
stale, and the announcement is no longer pending. -/
theorem Tracks.hear {e : Chunk.Event} {es : List Chunk.Event} (h : l.Tracks c d (e :: es))
    (fits : String → ByteArray → Prop) :
    d.Accepts fits (l.hear e).2 ∧ (l.hear e).1.Tracks c (d.run (l.hear e).2) es := by
  by_cases hdisp : l.disposed = true
  · -- a disposed layer has no buffers and no longer listens
    rw [hear_of_disposed hdisp]
    exact ⟨trivial, ⟨h.nodup, h.live, fun k hk => by simp [h.disposed hdisp] at hk, h.disposed⟩⟩
  cases e with
  | evicted k' =>
    cases hk' : l.buffers.lookup k' with
    | none =>
      have hnone : l.hear (.evicted k') = (l, []) := by simp [ChunkedLayer.hear, hdisp, chunkEvicted, hk']
      rw [hnone]
      exact ⟨trivial, ⟨h.nodup, h.live, fun k hk b hb => h.current_of_ne hk (by simp) hb, h.disposed⟩⟩
    | some v' => exact h.hear_evicted hdisp hk' fits
  | ready k' => exact h.hear_ready hdisp fits

/-- Hearing a flush's announcements in order is accepted, with no bind, and leaves the
buffers tracking the cache. -/
theorem Tracks.hearAll (fits : String → ByteArray → Prop) :
    ∀ {l : ChunkedLayer} {d : Device} (es : List Chunk.Event), l.Tracks c d es →
      d.Accepts fits (l.hearAll es).2 ∧ (l.hearAll es).1.Tracks c (d.run (l.hearAll es).2) []
  | _, _, [], h => ⟨trivial, h⟩
  | l, d, e :: es, h => by
    obtain ⟨hacc, htracks⟩ := h.hear fits
    obtain ⟨hacc', htracks'⟩ := Tracks.hearAll fits es htracks
    simp only [ChunkedLayer.hearAll]
    rw [Device.accepts_append, Device.run_append]
    exact ⟨⟨hacc, hacc'⟩, htracks'⟩

/-! ## Drawing the cached keys -/

/-- The commands a draw gives for a cached key before drawing it: making the key's buffer if
it has none, and uploading the chunk unless the buffer holds the last chunk that arrived. -/
def prepare (l : ChunkedLayer) (key : String) (data : ByteArray) : List GpuEvent :=
  (if key ∈ l.buffers.map (·.1) then [] else [.createBuffer (l.bufferLabel key)]) ++
  (if (key, true) ∈ l.buffers then [] else [.upload (l.bufferLabel key) data])

variable {m : Chunk.Manager} {key : String}

theorem drawKey_of_missing (pick : Int) (hgot : (m.chunk key).1 = none) : l.drawKey m pick key = (l, (m.chunk key).2, pick, false, []) := by
  have hgot' : (m.cache.get key).1 = none := hgot
  simp only [drawKey, Chunk.Manager.chunk, hgot']

/-- A cached key is drawn after its buffer is prepared; the buffer is then listed, once, and
marked as holding the last chunk. -/
theorem drawKey_of_cached (pick : Int) {b : PackedBuffer} (hnd : (l.buffers.map (·.1)).Nodup) (hgot : (m.chunk key).1 = some b) :
    ∃ l' hl, l.drawKey m pick key = (l', (m.chunk key).2, (drawBuffer l.style (l.bufferLabel key) b hl pick).1, true,
       l.prepare key b.data ++ (drawBuffer l.style (l.bufferLabel key) b hl pick).2) ∧
      l'.label = l.label ∧ l'.disposed = l.disposed ∧
      l'.buffers.map (·.1) = (if key ∈ l.buffers.map (·.1) then l.buffers.map (·.1) else l.buffers.map (·.1) ++ [key]) ∧
      ∀ k, (k, true) ∈ l'.buffers ↔ k = key ∨ (k, true) ∈ l.buffers := by
  have hgot' : (m.cache.get key).1 = some b := hgot
  cases hlk : l.buffers.lookup key with
  | none =>
    -- no buffer yet: one is made, and the chunk uploaded
    have hnot : key ∉ l.buffers.map (·.1) := lookup_eq_none_iff_not_mem.mp hlk
    have hlk' : (l.buffers ++ [(key, false)]).lookup key = some false := by
      simp [List.lookup_append, hlk]
    have hnt : (key, true) ∉ l.buffers := fun h => hnot (List.mem_map.mpr ⟨_, h, rfl⟩)
    simp only [drawKey, prepare, Chunk.Manager.chunk, hgot', hlk, hlk', if_neg hnot, if_neg hnt]
    simp only [beq_iff_eq, Option.some.injEq, Bool.false_eq_true, if_false]
    refine ⟨_, _, rfl, rfl, rfl, by simp [Function.comp_def], fun k => ?_⟩
    simp only [List.mem_map, List.mem_append, List.mem_singleton, Prod.mk.injEq]
    constructor
    · rintro ⟨⟨k₀, v⟩, hmem, rfl, hv⟩
      by_cases hk : k₀ = key
      · exact .inl hk
      · simp only [hk, if_false] at hv
        subst hv
        rcases hmem with hmem | heq
        · exact .inr hmem
        · exact absurd (congrArg Prod.fst heq) hk
    · rintro (rfl | hk)
      · exact ⟨(k, false), .inr rfl, rfl, by simp⟩
      · exact ⟨(k, true), .inl hk, rfl, by simp⟩
  | some v =>
    have hmem : (key, v) ∈ l.buffers := mem_of_lookup_eq_some hlk
    have hin : key ∈ l.buffers.map (·.1) := List.mem_map.mpr ⟨_, hmem, rfl⟩
    cases v with
    | true =>
      -- a current buffer is drawn as it is
      simp only [drawKey, prepare, Chunk.Manager.chunk, hgot', hlk, if_pos hin, if_pos hmem]
      simp only [beq_self_eq_true, if_true]
      exact ⟨_, _, rfl, rfl, rfl, by simp, fun k => ⟨.inr, by rintro (rfl | hk) <;> assumption⟩⟩
    | false =>
      -- a stale buffer gets the chunk uploaded
      have hnt : (key, true) ∉ l.buffers := fun h => by
        have := lookup_eq_some_of_mem hnd h
        rw [hlk] at this
        cases this
      simp only [drawKey, prepare, Chunk.Manager.chunk, hgot', hlk, if_pos hin, if_neg hnt]
      simp only [beq_iff_eq, Option.some.injEq, Bool.false_eq_true, if_false]
      refine ⟨_, _, rfl, rfl, rfl, by simp [Function.comp_def], fun k => ?_⟩
      simp only [List.mem_map, Prod.mk.injEq]
      constructor
      · rintro ⟨⟨k₀, v⟩, hmem, rfl, hv⟩
        by_cases hk : k₀ = key
        · exact .inl hk
        · simp only [hk, if_false] at hv
          subst hv
          exact .inr hmem
      · rintro (rfl | hk)
        · exact ⟨(k, false), hmem, rfl, by simp⟩
        · exact ⟨(k, true), hk, rfl, by simp⟩

/-- Preparing a cached key's buffer is accepted, and leaves it live and holding the key's
chunk, every other label as it was. -/
theorem Tracks.prepare (h : l.Tracks c d []) {e : LruEntry String PackedBuffer} (he : c.find? key = some e)
    (fits : String → ByteArray → Prop) :
    d.Accepts fits (l.prepare key e.value.data) ∧
      (d.run (l.prepare key e.value.data)).live (l.bufferLabel key) = true ∧
      (d.run (l.prepare key e.value.data)).contents (l.bufferLabel key) = some e.value.data ∧
      ∀ x, x ≠ l.bufferLabel key →
        (d.run (l.prepare key e.value.data)).live x = d.live x ∧
          (d.run (l.prepare key e.value.data)).contents x = d.contents x := by
  by_cases hcur : (key, true) ∈ l.buffers
  · -- a current buffer holds the chunk already
    have hin : key ∈ l.buffers.map (·.1) := List.mem_map.mpr ⟨_, hcur, rfl⟩
    have hdata : d.contents (l.bufferLabel key) = some e.value.data := by
      rcases h.current key hcur e he with hdata | hnone
      · exact hdata
      · simp at hnone
    simp [ChunkedLayer.prepare, hin, hcur, (h.live key).mpr hin, hdata]
  by_cases hin : key ∈ l.buffers.map (·.1)
  · -- a stale buffer gets the chunk
    simp +contextual [ChunkedLayer.prepare, hin, hcur, Device.allows, (h.live key).mpr hin]
  · -- no buffer: one is made, then the chunk uploaded
    have hdead : d.live (l.bufferLabel key) = false := by simpa [hin] using h.live key
    simp +contextual [ChunkedLayer.prepare, hin, hcur, Device.allows, hdead]


/-- Drawing one key of a live layer whose buffers track the cache: the commands are accepted,
binding the cached chunk of the key, and the buffers track the cache the lookup leaves on the
device the commands leave. -/
theorem Tracks.drawKey (h : l.Tracks m.cache d []) (hlive : l.disposed = false) (key : String) (pick : Int)
    {fits : String → ByteArray → Prop} (hfits : ∀ b, (m.chunk key).1 = some b → fits (l.bufferLabel key) b.data) :
    d.Accepts fits (l.drawKey m pick key).2.2.2.2 ∧
      (l.drawKey m pick key).1.Tracks (l.drawKey m pick key).2.1.cache (d.run (l.drawKey m pick key).2.2.2.2) [] ∧
      (l.drawKey m pick key).1.label = l.label ∧ (l.drawKey m pick key).1.disposed = l.disposed ∧
      (l.drawKey m pick key).2.1 = (m.chunk key).2 := by
  -- the lookup moves an entry to the front, which every key still finds
  have hfinds : ∀ k, (m.chunk key).2.cache.find? k = m.cache.find? k := Lru.find?_get key
  cases hgot : (m.chunk key).1 with
  | none =>
    rw [drawKey_of_missing pick hgot]
    exact ⟨trivial, h.cache_congr hfinds, rfl, rfl, rfl⟩
  | some b =>
    obtain ⟨l', hl, hdk, hlabel, hdisp, hkeys, hcur⟩ := drawKey_of_cached pick h.nodup hgot
    obtain ⟨e, he, rfl⟩ : ∃ e, m.cache.find? key = some e ∧ e.value = b := by
      rw [Chunk.Manager.chunk_fst] at hgot
      exact Option.map_eq_some_iff.mp hgot
    obtain ⟨hpre, hlive₁, hdata₁, hother⟩ := h.prepare he fits
    -- drawing the buffer leaves the device as the preparation left it
    have hdev : d.run (l.prepare key e.value.data ++ (drawBuffer l.style (l.bufferLabel key) e.value hl pick).2) =
        d.run (l.prepare key e.value.data) := by
      rw [Device.run_append, Device.run_drawBuffer]
    rw [hdk]
    dsimp only
    rw [hdev]
    refine ⟨?_, ⟨?_, fun k => ?_, fun k hk e' he' => ?_, fun hd => ?_⟩, hlabel, hdisp, rfl⟩
    · rw [Device.accepts_append]
      exact ⟨hpre, Device.accepts_drawBuffer hlive₁ hdata₁ (hfits _ hgot) _ _ _ _⟩
    · rw [hkeys]
      split
      · exact h.nodup
      · rename_i hnot
        exact h.nodup.append (List.nodup_singleton key) (List.disjoint_singleton.mpr hnot)
    · rw [bufferLabel_congr hlabel, hkeys]
      by_cases hk : k = key
      · subst hk
        rw [hlive₁]
        split
        · rename_i hin
          simpa using hin
        · simp
      · rw [(hother _ fun heq => hk (l.bufferLabel_inj heq)).1, h.live k]
        split <;> simp [hk]
    · rw [bufferLabel_congr hlabel]
      rw [hfinds] at he'
      by_cases hk' : k = key
      · -- the key drawn holds its chunk
        subst hk'
        rw [he, Option.some.injEq] at he'
        subst he'
        exact .inl hdata₁
      · rw [(hother _ fun heq => hk' (l.bufferLabel_inj heq)).2]
        exact h.current k (((hcur k).mp hk).resolve_left hk') e' he'
    · rw [hdisp, hlive] at hd
      cases hd

/-- One key of a draw: drawn, whether its chunk was there folded into the readiness, and its
commands appended. -/
def drawStep (acc : ChunkedLayer × Chunk.Manager × Int × Bool × List GpuEvent) (k : String) :
    ChunkedLayer × Chunk.Manager × Int × Bool × List GpuEvent :=
  let (l, m, pick, ready, events) := acc
  let (l, m, pick, there, more) := l.drawKey m pick k
  (l, m, pick, ready && there, events ++ more)

theorem drawStep_eq (l : ChunkedLayer) (m : Chunk.Manager) (pick : Int) (ready : Bool) (evs : List GpuEvent) (k : String) :
    drawStep (l, m, pick, ready, evs) k = ((l.drawKey m pick k).1, (l.drawKey m pick k).2.1,
      (l.drawKey m pick k).2.2.1, ready && (l.drawKey m pick k).2.2.2.1, evs ++ (l.drawKey m pick k).2.2.2.2) := rfl

theorem draw_of_live (h : l.disposed = false) (m : Chunk.Manager) (vis : VisibleSet) (spatial : List String) (pick : Int) :
    (l.draw m vis spatial pick).1 =
        ((l.keys vis spatial).foldl drawStep (l, (m.request (l.keys vis spatial)).1, pick, true, [])).1 ∧
      (l.draw m vis spatial pick).2.1 =
        ((l.keys vis spatial).foldl drawStep (l, (m.request (l.keys vis spatial)).1, pick, true, [])).2.1 ∧
      (l.draw m vis spatial pick).2.2.2.2.2 =
        ((l.keys vis spatial).foldl drawStep (l, (m.request (l.keys vis spatial)).1, pick, true, [])).2.2.2.2 := by
  unfold draw
  simp only [h, Bool.false_eq_true, if_false]
  exact ⟨rfl, rfl, rfl⟩

theorem draw_of_disposed (h : l.disposed = true) (m : Chunk.Manager) (vis : VisibleSet) (spatial : List String) (pick : Int) :
    l.draw m vis spatial pick = (l, m, [], pick, false, []) := by
  simp [draw, h]

/-- What holds along the keys of a draw that started on the layer `l₀`, the cache `c₀` and the
device `d₀`: the commands so far are accepted, the buffers track the cache on the device those
commands leave, and the cache is sound and finds what it found at the start. -/
structure DrawInv (l₀ : ChunkedLayer) (c₀ : Lru String PackedBuffer) (d₀ : Device) (fits : String → ByteArray → Prop)
    (acc : ChunkedLayer × Chunk.Manager × Int × Bool × List GpuEvent) : Prop where
  accepts : d₀.Accepts fits acc.2.2.2.2
  tracks : acc.1.Tracks acc.2.1.cache (d₀.run acc.2.2.2.2) []
  sound : acc.2.1.cache.Sound
  label : acc.1.label = l₀.label
  live : acc.1.disposed = false
  finds : ∀ k, acc.2.1.cache.find? k = c₀.find? k

variable {l₀ : ChunkedLayer} {c₀ : Lru String PackedBuffer} {d₀ : Device} {fits : String → ByteArray → Prop}

theorem DrawInv.drawStep {acc : ChunkedLayer × Chunk.Manager × Int × Bool × List GpuEvent}
    (h : DrawInv l₀ c₀ d₀ fits acc) {k : String}
    (hk : ∀ b, (c₀.find? k).map (·.value) = some b → fits (l₀.bufferLabel k) b.data) :
    DrawInv l₀ c₀ d₀ fits (ChunkedLayer.drawStep acc k) := by
  obtain ⟨l, m, pick, ready, evs⟩ := acc
  -- the key's chunk is the one the draw started with, under the same label
  have hfits : ∀ b, (m.chunk k).1 = some b → fits (l.bufferLabel k) b.data := by
    intro b hb
    rw [Chunk.Manager.chunk_fst, funext h.finds] at hb
    rw [bufferLabel_congr h.label]
    exact hk b hb
  obtain ⟨hacc, htracks, hlabel, hdisp, hman⟩ := h.tracks.drawKey h.live k pick hfits
  rw [drawStep_eq]
  refine ⟨?_, ?_, ?_, hlabel.trans h.label, hdisp.trans h.live, fun j => ?_⟩
  · exact (Device.accepts_append _ _ _).mpr ⟨h.accepts, hacc⟩
  · rw [Device.run_append]
    exact htracks
  · rw [hman, Chunk.Manager.chunk_cache]
    exact (h.sound.get k).2.2
  · rw [hman, Chunk.Manager.chunk_cache, Lru.find?_get]
    exact h.finds j

theorem DrawInv.foldl {acc : ChunkedLayer × Chunk.Manager × Int × Bool × List GpuEvent}
    (h : DrawInv l₀ c₀ d₀ fits acc) (ks : List String)
    (hks : ∀ k ∈ ks, ∀ b, (c₀.find? k).map (·.value) = some b → fits (l₀.bufferLabel k) b.data) :
    DrawInv l₀ c₀ d₀ fits (ks.foldl ChunkedLayer.drawStep acc) :=
  List.foldlRecOn (motive := DrawInv l₀ c₀ d₀ fits) ks ChunkedLayer.drawStep h
    fun _ hacc k hk => hacc.drawStep (hks k hk)


/-! ## Disposing -/

theorem dispose_disposed (l : ChunkedLayer) : l.dispose.1.disposed = true := by
  unfold dispose
  split
  · assumption
  · rfl

/-- Disposing destroys the buffer of every key that has one, each once, and leaves the layer
with no buffers. -/
theorem Tracks.dispose (h : l.Tracks c d []) (fits : String → ByteArray → Prop) :
    d.Accepts fits l.dispose.2 ∧ l.dispose.1.Tracks c (d.run l.dispose.2) [] := by
  by_cases hd : l.disposed = true
  · have hnone : l.dispose = (l, []) := by simp [ChunkedLayer.dispose, hd]
    rw [hnone]
    exact ⟨trivial, h⟩
  -- the labels destroyed are those of the keys with a buffer: distinct, and all live
  have hlabels : l.dispose.2 = (((l.buffers.map (·.1)).map l.bufferLabel).mergeSort (· ≤ ·)).map .destroy := by
    simp only [ChunkedLayer.dispose, hd, Bool.false_eq_true, if_false, List.map_map]
    rfl
  have hperm := List.mergeSort_perm ((l.buffers.map (·.1)).map l.bufferLabel) (fun a b => decide (a ≤ b))
  have hnd : (((l.buffers.map (·.1)).map l.bufferLabel).mergeSort (· ≤ ·)).Nodup :=
    hperm.nodup_iff.mpr (h.nodup.map fun _ _ => l.bufferLabel_inj)
  have hmem : ∀ k, l.bufferLabel k ∈ ((l.buffers.map (·.1)).map l.bufferLabel).mergeSort (· ≤ ·) ↔
      k ∈ l.buffers.map (·.1) := by
    intro k
    rw [hperm.mem_iff, List.mem_map]
    constructor
    · rintro ⟨k', hk', heq⟩
      exact l.bufferLabel_inj heq ▸ hk'
    · intro hk
      exact ⟨k, hk, rfl⟩
  have hlive : ∀ x ∈ ((l.buffers.map (·.1)).map l.bufferLabel).mergeSort (· ≤ ·), d.live x = true := by
    intro x hx
    obtain ⟨k, hk, rfl⟩ := List.mem_map.mp (hperm.mem_iff.mp hx)
    exact (h.live k).mpr hk
  obtain ⟨hacc, hrun⟩ := @Device.accepts_destroyAll fits d _ hnd hlive
  have hlab : l.dispose.1.bufferLabel = l.bufferLabel := by
    funext k
    simp [ChunkedLayer.dispose, hd, bufferLabel]
  have hnil : l.dispose.1.buffers = [] := by simp [ChunkedLayer.dispose, hd]
  rw [hlabels]
  refine ⟨hacc, ⟨by simp [hnil], fun k => ?_, fun k hk => by simp [hnil] at hk, fun _ => hnil⟩⟩
  -- no key keeps a live buffer: those with one had it destroyed, the others had none
  rw [hlab, hnil, hrun]
  by_cases hk : k ∈ l.buffers.map (·.1)
  · rw [if_pos ((hmem k).mpr hk)]
    simp
  · rw [if_neg fun h' => hk ((hmem k).mp h')]
    simpa [hk] using h.live k

end ChunkedLayer

/-! ## A chunked layer over a chunk manager -/

/-- A chunked layer over a chunk manager, with the visible set it reads and the next free pick
id. -/
structure ChunkView where
  manager : Chunk.Manager
  layer : ChunkedLayer
  vis : VisibleSet := {}
  nextPick : Int := 0

namespace ChunkView

/-- What can happen around a chunked layer. A fetch's result reaches the manager as a
delivery, whenever it comes and whatever it holds. -/
inductive Event where
  | request (keys : List String)
  | deliver (a : Chunk.Arrival)
  | flush
  | lookup (key : String)
  | visible (vis : VisibleSet)
  | filter (on : Bool)
  | hover (id : String) (part : Int)
  | select (id : String)
  | draw (spatial : List String)
  | dispose

/-- One event, and the commands it gives the device. The announcements of a flush reach the
layer in order. -/
def step (v : ChunkView) : Event → ChunkView × List GpuEvent
  | .request keys => ({ v with manager := (v.manager.request keys).1 }, [])
  | .deliver a => ({ v with manager := v.manager.deliver a }, [])
  | .flush =>
    let r := v.manager.flush
    let h := v.layer.hearAll r.2.2
    ({ v with manager := r.1, layer := h.1 }, h.2)
  | .lookup key => ({ v with manager := (v.manager.chunk key).2 }, [])
  | .visible vis => ({ v with vis }, [])
  | .filter on =>
    match v.layer.setFilter on with
    | .ok r => ({ v with layer := r.1 }, [])
    | .error _ => (v, [])
  | .hover id part => ({ v with layer := v.layer.setHover id part }, [])
  | .select id => ({ v with layer := (v.layer.setSelected id).1 }, [])
  | .draw spatial =>
    let r := v.layer.draw v.manager v.vis spatial v.nextPick
    ({ v with layer := r.1, manager := r.2.1, nextPick := r.2.2.2.1 }, r.2.2.2.2.2)
  | .dispose => ({ v with layer := v.layer.dispose.1 }, v.layer.dispose.2)

/-- What a bind an event gives may find: a draw binds the label of each key it draws to the
bytes of the key's cached chunk, and no other event binds. -/
def shows (v : ChunkView) : Event → String → ByteArray → Prop
  | .draw spatial => fun label data => ∃ k ∈ v.layer.keys v.vis spatial, label = v.layer.bufferLabel k ∧
      ∃ b, (v.manager.chunk k).1 = some b ∧ data = b.data
  | _ => fun _ _ => False

def run (v : ChunkView) : List Event → ChunkView × List GpuEvent
  | [] => (v, [])
  | e :: es => (((v.step e).1.run es).1, (v.step e).2 ++ ((v.step e).1.run es).2)

def make (capacity : Int) (limits : Option ResourceLimits) (label : String) (style : Style)
    (segmented filter : Bool) (vis : VisibleSet) : ChunkView :=
  { manager := Chunk.Manager.make capacity (limits.map Controller.make),
    layer := ChunkedLayer.make label style segmented filter, vis }

/-- What holds of a chunked layer, its manager and the device: the cache is sound, and the
layer's buffers track it with no announcement left to hear. -/
structure Coherent (v : ChunkView) (d : Device) : Prop where
  sound : v.manager.cache.Sound
  tracks : v.layer.Tracks v.manager.cache d []

theorem coherent_make (capacity : Int) (limits : Option ResourceLimits) (label : String) (style : Style)
    (segmented filter : Bool) (vis : VisibleSet) : (make capacity limits label style segmented filter vis).Coherent {} where
  sound := Chunk.Manager.make_sound capacity limits
  tracks := ⟨List.nodup_nil, fun k => by simp [make, ChunkedLayer.make],
    fun k hk => by simp [make, ChunkedLayer.make] at hk, fun _ => rfl⟩

variable {v : ChunkView} {d : Device}

theorem Coherent.of_same {w : ChunkView} (h : v.Coherent d) (hc : w.manager.cache = v.manager.cache)
    (hs : ChunkedLayer.SameBuffers v.layer w.layer) : w.Coherent d where
  sound := hc ▸ h.sound
  tracks := hc ▸ h.tracks.of_same hs

/-- A flush caches anew only what it announces as ready, so after the layer has heard the
announcements its buffers track the cache again. -/
theorem Coherent.flush (h : v.Coherent d) :
    d.Accepts (v.shows .flush) (v.step .flush).2 ∧ (v.step .flush).1.Coherent (d.run (v.step .flush).2) := by
  obtain ⟨hsound, hann⟩ := Chunk.Manager.flush_announces h.sound
  obtain ⟨hacc, htracks⟩ := (h.tracks.of_announced hann).hearAll (v.shows .flush) v.manager.flush.2.2
  exact ⟨hacc, hsound, htracks⟩

/-- A draw of a live layer is accepted, binding the cached chunk of each key it draws. -/
theorem Coherent.draw (h : v.Coherent d) (hlive : v.layer.disposed = false) (spatial : List String) :
    d.Accepts (v.shows (.draw spatial)) (v.step (.draw spatial)).2 ∧
      (v.step (.draw spatial)).1.Coherent (d.run (v.step (.draw spatial)).2) := by
  obtain ⟨hl, hm, hcmds⟩ := v.layer.draw_of_live hlive v.manager v.vis spatial v.nextPick
  -- the request leaves the cache as it was, so the keys are drawn from a coherent state
  have h₀ : ChunkedLayer.DrawInv v.layer v.manager.cache d (v.shows (.draw spatial))
      (v.layer, (v.manager.request (v.layer.keys v.vis spatial)).1, v.nextPick, true, []) := by
    refine ⟨trivial, ?_, ?_, rfl, hlive, fun k => ?_⟩ <;> simp only [Chunk.Manager.request_cache, Device.run_nil]
    · exact h.tracks
    · exact h.sound
  have hinv := h₀.foldl (v.layer.keys v.vis spatial) fun k hk b hb =>
    ⟨k, hk, rfl, b, by rw [Chunk.Manager.chunk_fst]; exact hb, rfl⟩
  have hstep : (v.step (.draw spatial)).2 = (v.layer.draw v.manager v.vis spatial v.nextPick).2.2.2.2.2 := rfl
  have hlayer : (v.step (.draw spatial)).1.layer = (v.layer.draw v.manager v.vis spatial v.nextPick).1 := rfl
  have hman : (v.step (.draw spatial)).1.manager = (v.layer.draw v.manager v.vis spatial v.nextPick).2.1 := rfl
  rw [hstep, hcmds]
  refine ⟨hinv.accepts, ?_, ?_⟩
  · rw [hman, hm]
    exact hinv.sound
  · rw [hlayer, hman, hl, hm]
    exact hinv.tracks

theorem Coherent.dispose (h : v.Coherent d) :
    d.Accepts (v.shows .dispose) (v.step .dispose).2 ∧ (v.step .dispose).1.Coherent (d.run (v.step .dispose).2) := by
  obtain ⟨hacc, htracks⟩ := h.tracks.dispose (v.shows .dispose)
  exact ⟨hacc, h.sound, htracks⟩

/-- One step of a coherent chunked layer: its commands are accepted, binding what the event
shows, it stays coherent with the device, and a disposed layer gives no command. -/
theorem Coherent.step (h : v.Coherent d) (e : Event) :
    d.Accepts (v.shows e) (v.step e).2 ∧ (v.step e).1.Coherent (d.run (v.step e).2) ∧
      (v.layer.disposed = true → (v.step e).2 = []) := by
  cases e with
  | request keys => exact ⟨trivial, h.of_same (Chunk.Manager.request_cache _ _) (.refl _), fun _ => rfl⟩
  | deliver a => exact ⟨trivial, h.of_same rfl (.refl _), fun _ => rfl⟩
  | flush =>
    -- a disposed layer no longer listens
    refine ⟨h.flush.1, h.flush.2, fun hd => ?_⟩
    simp [ChunkView.step, ChunkedLayer.hearAll_of_disposed hd]
  | lookup key => exact ⟨trivial, ⟨(h.sound.get key).2.2, h.tracks.cache_congr (Lru.find?_get key)⟩, fun _ => rfl⟩
  | visible vis => exact ⟨trivial, h.of_same rfl (.refl _), fun _ => rfl⟩
  | filter on =>
    -- a refused switch changes nothing
    cases hf : v.layer.setFilter on with
    | ok r =>
      have hstep : v.step (.filter on) = ({ v with layer := r.1 }, []) := by simp [ChunkView.step, hf]
      rw [hstep]
      exact ⟨trivial, h.of_same rfl (ChunkedLayer.sameBuffers_setFilter hf), fun _ => rfl⟩
    | error err =>
      have hstep : v.step (.filter on) = (v, []) := by simp [ChunkView.step, hf]
      rw [hstep]
      exact ⟨trivial, h, fun _ => rfl⟩
  | hover id part => exact ⟨trivial, h.of_same rfl (ChunkedLayer.sameBuffers_setHover _ _ _), fun _ => rfl⟩
  | select id => exact ⟨trivial, h.of_same rfl (ChunkedLayer.sameBuffers_setSelected _ _), fun _ => rfl⟩
  | draw spatial =>
    cases hd : v.layer.disposed
    · exact ⟨(h.draw hd spatial).1, (h.draw hd spatial).2, fun h' => absurd h' (by simp)⟩
    · -- a disposed layer draws nothing
      have hdraw := ChunkedLayer.draw_of_disposed hd v.manager v.vis spatial v.nextPick
      have hstep : (v.step (.draw spatial)).2 = [] ∧ (v.step (.draw spatial)).1.manager = v.manager ∧
          (v.step (.draw spatial)).1.layer = v.layer := by
        simp [ChunkView.step, hdraw]
      rw [hstep.1]
      exact ⟨trivial, h.of_same (by rw [hstep.2.1]) (hstep.2.2 ▸ .refl _), fun _ => rfl⟩
  | dispose =>
    refine ⟨h.dispose.1, h.dispose.2, fun hd => ?_⟩
    simp [ChunkView.step, ChunkedLayer.dispose, hd]

/-- A disposed layer stays disposed, and disposing leaves any layer disposed. -/
theorem disposed_step (v : ChunkView) (e : Event) (h : v.layer.disposed = true ∨ e = .dispose) :
    (v.step e).1.layer.disposed = true := by
  rcases h with hd | rfl
  · cases e with
    | flush => simp [ChunkView.step, ChunkedLayer.hearAll_of_disposed hd, hd]
    | filter on =>
      cases hf : v.layer.setFilter on with
      | ok r => simpa [ChunkView.step, hf] using (ChunkedLayer.sameBuffers_setFilter hf).disposed.trans hd
      | error err => simpa [ChunkView.step, hf] using hd
    | select id => exact (ChunkedLayer.sameBuffers_setSelected v.layer id).disposed.trans hd
    | draw spatial => simp [ChunkView.step, ChunkedLayer.draw_of_disposed hd, hd]
    | dispose => exact v.layer.dispose_disposed
    | request keys => exact hd
    | deliver a => exact hd
    | lookup key => exact hd
    | visible vis => exact hd
    | hover id part => exact hd
  · exact v.layer.dispose_disposed

theorem disposed_run (v : ChunkView) (es : List Event) (h : v.layer.disposed = true ∨ Event.dispose ∈ es) :
    (v.run es).1.layer.disposed = true := by
  induction es generalizing v with
  | nil => simpa [ChunkView.run] using h
  | cons e es ih =>
    by_cases hes : Event.dispose ∈ es
    · exact ih (v.step e).1 (.inr hes)
    · -- the disposal, if it is this event, leaves the layer disposed for the rest
      refine ih (v.step e).1 (.inl (disposed_step v e ?_))
      rcases h with hd | hmem
      · exact .inl hd
      · exact .inr ((List.mem_cons.mp hmem).resolve_right hes).symm

theorem Coherent.run (h : v.Coherent d) (es : List Event) : (v.run es).1.Coherent (d.run (v.run es).2) := by
  induction es generalizing v d with
  | nil => exact h
  | cons e es ih =>
    simp only [ChunkView.run]
    rw [Device.run_append]
    exact ih (h.step e).2.1

/-- A chunked layer over a new manager, through any interleaving of requests, deliveries,
flushes, lookups, visibility changes, filter switches, hovering, selecting, draws and
disposal: the device accepts each next step's commands, a draw binding for each key it draws
the bytes of the key's cached chunk, and after a disposal the layer gives no more commands. -/
theorem run_accepts (capacity : Int) (limits : Option ResourceLimits) (label : String) (style : Style)
    (segmented filter : Bool) (vis : VisibleSet) (es : List Event) (e : Event) :
    Device.Accepts (((make capacity limits label style segmented filter vis).run es).1.shows e)
        (({} : Device).run ((make capacity limits label style segmented filter vis).run es).2)
        (((make capacity limits label style segmented filter vis).run es).1.step e).2 ∧
      (Event.dispose ∈ es → (((make capacity limits label style segmented filter vis).run es).1.step e).2 = []) := by
  have h := ((coherent_make capacity limits label style segmented filter vis).run es).step e
  exact ⟨h.1, fun hmem => h.2.2 (disposed_run _ es (.inr hmem))⟩

end ChunkView

/-- Both kinds of layer keep the device coherent with what they draw, along any interleaving
of what can happen to them: every buffer is made under a label with none live, every upload,
bind and destroy goes to a live buffer (so no buffer is destroyed twice), every bind finds as
last upload the bytes the draw shows (the memo's packing for a layer over a source, the cached
chunk of each drawn key for a chunked layer), and after a disposal no command is given. -/
theorem gpu_buffers_coherent (label : String) (style : Style) (segmented filter : Bool) (vis : VisibleSet)
    (src : Source) (es : List LayerView.Event) (e : LayerView.Event)
    (capacity : Int) (limits : Option ResourceLimits) (cs : List ChunkView.Event) (c : ChunkView.Event) :
    (Device.Accepts ((({ layer := Layer.make label style segmented filter, source := src, vis } : LayerView).run es).1.shows e)
        (({} : Device).run (({ layer := Layer.make label style segmented filter, source := src, vis } : LayerView).run es).2)
        ((({ layer := Layer.make label style segmented filter, source := src, vis } : LayerView).run es).1.step e).2 ∧
      (LayerView.Event.dispose ∈ es →
        ((({ layer := Layer.make label style segmented filter, source := src, vis } : LayerView).run es).1.step e).2 = [])) ∧
    (Device.Accepts (((ChunkView.make capacity limits label style segmented filter vis).run cs).1.shows c)
        (({} : Device).run ((ChunkView.make capacity limits label style segmented filter vis).run cs).2)
        (((ChunkView.make capacity limits label style segmented filter vis).run cs).1.step c).2 ∧
      (ChunkView.Event.dispose ∈ cs →
        (((ChunkView.make capacity limits label style segmented filter vis).run cs).1.step c).2 = [])) :=
  ⟨LayerView.run_accepts label style segmented filter src vis es e,
    ChunkView.run_accepts capacity limits label style segmented filter vis cs c⟩

end AnnotationStore
