import AnnotationStore.Store.Facade
import AnnotationStore.Proofs.Source.Run
/-!
# Failed operations change nothing

Every check of an operation of the source comes before its first write: an add of nothing or
of a stored id, an update with nothing, through a deleted cell or of an id no longer stored,
and a restore from a payload that is not an array all fail with the source as it was (an add
without an id has used up a generated id by then) and with no notice. A commit of an id that
is not pending and a delete through a deleted cell do nothing at all.

The snapshot manager's load and the store's add, update, restore and load pass these
failures on, and fail in their own checks before they reach the source, so they too leave the
source as it was whenever they give an error.
-/

namespace AnnotationStore

/-- A payload that is not an array is reported as malformed data at no index, its reason
followed by the codec's own text, which is not modelled. -/
theorem StoreError.unreadablePayload_message : StoreError.unreadablePayload.message =
    ({ index := -1, reason := StoreError.unreadableReason ++ ": " } : Malformed).message := by
  unfold StoreError.message Malformed.message
  rw [if_pos (by decide)]
  dsimp only
  rw [if_pos (show "".isEmpty = true from rfl), String.append_empty, String.append_assoc]

namespace Source

variable {s : Source}

/-! ## The failing inputs -/

theorem addNamed_of_stored {a : Annotation} (h : (s.get? a.id).isSome) (commit : Bool) :
    s.addNamed a commit = ⟨.error (.duplicateId a.id), s, [], []⟩ := by
  unfold addNamed
  rw [if_pos h]

theorem update_none {c : Nat} {r : RefCell} (hr : s.cell? c = some r) :
    s.update c none = ⟨.error .nilValue, s, [], []⟩ := by
  simp only [update, hr]

theorem update_tombstoned {c : Nat} {r : RefCell} (hr : s.cell? c = some r)
    (hdel : r.state = .tombstoned) (a : Annotation) :
    s.update c (some a) = ⟨.error (.alreadyDeleted r.id), s, [], []⟩ := by
  simp only [update, hr, hdel, if_true]

theorem update_not_stored {c : Nat} {r : RefCell} (hr : s.cell? c = some r)
    (hnone : s.get? r.id = none) (a : Annotation) :
    s.update c (some a) = ⟨.error (.alreadyDeleted r.id), s, [], []⟩ := by
  by_cases hdel : r.state = .tombstoned
  · exact update_tombstoned hr hdel a
  · simp only [update, hr, hdel, hnone, if_false]

theorem restoreWith_null {c : Codec} {payload : String} (h : c.parse? payload = some .null) :
    s.restoreWith c payload =
      ⟨.error (.malformed { index := -1, reason := StoreError.unreadableReason }), s, [], []⟩ := by
  unfold restoreWith
  rw [h]

theorem restoreWith_not_array {c : Codec} {payload : String} (hnull : c.parse? payload ≠ some .null)
    (harr : ∀ items, c.parse? payload ≠ some (.arr items)) :
    s.restoreWith c payload = ⟨.error .unreadablePayload, s, [], []⟩ := by
  unfold restoreWith
  split
  · exact absurd ‹_› hnull
  · exact absurd ‹_› (harr _)
  · rfl

theorem commit_not_pending {c : Nat} {r : RefCell} (hr : s.cell? c = some r)
    (hpending : s.isPending r.id = false) : s.commit c = ⟨(), s, [], []⟩ := by
  simp only [commit, hr, hpending, Bool.false_eq_true, if_false]

theorem delete_tombstoned {c : Nat} {r : RefCell} (hr : s.cell? c = some r)
    (hdel : r.state = .tombstoned) (nullify : Bool) : s.delete c nullify = ⟨(), s, [], []⟩ := by
  simp only [delete, hr, hdel, if_true]

/-! ## Errors change nothing -/

/-- An add that fails has changed nothing but the count of generated ids, and says nothing. -/
theorem add_error {a : Option Annotation} {commit : Bool} {e : StoreError}
    (h : (s.add a commit).result = .error e) :
    ∃ n, (s.add a commit).source = { s with issued := n } ∧ (s.add a commit).notices = [] := by
  cases a with
  | none => exact ⟨s.issued, rfl, rfl⟩
  | some a =>
    obtain ⟨n, hs⟩ := assignId_snd_eq s a
    change ((s.assignId a).2.addNamed (s.assignId a).1 commit).result = .error e at h
    -- only a stored id makes the add fail
    have hstored : ((s.assignId a).2.get? (s.assignId a).1.id).isSome := by
      rw [addNamed_result] at h
      split at h
      · assumption
      · cases h
    refine ⟨n, ?_, ?_⟩
    · show ((s.assignId a).2.addNamed (s.assignId a).1 commit).source = _
      rw [addNamed_of_stored hstored, hs]
    · show ((s.assignId a).2.addNamed (s.assignId a).1 commit).notices = _
      rw [addNamed_of_stored hstored]

/-- An update fails only through a cell for one of the three reasons, and then changes
nothing. -/
theorem update_error {c : Nat} {a : Option Annotation} {e : StoreError}
    (h : (s.update c a).result = .error e) :
    (s.update c a).source = s ∧ (s.update c a).notices = [] := by
  cases hc : s.cell? c with
  | none => simp [update, hc] at h
  | some r =>
    cases a with
    | none =>
      rw [update_none hc]
      exact ⟨rfl, rfl⟩
    | some b =>
      by_cases hdel : r.state = .tombstoned
      · rw [update_tombstoned hc hdel]
        exact ⟨rfl, rfl⟩
      · cases hget : s.get? r.id with
        | none =>
          rw [update_not_stored hc hget]
          exact ⟨rfl, rfl⟩
        | some old => simp [update, hc, hdel, hget] at h

/-- A restore fails only on a payload that is not an array, and then changes nothing. -/
theorem restoreWith_error {c : Codec} {payload : String} {e : StoreError}
    (h : (s.restoreWith c payload).result = .error e) :
    (s.restoreWith c payload).source = s ∧ (s.restoreWith c payload).notices = [] := by
  by_cases hnull : c.parse? payload = some .null
  · rw [restoreWith_null hnull]
    exact ⟨rfl, rfl⟩
  · by_cases harr : ∃ items, c.parse? payload = some (.arr items)
    · obtain ⟨items, hitems⟩ := harr
      simp [restoreWith, hitems] at h
    · rw [restoreWith_not_array hnull fun items hitems => harr ⟨items, hitems⟩]
      exact ⟨rfl, rfl⟩

end Source

namespace Snapshot.Manager

/-- A load that fails leaves the source as it was and says nothing: it fails before the
restore, or the restore itself failed. -/
theorem load_error {m : Manager} {store : BlobStore} {cancelled : Bool} {name : String}
    {s : Source} {e : StoreError} (h : (m.load store cancelled name s).result = .error e) :
    (m.load store cancelled name s).source = s ∧ (m.load store cancelled name s).notices = [] := by
  unfold load at h ⊢
  dsimp only at h ⊢
  split
  next => exact ⟨rfl, rfl⟩
  next hready =>
    split
    next => exact ⟨rfl, rfl⟩
    next data hread =>
      split
      next => exact ⟨rfl, rfl⟩
      next header payload hdec =>
        simp only [hready, hread, hdec] at h
        -- past the checks of the manager, the restore decides
        split
        next e' hrestore => exact Source.restoreWith_error hrestore
        next res hrestore => simp [hrestore] at h

end Snapshot.Manager

namespace Store

variable {st : Store} {e : StoreError}

theorem error_of_mapError {α : Type} {r : Except StoreError α}
    (h : r.mapError StoreError.restate = .error e) : ∃ e', r = .error e' := by
  cases r with
  | error e' => exact ⟨e', rfl⟩
  | ok v => cases h

theorem add_error {a : Option Annotation} {commit : Bool} (h : (st.add a commit).result = .error e) :
    ∃ n, (st.add a commit).store.source = { st.source with issued := n } ∧
      (st.add a commit).notices = [] := by
  unfold add at h ⊢
  split
  · exact ⟨st.source.issued, rfl, rfl⟩
  · rename_i hopen
    rw [if_neg hopen] at h
    obtain ⟨e', he'⟩ := error_of_mapError h
    exact Source.add_error he'

theorem update_error {c : Nat} {a : Option Annotation} (h : (st.update c a).result = .error e) :
    (st.update c a).store.source = st.source ∧ (st.update c a).notices = [] := by
  unfold update at h ⊢
  split
  · exact ⟨rfl, rfl⟩
  · rename_i hopen
    rw [if_neg hopen] at h
    obtain ⟨e', he'⟩ := error_of_mapError h
    exact Source.update_error he'

theorem restoreState_error {payload : String} (h : (st.restoreState payload).result = .error e) :
    (st.restoreState payload).store.source = st.source ∧ (st.restoreState payload).notices = [] := by
  unfold restoreState at h ⊢
  split
  · exact ⟨rfl, rfl⟩
  · rename_i hopen
    rw [if_neg hopen] at h
    obtain ⟨e', he'⟩ := error_of_mapError h
    exact Source.restoreWith_error he'

theorem load_error {blobs : BlobStore} {cancelled : Bool} {name : String}
    (h : (st.load blobs cancelled name).result = .error e) :
    (st.load blobs cancelled name).store.source = st.source ∧
      (st.load blobs cancelled name).notices = [] := by
  unfold load at h ⊢
  split
  · exact ⟨rfl, rfl⟩
  · rename_i hopen
    rw [if_neg hopen] at h
    split
    · exact ⟨rfl, rfl⟩
    · rename_i m hm
      rw [hm] at h
      obtain ⟨e', he'⟩ := error_of_mapError h
      exact Snapshot.Manager.load_error he'

end Store

/-- Failed and no-op operations leave the store as it was. An add of nothing or of a stored id,
an update with nothing, through a deleted cell or of an id no longer stored, and a restore from
a payload that is null or not an array fail with those errors; a payload that is not an array
is malformed data at no index. Every error of an add, an update or a restore leaves the source
as it was, apart from the generated id an add without one has used up, and gives no notice. A
commit of an id that is not pending and a delete through a deleted cell do nothing. One level
up, the manager's load and the store's add, update, restore and load leave the source as it
was whenever they fail. -/
theorem failures_leave_source_unchanged (s : Source) :
    (∀ commit, (s.add none commit).result = .error .nilValue) ∧
    (∀ a commit, (s.get? (s.assignId a).1.id).isSome →
      (s.add (some a) commit).result = .error (.duplicateId (s.assignId a).1.id)) ∧
    (∀ c r, s.cell? c = some r → (s.update c none).result = .error .nilValue ∧
      ∀ a, r.state = .tombstoned ∨ s.get? r.id = none →
        (s.update c (some a)).result = .error (.alreadyDeleted r.id)) ∧
    (∀ codec payload, codec.parse? payload = some .null →
      (s.restoreWith codec payload).result =
        .error (.malformed { index := -1, reason := StoreError.unreadableReason })) ∧
    (∀ codec payload, codec.parse? payload ≠ some .null →
      (∀ items, codec.parse? payload ≠ some (.arr items)) →
      (s.restoreWith codec payload).result = .error .unreadablePayload) ∧
    StoreError.unreadablePayload.message =
      ({ index := -1, reason := StoreError.unreadableReason ++ ": " } : Malformed).message ∧
    (∀ a commit e, (s.add a commit).result = .error e →
      ∃ n, (s.add a commit).source = { s with issued := n } ∧ (s.add a commit).notices = []) ∧
    (∀ c a e, (s.update c a).result = .error e →
      (s.update c a).source = s ∧ (s.update c a).notices = []) ∧
    (∀ codec payload e, (s.restoreWith codec payload).result = .error e →
      (s.restoreWith codec payload).source = s ∧ (s.restoreWith codec payload).notices = []) ∧
    (∀ c r, s.cell? c = some r → s.isPending r.id = false → s.commit c = ⟨(), s, [], []⟩) ∧
    (∀ c r nullify, s.cell? c = some r → r.state = .tombstoned →
      s.delete c nullify = ⟨(), s, [], []⟩) ∧
    (∀ (m : Snapshot.Manager) blobs cancelled name e,
      (m.load blobs cancelled name s).result = .error e →
      (m.load blobs cancelled name s).source = s ∧ (m.load blobs cancelled name s).notices = []) ∧
    ∀ st : Store, st.source = s →
      (∀ a commit e, (st.add a commit).result = .error e →
        ∃ n, (st.add a commit).store.source = { s with issued := n } ∧
          (st.add a commit).notices = []) ∧
      (∀ c a e, (st.update c a).result = .error e →
        (st.update c a).store.source = s ∧ (st.update c a).notices = []) ∧
      (∀ payload e, (st.restoreState payload).result = .error e →
        (st.restoreState payload).store.source = s ∧ (st.restoreState payload).notices = []) ∧
      ∀ blobs cancelled name e, (st.load blobs cancelled name).result = .error e →
        (st.load blobs cancelled name).store.source = s ∧
          (st.load blobs cancelled name).notices = [] := by
  refine ⟨fun _ => rfl, fun a commit hstored => ?_, fun c r hr => ⟨?_, fun a ha => ?_⟩,
    fun codec payload hnull => ?_, fun codec payload hnull harr => ?_, ?_,
    fun _ _ _ h => Source.add_error h, fun _ _ _ h => Source.update_error h,
    fun _ _ _ h => Source.restoreWith_error h, fun _ _ hr hpending => Source.commit_not_pending hr hpending,
    fun _ _ nullify hr hdel => Source.delete_tombstoned hr hdel nullify,
    fun _ _ _ _ _ h => Snapshot.Manager.load_error h, fun st hst => ?_⟩
  · -- a generated id only advances the count, so the lookup is the source's own
    obtain ⟨n, hs⟩ := Source.assignId_snd_eq s a
    have hstored' : ((s.assignId a).2.get? (s.assignId a).1.id).isSome := by
      rw [hs]
      exact hstored
    show ((s.assignId a).2.addNamed (s.assignId a).1 commit).result = _
    rw [Source.addNamed_of_stored hstored']
  · rw [Source.update_none hr]
  · rcases ha with hdel | hnone
    · rw [Source.update_tombstoned hr hdel]
    · rw [Source.update_not_stored hr hnone]
  · rw [Source.restoreWith_null hnull]
  · rw [Source.restoreWith_not_array hnull harr]
  · exact StoreError.unreadablePayload_message
  · subst hst
    exact ⟨fun _ _ _ h => Store.add_error h, fun _ _ _ h => Store.update_error h,
      fun _ _ h => Store.restoreState_error h, fun _ _ _ _ h => Store.load_error h⟩

end AnnotationStore
