import Mathlib
import AnnotationStore.Blob.Remote
/-!
# A quiet object service

An object service told to fail no call and to give whole bodies is a bucket of objects:
each call records itself and otherwise reads or changes the objects as its name says.

* `head_of_quiet`, `get_of_quiet`, `put_of_quiet`, `delete_of_quiet`: the calls on one key.
* `createMultipart_of_quiet`, `sendParts_of_quiet`, `completeMultipart_of_quiet`: an upload
  collects the parts sent to it, in order, and completing it stores them joined.
* `listPages_of_quiet`: collecting listing pages from the first gives every key with the
  prefix, in some order. A page names the position of the next one in decimal, which reads
  back as that position, and each page before the last takes at least one
  key, so the pages run out before the fuel does.
-/

namespace AnnotationStore

namespace ObjectService

/-- A service that fails no call and gives whole bodies. -/
structure Quiet (svc : ObjectService) : Prop where
  failing : svc.failing = []
  whole : svc.shortBodies = false

/-- A quiet service whose bucket holds `objects`. -/
structure Holds (svc : ObjectService) (objects : List (String × ByteArray)) : Prop where
  quiet : svc.Quiet
  objects : svc.objects = objects

variable {svc : ObjectService}

@[simp] theorem record_objects (c : String) : (svc.record c).objects = svc.objects := rfl

@[simp] theorem record_uploads (c : String) : (svc.record c).uploads = svc.uploads := rfl

@[simp] theorem record_pageSize (c : String) : (svc.record c).pageSize = svc.pageSize := rfl

@[simp] theorem record_shortBodies (c : String) : (svc.record c).shortBodies = svc.shortBodies := rfl

@[simp] theorem record_missingDeleteFails (c : String) :
    (svc.record c).missingDeleteFails = svc.missingDeleteFails := rfl

@[simp] theorem store_objects (key : String) (data : ByteArray) :
    (svc.store key data).objects = svc.objects.filter (·.1 != key) ++ [(key, data)] := rfl

theorem Quiet.record (h : svc.Quiet) (c : String) : (svc.record c).Quiet := ⟨h.failing, h.whole⟩

theorem Quiet.store (h : svc.Quiet) (key : String) (data : ByteArray) : (svc.store key data).Quiet :=
  ⟨h.failing, h.whole⟩

theorem enter_of_quiet (h : svc.Quiet) (op key call : String) : svc.enter op key call = (svc.record call, false) := by
  simp [enter, fails, h.failing]

theorem head_of_quiet (h : svc.Quiet) (key : String) :
    ∃ svc', svc'.Holds svc.objects ∧
      svc.head key = (svc', (svc.objects.lookup key).elim (.error .noSuchKey) fun d => .ok d.size) := by
  simp only [head, enter_of_quiet h, record_objects]
  cases svc.objects.lookup key <;> exact ⟨_, ⟨h.record _, rfl⟩, rfl⟩

theorem get_of_quiet (h : svc.Quiet) (key : String) (first last : Nat) :
    ∃ svc', svc'.Holds svc.objects ∧
      svc.get key first last = (svc', (svc.objects.lookup key).elim (.error .noSuchKey)
        fun d => .ok (d.extract first (last + 1))) := by
  simp only [get, enter_of_quiet h, record_objects, record_shortBodies, h.whole, Bool.false_eq_true, if_false]
  cases svc.objects.lookup key <;> exact ⟨_, ⟨h.record _, rfl⟩, rfl⟩

theorem put_of_quiet (h : svc.Quiet) (key : String) (data : ByteArray) (length : Option Nat)
    (crc : Option String) (algorithm : Bool) :
    ∃ svc', svc'.Holds (svc.store key data).objects ∧ svc.put key data length crc algorithm = (svc', .ok ()) := by
  simp only [put, enter_of_quiet h]
  exact ⟨_, ⟨(h.record _).store key data, rfl⟩, rfl⟩

/-- Deleting a key leaves every other object; a missing key may be reported, never failed. -/
theorem delete_of_quiet (h : svc.Quiet) (key : String) :
    ∃ svc', svc'.Holds (svc.objects.filter (·.1 != key)) ∧
      (svc.delete key = (svc', .ok ()) ∨ svc.delete key = (svc', .error .noSuchKey)) := by
  cases hmissing : ((svc.objects.lookup key).isNone && svc.missingDeleteFails) with
  | true =>
    -- reported missing: there is nothing to remove, so the objects are already without the key
    have hnone : svc.objects.lookup key = none := by
      rw [Bool.and_eq_true, Option.isNone_iff_eq_none] at hmissing
      exact hmissing.1
    have hkeep : svc.objects.filter (·.1 != key) = svc.objects :=
      List.filter_eq_self.mpr fun o ho => by simpa [bne_comm] using List.lookup_eq_none_iff.mp hnone o ho
    simp only [delete, enter_of_quiet h, record_objects, record_missingDeleteFails, hmissing, if_true]
    exact ⟨_, ⟨h.record _, hkeep.symm⟩, .inr rfl⟩
  | false =>
    simp only [delete, enter_of_quiet h, record_objects, record_missingDeleteFails, hmissing, Bool.false_eq_true, if_false]
    refine ⟨_, ?_, .inl rfl⟩
    exact ⟨⟨h.failing, h.whole⟩, rfl⟩

/-! ## Multipart uploads -/

theorem lookup_filter_ne_self {ν : Type} (l : List (String × ν)) (k : String) :
    (l.filter (·.1 != k)).lookup k = none :=
  List.lookup_eq_none_iff.mpr fun o ho => by
    have hne : (o.1 != k) = true := (List.mem_filter.mp ho).2
    simpa [bne_comm] using hne

theorem createMultipart_of_quiet (h : svc.Quiet) (key : String) (algorithm : Bool) :
    ∃ svc', svc'.Holds svc.objects ∧ svc'.uploads.lookup key = some [] ∧
      svc.createMultipart key algorithm = (svc', .ok ()) := by
  simp only [createMultipart, enter_of_quiet h]
  refine ⟨_, ?_, ?_, rfl⟩
  · exact ⟨⟨h.failing, h.whole⟩, rfl⟩
  · simp [List.lookup_append, lookup_filter_ne_self]

theorem uploadPart_of_quiet (h : svc.Quiet) (key : String) (n : Nat) (data : ByteArray) :
    ∃ svc', svc'.Holds svc.objects ∧ svc'.uploads.lookup key = (svc.uploads.lookup key).map (· ++ [data]) ∧
      svc.uploadPart key n data = (svc', .ok ()) := by
  simp only [uploadPart, enter_of_quiet h, record_uploads]
  refine ⟨_, ?_, ?_, rfl⟩
  · exact ⟨⟨h.failing, h.whole⟩, rfl⟩
  · induction svc.uploads with
    | nil => rfl
    | cons e es ih =>
      obtain ⟨k, ps⟩ := e
      by_cases hk : k = key
      · subst hk
        simp [List.lookup]
      · have hne : (key == k) = false := beq_eq_false_iff_ne.mpr (Ne.symm hk)
        simpa [List.lookup, hk, hne] using ih

/-- Sending parts in order appends them, in order, to the upload of their key. -/
theorem sendParts_of_quiet (key : String) (all : Bool) :
    ∀ (ps : List ByteArray) (svc : ObjectService) (n : Nat), svc.Quiet →
      ∃ svc', svc'.Holds svc.objects ∧ svc'.uploads.lookup key = (svc.uploads.lookup key).map (· ++ ps) ∧
        RemoteStore.sendParts key all svc n ps = (svc', none)
  | [], svc, _, h => ⟨svc, ⟨h, rfl⟩, by simp, rfl⟩
  | p :: ps, svc, n, h => by
    obtain ⟨svc₁, h₁, hup₁, hcall⟩ := uploadPart_of_quiet h key n p
    obtain ⟨svc₂, h₂, hup₂, hrest⟩ := sendParts_of_quiet key all ps svc₁ (n + 1) h₁.quiet
    refine ⟨svc₂, ⟨h₂.quiet, h₂.objects.trans h₁.objects⟩, ?_, ?_⟩
    · rw [hup₂, hup₁, Option.map_map]
      simp [Function.comp_def]
    · simp only [RemoteStore.sendParts, hcall, hrest]

theorem completeMultipart_of_quiet (h : svc.Quiet) (key : String) (n : Nat) :
    ∃ svc', svc'.Holds (svc.store key (((svc.uploads.lookup key).getD []).foldl (· ++ ·) .empty)).objects ∧
      svc.completeMultipart key n = (svc', .ok ()) := by
  simp only [completeMultipart, enter_of_quiet h]
  refine ⟨_, ?_, rfl⟩
  exact ⟨⟨h.failing, h.whole⟩, rfl⟩

/-! ## Listing -/

/-- The keys with a prefix, in key order: the listing a service serves page by page. -/
def listed (svc : ObjectService) (pfx : String) : List String :=
  ((svc.objects.map (·.1)).filter pfx.isPrefixOf).mergeSort (· ≤ ·)

theorem listed_eq (pfx : String) :
    ((svc.objects.map (·.1)).filter pfx.isPrefixOf).mergeSort (· ≤ ·) = svc.listed pfx := rfl

@[simp] theorem listed_record (c pfx : String) : (svc.record c).listed pfx = svc.listed pfx := rfl

theorem listed_perm (pfx : String) : (svc.listed pfx).Perm ((svc.objects.map (·.1)).filter pfx.isPrefixOf) :=
  List.mergeSort_perm _ _

end ObjectService

namespace RemoteStore

open ObjectService

theorem listPages_of_quiet (full : String) :
    ∀ (fuel : Nat) (svc : ObjectService) (start : Nat) (token : Option String) (acc : List String),
      svc.Quiet → (token.bind String.toNat?).getD 0 = start → (svc.listed full).length - start < fuel →
      ∃ svc' keys, svc'.Holds svc.objects ∧ keys.Perm (acc ++ (svc.listed full).drop start) ∧
        listPages full fuel svc token acc = (svc', .ok keys)
  | 0, _, _, _, _, _, _, hfuel => absurd hfuel (Nat.not_lt_zero _)
  | fuel + 1, svc, start, token, acc, h, htoken, hfuel => by
    -- the page condition becomes a proposition before the recorded service is simplified away
    simp only [listPages, ObjectService.list, enter_of_quiet h, Bool.and_eq_true, decide_eq_true_eq]
    simp only [htoken, record_objects, record_pageSize, listed_eq]
    by_cases hpage : 0 < svc.pageSize ∧ svc.pageSize < ((svc.listed full).drop start).length
    · -- a full page: the rest comes from the next position, with one fuel less
      rw [if_pos hpage]
      have hnext : ((some (toString (start + svc.pageSize))).bind String.toNat?).getD 0 = start + svc.pageSize := by
        simp only [Option.bind_some, Nat.toString_eq_repr, Nat.toNat?_repr, Option.getD_some]
      have hsize := hpage
      rw [List.length_drop] at hsize
      obtain ⟨svc', keys, hholds, hperm, hrest⟩ := listPages_of_quiet full fuel
        (svc.record ("list " ++ full ++ " " ++ token.getD "")) (start + svc.pageSize)
        _ (acc ++ ((svc.listed full).drop start |>.take svc.pageSize).reverse) (h.record _) hnext (by rw [listed_record]; omega)
      refine ⟨svc', keys, ⟨hholds.quiet, hholds.objects⟩, hperm.trans ?_, hrest⟩
      -- the page and the rest after it are the listing from `start`
      rw [List.append_assoc, ← List.drop_drop]
      refine List.Perm.append_left acc ?_
      simpa only [listed_record, List.take_append_drop] using (List.reverse_perm (((svc.listed full).drop start).take svc.pageSize)).append_right
        (((svc.listed full).drop start).drop svc.pageSize)
    · -- the last page
      rw [if_neg hpage]
      exact ⟨_, _, ⟨h.record _, rfl⟩, List.Perm.append_left acc (List.reverse_perm _), rfl⟩

/-- Collecting the pages from the first gives every key with the prefix, in some order, when
the fuel is more than the number of such keys. -/
theorem listAll_of_quiet {svc : ObjectService} (h : svc.Quiet) (full : String) {fuel : Nat}
    (hfuel : ((svc.objects.map (·.1)).filter full.isPrefixOf).length < fuel) :
    ∃ svc' keys, svc'.Holds svc.objects ∧ keys.Perm ((svc.objects.map (·.1)).filter full.isPrefixOf) ∧
      listPages full fuel svc none [] = (svc', .ok keys) := by
  obtain ⟨svc', keys, hholds, hperm, heq⟩ := listPages_of_quiet full fuel svc 0 none [] h rfl
    (by rw [(listed_perm full).length_eq]; omega)
  exact ⟨svc', keys, hholds, by simpa using hperm.trans (listed_perm full), heq⟩

end RemoteStore

end AnnotationStore
