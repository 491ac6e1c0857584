import Mathlib
import AnnotationStore.Proofs.Blob.Service
import AnnotationStore.Proofs.Blob.Cached
import AnnotationStore.Proofs.Cache.Recency
import AnnotationStore.Proofs.Text.Path
/-!
# A remote store answers as a memory store

A remote store keeps the blob named `n` under the key that joins its root and `n`. A root is
written for a directory that cleaning leaves alone: the directory itself, or the directory
and a slash (`annotations/`), which joins alike (`Path.DirRoot`). For a name that is clean
and relative, the key is then the directory's prefix followed by the name (`key_eq`), so keys
of distinct names differ, every key lies under the directory, and a listing gives the name
back by cutting the root and a slash off its key (`trimStart_trimStart_key`).

The objects under the directory then stand for the blobs of a memory store (`Inside`):
writing or deleting a blob changes the object under its key and no other (`Inside.store`,
`Inside.erase`), the object under a key is the blob of its name (`Inside.lookup`), and the
keys a listing asks for are the keys of the names with the listing's prefix
(`Inside.listed`).

With a quiet service, a part size of at least 5 MiB (or none) and a bucket holding no key
that starts with the directory at the start, every sequence of calls with clean relative
names, reads of at least one byte that open the blob afresh, and listing prefixes that are
empty, a name or a name and a slash, is answered as a memory store that is given the same
calls answers it (`remote_store_refines_memory`). The hypotheses are those the store needs:
under any other root that cleaning changes (`./a`), a name is stored under the cleaned root
but listed against the raw one; a listing of everything asks for the keys that start with the
directory, those of a sibling such as `annotations2/` included; a blob opened before it is
written again reads the new object; and a listing prefix is joined to the root, so `/` lists
the names under it.
-/

namespace AnnotationStore

theorem isPrefixOf_iff {p s : String} : p.isPrefixOf s = true ↔ p.toList <+: s.toList := by
  rw [String.isPrefixOf, Path.startsWith_iff_prefix]

theorem isPrefixOf_append (p s : String) : p.isPrefixOf (p ++ s) = true := by
  rw [isPrefixOf_iff, String.toList_append]
  exact List.prefix_append _ _

theorem isPrefixOf_append_append (a p s : String) : (a ++ p).isPrefixOf (a ++ s) = p.isPrefixOf s := by
  apply Bool.eq_iff_iff.mpr
  rw [isPrefixOf_iff, isPrefixOf_iff, String.toList_append, String.toList_append]
  exact List.prefix_append_right_inj _

theorem isPrefixOf_trans {p q s : String} (hpq : p.isPrefixOf q = true) (hqs : q.isPrefixOf s = true) :
    p.isPrefixOf s = true := by
  rw [isPrefixOf_iff] at *
  exact hpq.trans hqs

/-- Sorting does not see the order it is given. -/
theorem mergeSort_eq_of_perm {l l' : List String} (h : l.Perm l') :
    l.mergeSort (· ≤ ·) = l'.mergeSort (· ≤ ·) :=
  List.Perm.eq_of_sortedLE List.sortedLE_mergeSort List.sortedLE_mergeSort
    (((List.mergeSort_perm l _).trans h).trans (List.mergeSort_perm l' _).symm)

/-- Two ways of answering calls related by `R` at the start, and kept related with the same
answer by every call that `P` allows, answer every sequence of allowed calls alike. -/
theorem runCalls_sim_of {σ τ α β : Type} {call : σ → α → β × σ} {call' : τ → α → β × τ} (P : α → Prop)
    (R : σ → τ → Prop) (hstep : ∀ s t a, P a → R s t → (call s a).1 = (call' t a).1 ∧ R (call s a).2 (call' t a).2) :
    ∀ (as : List α) (s : σ) (t : τ), (∀ a ∈ as, P a) → R s t →
      (runCalls call s as).1 = (runCalls call' t as).1 ∧ R (runCalls call s as).2 (runCalls call' t as).2
  | [], _, _, _, hR => ⟨rfl, hR⟩
  | a :: as, s, t, hP, hR => by
    obtain ⟨hans, hR'⟩ := hstep s t a (hP a List.mem_cons_self) hR
    obtain ⟨hrest, hlast⟩ := runCalls_sim_of P R hstep as _ _ (fun b hb => hP b (List.mem_cons_of_mem a hb)) hR'
    simp only [runCalls]
    exact ⟨by rw [hans, hrest], hlast⟩

/-! ## Keys and names -/

theorem isPrefixOf_dirPrefix (r x : String) : r.isPrefixOf (Path.dirPrefix r ++ x) = true := by
  unfold Path.dirPrefix
  split_ifs with h0 h1
  · simp [h0, isPrefixOf_iff]
  · rw [h1]
    exact isPrefixOf_append "/" x
  · rw [String.append_assoc]
    exact isPrefixOf_append r _

namespace RemoteStore

theorem trimStart_append (a b : String) : trimStart (a ++ b) a = b := by
  rw [trimStart, if_pos (isPrefixOf_append a b), String.toList_append, ← String.length_toList, List.drop_left,
    String.ofList_toList]

theorem trimStart_of_not_prefix {t p : String} (h : p.isPrefixOf t = false) : trimStart t p = t := by
  simp [trimStart, h]

/-- A listing gives back the name of a key under a root: the root and then a slash come off. -/
theorem trimStart_trimStart_dirPrefix (r : String) {n : String} (hn : Path.Name n) :
    trimStart (trimStart (Path.dirPrefix r ++ n) r) "/" = n := by
  have hrel : ("/" : String).isPrefixOf n = false := hn.relative
  unfold Path.dirPrefix
  split_ifs with h0 h1
  · rw [h0, String.empty_append, show n = "" ++ n by simp, trimStart_append, String.empty_append,
      trimStart_of_not_prefix hrel]
  · rw [h1, trimStart_append, trimStart_of_not_prefix hrel]
  · rw [String.append_assoc, trimStart_append, trimStart_append]

variable {s : RemoteStore}

theorem trimStart_trimStart_key {r c : String} (hr : Path.DirRoot r c) {n : String} (hn : Path.Name n) :
    trimStart (trimStart (Path.dirPrefix c ++ n) r) "/" = n := by
  have hrel : ("/" : String).isPrefixOf n = false := hn.relative
  rcases hr.2 with rfl | ⟨hne, hslash, rfl⟩
  · exact trimStart_trimStart_dirPrefix r hn
  · rw [Path.dirPrefix, if_neg hne, if_neg hslash, trimStart_append, trimStart_of_not_prefix hrel]

variable {c : String}

theorem key_eq (hr : Path.DirRoot s.pfx c) {n : String} (hn : Path.Name n) : s.key n = Path.dirPrefix c ++ n :=
  (hr.join_eq n).trans (hr.1.join_name hn)

/-- The prefixes a listing may be given: none, a name, or a name and a slash. -/
def ListPrefix (p : String) : Prop := p = "" ∨ Path.Name p ∨ ∃ q, Path.Name q ∧ p = q ++ "/"

/-- The keys a listing asks for start with the root when no prefix is given, and otherwise
with the root's directory prefix and the listing prefix. -/
def listKey (r p : String) : String := if p = "" then r else Path.dirPrefix r ++ p

theorem list_key (hr : Path.DirRoot s.pfx c) {p : String} (hp : ListPrefix p) :
    (s.key p ++ if p.endsWith "/" then "/" else "") = listKey c p := by
  rcases hp with rfl | hname | ⟨q, hq, rfl⟩
  · have hend : "".endsWith "/" = false := by
      rw [Bool.eq_false_iff, ne_eq, Path.endsWith_iff_suffix]
      simp
    simp [key, hr.join_eq, hr.1.join_empty, listKey, hend]
  · rw [key_eq hr hname, hname.endsWith_slash, listKey, if_neg hname.ne_empty]
    simp
  · have hend : (q ++ "/").endsWith "/" = true := by
      rw [Path.endsWith_iff_suffix, String.toList_append]
      exact List.suffix_append _ _
    have hne : q ++ "/" ≠ "" := fun h => by simpa using congrArg String.length h
    rw [key, hr.join_eq, hr.1.join_dir hq, hend, listKey, if_neg hne, if_pos rfl, String.append_assoc]

theorem isPrefixOf_listKey (r p : String) : r.isPrefixOf (listKey r p) = true := by
  unfold listKey
  split_ifs
  · rw [isPrefixOf_iff]
  · exact isPrefixOf_dirPrefix r p

end RemoteStore

/-! ## The objects under the root -/

theorem lookup_filter_of_key (p : String → Bool) {k : String} (hk : p k = true) :
    ∀ l : List (String × ByteArray), (l.filter fun o => p o.1).lookup k = l.lookup k
  | [] => rfl
  | (k', v) :: l => by
    by_cases hp : p k' = true
    · simp [hp, List.lookup, lookup_filter_of_key p hk l]
    · have hne : (k == k') = false := beq_eq_false_iff_ne.mpr fun h => hp (h ▸ hk)
      simp [hp, List.lookup, hne, lookup_filter_of_key p hk l]

theorem beq_append_append (D a b : String) : (D ++ a == D ++ b) = (a == b) := by
  rw [Bool.eq_iff_iff, beq_iff_eq, beq_iff_eq, String.append_right_inj]

theorem lookup_map_append (D n : String) :
    ∀ l : List (String × ByteArray), (l.map fun b => (D ++ b.1, b.2)).lookup (D ++ n) = l.lookup n
  | [] => rfl
  | (k, v) :: l => by
    simp [List.lookup, beq_append_append, lookup_map_append D n l]

/-- The objects whose key starts with the root `r` are the blobs, in order, each under the
root's directory prefix followed by its name. -/
def Inside (r : String) (objects blobs : List (String × ByteArray)) : Prop :=
  objects.filter (fun o => r.isPrefixOf o.1) = blobs.map fun b => (Path.dirPrefix r ++ b.1, b.2)

namespace Inside

variable {r : String} {objects blobs : List (String × ByteArray)}

theorem lookup (h : Inside r objects blobs) (n : String) :
    objects.lookup (Path.dirPrefix r ++ n) = blobs.lookup n := by
  rw [← lookup_filter_of_key (r.isPrefixOf ·) (isPrefixOf_dirPrefix r n) objects]
  unfold Inside at h
  rw [h, lookup_map_append]

theorem erase (h : Inside r objects blobs) (n : String) :
    Inside r (objects.filter (·.1 != Path.dirPrefix r ++ n)) (blobs.filter (·.1 != n)) := by
  unfold Inside at *
  -- removing the key and keeping the keys under the root can be done in either order
  rw [List.filter_filter, List.filter_congr fun o _ => Bool.and_comm .., ← List.filter_filter, h, List.filter_map]
  congr 1
  exact List.filter_congr fun b _ => by simp only [Function.comp_apply, bne, beq_append_append]

theorem store (h : Inside r objects blobs) (n : String) (d : ByteArray) :
    Inside r (objects.filter (·.1 != Path.dirPrefix r ++ n) ++ [(Path.dirPrefix r ++ n, d)])
      (blobs.filter (·.1 != n) ++ [(n, d)]) := by
  have herase := h.erase n
  unfold Inside at herase ⊢
  rw [List.filter_append, herase, List.map_append]
  simp [isPrefixOf_dirPrefix]

/-- The keys with a listing's prefix are those of the names with the prefix. -/
theorem listed (h : Inside r objects blobs) (p : String) :
    (objects.map (·.1)).filter (RemoteStore.listKey r p).isPrefixOf =
      ((blobs.map (·.1)).filter p.isPrefixOf).map (Path.dirPrefix r ++ ·) := by
  -- a key with the listing's prefix lies under the root
  have hunder : objects.filter (fun o => (RemoteStore.listKey r p).isPrefixOf o.1) =
      (objects.filter fun o => r.isPrefixOf o.1).filter fun o => (RemoteStore.listKey r p).isPrefixOf o.1 := by
    rw [List.filter_filter]
    apply List.filter_congr
    intro o _
    by_cases hk : (RemoteStore.listKey r p).isPrefixOf o.1 = true
    · simp [hk, isPrefixOf_trans (RemoteStore.isPrefixOf_listKey r p) hk]
    · simp [hk]
  -- under the root, a key has the listing's prefix when its name has the prefix
  have hname : ∀ n, (RemoteStore.listKey r p).isPrefixOf (Path.dirPrefix r ++ n) = p.isPrefixOf n := by
    intro n
    unfold RemoteStore.listKey
    split_ifs with hp
    · rw [isPrefixOf_dirPrefix, hp]
      simp [isPrefixOf_iff]
    · exact isPrefixOf_append_append _ _ _
  unfold Inside at h
  rw [List.filter_map, Function.comp_def, hunder, h, List.filter_map, List.filter_map, List.map_map, List.map_map]
  congr 1
  · exact List.filter_congr fun b _ => hname b.1

end Inside

/-! ## Calls on a quiet service -/

namespace RemoteStore

open ObjectService

variable {s : RemoteStore}

/-- The part size an upload starts from is the one given, or the smallest when none is. -/
theorem minPartSize_le_base (hpart : s.partSize = 0 ∨ minPartSize ≤ s.partSize) :
    minPartSize ≤ if s.partSize = 0 then minPartSize else s.partSize := by
  split_ifs with h0
  · exact le_refl _
  · exact hpart.resolve_left h0

/-- Growing the part size so that there are fewer than the most parts never takes it below
the smallest. -/
theorem minPartSize_le_grown {total size : Int} (htotal : 0 ≤ total) (hsize : minPartSize ≤ size) :
    minPartSize ≤ if maxParts ≤ total.tdiv size then total / maxParts + 1 else size := by
  split_ifs with hmany
  · -- at least `maxParts` parts of at least the smallest size fit in the data
    have hpos : 0 < size := lt_of_lt_of_le (by decide) hsize
    rw [Int.tdiv_eq_ediv_of_nonneg htotal] at hmany
    have hbig : maxParts * size ≤ total := (Int.le_ediv_iff_mul_le hpos).mp hmany
    have hmin : minPartSize ≤ total / maxParts :=
      (Int.le_ediv_iff_mul_le (by decide)).mpr (by
        calc minPartSize * maxParts ≤ size * maxParts := Int.mul_le_mul_of_nonneg_right hsize (by decide)
          _ = maxParts * size := Int.mul_comm _ _
          _ ≤ total := hbig)
    omega
  · exact hsize

/-- Parts of `size` bytes, as many as it takes, cover the data. -/
theorem le_count_mul {n : Nat} {size : Int} (hsize : 0 < size) :
    n ≤ (((n : Int) + size - 1) / size).toNat * size.toNat := by
  obtain ⟨S, rfl⟩ := Int.eq_ofNat_of_zero_le hsize.le
  have hS : 0 < S := by omega
  have hdiv : ((n : Int) + S - 1) / S = (((n + S - 1) / S : Nat) : Int) := by
    push_cast [Nat.cast_sub (by omega : 1 ≤ n + S)]
    rfl
  rw [hdiv, Int.toNat_natCast, Int.toNat_natCast]
  have h1 := Nat.div_add_mod (n + S - 1) S
  have h2 := Nat.mod_lt (n + S - 1) hS
  rw [Nat.mul_comm] at h1
  generalize (n + S - 1) / S * S = X at *
  omega

theorem foldl_parts (data : ByteArray) (size : Nat) :
    ∀ count, (parts data size count).foldl (· ++ ·) .empty = data.extract 0 (count * size)
  | 0 => by simp [parts, ByteArray.extract_same]
  | count + 1 => by
    rw [parts, List.range_succ, List.map_append, List.foldl_append, ← parts, foldl_parts data size count]
    simp only [List.map_cons, List.map_nil, List.foldl_cons, List.foldl_nil, ByteArray.extract_append_extract]
    rw [Nat.zero_min, Nat.max_eq_right (Nat.le_add_right _ _), Nat.succ_mul]

/-- With a quiet service, an upload stores the data under its key: the part size is never
below the smallest, and the parts, sent in order, join up to the data. -/
theorem upload_of_quiet (hq : s.service.Quiet) (hpart : s.partSize = 0 ∨ minPartSize ≤ s.partSize)
    (key : String) (data : ByteArray) :
    ∃ svc, svc.Holds (s.service.store key data).objects ∧
      s.upload key data = ({ s with service := svc }, .ok ()) := by
  rcases hres : s.upload key data with ⟨s', r⟩
  unfold upload at hres
  extract_lets total base size count all at hres
  have hsize : minPartSize ≤ size := minPartSize_le_grown (Int.natCast_nonneg _) (minPartSize_le_base hpart)
  rw [if_neg (not_lt.mpr hsize)] at hres
  split at hres
  · -- data of one part is written with one call
    obtain ⟨svc, hsvc, hput⟩ := s.service.put_of_quiet hq key data none none s.checksum
    rw [hput] at hres
    cases hres
    exact ⟨svc, hsvc, rfl⟩
  · obtain ⟨svc₁, h₁, hup₁, hcreate⟩ := s.service.createMultipart_of_quiet hq key s.checksum
    rw [hcreate] at hres
    dsimp only at hres
    obtain ⟨svc₂, h₂, hup₂, hsend⟩ := sendParts_of_quiet key all (parts data size.toNat count) svc₁ 1 h₁.quiet
    rw [hsend] at hres
    dsimp only at hres
    obtain ⟨svc₃, h₃, hcomplete⟩ := completeMultipart_of_quiet h₂.quiet key count
    rw [hcomplete] at hres
    cases hres
    refine ⟨svc₃, ⟨h₃.quiet, ?_⟩, rfl⟩
    -- the parts join up to the data
    have hcover : data.size ≤ count * size.toNat := le_count_mul (lt_of_lt_of_le (by decide) hsize)
    rw [h₃.objects, store_objects, store_objects, h₂.objects, h₁.objects, hup₂, hup₁, Option.map_some,
      Option.getD_some, List.nil_append, foldl_parts, ← Nat.max_eq_left hcover, ByteArray.extract_zero_max_size]

theorem put_of_quiet (hq : s.service.Quiet) (hpart : s.partSize = 0 ∨ minPartSize ≤ s.partSize)
    (name : String) (data : ByteArray) :
    ∃ svc, svc.Holds (s.service.store (s.key name) data).objects ∧
      s.put name data = ({ s with service := svc }, .ok ()) := by
  by_cases hsmall : (data.size : Int) ≤ s.partSize
  · obtain ⟨svc, hsvc, hput⟩ := s.service.put_of_quiet hq (s.key name) data (some data.size)
      (if s.checksum then some (checksumText data) else none) false
    refine ⟨svc, hsvc, ?_⟩
    simp only [put, if_pos hsmall, hput]
  · simp only [put, if_neg hsmall]
    exact upload_of_quiet hq hpart _ data

theorem openBlob_of_quiet (hq : s.service.Quiet) (name : String) :
    ∃ svc, svc.Holds s.service.objects ∧ s.openBlob name = ({ s with service := svc },
      (s.service.objects.lookup (s.key name)).elim (.error .missingBlob) fun d => .ok ⟨s.key name, d.size⟩) := by
  obtain ⟨svc, hsvc, hhead⟩ := s.service.head_of_quiet hq (s.key name)
  refine ⟨svc, hsvc, ?_⟩
  simp only [openBlob, hhead]
  cases s.service.objects.lookup (s.key name) <;> rfl

theorem delete_of_quiet (hq : s.service.Quiet) (name : String) :
    ∃ svc, svc.Holds (s.service.objects.filter (·.1 != s.key name)) ∧
      s.delete name = ({ s with service := svc }, .ok ()) := by
  obtain ⟨svc, hsvc, hdel | hdel⟩ := s.service.delete_of_quiet hq (s.key name) <;>
    exact ⟨svc, hsvc, by simp only [delete, hdel]⟩

theorem list_of_quiet (hq : s.service.Quiet) (p : String) :
    ∃ (svc : ObjectService) (keys : List String), svc.Holds s.service.objects ∧
      keys.Perm ((s.service.objects.map (·.1)).filter (s.key p ++ if p.endsWith "/" then "/" else "").isPrefixOf) ∧
      s.list p = ({ s with service := svc }, .ok ((keys.map fun k => trimStart (trimStart k s.pfx) "/").mergeSort (· ≤ ·))) := by
  have hfuel : ((s.service.objects.map (·.1)).filter (s.key p ++ if p.endsWith "/" then "/" else "").isPrefixOf).length <
      s.service.objects.length + 1 :=
    Nat.lt_succ_of_le ((List.length_filter_le _ _).trans (List.length_map _).le)
  obtain ⟨svc, keys, hsvc, hperm, hpages⟩ := listAll_of_quiet hq _ hfuel
  exact ⟨svc, keys, hsvc, hperm, by simp only [list, hpages]; rfl⟩

end RemoteStore

namespace RemoteBlob

open ObjectService

/-- Reading at least one byte of a blob opened at its object's size reads the object's bytes. -/
theorem readAt_of_quiet {svc : ObjectService} (hq : svc.Quiet) {key : String} {d : ByteArray}
    (hd : svc.objects.lookup key = some d) (off : Int) {len : Nat} (hlen : 0 < len) :
    ∃ svc', svc'.Holds svc.objects ∧ (RemoteBlob.mk key d.size).readAt svc false off len = (svc', readBytes d off len) := by
  by_cases hout : off < 0 ∨ d.size ≤ off
  · refine ⟨svc, ⟨hq, rfl⟩, ?_⟩
    simp [readAt, readBytes, Nat.pos_iff_ne_zero.mp hlen, hout]
  · -- the range asked for ends at the read's end or the object's, whichever comes first
    have hend : min (off.toNat + len) d.size - 1 + 1 = min (off.toNat + len) d.size := by omega
    have hgot : (d.extract off.toNat (off.toNat + len)).size = min (off.toNat + len) d.size - off.toNat := by
      rw [ByteArray.size_extract, Nat.min_comm]
    obtain ⟨svc', hsvc, hget⟩ := get_of_quiet hq key off.toNat (min (off.toNat + len) d.size - 1)
    refine ⟨svc', hsvc, ?_⟩
    simp only [readAt, Nat.pos_iff_ne_zero.mp hlen, hout, hget, hd, if_false, Bool.false_eq_true]
    dsimp only [Option.elim]
    -- the body is the bytes asked for, all of them
    rw [hend, ByteArray.extract_min_size, hgot, if_pos (le_refl _), ← hgot, ByteArray.extract_zero_size]
    simp [readBytes, hout]

end RemoteBlob

/-! ## Calls -/

/-- A call on a blob store. A read opens the blob and reads from it at once. -/
inductive BlobCall where
  | put (name : String) (data : ByteArray)
  | delete (name : String)
  | openBlob (name : String)
  | read (name : String) (off : Int) (len : Nat)
  | list (pfx : String)

inductive BlobAnswer where
  | done (r : Except StoreError Unit)
  | size (r : Except StoreError Nat)
  | read (r : Except StoreError ReadOutcome)
  | names (r : Except StoreError (List String))

/-- The calls a remote store answers as a memory store: clean relative names, reads of at
least one byte, and listing prefixes that are empty, a name, or a name and a slash. -/
def BlobCall.Allowed : BlobCall → Prop
  | .put name _ => Path.Name name
  | .delete name => Path.Name name
  | .openBlob name => Path.Name name
  | .read name _ len => Path.Name name ∧ 0 < len
  | .list p => RemoteStore.ListPrefix p

/-- Answers a call as a blob store does, never cancelled; a change that fails leaves the
store as it was. -/
def BlobStore.call (t : BlobStore) : BlobCall → BlobAnswer × BlobStore
  | .put name data =>
    match t.put false name data with
    | .ok t' => (.done (.ok ()), t')
    | .error e => (.done (.error e), t)
  | .delete name =>
    match t.delete false name with
    | .ok t' => (.done (.ok ()), t')
    | .error e => (.done (.error e), t)
  | .openBlob name => (.size ((t.openBlob false name).map Blob.size), t)
  | .read name off len => (.read ((t.openBlob false name).map fun b => b.readAt off len), t)
  | .list p => (.names (t.list false p), t)

def RemoteStore.call (s : RemoteStore) : BlobCall → BlobAnswer × RemoteStore
  | .put name data => let r := s.put name data; (.done r.2, r.1)
  | .delete name => let r := s.delete name; (.done r.2, r.1)
  | .openBlob name => let r := s.openBlob name; (.size (r.2.map (·.size)), r.1)
  | .read name off len =>
    match s.openBlob name with
    | (s, .ok b) =>
      let r := b.readAt s.service false off len
      (.read (.ok r.2), { s with service := r.1 })
    | (s, .error e) => (.read (.error e), s)
  | .list p => let r := s.list p; (.names r.2, r.1)

namespace RemoteStore

open ObjectService

/-- A remote store stands for a memory store holding `blobs`: its root is written for the
directory `dir`, its part size is none or at least the smallest, its service is quiet, the
blobs have names, and the objects whose key starts with `dir` are the blobs. -/
structure Represents (s : RemoteStore) (dir : String) (blobs : List (String × ByteArray)) : Prop where
  root : Path.DirRoot s.pfx dir
  part : s.partSize = 0 ∨ minPartSize ≤ s.partSize
  quiet : s.service.Quiet
  names : ∀ b ∈ blobs, Path.Name b.1
  inside : Inside dir s.service.objects blobs

variable {s : RemoteStore} {dir : String} {blobs : List (String × ByteArray)}

theorem Represents.withService (h : Represents s dir blobs) {svc : ObjectService} {blobs' : List (String × ByteArray)}
    (hq : svc.Quiet) (hnames : ∀ b ∈ blobs', Path.Name b.1) (hin : Inside dir svc.objects blobs') :
    Represents { s with service := svc } dir blobs' :=
  ⟨h.root, h.part, hq, hnames, hin⟩

/-- The store under another service holding the same objects stands for the same blobs. -/
theorem Represents.keep (h : Represents s dir blobs) {svc : ObjectService} (hsvc : svc.Holds s.service.objects) :
    Represents { s with service := svc } dir blobs :=
  h.withService hsvc.quiet h.names (hsvc.objects ▸ h.inside)

theorem Represents.lookup_key (h : Represents s dir blobs) {name : String} (hname : Path.Name name) :
    s.service.objects.lookup (s.key name) = blobs.lookup name := by
  rw [key_eq h.root hname, h.inside.lookup]

/-- A call answered alike by the remote store and by the memory store holding `blobs`, which
leaves the remote store standing for the memory store after the call. -/
structure AnswersAlike (s : RemoteStore) (dir : String) (blobs : List (String × ByteArray)) (c : BlobCall) : Prop where
  answer : (s.call c).1 = ((BlobStore.memory blobs).call c).1
  next : ∃ blobs', ((BlobStore.memory blobs).call c).2 = .memory blobs' ∧ Represents (s.call c).2 dir blobs'

theorem Represents.put (h : Represents s dir blobs) {name : String} (hname : Path.Name name) (data : ByteArray) :
    AnswersAlike s dir blobs (.put name data) := by
  obtain ⟨svc, hsvc, hput⟩ := put_of_quiet h.quiet h.part name data
  refine ⟨by simp [RemoteStore.call, BlobStore.call, BlobStore.put, hput], _, rfl, ?_⟩
  simp only [RemoteStore.call, hput]
  refine h.withService hsvc.quiet (fun b hb => ?_) ?_
  · rcases List.mem_append.mp hb with hb | hb
    · exact h.names b (List.mem_of_mem_filter hb)
    · rw [List.mem_singleton.mp hb]
      exact hname
  · rw [hsvc.objects, store_objects, key_eq h.root hname]
    exact h.inside.store name data

theorem Represents.delete (h : Represents s dir blobs) {name : String} (hname : Path.Name name) :
    AnswersAlike s dir blobs (.delete name) := by
  obtain ⟨svc, hsvc, hdel⟩ := delete_of_quiet h.quiet name
  refine ⟨by simp [RemoteStore.call, BlobStore.call, BlobStore.delete, hdel], _, rfl, ?_⟩
  simp only [RemoteStore.call, hdel]
  refine h.withService hsvc.quiet (fun b hb => h.names b (List.mem_of_mem_filter hb)) ?_
  rw [hsvc.objects, key_eq h.root hname]
  exact h.inside.erase name

theorem Represents.openBlob (h : Represents s dir blobs) {name : String} (hname : Path.Name name) :
    AnswersAlike s dir blobs (.openBlob name) := by
  obtain ⟨svc, hsvc, hopen⟩ := openBlob_of_quiet h.quiet name
  refine ⟨?_, _, rfl, ?_⟩
  · simp only [RemoteStore.call, BlobStore.call, BlobStore.openBlob, hopen, h.lookup_key hname]
    cases blobs.lookup name <;> rfl
  · simp only [RemoteStore.call, hopen]
    exact h.keep hsvc

theorem Represents.read (h : Represents s dir blobs) {name : String} (hname : Path.Name name) (off : Int) {len : Nat}
    (hlen : 0 < len) : AnswersAlike s dir blobs (.read name off len) := by
  obtain ⟨svc, hsvc, hopen⟩ := openBlob_of_quiet h.quiet name
  rw [h.lookup_key hname] at hopen
  cases hblob : blobs.lookup name with
  | none =>
    rw [hblob] at hopen
    refine ⟨?_, _, rfl, ?_⟩
    · simp [RemoteStore.call, BlobStore.call, BlobStore.openBlob, hopen, hblob, Except.map]
    · simp only [RemoteStore.call, hopen]
      exact h.keep hsvc
  | some d =>
    -- the blob opened at the size of its object reads the object's bytes
    rw [hblob] at hopen
    have hd : svc.objects.lookup (s.key name) = some d := by rw [hsvc.objects, h.lookup_key hname, hblob]
    obtain ⟨svc', hsvc', hread⟩ := RemoteBlob.readAt_of_quiet hsvc.quiet hd off hlen
    refine ⟨?_, _, rfl, ?_⟩
    · simp [RemoteStore.call, BlobStore.call, BlobStore.openBlob, hopen, hblob, hread, Blob.readAt, Except.map]
    · simp only [RemoteStore.call, hopen, Option.elim, hread]
      exact h.keep ⟨hsvc'.quiet, hsvc'.objects.trans hsvc.objects⟩

theorem Represents.list (h : Represents s dir blobs) {p : String} (hp : ListPrefix p) :
    AnswersAlike s dir blobs (.list p) := by
  obtain ⟨svc, keys, hsvc, hperm, hlist⟩ := list_of_quiet h.quiet p
  rw [list_key h.root hp, h.inside.listed p] at hperm
  -- the listing cuts each key back to its name
  have hback : (((blobs.map (·.1)).filter p.isPrefixOf).map (Path.dirPrefix dir ++ ·)).map
      (fun k => trimStart (trimStart k s.pfx) "/") = (blobs.map (·.1)).filter p.isPrefixOf := by
    rw [List.map_map]
    refine (List.map_congr_left fun n hn => ?_).trans (List.map_id _)
    obtain ⟨b, hb, rfl⟩ := List.mem_map.mp (List.mem_of_mem_filter hn)
    exact trimStart_trimStart_key h.root (h.names b hb)
  have hnames := hback ▸ hperm.map fun k => trimStart (trimStart k s.pfx) "/"
  refine ⟨?_, _, rfl, ?_⟩
  · simp only [RemoteStore.call, BlobStore.call, BlobStore.list, hlist, mergeSort_eq_of_perm hnames]
  · simp only [RemoteStore.call, hlist]
    exact h.keep hsvc

theorem Represents.call (h : Represents s dir blobs) {c : BlobCall} (hc : c.Allowed) : AnswersAlike s dir blobs c := by
  cases c with
  | put name data => exact h.put hc data
  | delete name => exact h.delete hc
  | openBlob name => exact h.openBlob hc
  | read name off len => exact h.read hc.1 off hc.2
  | list p => exact h.list hc

end RemoteStore

open RemoteStore in
/-- A remote store whose root is written for a directory `dir` that cleaning leaves alone
(`dir` itself, or `dir` and a slash), whose part size is none or at least the smallest, whose
service is quiet and whose bucket holds no key starting with `dir` answers every sequence of
allowed calls as an empty memory store given the same calls does; the objects whose key starts
with `dir` are then the memory store's blobs, each under its key. -/
theorem remote_store_refines_memory (s : RemoteStore) (calls : List BlobCall) {dir : String}
    (hroot : Path.DirRoot s.pfx dir) (hpart : s.partSize = 0 ∨ minPartSize ≤ s.partSize)
    (hquiet : s.service.Quiet) (hfresh : ∀ o ∈ s.service.objects, dir.isPrefixOf o.1 = false)
    (hcalls : ∀ c ∈ calls, c.Allowed) :
    (runCalls RemoteStore.call s calls).1 = (runCalls BlobStore.call BlobStore.emptyMemory calls).1 ∧
      ∃ blobs, (runCalls BlobStore.call BlobStore.emptyMemory calls).2 = .memory blobs ∧
        (runCalls RemoteStore.call s calls).2.service.objects.filter (fun o => dir.isPrefixOf o.1) =
          blobs.map fun b => (s.key b.1, b.2) := by
  have hstart : Represents s dir [] := ⟨hroot, hpart, hquiet, (fun _ hb => nomatch hb),
    List.filter_eq_nil_iff.mpr fun o ho => by simp [hfresh o ho]⟩
  -- the run keeps a memory store the remote store stands for
  obtain ⟨hans, blobs, hmem, hrep⟩ := runCalls_sim_of BlobCall.Allowed
    (fun s' t => ∃ blobs, t = .memory blobs ∧ Represents s' dir blobs)
    (fun s' t c hc ⟨blobs, ht, hrep⟩ => by
      subst ht
      exact ⟨(hrep.call hc).answer, (hrep.call hc).next⟩)
    calls s BlobStore.emptyMemory hcalls ⟨[], rfl, hstart⟩
  refine ⟨hans, blobs, hmem, ?_⟩
  have hin := hrep.inside
  unfold Inside at hin
  rw [hin]
  exact List.map_congr_left fun b hb => by rw [key_eq hroot (hrep.names b hb)]

/-- A store under the root `annotations/`, over a bucket holding a key elsewhere, answers a
write, a read past the blob's end and a listing as a memory store does. -/
theorem remote_store_answers_put_read_list :
    let s : RemoteStore := { service := { objects := [("other/k", ⟨#[9]⟩)] }, pfx := "annotations/" }
    let calls := [BlobCall.put "a" ⟨#[1, 2]⟩, .read "a" 0 4, .list ""]
    (runCalls RemoteStore.call s calls).1 = (runCalls BlobStore.call BlobStore.emptyMemory calls).1 ∧
      ∃ blobs, (runCalls BlobStore.call BlobStore.emptyMemory calls).2 = .memory blobs ∧
        (runCalls RemoteStore.call s calls).2.service.objects.filter (fun o => "annotations".isPrefixOf o.1) =
          blobs.map fun b => (s.key b.1, b.2) := by
  have ha : Path.Name "a" := Path.Segment.name ⟨by simp, by simp, by simp, by simp⟩ (by simp)
  have hdir : Path.DirRoot "annotations/" "annotations" :=
    ⟨.inr ⟨by decide +kernel, by decide⟩, .inr ⟨by decide, by decide, rfl⟩⟩
  have hfresh : ∀ o ∈ [("other/k", (⟨#[9]⟩ : ByteArray))], "annotations".isPrefixOf o.1 = false := by
    intro o ho
    rw [List.mem_singleton.mp ho]
    decide +kernel
  exact remote_store_refines_memory _ _ hdir (.inr (by decide)) ⟨rfl, rfl⟩ hfresh
    (by simp [BlobCall.Allowed, RemoteStore.ListPrefix, ha])

end AnnotationStore
