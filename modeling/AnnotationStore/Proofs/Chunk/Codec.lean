import Mathlib
import AnnotationStore.Chunk.Codec
import AnnotationStore.Proofs.Snapshot.Format
import AnnotationStore.Proofs.Buffer.Build
/-!
# Chunks read back

A chunk of a well laid-out buffer decodes to the buffer (`decode_encode`), with every label
list that was not recorded read back as empty labels (`PackedBuffer.withLabels`): the header
words and the checksum are where the encoder put them, the block gives the payload back
(`unblock_block`), and the payload reads back field by field (`readPayload_gives`).

Every count, size and string length of the payload is a 32-bit word, and so is the payload's
size in the block header. The round trip therefore needs the whole payload below `2 ^ 32`
bytes (`payloadSize`); bounding the data and the total pick count alone leaves the header
word free to wrap. Encoding itself succeeds under those two bounds (`encode_ok`).
-/

namespace AnnotationStore

/-! ## Readings that succeed -/

/-- The reading `r`, from the cursor `c`, gives `a` and leaves the cursor at `c'`. -/
def Gives {ε α : Type} (r : ExceptT ε (StateM Cursor) α) (c : Cursor) (a : α) (c' : Cursor) : Prop :=
  r.run.run c = (.ok a, c')

section Gives

variable {ε α β : Type} {c c' c'' : Cursor}

theorem Gives.bind {r : ExceptT ε (StateM Cursor) α} {f : α → ExceptT ε (StateM Cursor) β} {a : α} {b : β}
    (h : Gives r c a c') (hf : Gives (f a) c' b c'') : Gives (r >>= f) c b c'' := by
  unfold Gives at *
  simp only [ExceptT.run_bind, StateT.run_bind, h]
  exact hf

theorem pure_gives (a : α) (c : Cursor) : @Gives ε α (pure a) c a c := rfl

theorem get_gives (c : Cursor) : @Gives ε Cursor get c c c := rfl

theorem set_gives (c c' : Cursor) : @Gives ε Unit (set c') c () c' := rfl

end Gives

theorem Chunk.liftRead_gives {α : Type} {r : Reading α} {c c' : Cursor} {a : α} (h : Gives r c a c') :
    Gives (Chunk.liftRead r) c a c' := by
  unfold Gives Chunk.liftRead at *
  show StateT.run (Except.mapError Chunk.PayloadFault.read <$> r) c = _
  rw [StateT.run_map]
  change (fun p => (Except.mapError Chunk.PayloadFault.read p.1, p.2)) <$> r.run.run c = _
  rw [h]
  rfl

namespace Cursor

/-! Each read is taken at the end of a prefix `pre` of the bytes and moves to the end of
`pre` and what it read. -/

section Reads

variable {B : ByteArray} {pre post : List UInt8}

theorem take_gives {mid : List UInt8} (h : B.data.toList = pre ++ mid ++ post) :
    Gives (take mid.length) ⟨B, pre.length⟩ ⟨mid.toArray⟩ ⟨B, (pre ++ mid).length⟩ := by
  have hsize : B.size = pre.length + mid.length + post.length := by
    rw [ByteArray.size_eq_length, h]
    simp only [List.length_append]
  have hfit : ¬ ((mid.length : Int) < 0 ∨ (B.size : Int) < pre.length + mid.length) := by omega
  unfold take
  refine (get_gives _).bind ?_
  dsimp only
  rw [if_neg hfit, if_neg (by omega)]
  refine (set_gives _ _).bind ?_
  simp only [Int.toNat_natCast, ByteArray.extract_eq_of_toList h, List.length_append, Nat.cast_add]
  rfl

theorem word_gives {w n : Nat} (h : B.data.toList = pre ++ LittleEndian.toBytes w n ++ post) :
    Gives (word w) ⟨B, pre.length⟩ (n % 256 ^ w) ⟨B, (pre ++ LittleEndian.toBytes w n).length⟩ := by
  have htake := take_gives h
  rw [LittleEndian.length_toBytes] at htake
  refine htake.bind ?_
  rw [ByteArray.toList_eq, List.toList_toArray, LittleEndian.ofBytes_toBytes]
  exact pure_gives _ _

theorem word_gives_of_lt {w n : Nat} (h : B.data.toList = pre ++ LittleEndian.toBytes w n ++ post)
    (hn : n < 256 ^ w) : Gives (word w) ⟨B, pre.length⟩ n ⟨B, (pre ++ LittleEndian.toBytes w n).length⟩ := by
  have hword := word_gives h
  rwa [Nat.mod_eq_of_lt hn] at hword

/-- A string reads back from bytes below `2 ^ 32`, where its length word cannot wrap. -/
theorem string_gives {s : String} (h : B.data.toList = pre ++ Chunk.stringBytes s ++ post)
    (hB : B.size < 2 ^ 32) : Gives string ⟨B, pre.length⟩ s.toUTF8 ⟨B, (pre ++ Chunk.stringBytes s).length⟩ := by
  have hlen : s.toUTF8.data.toList.length = s.utf8ByteSize := by
    rw [Array.length_toList]
    rfl
  have hfits : s.utf8ByteSize < 256 ^ 4 := by
    have hsize : B.size = pre.length + (Chunk.stringBytes s).length + post.length := by
      rw [ByteArray.size_eq_length, h]
      simp only [List.length_append]
    simp only [Chunk.stringBytes, List.length_append, LittleEndian.length_toBytes, ByteArray.toList_eq, hlen]
      at hsize
    omega
  have hword : B.data.toList = pre ++ LittleEndian.toBytes 4 s.utf8ByteSize ++ (s.toUTF8.data.toList ++ post) := by
    rw [h, Chunk.stringBytes, ByteArray.toList_eq]
    simp only [List.append_assoc]
  have hbytes : B.data.toList = (pre ++ LittleEndian.toBytes 4 s.utf8ByteSize) ++ s.toUTF8.data.toList ++ post := by
    rw [hword]
    simp only [List.append_assoc]
  have htake := take_gives hbytes
  rw [hlen] at htake
  refine (word_gives_of_lt hword hfits).bind ?_
  have hend : (pre ++ LittleEndian.toBytes 4 s.utf8ByteSize ++ s.toUTF8.data.toList).length =
      (pre ++ Chunk.stringBytes s).length := by
    simp [Chunk.stringBytes, ByteArray.toList_eq]
  rw [hend, Array.toArray_toList] at htake
  exact htake

theorem remaining_gives {off : Nat} (h : off ≤ B.size) :
    ∃ rest : ByteArray, rest.size = B.size - off ∧ Gives remaining ⟨B, off⟩ rest ⟨B, off⟩ := by
  unfold remaining
  by_cases hend : B.size ≤ off
  · refine ⟨ByteArray.empty, by simp; omega, ?_⟩
    refine (get_gives _).bind ?_
    dsimp only
    rw [if_pos (by exact_mod_cast hend)]
    rfl
  · refine ⟨B.extract off B.size, by simp, ?_⟩
    refine (get_gives _).bind ?_
    dsimp only
    rw [if_neg (by exact_mod_cast hend), if_neg (by omega), Int.toNat_natCast]
    rfl

end Reads

end Cursor

theorem mapM_eq_some_map {α β : Type} {f : α → Option β} {g : α → β} :
    ∀ {l : List α}, (∀ x ∈ l, f x = some (g x)) → l.mapM f = some (l.map g)
  | [], _ => rfl
  | x :: l, h => by
    rw [List.mapM_cons, h x List.mem_cons_self, mapM_eq_some_map fun y hy => h y (List.mem_cons_of_mem x hy)]
    rfl

theorem map_getD_range {α : Type} (l : List α) (d : α) : (List.range l.length).map (l.getD · d) = l := by
  apply List.ext_getElem (by simp)
  intro i h₁ h₂
  simp only [List.getElem_map, List.getElem_range]
  exact List.getD_eq_getElem _ _ h₂

/-! ## Instances -/

namespace Chunk

/-- An instance as a chunk's payload lists it: size, pick count, id and label. -/
abbrev Row := Nat × Nat × String × String

def rowBytes (x : Row) : List UInt8 :=
  LittleEndian.toBytes 4 x.1 ++ LittleEndian.toBytes 4 x.2.1 ++ stringBytes x.2.2.1 ++ stringBytes x.2.2.2

theorem length_stringBytes (s : String) : (stringBytes s).length = 4 + s.utf8ByteSize := by
  simp only [stringBytes, List.length_append, LittleEndian.length_toBytes, ByteArray.toList_eq, Array.length_toList]
  rfl

theorem length_rowBytes (x : Row) : (rowBytes x).length = 16 + x.2.2.1.utf8ByteSize + x.2.2.2.utf8ByteSize := by
  simp only [rowBytes, List.length_append, LittleEndian.length_toBytes, length_stringBytes]
  omega

theorem length_flatMap_rowBytes (rows : List Row) : 16 * rows.length ≤ (rows.flatMap rowBytes).length := by
  induction rows with
  | nil => simp
  | cons x rows ih =>
    simp only [List.flatMap_cons, List.length_append, length_rowBytes, List.length_cons]
    omega

/-- The instances of a region read back, when their sizes and pick counts fit 32 bits and the
bytes are below `2 ^ 32`; by induction on the instances. -/
theorem readInstances_gives {B : ByteArray} {pre post : List UInt8} {rows : List Row} {n : Nat}
    (hn : rows.length = n) (h : B.data.toList = pre ++ rows.flatMap rowBytes ++ post) (hB : B.size < 2 ^ 32)
    (hrows : ∀ x ∈ rows, x.1 < 2 ^ 32 ∧ x.2.1 < 2 ^ 32) :
    Gives (readInstances n) ⟨B, pre.length⟩ rows ⟨B, (pre ++ rows.flatMap rowBytes).length⟩ := by
  subst hn
  induction rows generalizing pre with
  | nil =>
    simp only [List.length_nil, List.flatMap_nil, List.append_nil]
    exact pure_gives _ _
  | cons x rows ih =>
    obtain ⟨size, picks, id, label⟩ := x
    obtain ⟨hsize, hpicks⟩ := hrows _ List.mem_cons_self
    have h₁ : B.data.toList = pre ++ LittleEndian.toBytes 4 size ++
        (LittleEndian.toBytes 4 picks ++ stringBytes id ++ stringBytes label ++ rows.flatMap rowBytes ++ post) := by
      rw [h]
      simp [rowBytes]
    have h₂ : B.data.toList = pre ++ LittleEndian.toBytes 4 size ++ LittleEndian.toBytes 4 picks ++
        (stringBytes id ++ stringBytes label ++ rows.flatMap rowBytes ++ post) := by
      rw [h₁]
      simp
    have h₃ : B.data.toList = pre ++ LittleEndian.toBytes 4 size ++ LittleEndian.toBytes 4 picks ++
        stringBytes id ++ (stringBytes label ++ rows.flatMap rowBytes ++ post) := by
      rw [h₂]
      simp
    have h₄ : B.data.toList = pre ++ LittleEndian.toBytes 4 size ++ LittleEndian.toBytes 4 picks ++
        stringBytes id ++ stringBytes label ++ (rows.flatMap rowBytes ++ post) := by
      rw [h₃]
      simp
    have h₅ : B.data.toList = pre ++ LittleEndian.toBytes 4 size ++ LittleEndian.toBytes 4 picks ++
        stringBytes id ++ stringBytes label ++ rows.flatMap rowBytes ++ post := by
      rw [h₄]
      simp
    have hend : (pre ++ (((size, picks, id, label) : Row) :: rows).flatMap rowBytes).length =
        (pre ++ LittleEndian.toBytes 4 size ++ LittleEndian.toBytes 4 picks ++ stringBytes id ++
          stringBytes label ++ rows.flatMap rowBytes).length := by
      simp [rowBytes]
    rw [List.length_cons, readInstances, hend]
    refine (Cursor.word_gives_of_lt h₁ hsize).bind ((Cursor.word_gives_of_lt h₂ hpicks).bind
      ((Cursor.string_gives h₃ hB).bind ((Cursor.string_gives h₄ hB).bind
        ((ih h₅ fun y hy => hrows y (List.mem_cons_of_mem _ hy)).bind ?_))))
    rw [Utf8.decodeKeeping_toUTF8, Utf8.decodeKeeping_toUTF8]
    exact pure_gives _ _

end Chunk

/-! ## Regions -/

namespace Region

/-- The labels of a region, empty ones when it records none. -/
def allLabels (r : Region) : List String := r.labels.getD (List.replicate r.ids.length "")

def rows (r : Region) : List Chunk.Row :=
  (List.range r.ids.length).map fun i => (r.sizes.getD i 0, r.picks.getD i 0, r.ids.getD i "", r.allLabels.getD i "")

/-- A region with its labels recorded, empty ones when it had none. -/
def withLabels (r : Region) : Region := { r with labels := some r.allLabels }

variable {r : Region} {k : Kind}

theorem length_rows (r : Region) : r.rows.length = r.ids.length := by simp [rows]

theorem length_allLabels (hwf : r.WellFormed k) : r.allLabels.length = r.ids.length := by
  unfold allLabels
  cases hl : r.labels with
  | none => simp
  | some ls => exact hwf.labels_length ls hl

theorem mem_rows (hwf : r.WellFormed k) {x : Chunk.Row} (hx : x ∈ r.rows) : x.1 ∈ r.sizes ∧ x.2.1 ∈ r.picks := by
  obtain ⟨i, hi, rfl⟩ := List.mem_map.mp hx
  have hi : i < r.ids.length := List.mem_range.mp hi
  rw [List.getD_eq_getElem _ _ (hwf.sizes_length ▸ hi), List.getD_eq_getElem _ _ (hwf.picks_length ▸ hi)]
  exact ⟨List.getElem_mem _, List.getElem_mem _⟩

/-- A region of a kind whose payload words all hold their values: its offset and pick count,
and every instance's size and pick count, fit 32 bits. -/
structure Fits (k : Kind) (r : Region) : Prop where
  wellFormed : r.WellFormed k
  offset : 0 ≤ r.offset ∧ r.offset < 2 ^ 32
  pickCount : r.pickCount < 2 ^ 32
  rows : ∀ x ∈ r.rows, x.1 < 2 ^ 32 ∧ x.2.1 < 2 ^ 32

end Region

/-- A buffer with the labels of every region recorded, empty ones where it had none. -/
def PackedBuffer.withLabels (b : PackedBuffer) : PackedBuffer := { b with regions := fun k => (b.regions k).withLabels }

theorem Region.withLabels_of_isSome {r : Region} (h : r.labels.isSome) : r.withLabels = r := by
  obtain ⟨ids, offset, sizes, picks, pickCount, labels⟩ := r
  obtain ⟨ls, rfl⟩ := Option.isSome_iff_exists.mp h
  rfl

theorem PackedBuffer.withLabels_of_isSome {b : PackedBuffer} (h : ∀ k, (b.regions k).labels.isSome) :
    b.withLabels = b := by
  obtain ⟨data, regions, totalPicks, generation⟩ := b
  simp only [PackedBuffer.withLabels, PackedBuffer.mk.injEq, and_true, true_and]
  funext k
  exact Region.withLabels_of_isSome (h k)

namespace Chunk

/-- The payload bytes of a region: its count, its offset and pick count modulo `2 ^ 32`, and
its instances. -/
def regionList (r : Region) : List UInt8 :=
  LittleEndian.toBytes 4 r.ids.length ++ LittleEndian.toBytes 4 (r.offset % 2 ^ 32).toNat ++
    LittleEndian.toBytes 4 (r.pickCount % 2 ^ 32).toNat ++ r.rows.flatMap rowBytes

variable {r : Region} {k : Kind}

theorem regionBytes_eq (hwf : r.WellFormed k) : regionBytes r = some (regionList r) := by
  unfold regionBytes
  dsimp only
  rw [@mapM_eq_some_map _ _ _
    (fun i => rowBytes (r.sizes.getD i 0, r.picks.getD i 0, r.ids.getD i "", r.allLabels.getD i "")) _ ?_]
  · simp only [regionList, Region.rows, List.flatMap_def, List.map_map]
    rfl
  · -- one instance: every list has its `i`-th member, the labels as recorded or empty
    intro i hi
    have hi : i < r.ids.length := List.mem_range.mp hi
    have hs : i < r.sizes.length := hwf.sizes_length ▸ hi
    have hp : i < r.picks.length := hwf.picks_length ▸ hi
    simp only [List.getElem?_eq_getElem hs, List.getElem?_eq_getElem hp, List.getElem?_eq_getElem hi,
      List.getD_eq_getElem _ _ hs, List.getD_eq_getElem _ _ hp, List.getD_eq_getElem _ _ hi]
    unfold Region.allLabels
    cases hlabels : r.labels with
    | none => simp [rowBytes]
    | some ls =>
      have hl : i < ls.length := hwf.labels_length ls hlabels ▸ hi
      simp [List.getElem?_eq_getElem hl, rowBytes]

/-- A region that fits its words reads back with its labels recorded, from bytes below `2 ^ 32`. -/
theorem readRegion_gives {B : ByteArray} {pre post : List UInt8}
    (h : B.data.toList = pre ++ regionList r ++ post) (hB : B.size < 2 ^ 32) (hfits : r.Fits k) :
    Gives (readRegion k) ⟨B, pre.length⟩ r.withLabels ⟨B, (pre ++ regionList r).length⟩ := by
  obtain ⟨hwf, hoff, hcount, hrowsFit⟩ := hfits
  have hsize : B.size = (pre ++ regionList r).length + post.length := by
    rw [ByteArray.size_eq_length, h]
    simp only [List.length_append]
  have hrows : 16 * r.ids.length ≤ (r.rows.flatMap rowBytes).length := by
    rw [← r.length_rows]
    exact length_flatMap_rowBytes _
  have hlist : (regionList r).length = 12 + (r.rows.flatMap rowBytes).length := by
    simp only [regionList, List.length_append, LittleEndian.length_toBytes]
  have hn : r.ids.length < 256 ^ 4 := by
    simp only [List.length_append] at hsize
    omega
  have hoff' : (r.offset % 2 ^ 32).toNat < 256 ^ 4 := by omega
  have hcount' : (r.pickCount % 2 ^ 32).toNat < 256 ^ 4 := by omega
  have h₁ : B.data.toList = pre ++ LittleEndian.toBytes 4 r.ids.length ++
      (LittleEndian.toBytes 4 (r.offset % 2 ^ 32).toNat ++ LittleEndian.toBytes 4 (r.pickCount % 2 ^ 32).toNat ++
        r.rows.flatMap rowBytes ++ post) := by
    rw [h, regionList]
    simp
  have h₂ : B.data.toList = pre ++ LittleEndian.toBytes 4 r.ids.length ++
      LittleEndian.toBytes 4 (r.offset % 2 ^ 32).toNat ++
        (LittleEndian.toBytes 4 (r.pickCount % 2 ^ 32).toNat ++ r.rows.flatMap rowBytes ++ post) := by
    rw [h₁]
    simp
  have h₃ : B.data.toList = pre ++ LittleEndian.toBytes 4 r.ids.length ++
      LittleEndian.toBytes 4 (r.offset % 2 ^ 32).toNat ++ LittleEndian.toBytes 4 (r.pickCount % 2 ^ 32).toNat ++
        (r.rows.flatMap rowBytes ++ post) := by
    rw [h₂]
    simp
  have h₄ : B.data.toList = pre ++ LittleEndian.toBytes 4 r.ids.length ++
      LittleEndian.toBytes 4 (r.offset % 2 ^ 32).toNat ++ LittleEndian.toBytes 4 (r.pickCount % 2 ^ 32).toNat ++
        r.rows.flatMap rowBytes ++ post := by
    rw [h₃]
    simp
  obtain ⟨rest, hrest, hrem⟩ := @Cursor.remaining_gives B
    (pre ++ LittleEndian.toBytes 4 r.ids.length ++ LittleEndian.toBytes 4 (r.offset % 2 ^ 32).toNat ++
      LittleEndian.toBytes 4 (r.pickCount % 2 ^ 32).toNat).length (by simp only [List.length_append] at hsize ⊢; simp; omega)
  have hend : (pre ++ regionList r).length = (pre ++ LittleEndian.toBytes 4 r.ids.length ++
      LittleEndian.toBytes 4 (r.offset % 2 ^ 32).toNat ++ LittleEndian.toBytes 4 (r.pickCount % 2 ^ 32).toNat ++
        r.rows.flatMap rowBytes).length := by
    simp [regionList]
  unfold readRegion
  rw [hend]
  refine (liftRead_gives (Cursor.word_gives_of_lt h₁ hn)).bind ((liftRead_gives (Cursor.word_gives_of_lt h₂ hoff')).bind
    ((liftRead_gives (Cursor.word_gives_of_lt h₃ hcount')).bind ((liftRead_gives hrem).bind ?_)))
  rw [if_neg (by simp only [List.length_append, LittleEndian.length_toBytes] at hrest hsize; omega)]
  refine (liftRead_gives (readInstances_gives r.length_rows h₄ hB hrowsFit)).bind ?_
  -- the region read, field by field
  convert pure_gives _ _ using 2 <;> simp only [Region.withLabels, Region.rows, List.map_map, Function.comp_def]
  · exact (map_getD_range _ _).symm
  · omega
  · rw [← hwf.sizes_length, map_getD_range]
  · rw [← hwf.picks_length, map_getD_range]
  · have hsum : 0 ≤ r.pickCount := by
      rw [hwf.pickCount_eq]
      positivity
    omega
  · rw [← Region.length_allLabels hwf, map_getD_range]

theorem readRegions_gives {B : ByteArray} {post : List UInt8} {b : PackedBuffer} (hB : B.size < 2 ^ 32) :
    ∀ {ks : List Kind} {pre : List UInt8}, (∀ k ∈ ks, (b.regions k).Fits k) →
      B.data.toList = pre ++ (ks.map fun k => regionList (b.regions k)).flatten ++ post →
      Gives (readRegions ks) ⟨B, pre.length⟩ (ks.map fun k => (k, (b.regions k).withLabels))
        ⟨B, (pre ++ (ks.map fun k => regionList (b.regions k)).flatten).length⟩
  | [], pre, _, _ => by
    simp only [List.map_nil, List.flatten_nil, List.append_nil]
    exact pure_gives _ _
  | k :: ks, pre, hfits, h => by
    have hk : B.data.toList = pre ++ regionList (b.regions k) ++
        ((ks.map fun k => regionList (b.regions k)).flatten ++ post) := by
      rw [h]
      simp
    have hrest : B.data.toList = pre ++ regionList (b.regions k) ++
        (ks.map fun k => regionList (b.regions k)).flatten ++ post := by
      rw [hk]
      simp
    have hend : (pre ++ ((k :: ks).map fun k => regionList (b.regions k)).flatten).length =
        (pre ++ regionList (b.regions k) ++ (ks.map fun k => regionList (b.regions k)).flatten).length := by
      simp
    rw [hend]
    exact (readRegion_gives hk hB (hfits k List.mem_cons_self)).bind
      ((readRegions_gives hB (fun k' hk' => hfits k' (List.mem_cons_of_mem _ hk')) hrest).bind (pure_gives _ _))

/-! ## Payloads -/

/-- The payload bytes of a buffer: generation, total pick count, the regions in kind order, and the
data with its length. -/
def payloadList (b : PackedBuffer) : List UInt8 :=
  LittleEndian.toBytes 8 b.generation.toNat ++ LittleEndian.toBytes 4 b.totalPicks.toNat ++
    (Kind.all.map fun k => regionList (b.regions k)).flatten ++ LittleEndian.toBytes 4 b.data.size ++
    b.data.data.toList

/-- The size of a buffer's chunk payload: sixteen bytes of generation, total and data length, twelve
per region, sixteen per instance and its id and label, and the data. -/
def payloadSize (b : PackedBuffer) : Nat :=
  16 + (Kind.all.map fun k =>
    12 + ((b.regions k).rows.map fun x => 16 + x.2.2.1.utf8ByteSize + x.2.2.2.utf8ByteSize).sum).sum + b.data.size

theorem length_regionList (r : Region) :
    (regionList r).length = 12 + (r.rows.map fun x => 16 + x.2.2.1.utf8ByteSize + x.2.2.2.utf8ByteSize).sum := by
  simp [regionList, List.length_flatMap, length_rowBytes]
  omega

theorem length_payloadList (b : PackedBuffer) : (payloadList b).length = payloadSize b := by
  have hdata : b.data.data.toList.length = b.data.size := Array.length_toList
  simp only [payloadList, payloadSize, List.length_append, LittleEndian.length_toBytes, List.length_flatten,
    List.map_map, Function.comp_def, length_regionList, hdata]
  omega

theorem payload_eq {b : PackedBuffer} (hv : b.validate = .ok ()) (hdata : b.data.size < 2 ^ 32)
    (htotal : b.totalPicks < 2 ^ 32) : ∃ P, payload b = .ok P ∧ P.data.toList = payloadList b := by
  have hw := (PackedBuffer.validate_eq_ok_iff b).mp hv
  have htotal0 : 0 ≤ b.totalPicks := by
    rw [hw.totalPicks]
    positivity
  have hregions : (Kind.all.mapM fun k => regionBytes (b.regions k)) =
      some (Kind.all.map fun k => regionList (b.regions k)) :=
    mapM_eq_some_map fun k _ => regionBytes_eq (hw.region k)
  have htoNat : (b.totalPicks.toNat.toUInt32).toNat = b.totalPicks.toNat :=
    UInt32.toNat_ofNat_of_lt' (show b.totalPicks.toNat < 2 ^ 32 by omega)
  unfold payload
  simp only [toUInt32?_ok (Int.natCast_nonneg _) (by exact_mod_cast hdata), toUInt32?_ok htotal0 htotal,
    hregions, Except.mapError, bind, Except.bind, pure, Except.pure]
  refine ⟨_, rfl, ?_⟩
  simp [ByteArray.data_append, payloadList, htoNat]

/-- The regions of a well laid-out buffer fit their words when its data and total pick count do:
offsets and sizes are bounded by the data, pick counts by the total. -/
theorem fits_of_wellLaidOut {b : PackedBuffer} (hw : b.WellLaidOut) (hdata : b.data.size < 2 ^ 32)
    (htotal : b.totalPicks < 2 ^ 32) (k : Kind) : (b.regions k).Fits k := by
  have hk : k ∈ Kind.all := by cases k <;> decide
  have hbytes : b.regionBytes k ≤ b.data.size := hw.covers ▸ List.le_sum_of_mem (List.mem_map_of_mem hk)
  have hstart : b.regionStart k ≤ b.data.size :=
    hw.covers ▸ ((List.take_sublist _ _).map _).sum_le_sum fun _ _ => Nat.zero_le _
  have hpicks : (b.regions k).picks.sum ≤ b.totalPicks := by
    rw [hw.totalPicks]
    exact_mod_cast List.le_sum_of_mem (List.mem_map_of_mem (f := fun k => (b.regions k).picks.sum) hk)
  have hwf := hw.region k
  refine ⟨hwf, ?_, ?_, fun x hx => ?_⟩
  · rw [hw.offset k]
    omega
  · rw [hwf.pickCount_eq]
    omega
  · obtain ⟨hsize, hpick⟩ := Region.mem_rows hwf hx
    have hsize' : x.1 ≤ b.regionBytes k := List.le_sum_of_mem hsize
    have hpick' : x.2.1 ≤ (b.regions k).picks.sum := List.le_sum_of_mem hpick
    omega

theorem readPayload_gives {P : ByteArray} {b : PackedBuffer} (h : P.data.toList = payloadList b)
    (hP : P.size < 2 ^ 32) (hfits : ∀ k, (b.regions k).Fits k) (htotal : 0 ≤ b.totalPicks ∧ b.totalPicks < 2 ^ 32) :
    Gives readPayload ⟨P, 0⟩ b.withLabels ⟨P, P.size⟩ := by
  set G := LittleEndian.toBytes 8 b.generation.toNat
  set T := LittleEndian.toBytes 4 b.totalPicks.toNat
  set R := (Kind.all.map fun k => regionList (b.regions k)).flatten
  set L := LittleEndian.toBytes 4 b.data.size
  have hsize : P.size = payloadSize b := by rw [ByteArray.size_eq_length, h, length_payloadList]
  have hdata : b.data.size < 256 ^ 4 := by
    simp only [payloadSize] at hsize
    omega
  -- each field as what was written after the fields before it
  have h₁ : P.data.toList = [] ++ G ++ (T ++ R ++ L ++ b.data.data.toList) := by
    rw [h, payloadList]
    simp only [List.append_assoc, List.nil_append]
    rfl
  have h₂ : P.data.toList = G ++ T ++ (R ++ L ++ b.data.data.toList) := by
    rw [h₁]
    simp only [List.append_assoc, List.nil_append]
  have h₃ : P.data.toList = G ++ T ++ R ++ (L ++ b.data.data.toList) := by
    rw [h₁]
    simp only [List.append_assoc, List.nil_append]
  have h₄ : P.data.toList = G ++ T ++ R ++ L ++ (b.data.data.toList ++ []) := by
    rw [h₁]
    simp only [List.append_assoc, List.nil_append, List.append_nil]
  have h₅ : P.data.toList = G ++ T ++ R ++ L ++ b.data.data.toList ++ [] := by
    rw [h₁]
    simp only [List.append_assoc, List.nil_append, List.append_nil]
  have hend : (P.size : Int) = ((G ++ T ++ R ++ L ++ b.data.data.toList).length : Nat) := by
    rw [ByteArray.size_eq_length, h₅, List.append_nil]
  rw [hend]
  unfold readPayload
  refine (liftRead_gives (Cursor.word_gives_of_lt h₁ b.generation.toNat_lt)).bind
    ((liftRead_gives (Cursor.word_gives_of_lt h₂ (show b.totalPicks.toNat < 256 ^ 4 by omega))).bind
    ((readRegions_gives hP (fun k _ => hfits k) h₃).bind
    ((liftRead_gives (Cursor.word_gives_of_lt h₄ hdata)).bind
    ((liftRead_gives (Cursor.take_gives h₅)).bind ?_))))
  -- the buffer read, field by field
  convert pure_gives _ _ using 2
  · show b.data = ⟨b.data.data.toList.toArray⟩
    rw [Array.toArray_toList]
  · funext k
    cases k <;> rfl
  · show b.totalPicks = ((b.totalPicks.toNat : Nat) : Int)
    omega
  · exact UInt64.ofNat_toNat.symm

theorem validate_withLabels {b : PackedBuffer} (hv : b.validate = .ok ()) : b.withLabels.validate = .ok () := by
  have hw := (PackedBuffer.validate_eq_ok_iff b).mp hv
  refine (PackedBuffer.validate_eq_ok_iff _).mpr ⟨fun k => ?_, hw.offset, hw.covers, hw.totalPicks⟩
  have hwf := hw.region k
  refine { hwf with labels_length := fun ls hls => ?_ }
  have hls' : (b.regions k).allLabels = ls := Option.some_inj.mp hls
  rw [← hls']
  exact Region.length_allLabels hwf

/-! ## Chunks -/

/-- A chunk whose header carries a one-byte method and the checksum of the block after it reads
back as what the block's payload reads as, when that is well laid out. -/
theorem decode_of_header {chunk blk p : ByteArray} {code n : Nat} {buf : PackedBuffer} {c : Cursor}
    (hchunk : chunk.data.toList = LittleEndian.toBytes 4 magic ++ LittleEndian.toBytes 2 version ++
      LittleEndian.toBytes 1 code ++ [0] ++ LittleEndian.toBytes 4 (Crc32c.checksum blk).toNat ++ blk.data.toList)
    (hcode : code < 256) (hun : unblock blk code = .ok (p, n)) (hread : Gives readPayload ⟨p, 0⟩ buf c)
    (hv : buf.validate = .ok ()) : decode chunk = .ok buf := by
  have hB : blk.data.toList.length = blk.size := Array.length_toList
  have hsize : chunk.size = 12 + blk.size := by
    rw [ByteArray.size_eq_length, hchunk]
    simp only [List.length_append, LittleEndian.length_toBytes, List.length_singleton, hB]
  -- each field as what was written after the fields before it
  have hm : LittleEndian.wordAt chunk 0 4 = magic := by
    have hword := @LittleEndian.wordAt_toBytes chunk 4 [] (LittleEndian.toBytes 2 version ++
      LittleEndian.toBytes 1 code ++ [0] ++ LittleEndian.toBytes 4 (Crc32c.checksum blk).toNat ++ blk.data.toList)
      magic (by rw [hchunk]; simp only [List.append_assoc, List.nil_append])
    rw [List.length_nil] at hword
    rw [hword]
    decide
  have hver : LittleEndian.wordAt chunk 4 2 = version := by
    have hword := @LittleEndian.wordAt_toBytes chunk 2 (LittleEndian.toBytes 4 magic) (LittleEndian.toBytes 1 code ++
      [0] ++ LittleEndian.toBytes 4 (Crc32c.checksum blk).toNat ++ blk.data.toList)
      version (by rw [hchunk]; simp only [List.append_assoc])
    rw [LittleEndian.length_toBytes] at hword
    rw [hword]
    decide
  have hc : LittleEndian.wordAt chunk 6 1 = code := by
    have hword := @LittleEndian.wordAt_toBytes chunk 1 (LittleEndian.toBytes 4 magic ++ LittleEndian.toBytes 2 version)
      ([0] ++ LittleEndian.toBytes 4 (Crc32c.checksum blk).toNat ++ blk.data.toList)
      code (by rw [hchunk]; simp only [List.append_assoc])
    simp only [List.length_append, LittleEndian.length_toBytes, pow_one] at hword
    rw [hword, Nat.mod_eq_of_lt hcode]
  have hk : (LittleEndian.wordAt chunk 8 4).toUInt32 = Crc32c.checksum blk := by
    have hword := @LittleEndian.wordAt_toBytes chunk 4 (LittleEndian.toBytes 4 magic ++ LittleEndian.toBytes 2 version ++
      LittleEndian.toBytes 1 code ++ [0]) blk.data.toList (Crc32c.checksum blk).toNat hchunk
    simp only [List.length_append, LittleEndian.length_toBytes, List.length_singleton] at hword
    rw [hword, Nat.mod_eq_of_lt (Crc32c.checksum blk).toNat_lt]
    exact UInt32.ofNat_toNat
  have hblk : chunk.extract 12 (12 + blk.size) = blk := by
    have hext := @ByteArray.extract_eq_of_toList chunk (LittleEndian.toBytes 4 magic ++ LittleEndian.toBytes 2 version ++
      LittleEndian.toBytes 1 code ++ [0] ++ LittleEndian.toBytes 4 (Crc32c.checksum blk).toNat) blk.data.toList []
      (by rw [hchunk, List.append_nil])
    simp only [List.length_append, LittleEndian.length_toBytes, List.length_singleton, hB, Array.toArray_toList] at hext
    exact hext
  have hpayload : (readPayload.run.run ⟨p, 0⟩).1 = .ok buf := by
    rw [show readPayload.run.run ⟨p, 0⟩ = (.ok buf, c) from hread]
  unfold decode
  simp only [headerSize, hsize, hm, hver, hc, hk, hblk, hun, hpayload, hv, show ¬ (12 + blk.size < 12) by omega,
    bind, Except.bind, Except.mapError, pure, Except.pure, ne_eq, not_true_eq_false, if_false]

theorem block_ok {code : Nat} {m : Method} (hm : Method.ofCode? code = some m) (data : ByteArray) :
    ∃ blk, block data code = .ok blk := by
  unfold block
  rw [hm]
  dsimp only
  split <;> exact ⟨_, rfl⟩

/-- Encoding a well laid-out buffer under a known method succeeds when its data and its total pick
count fit 32 bits. -/
theorem encode_ok {b : PackedBuffer} {code : Nat} {m : Method} (hm : Method.ofCode? code = some m)
    (hv : b.validate = .ok ()) (hdata : b.data.size ≤ 2 ^ 32 - 1) (htotal : b.totalPicks ≤ 2 ^ 32 - 1) :
    ∃ c, encode b code = .ok c := by
  obtain ⟨P, hP, -⟩ := payload_eq hv (by omega) (by omega)
  obtain ⟨blk, hblk⟩ := block_ok hm P
  unfold encode
  simp only [hP, hblk, bind, Except.bind, Except.mapError, pure, Except.pure]
  exact ⟨_, rfl⟩

/-- A chunk of a well laid-out buffer whose payload is below `2 ^ 32` bytes decodes to the buffer
with its labels recorded, under every method whose decoder inverts its compressor (the method
that never compresses does, `Method.inverts_none`). -/
theorem decode_encode {b : PackedBuffer} {code : Nat} {m : Method} (hm : Method.ofCode? code = some m)
    (hv : b.validate = .ok ()) (htotal : b.totalPicks ≤ 2 ^ 32 - 1) (hfit : payloadSize b < 2 ^ 32)
    (hinv : ∀ data, Method.Inverts code data) :
    ∃ c, encode b code = .ok c ∧ decode c = .ok b.withLabels := by
  have hw := (PackedBuffer.validate_eq_ok_iff b).mp hv
  have hdata : b.data.size < 2 ^ 32 := by
    unfold payloadSize at hfit
    omega
  have htotal0 : 0 ≤ b.totalPicks := by
    rw [hw.totalPicks]
    positivity
  obtain ⟨P, hP, hlist⟩ := payload_eq hv hdata (by omega)
  have hPsize : P.size < 2 ^ 32 := by
    rw [ByteArray.size_eq_length, hlist, length_payloadList]
    exact hfit
  obtain ⟨blk, hblk, n, hun⟩ := unblock_block hm hPsize (hinv P)
  have hread := readPayload_gives hlist hPsize (fits_of_wellLaidOut hw hdata (by omega)) ⟨htotal0, by omega⟩
  refine ⟨⟨(LittleEndian.toBytes 4 magic ++ LittleEndian.toBytes 2 version ++ [code.toUInt8, 0] ++
    LittleEndian.toBytes 4 (Crc32c.checksum blk).toNat).toArray⟩ ++ blk, ?_, ?_⟩
  · unfold encode
    simp only [hP, hblk, bind, Except.bind, Except.mapError, pure, Except.pure]
  · refine decode_of_header ?_ (by have := Method.code_lt hm; omega) hun hread (validate_withLabels hv)
    simp [ByteArray.data_append, LittleEndian.toBytes_one]

example : ∃ c, encode {} 0 = .ok c ∧ decode c = .ok ({} : PackedBuffer).withLabels :=
  decode_encode rfl (by decide) (by decide) (by decide) Method.inverts_none

/-- A buffer packed from annotations, whose chunk payload is below `2 ^ 32` bytes, reads back
exactly. -/
theorem decode_encode_build {byKind : Kind → List Annotation} {gen : UInt64} {code : Nat} {m : Method}
    (hm : Method.ofCode? code = some m) (hkind : ∀ k, ∀ a ∈ byKind k, a.kind = k)
    (hids : ∀ k, ((byKind k).map Annotation.id).Nodup)
    (htotal : (PackedBuffer.build byKind gen).totalPicks ≤ 2 ^ 32 - 1)
    (hfit : payloadSize (PackedBuffer.build byKind gen) < 2 ^ 32) (hinv : ∀ data, Method.Inverts code data) :
    ∃ c, encode (PackedBuffer.build byKind gen) code = .ok c ∧ decode c = .ok (PackedBuffer.build byKind gen) := by
  have hv := (PackedBuffer.validate_eq_ok_iff _).mpr (wellLaidOut_build gen hkind hids)
  have hlabels : ∀ k, ((PackedBuffer.build byKind gen).regions k).labels.isSome := by
    intro k
    rw [build_regions]
    rfl
  obtain ⟨c, hencode, hdecode⟩ := decode_encode hm hv htotal hfit hinv
  exact ⟨c, hencode, by rw [hdecode, PackedBuffer.withLabels_of_isSome hlabels]⟩

end Chunk

end AnnotationStore
