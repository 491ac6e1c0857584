import Mathlib
import AnnotationStore.Block.Framing
import AnnotationStore.Proofs.Bytes.Read
/-!
# Reading back a block

A block is read back as it was made, whatever follows it (`block_then_unblock`): the two
header words are where the writer put them (`LittleEndian.wordAt_toBytes`), a stored block
gives its data back under every method byte (`unblock_stored`), and a compressed one under
its own method when the method's decoder gives the data back (`unblock_compressed`). In both
cases the block takes exactly its own bytes. What the compression libraries promise is taken
as given (`Method.RoundTrips`): decompressing what they compressed gives the data back.
Sizes are written as 32-bit words, so the data must be below `2 ^ 32` bytes.
-/

namespace AnnotationStore

/-! ## Words at an offset -/

namespace LittleEndian

theorem getElem?_eq (b : ByteArray) (i : Nat) : b[i]? = b.data.toList[i]? := by
  rw [Array.getElem?_toList]
  rfl

/-- A word written after a prefix is the word at the prefix's length, modulo its width. -/
theorem wordAt_toBytes {b : ByteArray} :
    ∀ {w : Nat} {pre post : List UInt8} {n : Nat},
      b.data.toList = pre ++ toBytes w n ++ post → wordAt b pre.length w = n % 256 ^ w
  | 0, _, _, n, _ => by simp [wordAt, Nat.mod_one]
  | w + 1, pre, post, n, h => by
    have hbyte : b[pre.length]? = some (n % 256).toUInt8 := by
      rw [getElem?_eq, h]
      simp [toBytes]
    -- the first byte joins the prefix, and the rest of the word is the word of `n / 256`
    have h' : b.data.toList = (pre ++ [(n % 256).toUInt8]) ++ toBytes w (n / 256) ++ post := by
      rw [h]
      simp [toBytes]
    have hrest := wordAt_toBytes h'
    have hlow : (n % 256).toUInt8.toNat = n % 256 := by simp
    simp only [List.length_append, List.length_singleton] at hrest
    simp only [wordAt, hbyte, Option.getD_some, hlow, hrest]
    rw [Nat.pow_succ, Nat.mul_comm (256 ^ w) 256, Nat.mod_mul]

theorem toBytes_one (n : Nat) : toBytes 1 n = [n.toUInt8] := by
  simp only [toBytes, List.cons.injEq, and_true]
  apply UInt8.toNat_inj.mp
  simp

end LittleEndian

/-! ## Headers -/

/-- The eight header bytes of a block: the size of the data, then the size of what is stored,
zero when the data is stored as it is. -/
def blockHeader (n c : Nat) : ByteArray :=
  ⟨(LittleEndian.toBytes 4 n ++ LittleEndian.toBytes 4 c).toArray⟩

theorem size_blockHeader_append (n c : Nat) (payload : ByteArray) :
    (blockHeader n c ++ payload).size = blockHeaderSize + payload.size := by
  have h : (blockHeader n c).size = blockHeaderSize := by
    show (LittleEndian.toBytes 4 n ++ LittleEndian.toBytes 4 c).toArray.size = 8
    simp
  rw [ByteArray.size_append, h]

/-- A block header and the bytes it frames, whatever follows them: the two words read back,
and the framed bytes are where the header says. -/
theorem blockHeader_frame (n c : Nat) (payload x : ByteArray) :
    LittleEndian.wordAt (blockHeader n c ++ payload ++ x) 0 4 = n % 2 ^ 32 ∧
      LittleEndian.wordAt (blockHeader n c ++ payload ++ x) 4 4 = c % 2 ^ 32 ∧
      (blockHeader n c ++ payload ++ x).size = blockHeaderSize + payload.size + x.size ∧
      (blockHeader n c ++ payload ++ x).extract blockHeaderSize (blockHeaderSize + payload.size) =
        payload := by
  set b := blockHeader n c ++ payload ++ x
  have hlist : b.data.toList = LittleEndian.toBytes 4 n ++ LittleEndian.toBytes 4 c ++
      payload.data.toList ++ x.data.toList := by
    simp [b, blockHeader, ByteArray.data_append]
  have hlen : payload.data.toList.length = payload.size := Array.length_toList
  have hxlen : x.data.toList.length = x.size := Array.length_toList
  -- each word, then the framed bytes, as the part written after what comes before it
  have h0 : b.data.toList = [] ++ LittleEndian.toBytes 4 n ++
      (LittleEndian.toBytes 4 c ++ payload.data.toList ++ x.data.toList) := by
    rw [hlist]
    simp
  have h1 : b.data.toList = LittleEndian.toBytes 4 n ++ LittleEndian.toBytes 4 c ++
      (payload.data.toList ++ x.data.toList) := by
    rw [hlist]
    simp
  have h2 : b.data.toList = (LittleEndian.toBytes 4 n ++ LittleEndian.toBytes 4 c) ++
      payload.data.toList ++ x.data.toList := by
    rw [hlist]
  have hw0 := LittleEndian.wordAt_toBytes h0
  have hw1 := LittleEndian.wordAt_toBytes h1
  have hext := ByteArray.extract_eq_of_toList h2
  simp only [List.length_nil, List.length_append, LittleEndian.length_toBytes, hlen,
    Array.toArray_toList] at hw0 hw1 hext
  refine ⟨hw0, hw1, ?_, hext⟩
  rw [ByteArray.size_eq_length, hlist]
  simp only [List.length_append, LittleEndian.length_toBytes, hlen, hxlen, blockHeaderSize]

theorem stored_word (n c : Nat) (payload : ByteArray) :
    LittleEndian.wordAt (blockHeader n c ++ payload) 4 4 = c % 2 ^ 32 := by
  have h := (blockHeader_frame n c payload .empty).2.1
  rwa [ByteArray.append_empty] at h

/-! ## Making a block -/

theorem block_eq_ok {data : ByteArray} {code : Nat} {m : Method} (hm : Method.ofCode? code = some m) :
    block data code = .ok (if storedInstead (m.compress data).size data.size
      then blockHeader (data.size % 2 ^ 32) 0 ++ data
      else blockHeader (data.size % 2 ^ 32) ((m.compress data).size % 2 ^ 32) ++ m.compress data) := by
  unfold block
  rw [hm]
  dsimp only
  split <;> rfl

theorem block_of_ofCode?_none {data : ByteArray} {code : Nat} (hm : Method.ofCode? code = none) :
    block data code = .error (.unknownMethod code) := by
  unfold block
  rw [hm]

/-- Data is stored as it is under the method none, when the method's output is empty, and
when that output saves less than a tenth of the data. -/
theorem storedInstead_iff (m : Method) (data : ByteArray) :
    storedInstead (m.compress data).size data.size = true ↔
      m = .none ∨ (m.compress data).size = 0 ∨ 9 * data.size < 10 * (m.compress data).size := by
  cases m <;> simp [storedInstead, Method.compress]

/-- Compressed output that is kept is not empty and at most nine tenths of the data. -/
theorem kept_size {c n : Nat} (h : ¬storedInstead c n = true) : 0 < c ∧ 10 * c ≤ 9 * n := by
  simp only [storedInstead, decide_eq_true_eq, not_or] at h
  omega

theorem block_size_le {data blk : ByteArray} {code : Nat} (h : block data code = .ok blk) :
    blk.size ≤ blockHeaderSize + data.size := by
  cases hm : Method.ofCode? code with
  | none =>
    rw [block_of_ofCode?_none hm] at h
    cases h
  | some m =>
    rw [block_eq_ok hm] at h
    injection h with h
    subst h
    split
    · rw [size_blockHeader_append]
    · -- compressed: the header, then the compressed form, which is shorter than the data
      rename_i hkept
      have hc := kept_size hkept
      rw [size_blockHeader_append]
      omega

theorem Method.code_lt {code : Nat} {m : Method} (hm : Method.ofCode? code = some m) : code < 3 := by
  match code, hm with
  | 0, _ | 1, _ | 2, _ => decide

theorem Method.eq_code_of_ofCode? {code : Nat} {m : Method} (hm : Method.ofCode? code = some m) :
    code = m.code := by
  match code, hm with
  | 0, h | 1, h | 2, h =>
    simp only [Method.ofCode?, Option.some.injEq] at h
    subst h
    rfl

/-! ## Unblocking -/

/-- Stored data unblocks under every method byte, whatever follows it, and the block takes
exactly its header and the data. -/
theorem unblock_stored {data : ByteArray} (hsize : data.size < 2 ^ 32) (x : ByteArray) (code : Nat) :
    unblock (blockHeader data.size 0 ++ data ++ x) code = .ok (data, blockHeaderSize + data.size) := by
  obtain ⟨hw0, hw1, hsz, hext⟩ := blockHeader_frame data.size 0 data x
  unfold unblock
  simp only [hw0, hw1, hsz, Nat.mod_eq_of_lt hsize, Nat.zero_mod, if_true]
  rw [if_neg (by simp only [blockHeaderSize]; omega), if_neg (by omega), hext]

/-- Compressed data unblocks under a method byte whose decoder gives the data back, whatever
follows it, and the block takes exactly its header and the compressed bytes. -/
theorem unblock_compressed {data packed : ByteArray} {code : Nat} (hsize : data.size < 2 ^ 32)
    (hpos : 0 < packed.size) (hpsize : packed.size < 2 ^ 32)
    (hdec : decodeBlockData code packed data.size = .ok data) (x : ByteArray) :
    unblock (blockHeader data.size packed.size ++ packed ++ x) code =
      .ok (data, blockHeaderSize + packed.size) := by
  obtain ⟨hw0, hw1, hsz, hext⟩ := blockHeader_frame data.size packed.size packed x
  unfold unblock
  simp only [hw0, hw1, hsz, Nat.mod_eq_of_lt hsize, Nat.mod_eq_of_lt hpsize]
  rw [if_neg (by simp only [blockHeaderSize]; omega), if_neg (by omega), if_neg (by omega), hext, hdec]
  rfl

/-! ## What the methods promise -/

/-- What a compression method is trusted to do with one payload: when its output is kept,
decoding that output gives the payload back. -/
def Method.Inverts (code : Nat) (data : ByteArray) : Prop :=
  ∀ m, Method.ofCode? code = some m → storedInstead (m.compress data).size data.size = false →
    decodeBlockData code (m.compress data) data.size = .ok data

theorem Method.inverts_none (data : ByteArray) : Method.Inverts Method.none.code data := by
  intro m hm hkept
  cases hm
  simp [Method.compress, storedInstead] at hkept

/-- What the compression libraries promise of their own output: decompressing what they
compressed gives the data back. The method that never compresses promises nothing. -/
def Method.RoundTrips : Method → ByteArray → Prop
  | .none, _ => True
  | .lz4, data => Lz4.decode (Lz4.compress data) data.size = .decoded data
  | .zstd, data => Zstd.decompress? (Zstd.compress data) = some data

/-- A method that keeps its promise decodes its own output to the data, at the data's size. -/
theorem Method.RoundTrips.decode {m : Method} {data : ByteArray} (h : m.RoundTrips data)
    (hm : m ≠ .none) : decodeBlockData m.code (m.compress data) data.size = .ok data := by
  cases m with
  | none => exact absurd rfl hm
  | lz4 =>
    simp only [Method.RoundTrips] at h
    simp [decodeBlockData, Method.code, Method.ofCode?, Method.compress, h]
  | zstd =>
    simp only [Method.RoundTrips] at h
    simp [decodeBlockData, Method.code, Method.ofCode?, Method.compress, h]

theorem Method.RoundTrips.inverts {m : Method} {data : ByteArray} (h : m.RoundTrips data) :
    Method.Inverts m.code data := by
  intro m' hm' hkept
  rw [Method.ofCode?_code] at hm'
  cases hm'
  cases m with
  | none => simp [Method.compress, storedInstead] at hkept
  | lz4 => exact h.decode (by simp)
  | zstd => exact h.decode (by simp)

/-! ## Reading back a block -/

/-- The block of data under a known method gives the data back, when the data fits the
32-bit size words and the method inverts its compressor on it. -/
theorem unblock_block {data : ByteArray} {code : Nat} {m : Method} (hm : Method.ofCode? code = some m)
    (hsize : data.size < 2 ^ 32) (hinv : Method.Inverts code data) :
    ∃ blk, block data code = .ok blk ∧ ∃ n, unblock blk code = .ok (data, n) := by
  rw [block_eq_ok hm, Nat.mod_eq_of_lt hsize]
  split
  · -- stored: the header, then the data as it is
    refine ⟨_, rfl, blockHeaderSize + data.size, ?_⟩
    simpa [ByteArray.append_empty] using unblock_stored hsize .empty code
  · -- compressed: the header, then the compressed form, which is shorter than the data
    rename_i hkept
    have hc := kept_size hkept
    have hcsize : (m.compress data).size < 2 ^ 32 := by omega
    have hdec := hinv m hm (by simpa using hkept)
    refine ⟨_, rfl, blockHeaderSize + (m.compress data).size, ?_⟩
    rw [Nat.mod_eq_of_lt hcsize]
    simpa [ByteArray.append_empty] using unblock_compressed hsize hc.1 hcsize hdec .empty

/-- What reading back the block `blk` of `data`, made under the method `m` of byte `code`,
gives. The block stores the data as it is, with a zero second word, exactly when the method
is none, its output is empty, or its output saves less than a tenth. It unblocks to the data
under its own method byte, taking exactly its own bytes, whatever follows it; a stored block
does so under every method byte. -/
structure ReadsBack (data : ByteArray) (code : Nat) (m : Method) (blk : ByteArray) : Prop where
  stored_iff : LittleEndian.wordAt blk 4 4 = 0 ↔
    m = .none ∨ (m.compress data).size = 0 ∨ 9 * data.size < 10 * (m.compress data).size
  unblock_eq : ∀ x, unblock (blk ++ x) code = .ok (data, blk.size)
  any_method : LittleEndian.wordAt blk 4 4 = 0 → ∀ x code', unblock (blk ++ x) code' = .ok (data, blk.size)

/-- Data below `2 ^ 32` bytes makes a block under each known method byte, and reads back from
it as `ReadsBack` says, when the method keeps its promise; an unknown method byte makes no
block. -/
theorem block_then_unblock (data : ByteArray) (hsize : data.size < 2 ^ 32) (code : Nat) :
    (Method.ofCode? code = none → block data code = .error (.unknownMethod code)) ∧
    ∀ m, Method.ofCode? code = some m → m.RoundTrips data →
      ∃ blk, block data code = .ok blk ∧ ReadsBack data code m blk := by
  refine ⟨block_of_ofCode?_none, fun m hm hround => ?_⟩
  rw [block_eq_ok hm, Nat.mod_eq_of_lt hsize]
  split
  · -- stored: the header with a zero second word, then the data
    rename_i hstored
    have hw := stored_word data.size 0 data
    refine ⟨_, rfl, ⟨?_, fun x => ?_, fun _ x code' => ?_⟩⟩
    · simpa [hw] using (storedInstead_iff m data).mp hstored
    · rw [size_blockHeader_append]
      exact unblock_stored hsize x code
    · rw [size_blockHeader_append]
      exact unblock_stored hsize x code'
  · -- compressed: the header with the compressed size, then the compressed bytes
    rename_i hkept
    have hnone : m ≠ .none := fun h => hkept ((storedInstead_iff m data).mpr (.inl h))
    have hc := kept_size hkept
    have hcsize : (m.compress data).size < 2 ^ 32 := by omega
    have hw := stored_word data.size (m.compress data).size (m.compress data)
    rw [Nat.mod_eq_of_lt hcsize] at hw ⊢
    have hdec : decodeBlockData code (m.compress data) data.size = .ok data := by
      rw [Method.eq_code_of_ofCode? hm]
      exact hround.decode hnone
    refine ⟨_, rfl, ⟨?_, fun x => ?_, fun hzero => absurd (hw ▸ hzero) (by omega)⟩⟩
    · -- neither side holds: the second word is the compressed size, and the output was kept
      rw [hw]
      constructor
      · intro h
        omega
      · rintro (h | h | h) <;> [exact absurd h hnone; omega; omega]
    · rw [size_blockHeader_append]
      exact unblock_compressed hsize hc.1 hcsize hdec x

-- Decoder outcomes compare by their bytes, so a closed round trip can be checked by evaluation.
deriving instance DecidableEq for Lz4.Outcome

/-- Thirty-two zero bytes under LZ4: the compressor's 22 bytes are kept, below nine tenths of
the data, and the block reads back. -/
theorem block_then_unblock_zeros_lz4 :
    let data : ByteArray := ⟨(List.replicate 32 0).toArray⟩
    data.size < 2 ^ 32 ∧ Method.ofCode? 1 = some Method.lz4 ∧ Method.lz4.RoundTrips data ∧
      (Method.lz4.compress data).size = 22 ∧
      ∃ blk, block data 1 = .ok blk ∧ ReadsBack data 1 .lz4 blk := by
  intro data
  have hround : Method.lz4.RoundTrips data := by
    show Lz4.decode (Lz4.compress data) data.size = .decoded data
    decide +kernel
  have hkept : (Method.lz4.compress data).size = 22 := by decide +kernel
  exact ⟨by decide, rfl, hround, hkept, (block_then_unblock data (by decide) 1).2 .lz4 rfl hround⟩

end AnnotationStore
