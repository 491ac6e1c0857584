import Mathlib
import AnnotationStore.Snapshot.Format
import AnnotationStore.Proofs.Text.Utf8
import AnnotationStore.Proofs.Buffer.Layout
import AnnotationStore.Proofs.Block.Framing
/-!
# Reading back a written snapshot

A snapshot is a 48-byte header and one block. Every header whose fields have the widths of the
format reads back as itself from in front of anything (`Snapshot.readHeader_append`), padding
and reserved bytes included, and starts with the magic word and the version. A codec name of
at most eight bytes that does not end in a zero byte comes back from its zero-padded field
(`Snapshot.codecName_recovers`). The block gives back its data (`unblock_block`) when the
method keeps its promise on it, which the method that never compresses always does.

Main statement (`Snapshot.snapshot_reads_back`): whatever a codec writes below `2 ^ 32` bytes
and a known method round-trips is encoded as a header and a block that decode to that header
and the text, the header holding the count, the codec name, the method byte and the block size.
-/

namespace AnnotationStore

/-! ## Codec names -/

theorem fromUTF8?_toUTF8 (s : String) : String.fromUTF8? s.toUTF8 = some s := by
  simp only [String.fromUTF8?, String.toUTF8_eq_toByteArray, dif_pos s.isValidUTF8]
  rfl

/-! ## The text of a list -/

theorem String.length_le_size_toUTF8 (s : String) : s.length ≤ s.toUTF8.size := by
  rw [ByteArray.size_eq_length, ← ByteArray.toList_eq, Utf8.toList_toUTF8, ← String.length_toList]
  -- every character takes at least one byte
  induction s.toList with
  | nil => simp
  | cons ch chs ih =>
    have := ch.utf8Size_pos
    simp only [List.flatMap_cons, List.length_append, String.length_utf8EncodeChar, List.length_cons]
    omega

theorem length_of_mapM_eq_some {α β : Type} {f : α → Option β} :
    ∀ {l : List α} {r : List β}, l.mapM f = some r → r.length = l.length
  | [], r, h => by
    simp only [List.mapM_nil, pure, Option.some.injEq] at h
    subst h
    rfl
  | x :: l, r, h => by
    simp only [List.mapM_cons, bind, Option.bind_eq_some_iff, pure, Option.some.injEq] at h
    obtain ⟨_, -, rs, hrs, rfl⟩ := h
    simp [length_of_mapM_eq_some hrs]

/-- Items joined by commas: one fewer comma than items. -/
theorem Json.length_le_renderItems (st : Json.Style) :
    ∀ xs : List Json, xs.length ≤ (Json.renderItems st xs).length + 1
  | [] => by simp
  | [_] => by simp
  | x :: y :: ys => by
    have ih := Json.length_le_renderItems st (y :: ys)
    have hcomma : ",".length = 1 := rfl
    simp only [Json.renderItems, String.length_append, List.length_cons] at ih ⊢
    omega

/-- A list the codec writes has fewer entries than its text has bytes. -/
theorem PlainJson.length_lt_marshalList {c : Codec} {entries : List Plain} {text : String}
    (h : PlainJson.marshalList? c entries = some text) : entries.length < text.toUTF8.size := by
  unfold PlainJson.marshalList? at h
  obtain ⟨js, hjs, rfl⟩ := Option.map_eq_some_iff.mp h
  have hlen := length_of_mapM_eq_some hjs
  have hitems := Json.length_le_renderItems c.style js
  have hshape : (c.render (.arr js)).length = (Json.renderItems c.style js).length + 2 := by
    have hopen : "[".length = 1 := rfl
    have hclose : "]".length = 1 := rfl
    simp only [Codec.render, Json.render, String.length_append, hopen, hclose]
    omega
  have hbytes := String.length_le_size_toUTF8 (c.render (.arr js))
  omega

theorem PlainJson.marshalList?_nil (c : Codec) : PlainJson.marshalList? c [] = some "[]" := by
  cases c <;> rfl

namespace Snapshot

open LittleEndian

/-! ## Codec name fields -/

/-- Trailing zero bytes come off a list padded with zeros, and no more when its last byte is
not zero. -/
theorem dropWhile_reverse_append_zeros {l : List UInt8} (hlast : l.getLast? ≠ some 0) (k : Nat) :
    (l ++ List.replicate k 0).reverse.dropWhile (· = 0) = l.reverse := by
  rw [List.reverse_append, List.reverse_replicate]
  induction k with
  | zero =>
    simp only [List.replicate_zero, List.nil_append]
    cases hr : l.reverse with
    | nil => rfl
    | cons a t =>
      -- the head of the reversed list is the last byte, which is not zero
      have ha : a ≠ 0 := by
        intro h0
        apply hlast
        rw [← List.head?_reverse, hr, h0]
        rfl
      simp [ha]
  | succ k ih => simp [List.replicate_succ, ih]

theorem codecField?_eq_some {name : String} (hsize : name.toUTF8.size ≤ codecNameSize) :
    codecField? name =
      some (name.toUTF8 ++ ⟨(List.replicate (codecNameSize - name.toUTF8.size) 0).toArray⟩) := by
  unfold codecField?
  dsimp only
  rw [if_neg (Nat.not_lt.mpr hsize)]

/-- A name of at most eight bytes that does not end in a zero byte is accepted into an
eight-byte field, and every header with that field gives the name back. -/
theorem codecName_recovers {name : String} (hsize : name.toUTF8.size ≤ codecNameSize)
    (hlast : name.toUTF8.data.toList.getLast? ≠ some 0) :
    ∃ field, codecField? name = some field ∧ field.size = codecNameSize ∧
      ∀ h : Header, h.codecField = field → h.codecName = name.toUTF8 := by
  refine ⟨_, codecField?_eq_some hsize, ?_, fun h hf => ?_⟩
  · simp only [ByteArray.size_append]
    simp only [ByteArray.size, List.size_toArray, List.length_replicate]
    simp only [ByteArray.size] at hsize
    omega
  · unfold Header.codecName
    rw [hf, ByteArray.toList_eq, ByteArray.data_append, Array.toList_append, List.toList_toArray,
      dropWhile_reverse_append_zeros hlast, List.reverse_reverse, Array.toArray_toList]

/-- A header whose name field is made from a registered codec's name gives that name back. -/
theorem codecName_of_field (c : Codec) {h : Header}
    (hf : h.codecField = (codecField? c.name).getD .empty) :
    h.codecName = c.name.toUTF8 ∧ h.codecField.size = codecNameSize := by
  -- a registered name fits its field and does not end in a zero byte
  obtain ⟨field, hfield, hsize, hback⟩ :=
    @codecName_recovers c.name (by cases c <;> decide) (by cases c <;> decide)
  rw [hfield, Option.getD_some] at hf
  exact ⟨hback h hf, hf ▸ hsize⟩

/-- A header's name field made from a registered codec's name holds eight bytes and names the codec. -/
theorem codecName_field (c : Codec) {h : Header} (hf : h.codecField = (codecField? c.name).getD .empty) :
    (String.fromUTF8? h.codecName).bind Codec.byName? = some c ∧ h.codecField.size = 8 := by
  obtain ⟨hname, hsize⟩ := codecName_of_field c hf
  refine ⟨?_, hsize⟩
  rw [hname, fromUTF8?_toUTF8]
  cases c <;> rfl

/-! ## Headers -/

/-- What a header must hold to be written and read back field for field: the widths its
fields have in the format. -/
structure Header.WellFormed (h : Header) : Prop where
  compression_lt : h.compression < 256
  padding1_size : h.padding1.size = 3
  codecField_size : h.codecField.size = 8
  count_lt : h.count < 2 ^ 64
  blockSize_lt : h.blockSize < 2 ^ 64
  padding2_size : h.padding2.size = 4
  reserved_size : h.reserved.size = 4

theorem toList_header_append (h : Header) (blk : ByteArray) : (h.bytes ++ blk).data.toList =
    toBytes 4 magic ++ toBytes 4 version ++ toBytes 1 h.compression ++ h.padding1.data.toList ++
      h.codecField.data.toList ++ toBytes 8 h.count ++ toBytes 8 h.blockSize ++
      toBytes 4 h.checksum.toNat ++ h.padding2.data.toList ++ h.reserved.data.toList ++
      blk.data.toList := by
  simp [Header.bytes, ByteArray.data_append, ByteArray.toList_eq, toBytes_one]

theorem readHeader_append {h : Header} (hw : h.WellFormed) (blk : ByteArray) :
    readHeader (h.bytes ++ blk) = .ok h := by
  have hlist := toList_header_append h blk
  set b := h.bytes ++ blk
  set M := toBytes 4 magic
  set V := toBytes 4 version
  set C := toBytes 1 h.compression
  set P := h.padding1.data.toList with hP
  set F := h.codecField.data.toList with hF
  set N := toBytes 8 h.count
  set S := toBytes 8 h.blockSize
  set K := toBytes 4 h.checksum.toNat
  set Q := h.padding2.data.toList with hQ
  set R := h.reserved.data.toList with hR
  set B := blk.data.toList
  have hP : P.length = 3 := by rw [hP, Array.length_toList]; exact hw.padding1_size
  have hF : F.length = 8 := by rw [hF, Array.length_toList]; exact hw.codecField_size
  have hQ : Q.length = 4 := by rw [hQ, Array.length_toList]; exact hw.padding2_size
  have hR : R.length = 4 := by rw [hR, Array.length_toList]; exact hw.reserved_size
  -- each field as what was written after the fields before it
  have s0 : b.data.toList = [] ++ M ++ (V ++ C ++ P ++ F ++ N ++ S ++ K ++ Q ++ R ++ B) := by
    rw [hlist]; simp only [List.append_assoc, List.nil_append]
  have s1 : b.data.toList = M ++ V ++ (C ++ P ++ F ++ N ++ S ++ K ++ Q ++ R ++ B) := by
    rw [hlist]; simp only [List.append_assoc]
  have s2 : b.data.toList = (M ++ V) ++ C ++ (P ++ F ++ N ++ S ++ K ++ Q ++ R ++ B) := by
    rw [hlist]; simp only [List.append_assoc]
  have s3 : b.data.toList = (M ++ V ++ C) ++ P ++ (F ++ N ++ S ++ K ++ Q ++ R ++ B) := by
    rw [hlist]; simp only [List.append_assoc]
  have s4 : b.data.toList = (M ++ V ++ C ++ P) ++ F ++ (N ++ S ++ K ++ Q ++ R ++ B) := by
    rw [hlist]; simp only [List.append_assoc]
  have s5 : b.data.toList = (M ++ V ++ C ++ P ++ F) ++ N ++ (S ++ K ++ Q ++ R ++ B) := by
    rw [hlist]; simp only [List.append_assoc]
  have s6 : b.data.toList = (M ++ V ++ C ++ P ++ F ++ N) ++ S ++ (K ++ Q ++ R ++ B) := by
    rw [hlist]; simp only [List.append_assoc]
  have s7 : b.data.toList = (M ++ V ++ C ++ P ++ F ++ N ++ S) ++ K ++ (Q ++ R ++ B) := by
    rw [hlist]; simp only [List.append_assoc]
  have s8 : b.data.toList = (M ++ V ++ C ++ P ++ F ++ N ++ S ++ K) ++ Q ++ (R ++ B) := by
    rw [hlist]; simp only [List.append_assoc]
  have s9 : b.data.toList = (M ++ V ++ C ++ P ++ F ++ N ++ S ++ K ++ Q) ++ R ++ B := by
    rw [hlist]
  have hm := wordAt_toBytes s0
  have hv := wordAt_toBytes s1
  have hc := wordAt_toBytes s2
  have hpad1 := ByteArray.extract_eq_of_toList s3
  have hfield := ByteArray.extract_eq_of_toList s4
  have hn := wordAt_toBytes s5
  have hs := wordAt_toBytes s6
  have hk := wordAt_toBytes s7
  have hpad2 := ByteArray.extract_eq_of_toList s8
  have hres := ByteArray.extract_eq_of_toList s9
  simp only [List.length_append, List.length_nil, length_toBytes, hP, hF, hQ, hR, M, V, C, N, S, K,
    Nat.reduceAdd] at hm hv hc hpad1 hfield hn hs hk hpad2 hres
  have hsize : ¬ b.size < headerSize := by
    rw [ByteArray.size_eq_length, hlist]
    simp only [List.length_append, length_toBytes, hP, hF, hQ, hR, M, V, C, N, S, K, headerSize]
    omega
  have hmagic : magic % 256 ^ 4 = magic := by decide
  have hversion : version % 256 ^ 4 = version := by decide
  have hsum : (h.checksum.toNat % 256 ^ 4).toUInt32 = h.checksum := by
    rw [Nat.mod_eq_of_lt h.checksum.toNat_lt]
    exact UInt32.ofNat_toNat
  have hcount : h.count % 256 ^ 8 = h.count := Nat.mod_eq_of_lt hw.count_lt
  have hblock : h.blockSize % 256 ^ 8 = h.blockSize := Nat.mod_eq_of_lt hw.blockSize_lt
  unfold readHeader
  simp only [hm, hv, hc, hn, hs, hk, hsize, hmagic, hversion, hpad1, hfield, hpad2, hres, hsum,
    hcount, hblock, pow_one, Nat.mod_eq_of_lt hw.compression_lt, if_false, ne_eq, not_true_eq_false]
  rfl

theorem Header.size_bytes {h : Header} (hw : h.WellFormed) : h.bytes.size = headerSize := by
  have h1 : h.padding1.data.toList.length = 3 := by rw [Array.length_toList]; exact hw.padding1_size
  have h2 : h.codecField.data.toList.length = 8 := by rw [Array.length_toList]; exact hw.codecField_size
  have h3 : h.padding2.data.toList.length = 4 := by rw [Array.length_toList]; exact hw.padding2_size
  have h4 : h.reserved.data.toList.length = 4 := by rw [Array.length_toList]; exact hw.reserved_size
  rw [ByteArray.size_eq_length]
  simp [Header.bytes, ByteArray.toList_eq, h1, h2, h3, h4, headerSize]

theorem Header.magic_version (h : Header) (blk : ByteArray) :
    wordAt (h.bytes ++ blk) 0 4 = magic ∧ wordAt (h.bytes ++ blk) 4 4 = version := by
  have hlist := toList_header_append h blk
  set T := toBytes 1 h.compression ++ h.padding1.data.toList ++ h.codecField.data.toList ++
    toBytes 8 h.count ++ toBytes 8 h.blockSize ++ toBytes 4 h.checksum.toNat ++
    h.padding2.data.toList ++ h.reserved.data.toList ++ blk.data.toList
  have s0 : (h.bytes ++ blk).data.toList = [] ++ toBytes 4 magic ++ (toBytes 4 version ++ T) := by
    rw [hlist]; simp only [T, List.append_assoc, List.nil_append]
  have s1 : (h.bytes ++ blk).data.toList = toBytes 4 magic ++ toBytes 4 version ++ T := by
    rw [hlist]; simp only [T, List.append_assoc]
  have hm := wordAt_toBytes s0
  have hv := wordAt_toBytes s1
  simp only [List.length_nil, length_toBytes] at hm hv
  exact ⟨hm.trans (by decide), hv.trans (by decide)⟩

/-! ## Snapshots -/

/-- A well-formed header in front of a block it describes, naming a registered codec, reads
back as itself with the block's data. -/
theorem decode_append {h : Header} {blk payload : ByteArray} {n : Nat} {c : Codec} (hw : h.WellFormed)
    (hname : (String.fromUTF8? h.codecName).bind Codec.byName? = some c)
    (hsize : h.blockSize = blk.size) (hsum : h.checksum = Crc32c.checksum blk)
    (hun : unblock blk h.compression = .ok (payload, n)) :
    decode (h.bytes ++ blk) = .ok (h, payload) := by
  have hread := readHeader_append hw blk
  have hhdr := Header.size_bytes hw
  -- the block is what follows the header
  have hlist : (h.bytes ++ blk).data.toList = h.bytes.data.toList ++ blk.data.toList ++ [] := by
    simp [ByteArray.data_append]
  have hext := ByteArray.extract_eq_of_toList hlist
  have hlen : h.bytes.data.toList.length = headerSize := by rw [Array.length_toList]; exact hhdr
  have hblen : blk.data.toList.length = blk.size := Array.length_toList
  have htotal : (h.bytes ++ blk).size = headerSize + blk.size := by
    rw [ByteArray.size_eq_length, hlist]
    simp [hlen, hblen]
  rw [hlen, hblen, Array.toArray_toList, ← htotal] at hext
  have hblk : (h.bytes ++ blk).extract headerSize (h.bytes ++ blk).size = blk := hext
  unfold decode
  simp only [hread, bind, Except.bind, hname, Option.isNone_some, hblk, ← hsize, ← hsum, hun, ne_eq,
    not_true_eq_false, Bool.false_eq_true, if_false, Except.mapError, pure, Except.pure]

/-- The header `encode` writes in front of the block `blk`. -/
def writtenHeader (entries : List Plain) (c : Codec) (code : Nat) (blk : ByteArray) : Header :=
  { compression := code, codecField := (codecField? c.name).getD .empty, count := entries.length,
    blockSize := blk.size, checksum := Crc32c.checksum blk }

theorem encode_eq_ok {entries : List Plain} {c : Codec} {code : Nat} {text : String} {blk : ByteArray}
    (htext : PlainJson.marshalList? c entries = some text) (hblk : block text.toUTF8 code = .ok blk) :
    encode entries c code = .ok ((writtenHeader entries c code blk).bytes ++ blk) := by
  unfold encode
  simp only [htext, hblk, bind, Except.bind, Except.mapError, pure, Except.pure]
  rfl

/-- The header written for a codec's text under a known method, when the text fits the
block's size words, has the widths of the format. -/
theorem wellFormed_writtenHeader {entries : List Plain} {c : Codec} {code : Nat} {m : Method}
    {text : String} {blk : ByteArray} (htext : PlainJson.marshalList? c entries = some text)
    (hm : Method.ofCode? code = some m) (hsize : text.toUTF8.size < 2 ^ 32)
    (hblk : block text.toUTF8 code = .ok blk) : (writtenHeader entries c code blk).WellFormed where
  compression_lt := by
    have := Method.code_lt hm
    simp only [writtenHeader]
    omega
  padding1_size := rfl
  codecField_size := (codecName_field c (h := writtenHeader entries c code blk) rfl).2
  count_lt := by
    have := PlainJson.length_lt_marshalList htext
    simp only [writtenHeader]
    omega
  blockSize_lt := by
    have := block_size_le hblk
    simp only [writtenHeader, blockHeaderSize] at this ⊢
    omega
  padding2_size := rfl
  reserved_size := rfl

/-- A snapshot written from a codec's text under a known method reads back as the text, naming the codec,
when the text fits the block's size words and the method inverts its compressor on it. -/
theorem encode_then_decode {entries : List Plain} {c : Codec} {code : Nat} {m : Method} {text : String}
    (htext : PlainJson.marshalList? c entries = some text) (hm : Method.ofCode? code = some m)
    (hsize : text.toUTF8.size < 2 ^ 32) (hinv : Method.Inverts code text.toUTF8) :
    ∃ data, encode entries c code = .ok data ∧ ∃ h, decode data = .ok (h, text.toUTF8) ∧
      (String.fromUTF8? h.codecName).bind Codec.byName? = some c := by
  obtain ⟨blk, hblk, n, hun⟩ := unblock_block hm hsize hinv
  obtain ⟨hname, -⟩ := codecName_field c (h := writtenHeader entries c code blk) rfl
  have hw := wellFormed_writtenHeader htext hm hsize hblk
  exact ⟨_, encode_eq_ok htext hblk, _, decode_append hw hname rfl rfl hun, hname⟩

/-- Reading back a written snapshot. For every list of plain forms that a codec writes as a text
below `2 ^ 32` bytes, and every known method that keeps its promise, the text makes a block and
the snapshot is a header followed by that block. The snapshot decodes to that very header and
the text; the header starts with the magic word and the version, and holds the number of
entries, the codec's name, the method byte and the block's size. The empty list is written
`[]`. Every header with the widths of the format reads back as itself, padding and reserved
bytes included, in front of anything, from 48 bytes that start with the magic word and the
version. Every codec name of at most eight bytes that does not end in a zero byte is accepted
into an eight-byte field and comes back from it. -/
theorem snapshot_reads_back :
    (∀ (entries : List Plain) (c : Codec) (code : Nat) (m : Method) (text : String),
      Method.ofCode? code = some m → PlainJson.marshalList? c entries = some text →
      text.toUTF8.size < 2 ^ 32 → m.RoundTrips text.toUTF8 →
      ∃ blk h, block text.toUTF8 code = .ok blk ∧ encode entries c code = .ok (h.bytes ++ blk) ∧
        decode (h.bytes ++ blk) = .ok (h, text.toUTF8) ∧
        wordAt (h.bytes ++ blk) 0 4 = magic ∧ wordAt (h.bytes ++ blk) 4 4 = version ∧
        h.count = entries.length ∧ h.codecName = c.name.toUTF8 ∧ h.compression = code ∧
        h.blockSize = blk.size) ∧
    (∀ c, PlainJson.marshalList? c [] = some "[]") ∧
    (∀ h : Header, h.WellFormed → (∀ rest, readHeader (h.bytes ++ rest) = .ok h) ∧
      h.bytes.size = headerSize ∧ wordAt h.bytes 0 4 = magic ∧ wordAt h.bytes 4 4 = version) ∧
    ∀ name : String, name.toUTF8.size ≤ codecNameSize → name.toUTF8.data.toList.getLast? ≠ some 0 →
      ∃ field, codecField? name = some field ∧ field.size = codecNameSize ∧
        ∀ h : Header, h.codecField = field → h.codecName = name.toUTF8 := by
  refine ⟨fun entries c code m text hm htext hsize hround => ?_, PlainJson.marshalList?_nil,
    fun h hw => ⟨readHeader_append hw, Header.size_bytes hw, ?_⟩, fun _ => codecName_recovers⟩
  · obtain ⟨blk, hblk, n, hun⟩ := unblock_block hm hsize
      (by rw [Method.eq_code_of_ofCode? hm]; exact hround.inverts)
    obtain ⟨hname, -⟩ := codecName_field c (h := writtenHeader entries c code blk) rfl
    have hw := wellFormed_writtenHeader htext hm hsize hblk
    obtain ⟨hmagic, hversion⟩ := Header.magic_version (writtenHeader entries c code blk) blk
    exact ⟨blk, _, hblk, encode_eq_ok htext hblk, decode_append hw hname rfl rfl hun, hmagic,
      hversion, rfl, (codecName_of_field c (h := writtenHeader entries c code blk) rfl).1, rfl, rfl⟩
  · have hwords := Header.magic_version h .empty
    rwa [ByteArray.append_empty] at hwords

/-- One point, written by the standard codec under the method that never compresses, reads
back. -/
theorem snapshot_reads_back_one_point :
    let p : Plain := { id := "a", tag := "point", point := [1, 2, 3] }
    let text := "[\x7b\"id\":\"a\",\"type\":\"point\",\"point\":[1,2,3]\x7d]"
    ∃ blk h, block text.toUTF8 0 = .ok blk ∧ encode [p] .json 0 = .ok (h.bytes ++ blk) ∧
      decode (h.bytes ++ blk) = .ok (h, text.toUTF8) ∧
      wordAt (h.bytes ++ blk) 0 4 = magic ∧ wordAt (h.bytes ++ blk) 4 4 = version ∧
      h.count = 1 ∧ h.codecName = Codec.json.name.toUTF8 ∧ h.compression = 0 ∧
      h.blockSize = blk.size :=
  snapshot_reads_back.1 _ .json 0 .none _ rfl (by decide +kernel) (by decide) trivial

end Snapshot

end AnnotationStore
