import AnnotationStore.Zstd.Matcher
import AnnotationStore.Zstd.Sequences
import AnnotationStore.Bytes.Xxh64
/-!
# Writing Zstandard frames

A frame is written in one segment with its content size and a checksum. Each block of at
most 128 KiB becomes:

* a stored block when no match was found, or when matches save fewer than sixteen bytes
  beyond a sixty-fourth of the block;
* a one-byte repeated block when a single match at offset one covers all but at most one
  leading literal;
* otherwise a compressed block whose literals are stored, or repeated when there are more
  than 32 of them and all are one byte, and whose codes use a single-code table when all
  sequences share the code and the default table otherwise.

The entropy-coded stream is written forwards so that it reads backwards: the sequences from
last to first, each with its state transitions and extra bits, then the three first states
and an end mark.
-/

namespace AnnotationStore.Zstd

/-- Bits written least significant first: finished bytes and the pending bits. -/
structure BitWriter where
  bytes : ByteArray
  acc : Nat
  count : Nat

namespace BitWriter

def empty : BitWriter := ⟨ByteArray.empty, 0, 0⟩

/-- Moves whole bytes out of the pending bits; `fuel` bounds the bytes moved. -/
def settle : Nat → BitWriter → BitWriter
  | 0, w => w
  | fuel + 1, w =>
    if 8 ≤ w.count then settle fuel ⟨w.bytes.push (w.acc % 256).toUInt8, w.acc / 256, w.count - 8⟩
    else w

/-- Writes the low `n` bits of `v`. -/
def add (w : BitWriter) (v n : Nat) : BitWriter :=
  settle (n / 8 + 2) ⟨w.bytes, w.acc + v % 2 ^ n * 2 ^ w.count, w.count + n⟩

/-- Writes the end mark and pads the last byte with zeros. -/
def close (w : BitWriter) : ByteArray :=
  let w := w.add 1 1
  if w.count = 0 then w.bytes else w.bytes.push w.acc.toUInt8

end BitWriter

/-- The code of `v` under a table of bases: the last code whose base is at most `v`. -/
def codeOf (base : Nat → Nat × Nat) (last v : Nat) : Nat :=
  ((List.range (last + 1)).filter fun c => (base c).1 ≤ v).getLast?.getD 0

def Seq.literalCode (s : Seq) : Nat × Nat × Nat :=
  let c := codeOf literalLengthCode literalLengthLast s.literalLength
  let (b, n) := literalLengthCode c
  (c, s.literalLength - b, n)

def Seq.matchCode (s : Seq) : Nat × Nat × Nat :=
  let c := codeOf matchLengthCode matchLengthLast s.matchLength
  let (b, n) := matchLengthCode c
  (c, s.matchLength - b, n)

def Seq.offsetCodeBits (s : Seq) : Nat × Nat × Nat :=
  let c := highBit s.offsetCode
  (c, s.offsetCode - 2 ^ c, c)

/-- The first cell of a symbol: the state from which the last sequence is read. -/
def Table.firstState (t : Table) (symbol : Nat) : Nat :=
  (t.cells.toList.zipIdx.find? (fun (c, _) => c.symbol = symbol)).map (·.2) |>.getD 0

/-- The state that gives `symbol` and moves to `next`, and the bits that move it. -/
def Table.enter (t : Table) (symbol next : Nat) : Nat × Nat × Nat :=
  match t.cells.toList.zipIdx.find? (fun (c, _) =>
      c.symbol = symbol ∧ c.base ≤ next ∧ next < c.base + 2 ^ c.bits) with
  | some (c, u) => (u, next - c.base, c.bits)
  | none => (0, 0, 0)

/-- The three tables a block's sequences are written with. -/
structure SeqTables where
  literalLength : Table
  offset : Table
  matchLength : Table

/-- Writes the sequences before the last one, from the last but one down to the first,
with the states `st` of the sequence after. -/
def writeSequences (t : SeqTables) : List Seq → States → BitWriter → States × BitWriter
  | [], st, w => (st, w)
  | s :: rest, st, w =>
    let (llc, lle, lln) := s.literalCode
    let (mlc, mle, mln) := s.matchCode
    let (ofc, ofe, ofn) := s.offsetCodeBits
    let (ofState, ofv, ofb) := t.offset.enter ofc st.offset
    let (mlState, mlv, mlb) := t.matchLength.enter mlc st.matchLength
    let (llState, llv, llb) := t.literalLength.enter llc st.literalLength
    let w := ((((w.add ofv ofb).add mlv mlb).add llv llb).add lle lln).add mle mln
    writeSequences t rest ⟨llState, ofState, mlState⟩ (w.add ofe ofn)

/-- The entropy-coded stream of a nonempty list of sequences. -/
def sequenceStream (t : SeqTables) (seqs : List Seq) : ByteArray :=
  match seqs.reverse with
  | [] => ByteArray.empty
  | last :: before =>
    let (llc, lle, lln) := last.literalCode
    let (mlc, mle, mln) := last.matchCode
    let (ofc, ofe, ofn) := last.offsetCodeBits
    let st : States := ⟨t.literalLength.firstState llc, t.offset.firstState ofc,
      t.matchLength.firstState mlc⟩
    let w := ((BitWriter.empty.add lle lln).add mle mln).add ofe ofn
    let (st, w) := writeSequences t before st w
    let w := w.add st.matchLength t.matchLength.accuracyLog
    let w := w.add st.offset t.offset.accuracyLog
    let w := w.add st.literalLength t.literalLength.accuracyLog
    w.close

/-- The header of stored or repeated literals of `n` bytes of kind `kind`. -/
def literalsHeader (kind n : Nat) : List UInt8 :=
  if n < 16 then [(n * 8 + kind).toUInt8]
  else if n < 2048 then [(n % 16 * 16 + 4 + kind).toUInt8, (n / 16).toUInt8]
  else [(n % 16 * 16 + 12 + kind).toUInt8, (n / 16 % 256).toUInt8, (n / 4096).toUInt8]

def literalsSection (lits : Array UInt8) : List UInt8 :=
  match lits.toList with
  | l :: rest =>
    if 32 < lits.size ∧ rest.all (· = l) then literalsHeader 1 lits.size ++ [l]
    else literalsHeader 0 lits.size ++ lits.toList
  | [] => literalsHeader 0 0

/-- The table and mode bits for one kind of code: a single code, or the default table. -/
def chooseTable (codes : List Nat) (default : Distribution) : Table × Nat × List UInt8 :=
  match codes with
  | c :: rest => if rest.all (· = c) then (Table.single c, 1, [c.toUInt8])
    else (Table.ofDistribution default, 0, [])
  | [] => (Table.ofDistribution default, 0, [])

/-- The sequence count as written before the modes. -/
def sequenceCountBytes (n : Nat) : List UInt8 :=
  if n < 128 then [n.toUInt8]
  else if n < 0x7F00 then [(128 + n / 256).toUInt8, (n % 256).toUInt8]
  else [255, ((n - 0x7F00) % 256).toUInt8, ((n - 0x7F00) / 256).toUInt8]

def compressedBlock (seqs : Array Seq) (lits : Array UInt8) : ByteArray :=
  let ss := seqs.toList
  let (llT, llMode, llBytes) := chooseTable (ss.map (·.literalCode.1)) literalLengthDefault
  let (ofT, ofMode, ofBytes) := chooseTable (ss.map (·.offsetCodeBits.1)) offsetDefault
  let (mlT, mlMode, mlBytes) := chooseTable (ss.map (·.matchCode.1)) matchLengthDefault
  let modes := (llMode * 64 + ofMode * 16 + mlMode * 4).toUInt8
  let head := literalsSection lits ++ sequenceCountBytes ss.length ++ [modes] ++
    llBytes ++ ofBytes ++ mlBytes
  ⟨head.toArray⟩ ++ sequenceStream ⟨llT, ofT, mlT⟩ ss

/-- The header of a block: last flag, kind and size. -/
def blockHeader (last : Bool) (kind size : Nat) : ByteArray :=
  let v := (if last then 1 else 0) + 2 * kind + 8 * size
  ⟨#[(v % 256).toUInt8, (v / 256 % 256).toUInt8, (v / 65536 % 256).toUInt8]⟩

def encodeBlock (src : ByteArray) (last : Bool) : ByteArray :=
  let (seqs, lits) := findMatches src
  let stored := blockHeader last 0 src.size ++ src
  if seqs.size = 0 then stored
  else if seqs.size = 1 ∧ lits.size ≤ 1 ∧
      seqs[0]?.any (fun s => s.literalLength == lits.size && s.offsetCode == 4) then
    blockHeader last 1 src.size ++ ⟨#[src[0]?.getD 0]⟩
  else if src.size < lits.size + src.size / 64 + 16 then stored
  else
    let body := compressedBlock seqs lits
    if src.size ≤ body.size then stored else blockHeader last 2 body.size ++ body

/-- The blocks of `src` from `pos` on, 128 KiB at a time; `fuel` bounds the blocks. -/
def encodeBlocks (src : ByteArray) : Nat → Nat → ByteArray → ByteArray
  | 0, _, out => out
  | fuel + 1, pos, out =>
    let stop := min src.size (pos + 131072)
    let out := out ++ encodeBlock (src.extract pos stop) (stop = src.size)
    if stop = src.size then out else encodeBlocks src fuel stop out

/-- The frame header of a frame in one segment with content size `n` and a checksum. -/
def frameHeader (n : Nat) : ByteArray :=
  let magic : List UInt8 := [0x28, 0xB5, 0x2F, 0xFD]
  let (flag, size) : Nat × List UInt8 :=
    if n < 256 then (0, [n.toUInt8])
    else if n < 65536 + 256 then (1, LittleEndian.toBytes 2 (n - 256))
    else if n < 0xFFFFFFFF then (2, LittleEndian.toBytes 4 n)
    else (3, LittleEndian.toBytes 8 n)
  ⟨(magic ++ [(flag * 64 + 32 + 4).toUInt8] ++ size).toArray⟩

/-- A Zstandard frame holding `src`; an empty input gives no bytes at all. -/
def compress (src : ByteArray) : ByteArray :=
  if src.size = 0 then ByteArray.empty
  else
    let body := encodeBlocks src (src.size / 131072 + 1) 0 ByteArray.empty
    frameHeader src.size ++ body ++ ⟨(LittleEndian.toBytes 4 (Xxh64.checksum32 src).toNat).toArray⟩

end AnnotationStore.Zstd
