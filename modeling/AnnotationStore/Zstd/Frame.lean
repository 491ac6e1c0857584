import AnnotationStore.Zstd.Sequences
import AnnotationStore.Bytes.Xxh64
/-!
# Zstandard frames

A Zstandard stream is a series of frames. A skippable frame is a magic word with low nibble
free, a length and that many bytes, and is passed over. A data frame is the magic word
`0xFD2FB528`, a header, blocks up to one marked last, and, if the header says so, the low
32 bits of the XXH64 digest of the frame's content.

The header gives the window (from a descriptor byte, or the content size for a frame in one
segment, at least 1 KiB), an optional dictionary, which is refused, and an optional content
size, which the frame's content must then have. Windows above 512 MiB are refused. A block
is stored, one byte repeated, or compressed; none regenerates more than 128 KiB or than the
window. Decoding fails on anything else, including bytes after the last frame that do not
start another.
-/

namespace AnnotationStore.Zstd

structure FrameHeader where
  window : Nat
  contentSize : Option Nat
  checksum : Bool
  /-- Where the first block starts. -/
  next : Nat

/-- The little-endian number of `w` bytes at `i`. -/
def wordAt (b : ByteArray) (i w : Nat) : Nat := LittleEndian.wordAt b i w

/-- Reads the header of a data frame whose magic word is at `pos`. -/
def FrameHeader.read? (b : ByteArray) (pos : Nat) : Option FrameHeader :=
  if b.size < pos + 5 then none
  else
    let fhd := byteAt b (pos + 4)
    let single := fhd / 32 % 2 = 1
    if fhd / 8 % 2 = 1 then none
    else
      let q := pos + 5
      let descriptor : Option (Nat × Nat) :=
        if single then some (0, q)
        else if b.size < q + 1 then none
        else
          let wd := byteAt b q
          let base := 2 ^ (10 + wd / 8)
          some (base + base / 8 * (wd % 8), q + 1)
      match descriptor with
      | none => none
      | some (window, q) =>
        let dictBytes := [0, 1, 2, 4][fhd % 4]?.getD 0
        let sizeBytes := if fhd / 64 = 0 then (if single then 1 else 0) else 2 ^ (fhd / 64)
        if b.size < q + dictBytes + sizeBytes then none
        else if wordAt b q dictBytes ≠ 0 then none
        else
          let q := q + dictBytes
          let raw := wordAt b q sizeBytes
          let contentSize := if sizeBytes = 0 then none
            else some (if sizeBytes = 2 then raw + 256 else raw)
          let window := if single then max (contentSize.getD 0) 1024 else window
          if 2 ^ 29 < window then none
          else some ⟨window, contentSize, fhd / 4 % 2 = 1, q + sizeBytes⟩

/-- What decoding keeps from block to block of a frame. -/
structure FrameState where
  output : ByteArray
  recent : Recent
  huffman : Option Huffman
  tables : Tables

def FrameState.initial : FrameState :=
  ⟨ByteArray.empty, ⟨1, 4, 8⟩, none, ⟨none, none, none⟩⟩

/-- Decodes a compressed block `data` onto the frame state. -/
def FrameState.compressed? (st : FrameState) (window : Nat) (data : ByteArray) :
    Option FrameState :=
  match LiteralsSection.read? data window st.huffman with
  | none => none
  | some lits =>
    match sequenceCount? data lits.next with
    | none => none
    | some (0, q) =>
      if q ≠ data.size then none
      else some { st with output := st.output ++ ⟨lits.literals.toArray⟩, huffman := lits.huffman }
    | some (n, q) =>
      if data.size ≤ q then none
      else
        let modes := byteAt data q
        if modes % 4 ≠ 0 then none
        else
          let t := st.tables
          match readTable? data (q + 1) (.ofBits (modes / 64)) literalLengthDefault
              literalLengthLast t.literalLength with
          | none => none
          | some (ll?, q) =>
            match readTable? data q (.ofBits (modes / 16 % 4)) offsetDefault offsetLast t.offset with
            | none => none
            | some (of?, q) =>
              match readTable? data q (.ofBits (modes / 4 % 4)) matchLengthDefault
                  matchLengthLast t.matchLength with
              | none => none
              | some (ml?, q) =>
                match ll?, of?, ml?, BackStream.init? (data.extract q data.size) with
                | some ll, some of, some ml, some s =>
                  let (llState, s) := ll.start s
                  let (ofState, s) := of.start s
                  let (mlState, s) := ml.start s
                  let work : Work := ⟨st.output, st.output.size, lits.literals, st.recent⟩
                  match runSequences ll of ml window n ⟨llState, ofState, mlState⟩ s work with
                  | none => none
                  | some (w, s) =>
                    let output := w.output ++ ⟨w.literals.toArray⟩
                    if min 131072 window < output.size - st.output.size ∨ ¬ s.done then none
                    else some ⟨output, w.recent, lits.huffman, ⟨some ll, some of, some ml⟩⟩
                | _, _, _, _ => none

/-- Decodes the blocks from `pos` on; gives the state and the position after the last
block. `fuel` bounds the number of blocks. -/
def blocks (b : ByteArray) (h : FrameHeader) : Nat → Nat → FrameState → Option (FrameState × Nat)
  | 0, _, _ => none
  | fuel + 1, pos, st =>
    if b.size < pos + 3 then none
    else
      let bh := wordAt b pos 3
      let last := bh % 2 = 1
      let kind := bh / 2 % 4
      let size := bh / 8
      let blockMax := min 131072 h.window
      let q := pos + 3
      let next : Option (FrameState × Nat) :=
        if kind = 3 ∨ blockMax < size then none
        else if kind = 0 then
          if b.size < q + size then none
          else some ({ st with output := st.output ++ b.extract q (q + size) }, q + size)
        else if kind = 1 then
          if b.size < q + 1 then none
          else
            let v := b[q]?.getD 0
            some ({ st with output := st.output ++ ⟨(List.replicate size v).toArray⟩ }, q + 1)
        else if size < 2 ∨ b.size < q + size then none
        else (st.compressed? h.window (b.extract q (q + size))).map (·, q + size)
      match next with
      | none => none
      | some (st, q) =>
        if h.contentSize.any (fun c => decide (c < st.output.size)) then none
        else if last then some (st, q) else blocks b h fuel q st

/-- Decodes the data frame whose magic word is at `pos`: its content and the position
after it. -/
def frame? (b : ByteArray) (pos : Nat) : Option (ByteArray × Nat) :=
  match FrameHeader.read? b pos with
  | none => none
  | some h =>
    match blocks b h (b.size + 1) h.next FrameState.initial with
    | none => none
    | some (st, q) =>
      if h.contentSize.any (fun c => decide (c ≠ st.output.size)) then none
      else if h.checksum then
        if b.size < q + 4 then none
        else if wordAt b q 4 ≠ (Xxh64.checksum32 st.output).toNat then none
        else some (st.output, q + 4)
      else some (st.output, q)

/-- Decodes the frames from `pos` on, appending their content to `out`. -/
def frames (b : ByteArray) : Nat → Nat → ByteArray → Option ByteArray
  | 0, _, _ => none
  | fuel + 1, pos, out =>
    if b.size ≤ pos then some out
    else if b.size < pos + 4 then none
    else
      let magic := wordAt b pos 4
      if magic / 16 = 0x184D2A5 then
        if b.size < pos + 8 then none
        else
          let n := wordAt b (pos + 4) 4
          if b.size < pos + 8 + n then none else frames b fuel (pos + 8 + n) out
      else if magic = 0xFD2FB528 then
        match frame? b pos with
        | none => none
        | some (content, q) => frames b fuel q (out ++ content)
      else none

/-- The content of a Zstandard stream, or `none` if it is not a valid one. -/
def decompress? (b : ByteArray) : Option ByteArray := frames b (b.size + 1) 0 ByteArray.empty

end AnnotationStore.Zstd
