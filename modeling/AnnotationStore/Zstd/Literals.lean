import AnnotationStore.Zstd.Huffman
/-!
# The literals section of a compressed block

A compressed block starts with its literals: stored as they are, one byte repeated, or
Huffman coded with a table sent in the block or kept from an earlier block of the frame.
The header gives the regenerated size and, for coded literals, the coded size and whether
there are one or four streams. At most 128 KiB of literals, and no more than the window,
are regenerated.
-/

namespace AnnotationStore.Zstd

/-- The literals of a block, where the section ended, and the Huffman table to keep. -/
structure LiteralsSection where
  literals : List UInt8
  next : Nat
  huffman : Option Huffman

/-- The byte at `i`, as a number; zero past the end. -/
def byteAt (b : ByteArray) (i : Nat) : Nat := (b[i]?.getD 0).toNat

/-- The literals section at the start of the block `b`, in a frame with window `window`,
after blocks whose last Huffman table was `kept`. -/
def LiteralsSection.read? (b : ByteArray) (window : Nat) (kept : Option Huffman) :
    Option LiteralsSection :=
  if b.size < 2 then none
  else
    let h0 := byteAt b 0
    let kind := h0 % 4
    let format := h0 / 4 % 4
    if kind < 2 then
      let header : Option (Nat × Nat) :=
        if format % 2 = 0 then some (h0 / 8, 1)
        else if format = 1 then some (h0 / 16 + byteAt b 1 * 16, 2)
        else if b.size < 3 then none
        else some (h0 / 16 + byteAt b 1 * 16 + byteAt b 2 * 4096, 3)
      match header with
      | none => none
      | some (regen, start) =>
        if window < regen ∨ 131072 < regen then none
        else if kind = 0 then
          if b.size < start + regen then none
          else some ⟨(b.extract start (start + regen)).toList, start + regen, kept⟩
        else if b.size < start + 1 then none
        else some ⟨List.replicate regen (b[start]?.getD 0), start + 1, kept⟩
    else
      let width := if format < 2 then 3 else format + 2
      if b.size < width then none
      else
        let n := (List.range (width - 1)).foldr (fun i acc => acc * 256 + byteAt b (i + 1)) 0
        let n := h0 / 16 + n * 16
        let sizeBits := if format < 2 then 10 else if format = 2 then 14 else 18
        let regen := n % 2 ^ sizeBits
        let coded := n / 2 ^ sizeBits
        let four := format ≠ 0
        if window < regen ∨ 131072 < regen then none
        else if b.size < width + coded then none
        else
          let data := b.extract width (width + coded)
          let table : Option (Huffman × Nat) :=
            if kind = 2 then Huffman.read? data 0 else kept.map (·, 0)
          match table with
          | none => none
          | some (h, used) =>
            let streams := data.extract used data.size
            let lits := if four then h.fourStreams? streams regen else h.stream? streams regen
            lits.map fun ls => ⟨ls, width + coded, some h⟩

end AnnotationStore.Zstd
