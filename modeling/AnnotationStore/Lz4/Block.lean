/-!
# LZ4 blocks

An LZ4 block is a list of sequences. Each sequence starts with a token byte whose high
nibble is the literal count and whose low nibble is the back-reference length less four;
a nibble of 15 is continued by bytes that add up while they are 255. The literals follow,
then a two-byte little-endian offset and the length continuation. The last sequence has no
back reference: it ends the block right after its literals with a low nibble of zero.

Decoding parses the whole block into sequences (`parse?`) and then replays them into an
output of fixed capacity (`Sequence.replay`). Every failure is the same failure, so the two
phases may report faults in any order. One outcome is more than a failure: a short literal
run followed by a back reference that is copied in bulk past the capacity, when only a final
empty sequence follows, counts more bytes than the capacity holds (`Outcome.overlong`).
-/

namespace AnnotationStore.Lz4

/-- A back reference: copy `length` bytes starting `offset` bytes back in the output. -/
structure BackRef where
  offset : Nat
  length : Nat
  deriving DecidableEq, Repr

structure Sequence where
  literals : List UInt8
  backRef : Option BackRef
  deriving DecidableEq, Repr

/-- A parsed sequence, with whether its literals were short and far enough from the block's
end to be copied in bulk together with a short back reference. -/
structure Parsed where
  sequence : Sequence
  bulk : Bool
  deriving DecidableEq, Repr

inductive Outcome where
  /-- The block decoded to these bytes, at most the capacity. -/
  | decoded (bytes : ByteArray)
  /-- The block counted more bytes than the capacity holds. -/
  | overlong
  /-- The block is not a valid LZ4 block for this capacity. -/
  | malformed

/-- A length continuation at `i`: bytes are added to `acc` while they are 255, `fuel` bytes at
most. Gives the length and the position after the continuation. -/
def extensionFrom (src : ByteArray) : Nat → Nat → Nat → Option (Nat × Nat)
  | 0, _, _ => none
  | fuel + 1, i, acc =>
    if h : i < src.size then
      let x := src[i].toNat
      if x = 255 then extensionFrom src fuel (i + 1) (acc + 255) else some (acc + x, i + 1)
    else none

/-- A length continuation at `i`, which can run at most to the end of the block. -/
def extension (src : ByteArray) (i acc : Nat) : Option (Nat × Nat) :=
  extensionFrom src (src.size - i) i acc

/-- The literal count of a token nibble, with its continuation, and the position after. -/
def literalCount (src : ByteArray) (nibble i : Nat) : Option (Nat × Nat) :=
  if nibble = 15 then extension src i 15 else some (nibble, i)

/-- Sequences from the token at `i` to the end of the block, `fuel` tokens at most. -/
def parseTokens (src : ByteArray) : Nat → Nat → Option (List Parsed)
  | 0, _ => none
  | fuel + 1, i =>
    if hi : i < src.size then
      let token := src[i].toNat
      let nibble := token % 16
      match literalCount src (token / 16) (i + 1) with
      | none => none
      | some (count, j) =>
        let k := j + count
        let literals := (src.extract j k).toList
        let bulk := decide (0 < token / 16 ∧ token / 16 < 15 ∧ i + 17 < src.size)
        if k = src.size ∧ nibble = 0 then some [⟨⟨literals, none⟩, bulk⟩]
        else if h2 : k + 2 ≤ src.size then
          let offset := src[k].toNat + 256 * src[k + 1].toNat
          if offset = 0 then none
          else
            let length := if nibble = 15 then extension src (k + 2) 19 else some (nibble + 4, k + 2)
            match length with
            | none => none
            | some (len, l) =>
              let here : Parsed := ⟨⟨literals, some ⟨offset, len⟩⟩, bulk⟩
              if l < src.size then (parseTokens src fuel l).map (here :: ·) else some [here]
        else none
    else none

/-- Sequences from the token at `i` to the end of the block: every token takes a byte, so
there are at most as many as bytes left. -/
def parseFrom (src : ByteArray) (i : Nat) : Option (List Parsed) := parseTokens src (src.size - i) i

/-- The sequences of a block; an empty block has none and is refused. -/
def parse? (src : ByteArray) : Option (List Parsed) := parseFrom src 0

/-- Appends `length` bytes, each copied from `offset` bytes before the end, so that a
reference may overlap the bytes it produces. -/
def copyBack (out : ByteArray) (offset : Nat) : Nat → ByteArray
  | 0 => out
  | n + 1 => copyBack (out.push (out[out.size - offset]?.getD 0)) offset n

/-- The final sequence of a block that holds nothing. -/
def isEmptyEnd : List Parsed → Bool
  | [⟨⟨[], none⟩, _⟩] => true
  | _ => false

/-- Replays parsed sequences onto `out`, which may grow to `capacity` bytes. A back reference
must start within the output and end within the capacity. -/
def replay (capacity : Nat) : List Parsed → ByteArray → Outcome
  | [], out => .decoded out
  | p :: rest, out =>
    let lits := p.sequence.literals
    if capacity < out.size + lits.length then .malformed
    else
      let out := out ++ ⟨lits.toArray⟩
      match p.sequence.backRef with
      | none => replay capacity rest out
      | some ⟨offset, len⟩ =>
        if out.size < offset then .malformed
        else if out.size + len ≤ capacity then replay capacity rest (copyBack out offset len)
        else if p.bulk ∧ len < 19 ∧ len ≤ offset ∧ offset < out.size ∧
            out.size + 18 ≤ capacity + offset ∧ isEmptyEnd rest then .overlong
        else .malformed

def decode (src : ByteArray) (capacity : Nat) : Outcome :=
  match parse? src with
  | none => .malformed
  | some seqs => replay capacity seqs ByteArray.empty

end AnnotationStore.Lz4
