import AnnotationStore.Lz4.Block
import AnnotationStore.Bytes.LittleEndian
/-!
# LZ4 compression

The compressor scans with a table that maps a 16-bit hash of the five bytes at a position to
the low 16 bits of the last position seen with that hash. A table entry is read back as the
position in the current 64 KiB window, or the window before it when that would not lie
behind the scan; an entry never written reads as the window's start. At each step three
candidates are tried, for the positions `si`, `si + 1` and `si + 2`, and each is used only
when its four bytes agree with those at the position and it lies less than 64 KiB back.
A match grows backwards over pending literals while bytes agree, and forwards eight bytes at
a time while a whole word agrees and fits before the search limit, then by the agreeing
bytes of the first word that differs. No match starts in the last fourteen bytes. After a
miss the scan skips ahead by one more byte for every 128 bytes since the last match.

The size of the result decides whether a block is stored compressed, so the search is fixed
exactly; the bytes it writes are checked by `decode` like any other block. The table is a
function and every loop counts down a bound, so a compression can be evaluated in a proof.
-/

namespace AnnotationStore.Lz4

/-- The bytes of a length continuation for `n`: runs of 255, then the rest. -/
def continuation (n : Nat) : List UInt8 :=
  List.replicate (n / 255) 255 ++ [(n % 255).toUInt8]

def Sequence.encode (s : Sequence) : List UInt8 :=
  let lit := s.literals.length
  let litNibble := min lit 15
  let litMore := if 15 ≤ lit then continuation (lit - 15) else []
  match s.backRef with
  | none => (litNibble * 16).toUInt8 :: litMore ++ s.literals
  | some ⟨offset, len⟩ =>
    let m := len - 4
    let token := (litNibble * 16 + min m 15).toUInt8
    let matchMore := if 15 ≤ m then continuation (m - 15) else []
    token :: litMore ++ s.literals ++
      [(offset % 256).toUInt8, (offset / 256).toUInt8] ++ matchMore

def encodeAll (seqs : List Sequence) : ByteArray :=
  ⟨(seqs.flatMap Sequence.encode).toArray⟩

def hash5 (x : Nat) : Nat := (x % 2 ^ 40 * 227718039650203) % 2 ^ 64 / 2 ^ 48

/-- The position a table entry stands for, seen from `si`. -/
def storedAt (table : Nat → Nat) (h si : Nat) : Int :=
  let i : Int := (table h : Nat) + (si - si % 65536 : Nat)
  if i ≥ si then i - 65536 else i

def remember (table : Nat → Nat) (h si : Nat) : Nat → Nat :=
  fun k => if k = h then si % 65536 else table k

/-- Whether the candidate `ref` holds the four bytes `w` found at `si`, within reach. -/
def usable (src : ByteArray) (ref : Int) (si w : Nat) : Bool :=
  0 < si - ref ∧ si - ref < 65536 ∧ LittleEndian.wordAt src ref.toNat 4 = w

/-- The number of low zero bytes of a nonzero word. -/
def lowZeroBytes (x : Nat) : Nat → Nat
  | 0 => 0
  | k + 1 => if x % 256 = 0 then lowZeroBytes (x / 256) k + 1 else 0

/-- How many bytes before `s` agree with those before `ref`, while pending literals after
`anchor` remain. -/
def growBack (src : ByteArray) (anchor : Nat) : Nat → Nat → Nat
  | s + 1, ref + 1 =>
    if anchor < s + 1 ∧ src[s]? = src[ref]? then growBack src anchor s ref + 1 else 0
  | _, _ => 0

/-- The end of a match that agrees up to `si`, grown a word at a time while `si + 8` stays
within `limit`, for at most `words` words. -/
def growWords (src : ByteArray) (offset limit : Nat) : Nat → Nat → Nat
  | 0, si => si
  | words + 1, si =>
    if si + 8 ≤ limit then
      let x := Nat.xor (LittleEndian.wordAt src si 8) (LittleEndian.wordAt src (si - offset) 8)
      if x = 0 then growWords src offset limit words (si + 8) else si + lowZeroBytes x 8
    else si

/-- The end of a match that agrees up to `si`: at most `(limit - si) / 8` whole words fit. -/
def growAhead (src : ByteArray) (offset limit : Nat) (si : Nat) : Nat :=
  growWords src offset limit ((limit - si) / 8 + 1) si

/-- The sequences from `si` on, where the literals since `anchor` are still pending and
`limit` is the last position plus one at which a match may be searched. `fuel` bounds the
steps; every step moves `si` forward. -/
def sequencesFrom (src : ByteArray) (limit : Nat) :
    Nat → (Nat → Nat) → Nat → Nat → List Sequence
  | 0, _, anchor, _ => [⟨(src.extract anchor src.size).toList, none⟩]
  | fuel + 1, table, anchor, si =>
    if si < limit then
      let m := LittleEndian.wordAt src si 8
      let h := hash5 m
      let h2 := hash5 (m / 256)
      let h3 := hash5 (m / 65536)
      let ref := storedAt table h si
      let ref2 := storedAt table h2 (si + 1)
      let table := remember (remember table h si) h2 (si + 1)
      let ref3 := storedAt table h3 (si + 2)
      let found : Option (Nat × Int × (Nat → Nat)) :=
        if usable src ref si (m % 2 ^ 32) then some (si, ref, table)
        else if usable src ref2 (si + 1) (m / 256 % 2 ^ 32) then some (si + 1, ref2, table)
        else
          let table := remember table h3 (si + 2)
          if usable src ref3 (si + 2) (m / 65536 % 2 ^ 32) then some (si + 2, ref3, table)
          else none
      match found with
      | none =>
        let table := remember table h3 (si + 2)
        sequencesFrom src limit fuel table anchor (si + 4 + (si + 2 - anchor) / 128)
      | some (s, ref, table) =>
        let offset := (s - ref).toNat
        let back := growBack src anchor s ref.toNat
        let start := s - back
        let stop := growAhead src offset limit (s + 4)
        let here : Sequence := ⟨(src.extract anchor start).toList, some ⟨offset, stop - start⟩⟩
        if stop < limit then
          let table := remember table (hash5 (LittleEndian.wordAt src (stop - 2) 8)) (stop - 2)
          here :: sequencesFrom src limit fuel table stop stop
        else here :: [⟨(src.extract stop src.size).toList, none⟩]
    else [⟨(src.extract anchor src.size).toList, none⟩]

def sequences (src : ByteArray) : List Sequence :=
  sequencesFrom src (src.size - 14) src.size (fun _ => 0) 0 0

def compress (src : ByteArray) : ByteArray := encodeAll (sequences src)

end AnnotationStore.Lz4
