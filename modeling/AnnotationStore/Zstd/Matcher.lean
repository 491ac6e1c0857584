import AnnotationStore.Bytes.LittleEndian
import Std.Data.HashMap
/-!
# Finding matches for Zstandard blocks

The match finder keeps two tables: one keyed by a hash of the eight bytes at a position and
one keyed by a hash of five bytes; each remembers the last position and its first four
bytes. At a position it first tries the last offset again one byte ahead (once the block has
three sequences), then the long table, then the short table, in which case the long table is
also tried one byte ahead. A candidate is taken when its four bytes agree. Matches grow to
the end of the input and backwards over pending literals. After a match the positions one
after its start and two before its end are entered, and the offset before the last is tried
at once. Without a match the scan moves one byte, and one more for every 128 bytes since the
last match. No search starts in the last ten bytes, and inputs under sixteen bytes are all
literals.
-/

namespace AnnotationStore.Zstd

/-- A sequence as the block writer sees it: literals to copy, then a match. `offsetCode` is
the offset plus three, or the number of a recent offset. -/
structure Seq where
  literalLength : Nat
  matchLength : Nat
  offsetCode : Nat
  deriving Repr, DecidableEq

/-- A remembered position and its first four bytes. -/
structure Entry where
  pos : Nat
  val : Nat

/-- The little-endian word of `w` bytes at `i` of `src`. -/
def loadAt (src : ByteArray) (i w : Nat) : Nat := LittleEndian.wordAt src i w

def longHash (cv : Nat) : Nat := cv * 0xcf1bbcdcb7a56463 % 2 ^ 64 / 2 ^ 47

/-- The short-table hash of the low five bytes of a word. -/
def shortHash (cv : Nat) : Nat := cv % 2 ^ 40 * 2 ^ 24 * 889523592379 % 2 ^ 64 / 2 ^ 50

/-- How many bytes agree from `a` and from `b` on, before `a` reaches the end. -/
def agreeing (src : ByteArray) (a b : Nat) : Nat :=
  if a < src.size ∧ src[a]? = src[b]? then agreeing src (a + 1) (b + 1) + 1 else 0
termination_by src.size - a

/-- How many bytes before `s` agree with those before `t`, while `t` stays above `low` and
`s` above `floor`. -/
def agreeingBack (src : ByteArray) (low floor : Nat) : Nat → Nat → Nat
  | s + 1, t + 1 =>
    if low < t + 1 ∧ floor < s + 1 ∧ src[s]? = src[t]? then agreeingBack src low floor s t + 1
    else 0
  | _, _ => 0

structure Scan where
  long : Std.HashMap Nat Entry
  short : Std.HashMap Nat Entry
  seqs : Array Seq
  literals : Array UInt8
  nextEmit : Nat
  offset1 : Nat
  offset2 : Nat

def maxOffset : Nat := 8 * 2 ^ 20

/-- Whether an entry is a usable candidate for the four bytes `v` at `s`. -/
def usableEntry (e : Option Entry) (s v : Nat) : Option Nat :=
  match e with
  | some e => if e.pos < s ∧ s - e.pos < maxOffset ∧ e.val = v then some e.pos else none
  | none => none

def Scan.emitLiterals (sc : Scan) (src : ByteArray) (upTo : Nat) : Scan :=
  { sc with literals := sc.literals ++ (src.extract sc.nextEmit upTo).data }

/-- Repeats the offset before the last while it keeps matching at `s`. Gives the scan, the
new position and whether the input ended. -/
def Scan.repeatSecond (src : ByteArray) (limit cv1 : Nat) :
    Nat → Scan → Nat → Scan × Nat × Bool
  | 0, sc, s => (sc, s, false)
  | fuel + 1, sc, s =>
    let cv := loadAt src s 8
    if sc.offset2 > s ∨ loadAt src (s - sc.offset2) 4 ≠ cv % 2 ^ 32 then (sc, s, false)
    else
      let o2 := s - sc.offset2
      let l := 4 + agreeing src (s + 4) (o2 + 4)
      let entry : Entry := ⟨s, cv % 2 ^ 32⟩
      let sc := { sc with
        long := sc.long.insert (longHash cv) entry
        short := sc.short.insert (shortHash (cv1 / 256)) entry
        seqs := sc.seqs.push ⟨0, l, 1⟩
        nextEmit := s + l
        offset1 := sc.offset2
        offset2 := sc.offset1 }
      if limit ≤ s + l then (sc, s + l, true) else Scan.repeatSecond src limit cv1 fuel sc (s + l)

/-- Records a match of `l` bytes at `s` from `t`, growing it backwards first. Gives the scan,
the position after the match and whether the input ended. -/
def Scan.takeMatch (src : ByteArray) (limit : Nat) (sc : Scan) (s t : Nat) : Scan × Nat × Bool :=
  let sc := { sc with offset2 := sc.offset1, offset1 := s - t }
  let l := 4 + agreeing src (s + 4) (t + 4)
  let back := agreeingBack src (s - maxOffset) sc.nextEmit s t
  let s := s - back
  let t := t - back
  let l := l + back
  let sc := sc.emitLiterals src s
  let sc := { sc with seqs := sc.seqs.push ⟨s - sc.nextEmit, l, s - t + 3⟩, nextEmit := s + l }
  let s := s + l
  if limit ≤ s then (sc, s, true)
  else
    let index0 := s - l + 1
    let index1 := s - 2
    let cv0 := loadAt src index0 8
    let cv1 := loadAt src index1 8
    let sc := { sc with
      long := (sc.long.insert (longHash cv0) ⟨index0, cv0 % 2 ^ 32⟩).insert (longHash cv1)
        ⟨index1, cv1 % 2 ^ 32⟩ }
    let sc := { sc with
      short := (sc.short.insert (shortHash (cv0 / 256)) ⟨index0 + 1, cv0 / 256 % 2 ^ 32⟩).insert
        (shortHash (cv1 / 256)) ⟨index1 + 1, cv1 / 256 % 2 ^ 32⟩ }
    if sc.seqs.size ≤ 2 then (sc, s, false)
    else Scan.repeatSecond src limit (cv1 / 256) (src.size + 1) sc s

/-- Scans from `s`; `fuel` bounds the steps. -/
def Scan.run (src : ByteArray) (limit : Nat) : Nat → Scan → Nat → Scan
  | 0, sc, _ => sc
  | fuel + 1, sc, s =>
    let cv := loadAt src s 8
    let hl := longHash cv
    let hs := shortHash cv
    let candL := sc.long[hl]?
    let candS := sc.short[hs]?
    let entry : Entry := ⟨s, cv % 2 ^ 32⟩
    let sc := { sc with long := sc.long.insert hl entry, short := sc.short.insert hs entry }
    let repIndex := s + 1 - sc.offset1
    if 2 < sc.seqs.size ∧ sc.offset1 ≤ s + 1 ∧ loadAt src repIndex 4 = cv / 256 % 2 ^ 32 then
      let length := 4 + agreeing src (s + 5) (repIndex + 4)
      let back := agreeingBack src (s - maxOffset) (sc.nextEmit + 1) (s + 1) repIndex
      let start := s + 1 - back
      let sc := sc.emitLiterals src start
      let sc := { sc with
        seqs := sc.seqs.push ⟨start - sc.nextEmit, length + back, 1⟩
        nextEmit := s + 1 + length }
      let s := s + 1 + length
      if limit ≤ s then sc else Scan.run src limit fuel sc s
    else
      let found : Option (Scan × Nat × Nat) :=
        match usableEntry candL s (cv % 2 ^ 32) with
        | some t => some (sc, s, t)
        | none =>
          match usableEntry candS s (cv % 2 ^ 32) with
          | some t =>
            let cv' := loadAt src (s + 1) 8
            let hl' := longHash cv'
            let candL' := sc.long[hl']?
            let sc := { sc with long := sc.long.insert hl' ⟨s + 1, cv' % 2 ^ 32⟩ }
            match usableEntry candL' (s + 1) (cv' % 2 ^ 32) with
            | some t' => some (sc, s + 1, t')
            | none => some (sc, s, t)
          | none => none
      match found with
      | some (sc, s, t) =>
        let (sc, s, ended) := sc.takeMatch src limit s t
        if ended then sc else Scan.run src limit fuel sc s
      | none =>
        let s := s + 1 + (s - sc.nextEmit) / 128
        if limit ≤ s then sc else Scan.run src limit fuel sc s

def findMatches (src : ByteArray) : Array Seq × Array UInt8 :=
  if src.size < 16 then (#[], src.data)
  else
    let sc : Scan := ⟨{}, {}, #[], #[], 0, 1, 4⟩
    let sc := Scan.run src (src.size - 10) (src.size + 1) sc 0
    let sc := if sc.nextEmit < src.size then sc.emitLiterals src src.size else sc
    (sc.seqs, sc.literals)

end AnnotationStore.Zstd
