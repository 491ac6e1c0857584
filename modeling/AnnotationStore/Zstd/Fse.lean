import AnnotationStore.Zstd.Bits
/-!
# Finite state entropy tables

A table is described by a distribution: an accuracy log `a` and, per symbol, a count that
is `-1` ("less than one"), zero, or positive, with absolute values summing to `2 ^ a`. The
description is read forwards: each count takes a variable number of bits bounded by what
is still to distribute, and a zero count is followed by two-bit repeat flags for more zeros.

`Table.build` lays the distribution out as RFC 8878 does: symbols with count `-1` take the
last cells, the others are spread with the step `size / 2 + size / 8 + 3`, and each cell gets
the bits to read and the base of its next state. A symbol holding the whole table is refused,
since its state would never move.
-/

namespace AnnotationStore.Zstd

/-- A distribution of symbol counts over `2 ^ accuracyLog` cells. -/
structure Distribution where
  accuracyLog : Nat
  counts : List Int
  deriving Repr

structure Cell where
  symbol : Nat
  bits : Nat
  base : Nat
  deriving Repr, Inhabited

/-- A decoding table; it has `2 ^ accuracyLog` cells. -/
structure Table where
  accuracyLog : Nat
  cells : Array Cell
  deriving Repr

/-- The repeat flags after a zero count: two bits at a time, adding their value to the
zero run while they are 3. Gives the run and the position after the flags. -/
def zeroRun (b : ByteArray) (pos run : Nat) : Nat → Nat × Nat
  | 0 => (run, pos)
  | fuel + 1 =>
    let r := bitsFrom b pos 2
    if r = 3 then zeroRun b (pos + 2) (run + 3) fuel else (run + r, pos + 2)

/-- State of reading a description: the bit position, what is still to distribute, the
current threshold and the counts so far (last first). -/
structure Reading where
  pos : Nat
  remaining : Nat
  threshold : Nat
  width : Nat
  counts : List Int
  previousZero : Bool

/-- Halves the threshold while more than what remains, narrowing the count width. -/
def narrow (remaining : Nat) : Nat → Nat → Nat → Nat × Nat
  | 0, threshold, width => (threshold, width)
  | fuel + 1, threshold, width =>
    if remaining < threshold then narrow remaining fuel (threshold / 2) (width - 1)
    else (threshold, width)

/-- Reads counts until all cells are distributed or the symbol limit is passed. `fuel`
bounds the counts read. -/
def readCounts (b : ByteArray) (maxSymbol : Nat) : Nat → Reading → Option Reading
  | 0, r => some r
  | fuel + 1, r =>
    if r.remaining ≤ 1 ∨ maxSymbol < r.counts.length then some r
    else
      let (zeros, pos) := if r.previousZero then zeroRun b r.pos 0 (b.size * 4 + 1) else (0, r.pos)
      if 256 < r.counts.length + zeros then none
      else
        let counts := List.replicate zeros 0 ++ r.counts
        let most := 2 * r.threshold - 1 - r.remaining
        let low := bitsFrom b pos (r.width - 1)
        let (count, pos) :=
          if low < most then (low, pos + (r.width - 1))
          else
            let v := bitsFrom b pos r.width
            (if v ≥ r.threshold then v - most else v, pos + r.width)
        let prob : Int := (count : Int) - 1
        let remaining := if prob < 0 then r.remaining - 1 else r.remaining - (count - 1)
        let (threshold, width) := narrow remaining (r.width + 1) r.threshold r.width
        readCounts b maxSymbol fuel
          ⟨pos, remaining, threshold, width, prob :: counts, prob = 0⟩

/-- Reads a distribution description at the start of `b`, with at most `maxLog` as accuracy
log and `maxSymbol` as the last symbol read. Gives the distribution and the bytes it took.
The description needs four bytes to start with and may not reach past the end. -/
def Distribution.read? (b : ByteArray) (maxLog maxSymbol : Nat) : Option (Distribution × Nat) :=
  if b.size < 4 then none
  else
    let log := bitsFrom b 0 4 + 5
    if maxLog < log then none
    else
      let start : Reading := ⟨4, 2 ^ log + 1, 2 ^ log, log + 1, [], false⟩
      match readCounts b maxSymbol (maxSymbol + 2) start with
      | none => none
      | some r =>
        if r.counts.length ≤ 1 ∨ 256 < r.counts.length ∨ r.remaining ≠ 1 ∨ 8 * b.size < r.pos then
          none
        else some (⟨log, r.counts.reverse⟩, (r.pos + 7) / 8)

def spreadStep (size : Nat) : Nat := size / 2 + size / 8 + 3

/-- The next cell at or after `pos + step` that is below `high`, in at most `fuel` steps. -/
def nextLow (size step high : Nat) : Nat → Nat → Nat
  | 0, pos => pos
  | fuel + 1, pos =>
    let p := (pos + step) % size
    if p < high then p else nextLow size step high fuel p

/-- Places `k` cells of `symbol` from `pos` on; gives the cells and the next position. -/
def place (size step high symbol : Nat) : Nat → Array Nat → Nat → Array Nat × Nat
  | 0, cells, pos => (cells, pos)
  | k + 1, cells, pos =>
    place size step high symbol k (cells.set! pos symbol) (nextLow size step high size pos)

def spread (log : Nat) (counts : List Int) : Array Nat :=
  let size := 2 ^ log
  let step := spreadStep size
  -- symbols below one take the last cells, in symbol order from the end
  let (cells, high) := counts.zipIdx.foldl (fun (acc : Array Nat × Nat) (c, s) =>
    if c = -1 then (acc.1.set! (acc.2 - 1) s, acc.2 - 1) else acc) (Array.replicate size 0, size)
  let (cells, _) := counts.zipIdx.foldl (fun (acc : Array Nat × Nat) (c, s) =>
    if 0 < c then place size step high s c.toNat acc.1 acc.2 else acc) (cells, 0)
  cells

/-- Builds the decoding table of a distribution; `none` if a symbol holds every cell or a
symbol above `maxSymbol` has cells. -/
def Table.build? (d : Distribution) (maxSymbol : Nat) : Option Table :=
  let size : Nat := 2 ^ d.accuracyLog
  let symbols := spread d.accuracyLog d.counts
  let start : Array Nat := (d.counts.map fun c => if c = -1 then (1 : Nat) else c.toNat).toArray
  if d.counts.any (· = (size : Int)) then none
  else if symbols.any (maxSymbol < ·) then none
  else
    let (cells, _) := symbols.foldl (fun (acc : Array Cell × Array Nat) s =>
      let next : Nat := acc.2[s]?.getD 0
      let bits := d.accuracyLog - highBit next
      (acc.1.push ⟨s, bits, next * 2 ^ bits - size⟩, acc.2.set! s (next + 1)))
      (#[], start)
    some ⟨d.accuracyLog, cells⟩

/-- The table of a distribution that is known to be sound. -/
def Table.ofDistribution (d : Distribution) : Table :=
  (Table.build? d 255).getD ⟨0, #[⟨0, 0, 0⟩]⟩

/-- A table of one cell that always gives `symbol` and reads no bits. -/
def Table.single (symbol : Nat) : Table := ⟨0, #[⟨symbol, 0, 0⟩]⟩

def Table.cell (t : Table) (state : Nat) : Cell := t.cells[state]?.getD ⟨0, 0, 0⟩

/-- The first state of a table, read from a stream. -/
def Table.start (t : Table) (s : BackStream) : Nat × BackStream := s.read t.accuracyLog

/-- The state after `state`, read from a stream. -/
def Table.step (t : Table) (state : Nat) (s : BackStream) : Nat × BackStream :=
  let c := t.cell state
  let (v, s) := s.read c.bits
  (c.base + v, s)

def literalLengthDefault : Distribution :=
  ⟨6, [4, 3, 2, 2, 2, 2, 2, 2, 2, 2, 2, 2, 2, 1, 1, 1, 2, 2, 2, 2, 2, 2, 2, 2, 2, 3, 2, 1, 1, 1,
    1, 1, -1, -1, -1, -1]⟩

def matchLengthDefault : Distribution :=
  ⟨6, [1, 4, 3, 2, 2, 2, 2, 2, 2, 1, 1, 1, 1, 1, 1, 1, 1, 1, 1, 1, 1, 1, 1, 1, 1, 1, 1, 1, 1, 1,
    1, 1, 1, 1, 1, 1, 1, 1, 1, 1, 1, 1, 1, 1, 1, 1, -1, -1, -1, -1, -1, -1, -1]⟩

def offsetDefault : Distribution :=
  ⟨5, [1, 1, 1, 1, 1, 1, 2, 2, 2, 1, 1, 1, 1, 1, 1, 1, 1, 1, 1, 1, 1, 1, 1, 1, -1, -1, -1, -1,
    -1]⟩

end AnnotationStore.Zstd
