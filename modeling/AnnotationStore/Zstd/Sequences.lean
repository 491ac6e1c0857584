import AnnotationStore.Zstd.Literals
/-!
# Sequences of a compressed block

After the literals, a compressed block holds sequences: copy some literals, then copy a
match from earlier output. Literal lengths, match lengths and offsets are sent as codes,
each with extra bits, through three finite state entropy tables: the default one, a single
code, a table described in the block, or the table of the previous block. The codes are
read from one backward stream: the three first states, then per sequence the extra bits of
offset, match length and literal length, then the next states of literal length, match
length and offset.

Offsets above three are real offsets plus three; the values one to three name one of the
last three offsets, shifted by one when the sequence copies no literals. A match may reach
back over the whole frame so far, but no further than the window.
-/

namespace AnnotationStore.Zstd

def literalLengthCode (c : Nat) : Nat × Nat :=
  if c < 16 then (c, 0)
  else
    let table : List (Nat × Nat) := [(16, 1), (18, 1), (20, 1), (22, 1), (24, 2), (28, 2),
      (32, 3), (40, 3), (48, 4), (64, 6), (128, 7), (256, 8), (512, 9), (1024, 10),
      (2048, 11), (4096, 12), (8192, 13), (16384, 14), (32768, 15), (65536, 16)]
    table[c - 16]?.getD (0, 0)

def matchLengthCode (c : Nat) : Nat × Nat :=
  if c < 32 then (c + 3, 0)
  else
    let table : List (Nat × Nat) := [(35, 1), (37, 1), (39, 1), (41, 1), (43, 2), (47, 2),
      (51, 3), (59, 3), (67, 4), (83, 4), (99, 5), (131, 7), (259, 8), (515, 9), (1027, 10),
      (2051, 11), (4099, 12), (8195, 13), (16387, 14), (32771, 15), (65539, 16)]
    table[c - 32]?.getD (0, 0)

def literalLengthLast : Nat := 35
def matchLengthLast : Nat := 52
def offsetLast : Nat := 30

/-- How a block gives one of its three tables. -/
inductive TableMode where
  | default
  | single
  | described
  | previous
  deriving DecidableEq

def TableMode.ofBits (n : Nat) : TableMode :=
  match n with
  | 0 => .default
  | 1 => .single
  | 2 => .described
  | _ => .previous

/-- The three tables of the sequences of a block, as far as they are known. -/
structure Tables where
  literalLength : Option Table
  offset : Option Table
  matchLength : Option Table

/-- Reads one table from position `pos` of `b`: the table (if any) and the position after. -/
def readTable? (b : ByteArray) (pos : Nat) (mode : TableMode) (default : Distribution)
    (last : Nat) (previous : Option Table) : Option (Option Table × Nat) :=
  match mode with
  | .default => some (some (Table.ofDistribution default), pos)
  | .single =>
    if b.size ≤ pos then none
    else
      let code := byteAt b pos
      if last < code then none else some (some (Table.single code), pos + 1)
  | .described =>
    match Distribution.read? (b.extract pos b.size) 9 last with
    | none => none
    | some (d, used) => (Table.build? d last).map fun t => (some t, pos + used)
  | .previous => some (previous, pos)

/-- The recent offsets, most recent first. -/
structure Recent where
  first : Nat
  second : Nat
  third : Nat

/-- The offset of an offset value, and the recent offsets after it. -/
def Recent.use (r : Recent) (value literalLength : Nat) : Nat × Recent :=
  if 3 < value then (value - 3, ⟨value - 3, r.first, r.second⟩)
  else
    let k := value - 1 + (if literalLength = 0 then 1 else 0)
    if k = 0 then (r.first, r)
    else if k = 1 then (r.second, ⟨r.second, r.first, r.third⟩)
    else if k = 2 then (r.third, ⟨r.third, r.first, r.second⟩)
    else
      let o := if r.first - 1 = 0 then 1 else r.first - 1
      (o, ⟨o, r.first, r.second⟩)

/-- What the sequences of a block work on: the frame's output so far, the block's share of
it, the literals still to copy and the recent offsets. -/
structure Work where
  output : ByteArray
  blockStart : Nat
  literals : List UInt8
  recent : Recent

/-- Appends `n` bytes, each copied from `offset` bytes before the end. -/
def copyMatch (out : ByteArray) (offset : Nat) : Nat → ByteArray
  | 0 => out
  | n + 1 => copyMatch (out.push (out[out.size - offset]?.getD 0)) offset n

def Work.apply (w : Work) (window litLen matchLen offsetValue : Nat) : Option Work :=
  let (offset, recent) := w.recent.use offsetValue litLen
  let blockMax := min 131072 window
  if w.literals.length < litLen then none
  else if blockMax < w.output.size - w.blockStart + litLen + matchLen then none
  else if 131074 < matchLen then none
  else
    let out := w.output ++ ⟨(w.literals.take litLen).toArray⟩
    if out.size < offset ∨ window < offset then none
    else some ⟨copyMatch out offset matchLen, w.blockStart, w.literals.drop litLen, recent⟩

structure States where
  literalLength : Nat
  offset : Nat
  matchLength : Nat

def runSequences (ll of ml : Table) (window : Nat) :
    Nat → States → BackStream → Work → Option (Work × BackStream)
  | 0, _, s, w => some (w, s)
  | n + 1, st, s, w =>
    if s.left < 0 then none
    else
      let llCell := ll.cell st.literalLength
      let ofCell := of.cell st.offset
      let mlCell := ml.cell st.matchLength
      let (ofExtra, s) := s.read ofCell.symbol
      let (mlBase, mlBits) := matchLengthCode mlCell.symbol
      let (mlExtra, s) := s.read mlBits
      let (llBase, llBits) := literalLengthCode llCell.symbol
      let (llExtra, s) := s.read llBits
      match w.apply window (llBase + llExtra) (mlBase + mlExtra) (2 ^ ofCell.symbol + ofExtra) with
      | none => none
      | some w =>
        if n = 0 then some (w, s)
        else
          let (llState, s) := ll.step st.literalLength s
          let (mlState, s) := ml.step st.matchLength s
          let (ofState, s) := of.step st.offset s
          runSequences ll of ml window n ⟨llState, ofState, mlState⟩ s w

/-- The sequence count at `pos` and the position after it. -/
def sequenceCount? (b : ByteArray) (pos : Nat) : Option (Nat × Nat) :=
  if b.size ≤ pos then none
  else
    let h := byteAt b pos
    if h < 128 then some (h, pos + 1)
    else if h < 255 then
      if b.size < pos + 2 then none else some ((h - 128) * 256 + byteAt b (pos + 1), pos + 2)
    else if b.size < pos + 3 then none
    else some (32512 + byteAt b (pos + 1) + 256 * byteAt b (pos + 2), pos + 3)

end AnnotationStore.Zstd
