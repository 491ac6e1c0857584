import AnnotationStore.Zstd.Fse
/-!
# Huffman-coded literals

A Huffman tree is sent as weights, one per symbol from zero: either packed two to a byte,
or coded with a finite state entropy table whose two states take turns. The last symbol's
weight is not sent: it is the one that brings the sum of `2 ^ (w - 1)` to a power of two.
A symbol of weight `w` has a code of `log + 1 - w` bits, where `2 ^ log` is that sum; codes
are given to weights in increasing order and, within a weight, to symbols in increasing
order. Weights are at most 11 and at least two symbols, an even number, have weight one.

A stream is read backwards, each symbol found from the next `log` bits; it must end exactly
with the bits it holds.
-/

namespace AnnotationStore.Zstd

/-- A Huffman decoding table: `2 ^ log` cells of a symbol and its code length. -/
structure Huffman where
  log : Nat
  cells : Array (UInt8 × Nat)

/-- Weights coded with two alternating states of `t`, read from the stream `s`. Decoding
stops when a state would need bits the stream no longer has; its symbol and the other
state's follow. -/
def alternate (t : Table) : Nat → Nat → Nat → BackStream → List Nat → Option (List Nat)
  | 0, _, _, _, _ => none
  | fuel + 1, s1, s2, s, out =>
    let c1 := t.cell s1
    if s.left ≤ 0 ∧ 0 < c1.bits then some (out ++ [c1.symbol, (t.cell s2).symbol])
    else
      let (s1, s) := t.step s1 s
      let out := out ++ [c1.symbol]
      let c2 := t.cell s2
      if s.left ≤ 0 ∧ 0 < c2.bits then some (out ++ [c2.symbol, (t.cell s1).symbol])
      else
        let (s2, s) := t.step s2 s
        let out := out ++ [c2.symbol]
        if 255 ≤ out.length then none else alternate t fuel s1 s2 s out

/-- Whether decoding the coded weights took more bits than the stream held. -/
def overrun (t : Table) : Nat → Nat → Nat → BackStream → Bool
  | 0, _, _, _ => true
  | fuel + 1, s1, s2, s =>
    let c1 := t.cell s1
    if s.left ≤ 0 ∧ 0 < c1.bits then s.left < 0
    else
      let (s1, s) := t.step s1 s
      let c2 := t.cell s2
      if s.left ≤ 0 ∧ 0 < c2.bits then s.left < 0
      else
        let (s2, s) := t.step s2 s
        overrun t fuel s1 s2 s

/-- The sent weights at `pos` in `b`, and the bytes their description took. -/
def sentWeights? (b : ByteArray) (pos : Nat) : Option (List Nat × Nat) :=
  if b.size ≤ pos + 1 then none
  else
    let h := (b[pos]?.getD 0).toNat
    if 128 ≤ h then
      let n := h - 127
      let bytes := (n + 1) / 2
      if b.size < pos + 1 + bytes then none
      else
        let nibbles := (List.range bytes).flatMap fun i =>
          let v := (b[pos + 1 + i]?.getD 0).toNat
          [v / 16, v % 16]
        some (nibbles.take n, 1 + bytes)
    else if b.size < pos + 1 + h then none
    else
      let body := b.extract (pos + 1) (pos + 1 + h)
      match Distribution.read? body 15 255 with
      | none => none
      | some (d, used) =>
        match Table.build? d 255, BackStream.init? (body.extract used body.size) with
        | some t, some s =>
          let (s1, s) := t.start s
          let (s2, s) := t.start s
          match alternate t 256 s1 s2 s [] with
          | some ws =>
            if 255 < ws.length ∨ overrun t 256 s1 s2 s then none else some (ws, 1 + h)
          | none => none
        | _, _ => none

/-- The table of a list of sent weights, with the last weight implied. -/
def Huffman.ofWeights? (ws : List Nat) : Option Huffman :=
  if ws.any (11 < ·) then none
  else
    let total := (ws.map fun w => 2 ^ w / 2).foldr (· + ·) 0
    if total = 0 then none
    else
      let log := highBit total + 1
      if 11 < log then none
      else
        let rest := 2 ^ log - total
        if 2 ^ highBit rest ≠ rest then none
        else
          let ws := ws ++ [highBit rest + 1]
          let ones := (ws.filter (· = 1)).length
          if ones < 2 ∨ ones % 2 = 1 then none
          else
            let cells := (List.range 12).flatMap fun w =>
              if w = 0 then []
              else ws.zipIdx.flatMap fun (v, s) =>
                if v = w then List.replicate (2 ^ w / 2) (s.toUInt8, log + 1 - w) else []
            some ⟨log, cells.toArray⟩

/-- Reads the Huffman table at `pos` in `b`: the table and the bytes its description took. -/
def Huffman.read? (b : ByteArray) (pos : Nat) : Option (Huffman × Nat) :=
  match sentWeights? b pos with
  | none => none
  | some (ws, used) => (Huffman.ofWeights? ws).map (·, used)

/-- Decodes symbols until the stream has no bits left, at most `fuel` of them. -/
def Huffman.run (h : Huffman) : Nat → BackStream → List UInt8 → Option (List UInt8 × BackStream)
  | 0, s, out => if s.left ≤ 0 then some (out, s) else none
  | fuel + 1, s, out =>
    if s.left ≤ 0 then some (out, s)
    else
      let (sym, len) := h.cells[s.peek h.log]?.getD (0, 1)
      Huffman.run h fuel { s with left := s.left - len } (out ++ [sym])

/-- One stream that must decode to exactly `count` symbols. -/
def Huffman.stream? (h : Huffman) (bytes : ByteArray) (count : Nat) : Option (List UInt8) :=
  match BackStream.init? bytes with
  | none => none
  | some s =>
    match h.run (count + 1) s [] with
    | some (out, s) => if s.done ∧ out.length = count then some out else none
    | none => none

/-- Four streams behind a table of their first three sizes, decoding to `count` symbols:
a quarter, rounded up, from each of the first three and the rest from the last. -/
def Huffman.fourStreams? (h : Huffman) (bytes : ByteArray) (count : Nat) : Option (List UInt8) :=
  if bytes.size < 10 then none
  else
    let size (i : Nat) := (bytes[2 * i]?.getD 0).toNat + 256 * (bytes[2 * i + 1]?.getD 0).toNat
    let e1 := 6 + size 0
    let e2 := e1 + size 1
    let e3 := e2 + size 2
    let quarter := (count + 3) / 4
    if bytes.size ≤ e1 ∨ bytes.size ≤ e2 ∨ bytes.size ≤ e3 ∨ count < 3 * quarter then none
    else
      match h.stream? (bytes.extract 6 e1) quarter, h.stream? (bytes.extract e1 e2) quarter,
          h.stream? (bytes.extract e2 e3) quarter,
          h.stream? (bytes.extract e3 bytes.size) (count - 3 * quarter) with
      | some a, some b, some c, some d => some (a ++ b ++ c ++ d)
      | _, _, _, _ => none

end AnnotationStore.Zstd
