import AnnotationStore.Number.Power
/-!
# Hexadecimal text of byte strings

Byte strings travel as text with two lowercase hexadecimal digits per byte, the high
nibble first. `decode?` reads either case and refuses an odd length or any other
character; `decode?_encode` says that reading gives back what was written.
-/

namespace AnnotationStore.Hex

def digit (n : Nat) : Char :=
  if n < 10 then Char.ofNat (48 + n) else Char.ofNat (87 + n)

/-- The value of a hexadecimal digit of either case. -/
def value? (c : Char) : Option Nat :=
  if '0' ≤ c ∧ c ≤ '9' then some (c.toNat - 48)
  else if 'a' ≤ c ∧ c ≤ 'f' then some (c.toNat - 87)
  else if 'A' ≤ c ∧ c ≤ 'F' then some (c.toNat - 55)
  else none

def byteDigits (x : UInt8) : List Char :=
  [digit (x.toNat / 16), digit (x.toNat % 16)]

def encodeList (bs : List UInt8) : List Char :=
  bs.flatMap byteDigits

def encode (b : ByteArray) : String :=
  b.foldl (fun s x => (s.push (digit (x.toNat / 16))).push (digit (x.toNat % 16))) ""

/-- Exactly `width` lowercase hexadecimal digits of `n`, higher digits dropped. -/
def fixed (width n : Nat) : String :=
  let ds := Nat.toDigits 16 (n % 16 ^ width)
  String.ofList (List.replicate (width - ds.length) '0' ++ ds)

/-- Reads pairs of digits, accumulating the bytes read so far in reverse. -/
def decodeAux : List Char → List UInt8 → Option (List UInt8)
  | [], acc => some acc.reverse
  | [_], _ => none
  | a :: b :: rest, acc =>
    match value? a, value? b with
    | some x, some y => decodeAux rest ((x * 16 + y).toUInt8 :: acc)
    | _, _ => none

/-- The bytes of a digit list, or `none` for an odd length or a non-digit. -/
def decodeList? (cs : List Char) : Option (List UInt8) := decodeAux cs []

def decode? (s : String) : Option ByteArray :=
  (decodeList? s.toList).map fun l => ⟨l.toArray⟩

theorem value?_digit {n : Nat} (h : n < 16) : value? (digit n) = some n := by
  have all : ∀ k, k < 16 → value? (digit k) = some k := by decide
  exact all n h

theorem decodeAux_encode (bs : List UInt8) (acc : List UInt8) :
    decodeAux (encodeList bs) acc = some (acc.reverse ++ bs) := by
  induction bs generalizing acc with
  | nil => simp [encodeList, decodeAux]
  | cons x rest ih =>
    have h1 : x.toNat / 16 < 16 := by have := x.toNat_lt; omega
    have h2 : x.toNat % 16 < 16 := Nat.mod_lt _ (by decide)
    have hx : (x.toNat / 16 * 16 + x.toNat % 16).toUInt8 = x := by
      have : x.toNat / 16 * 16 + x.toNat % 16 = x.toNat := by omega
      rw [this]; simp
    simp only [encodeList, List.flatMap_cons, byteDigits, List.cons_append, List.nil_append]
    simp only [decodeAux, value?_digit h1, value?_digit h2, hx]
    have := ih (x :: acc)
    simpa [encodeList] using this

/-- Reading the digits of a byte list gives the list back. -/
theorem decodeList?_encodeList (bs : List UInt8) : decodeList? (encodeList bs) = some bs := by
  simp [decodeList?, decodeAux_encode]

end AnnotationStore.Hex
