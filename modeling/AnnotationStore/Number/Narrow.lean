import AnnotationStore.Number.Power
/-!
# Narrowing integers to 32 bits

Counts and sizes written into 32-bit fields must fit: a negative value or one above
`2 ^ 32 - 1` is an overflow, reported with the value and which bound it broke.
-/

namespace AnnotationStore

/-- An integer that does not fit an unsigned 32-bit field. -/
inductive Overflow where
  | negative (v : Int)
  | tooLarge (v : Int)
  deriving DecidableEq, Repr

def Overflow.message : Overflow → String
  | .negative v => "integer overflow: " ++ toString v ++ " cannot be converted to uint32 (negative)"
  | .tooLarge v => "integer overflow: " ++ toString v ++ " cannot be converted to uint32 (too large)"

def toUInt32? (v : Int) : Except Overflow UInt32 :=
  if v < 0 then .error (.negative v)
  else if v > 4294967295 then .error (.tooLarge v)
  else .ok v.toNat.toUInt32

theorem toUInt32?_ok {v : Int} (h0 : 0 ≤ v) (h1 : v < 2 ^ 32) :
    toUInt32? v = .ok v.toNat.toUInt32 := by
  unfold toUInt32?
  rw [if_neg (by omega), if_neg (by omega)]

end AnnotationStore
