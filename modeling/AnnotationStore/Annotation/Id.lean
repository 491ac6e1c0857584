import AnnotationStore.Number.Power
/-!
# Minted ids

An annotation that arrives without an id gets one minted here: 40 lowercase hexadecimal
digits. The `n`-th id is `n` times a fixed odd multiplier modulo `2 ^ 160`, so distinct
counters give distinct ids (multiplication by an odd number is a bijection modulo a power
of two).
-/

namespace AnnotationStore.MintedId

/-- The odd multiplier that spreads counters over the id space. -/
def multiplier : Nat := 0x9E3779B97F4A7C15F39CC0605CEDC8341082276B

/-- Exactly `width` lowercase hexadecimal digits of `n` (higher digits dropped). -/
def hexDigits (width n : Nat) : String :=
  let ds := Nat.toDigits 16 (n % 16 ^ width)
  String.ofList (List.replicate (width - ds.length) '0' ++ ds)

def ofCounter (n : Nat) : String := hexDigits 40 ((n + 1) * multiplier)

end AnnotationStore.MintedId
