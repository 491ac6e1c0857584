/-!
# Natural powers

The program raises naturals and integers to natural powers with core's `Nat.pow` and
`Int.pow`. Mathlib gives these types a second power, through their monoid structure, and makes
it the default for a literal exponent. The two agree by `rfl` but are different terms, so a
definition would mean one term or the other depending on whether Mathlib is in scope. Ranking
core's instance first, also as the default, keeps `a ^ n` one term throughout the library.
-/

attribute [instance (high), default_instance high] instPowNat
