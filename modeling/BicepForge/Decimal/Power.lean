/-!
# Powers

The powers of two, which are the units of binary numbers, and the powers of ten, which are those of
decimals.
-/

namespace BicepForge

/-- A power of two. -/
abbrev twoTo (n : Nat) : Nat :=
  Nat.pow 2 n

/-- A power of ten. -/
abbrev tenTo (n : Nat) : Nat :=
  Nat.pow 10 n

end BicepForge
