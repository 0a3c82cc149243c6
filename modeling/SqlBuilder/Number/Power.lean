/-!
# Powers of two and of ten
-/

namespace SqlBuilder

/-- The power of two with a natural exponent. -/
def twoTo (k : Nat) : Nat :=
  Nat.pow 2 k

/-- The power of ten with a natural exponent. -/
def tenTo (k : Nat) : Nat :=
  Nat.pow 10 k

end SqlBuilder
