/-!
# `PoolKeeper/Word.lean` — how large numbers of so many bits are

Some data is read into numbers of a fixed number of bits, and what does not fit is refused.
-/

set_option autoImplicit false

namespace PoolKeeper.Word

/-- How many numbers there are of so many bits; they are the ones below it. -/
def size (bits : Nat) : Nat := Nat.pow 2 bits

def holds (bits n : Nat) : Bool := n < size bits

/-- Whether the number is one of so many bits, of which one is for the sign. -/
def holdsSigned (bits : Nat) (n : Int) : Bool :=
  decide (-(size (bits - 1) : Int) ≤ n) && decide (n < (size (bits - 1) : Int))

end PoolKeeper.Word
