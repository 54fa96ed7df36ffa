/-
Bit vectors that agree on their top bits, compared by a shift or under a mask.
-/
import Mathlib.Data.Nat.Bitwise
import Mathlib.Data.BitVec

namespace KiteX402

variable {w : ℕ}

end KiteX402
