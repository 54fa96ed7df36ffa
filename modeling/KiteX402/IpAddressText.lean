/-
IPv4 addresses as the standard library writes them, read back by its parser.
-/
import KiteX402.IpAddress
import KiteX402.Numeral
import Mathlib.Data.Nat.Bitwise

namespace KiteX402

namespace IpAddr

/-- The octets of an IPv4 address, the highest first. -/
def octets (bits : BitVec 32) : List ℕ :=
  [bits.toNat / 2 ^ 24, bits.toNat / 2 ^ 16 % 256, bits.toNat / 2 ^ 8 % 256, bits.toNat % 256]

section Octets

end Octets

section Mapped

variable {c : Char}

end Mapped

end IpAddr

end KiteX402
