/-
Rules of the IP firewall.
-/
import KiteX402.RateLimit
import KiteX402.TopBits

namespace KiteX402

/-- `subnet` is `SubnetV4`, whose prefix has eight bits. -/
inductive FirewallRule where
  | exact (ip : IpAddr)
  | subnet (network : BitVec 32) (prefixLen : ℕ)

namespace FirewallRule

/-- `FirewallRule::subnet_v4`. -/
def subnetV4 (network : BitVec 32) (prefixLen : ℕ) : FirewallRule :=
  .subnet network (min prefixLen 32)

/-- `FirewallRule::matches`; `none` is an overflow of `32 - prefix`. -/
def matchesIp : FirewallRule → IpAddr → Option Bool
  | .exact ruleIp, ip => some (ruleIp = ip)
  | .subnet network prefixLen, .v4 client =>
      if prefixLen = 0 then some true
      else if prefixLen ≤ 32 then
        let mask := ~~~((1#32 <<< (32 - prefixLen)) - 1#32)
        some (network &&& mask = client &&& mask)
      else none
  | .subnet _ _, .v6 _ => some false

end FirewallRule

end KiteX402
