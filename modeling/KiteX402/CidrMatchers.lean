/-
The two matchers of address prefixes: what they have in common, and how the
entries of a list of trusted proxies are read.
-/
import KiteX402.ClientIp
import KiteX402.Firewall
import KiteX402.IpAddressText

namespace KiteX402

section Text

end Text

section Parse

end Parse

section Contains

variable (proxies : TrustedProxies) (ip : IpAddr)

end Contains

end KiteX402
