/-
**Private addresses.**

`IsPrivateIP` of `internal/server/server.go`: RFC 1918, loopback and link-local networks.
-/

import Ttgo.Lib.GoNet

namespace Ttgo.Server

open Ttgo.Lib

def privateCIDRs : List String :=
  ["10.0.0.0/8", "172.16.0.0/12", "192.168.0.0/16", "127.0.0.0/8", "::1/128", "fc00::/7", "fe80::/10",
    "169.254.0.0/16"]

def privateBlocks : List IPNet := privateCIDRs.filterMap fun cidr => parseCIDR cidr.toList

def isPrivateIP (ip : IP) : Bool := privateBlocks.any fun block => block.contains ip

/-- Every text of the table is a network. -/
example : privateBlocks.length = privateCIDRs.length := by decide

end Ttgo.Server
