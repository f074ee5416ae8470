/-
# Pod attribution

A flow is attributed to the local pod whose address lies in one of the node's pod CIDRs.  The
low endpoint is tried first.
-/
import L4Scope.Types

/-- `cidr_contains` for addresses of `w` bits. -/
def maskedEq (w : ℕ) (pfx : UInt32) (net ip : List UInt8) : Bool :=
  if w < pfx.toNat then false
  else
    let mask : BitVec w := if pfx = 0 then 0 else BitVec.allOnes w <<< (w - pfx.toNat)
    BitVec.ofNat w (beNat net) &&& mask == BitVec.ofNat w (beNat ip) &&& mask

/-- The address lies in the network. -/
def cidrContains (net : IpAddr) (pfx : UInt32) (ip : IpAddr) : Bool :=
  match net, ip with
  | .v4 n, .v4 a => maskedEq 32 pfx n.1 a.1
  | .v6 n, .v6 a => maskedEq 128 pfx n.1 a.1
  | _, _ => false

/-- The CIDR set of the node's pods. -/
structure PodMatcher where
  cidrs : List (IpAddr × UInt32)

namespace PodMatcher

/-- The address lies in one of the networks. -/
def contains (m : PodMatcher) (ip : IpAddr) : Bool :=
  m.cidrs.any fun c => cidrContains c.1 c.2 ip

/-- The flow endpoint address that lies within a pod CIDR, as text. -/
def localPodIp (m : PodMatcher) (key : FlowKey) : Option String :=
  if m.contains key.low.ip then some (toString key.low.ip)
  else if m.contains key.high.ip then some (toString key.high.ip)
  else none

/-- A flow is attributed exactly if one of its endpoints is in a pod CIDR. -/
theorem isSome_localPodIp (m : PodMatcher) (key : FlowKey) :
    (m.localPodIp key).isSome = (m.contains key.low.ip || m.contains key.high.ip) := by
  rw [localPodIp]
  cases m.contains key.low.ip <;> cases m.contains key.high.ip <;> rfl

end PodMatcher
